import SchemaScript.Proofs.Effect.Supply

/-!
# Names inside stored texts

A catalog keeps some names only as parts of longer texts: the columns of a partition key, the function of a
trigger, the parameters of a routine, the types of columns. Each such text is the one that a statement of the
script gives it, with the names as they are.
-/

namespace SchemaScript

open Sql

theorem Content.commented_commented (a b : Option String) (x : Content) :
    (x.commented a).commented b = x.commented b := by
  cases x <;> rfl

namespace Effect

variable {default : String} {all : List Statement} {attached : List PartitionAttachment} {s : Statement}
  {schema name key : String} {kind : ObjectKind} {tag : Tag} {x : Content} {t t' : Table}

/-! ## Objects that get comments only -/

/-- But for its comment, an object other than a table is as one statement creates it. -/
theorem exists_creates_of_comes (h : Comes default all attached tag x) (hx : x.kind? ≠ some .table) :
    ∃ s ∈ all, ∃ y, Creates default s tag y ∧ (x = y ∨ ∃ text, x = y.commented text) := by
  induction h with
  | created said creates => exact ⟨_, said, _, creates, .inl rfl⟩
  | altered said before alters ih =>
    cases alters with
    | unchanged => exact ih hx
    | comment =>
      obtain ⟨s, hs, y, hy, hcomment⟩ := ih (by simpa using hx)
      refine ⟨s, hs, y, hy, .inr ?_⟩
      obtain rfl | ⟨text, rfl⟩ := hcomment
      · exact ⟨_, rfl⟩
      · exact ⟨_, Content.commented_commented _ _ y⟩
    | index | trigger | policy | altered | partComment | indexComment => exact absurd rfl hx
  | filled => exact absurd rfl hx

/-- What a statement puts into a schema is what it creates. -/
theorem eq_of_creates {holder : String} {y : Content} (h : Creates default s (.object schema kind name) x)
    (hs : ∀ c c', effect default c s = .ok c' → c' = c.updateSchema holder fun held => held.put key y) :
    schema = holder ∧ name = key ∧ x = y := by
  obtain ⟨c, hc, hx⟩ := h
  obtain rfl := hs start c hc
  exact of_at?_put hx

theorem isRoutine_of_comes (h : Comes default all attached (.object schema kind name) x)
    (hkind : kind = .function ∨ kind = .procedure) (hx : x.kind? = some kind) :
    ∃ definition, .createRoutine definition ∈ all ∧ splitPath default definition.path = (schema, name) ∧
      IsRoutine definition x := by
  obtain ⟨s, hs, y, hy, hcomment⟩ := exists_creates_of_comes h (by rcases hkind with rfl | rfl <;> simp [hx])
  have hdefined := mem_definitions_of_creates (by simp) hy
  cases s with
  | createRoutine definition =>
    obtain ⟨z, -, hz, hresult⟩ := result_createRoutine default definition
    obtain ⟨hschema, hname, rfl⟩ :=
      eq_of_creates hy fun c c' hc => Except.ok.inj (hc.symm.trans (hresult c))
    refine ⟨definition, hs, Prod.ext hschema.symm hname.symm, ?_⟩
    obtain rfl | ⟨text, rfl⟩ := hcomment
    · exact hz
    · cases hz with
      | function signature returnType => exact .function signature returnType
      | procedure signature => exact .procedure signature
  | createSchema holder owner => cases holder <;> simp [definitions] at hdefined
  | _ => rcases hkind with rfl | rfl <;> simp [definitions] at hdefined

/-- The entry names the function, and its schema if it is given. -/
def NamesSupport (definition : AggregateDefinition) (word : String) (schema function : Field String) : Prop :=
  ∃ entry ∈ definition.entries, Text.lower entry.1 = word ∧
    schema = ((supportFunction entry.2).1 : Field String) ∧ function = ((supportFunction entry.2).2 : Field String)

/-- The support functions of an aggregate are those that its definition names. -/
structure IsAggregate (definition : AggregateDefinition) (a : Aggregate) : Prop where
  transition : a.transition.isGiven → NamesSupport definition "sfunc" a.transitionSchema a.transition
  final : a.final.isGiven → NamesSupport definition "finalfunc" a.finalSchema a.final

theorem isAggregate_entries (definition : AggregateDefinition) {entries : List (String × DefinitionValue)}
    (hentries : ∀ entry ∈ entries, entry ∈ definition.entries) (hasArguments : Bool) {a : Aggregate}
    (h : IsAggregate definition a) : IsAggregate definition (entries.foldl (aggregateEntry hasArguments) a) := by
  induction entries generalizing a with
  | nil => exact h
  | cons entry entries ih =>
    obtain ⟨hentry, hentries⟩ := List.forall_mem_cons.mp hentries
    refine ih hentries ?_
    unfold aggregateEntry
    dsimp only
    split
    · next hword => exact { h with transition := fun _ => ⟨entry, hentry, hword, rfl, rfl⟩ }
    · exact { h with }
    · exact { h with }
    · next hword => exact { h with final := fun _ => ⟨entry, hentry, hword, rfl, rfl⟩ }
    · split
      · exact h
      · exact { h with }
    · exact h

theorem isAggregate_of_comes {a : Aggregate} (h : Comes default all attached (.object schema .aggregate name) (.aggregate a)) :
    ∃ definition, .createAggregate definition ∈ all ∧ splitPath default definition.path = (schema, name) ∧
      IsAggregate definition a := by
  obtain ⟨s, hs, y, hy, hcomment⟩ := exists_creates_of_comes h (by simp [Content.kind?])
  have hdefined := mem_definitions_of_creates (by simp) hy
  cases s with
  | createAggregate definition =>
    obtain ⟨hschema, hname, rfl⟩ := eq_of_creates (y := .aggregate _) hy fun c c' hc => (Except.ok.inj hc).symm
    refine ⟨definition, hs, Prod.ext hschema.symm hname.symm, ?_⟩
    have hmade := isAggregate_entries definition (fun _ hentry => hentry)
      (!definition.arguments.isEmpty) (a := {
        schema := (splitPath default definition.path).1
        name := (splitPath default definition.path).2
        arguments := commaList (definition.arguments.map (·.text)) })
      ⟨fun hgiven => absurd hgiven Bool.false_ne_true, fun hgiven => absurd hgiven Bool.false_ne_true⟩
    obtain ⟨⟨⟩⟩ | ⟨text, ⟨⟩⟩ := hcomment
    · exact hmade
    · exact { hmade with }
  | createRoutine definition =>
    cases hprocedure : definition.isProcedure <;> simp [definitions, hprocedure] at hdefined
  | createSchema holder owner => cases holder <;> simp [definitions] at hdefined
  | _ => simp [definitions] at hdefined

/-- The types that a statement gives to a composite type's members, or to a domain. -/
inductive IsTyped (default : String) (all : List Statement) (schema name : String) (t : UserType) : Prop
  | enum (h : t.kind = .enum)
  | composite {relation : RelationName} {members : List (String × WrittenType)} (kind : t.kind = .composite)
      (said : .createComposite relation members ∈ all) (hschema : schemaOf default relation = schema)
      (hname : relation.name = name) (typed : ∀ m ∈ t.members, ∃ entry ∈ members,
        m.name = (entry.1 : Field String) ∧ m.dataType = (entry.2.text : Field String))
  | domain {path : List String} {base : WrittenType} {rules : List DomainRule} (kind : t.kind = .domain)
      (said : .createDomain path base rules ∈ all) (hpath : splitPath default path = (schema, name))
      (typed : t.base = (base.text : Field String))

theorem base_domainRules (rules : List DomainRule) (t : UserType) :
    (rules.foldl domainRule t).kind = t.kind ∧ (rules.foldl domainRule t).base = t.base := by
  induction rules generalizing t with
  | nil => exact ⟨rfl, rfl⟩
  | cons rule rules ih =>
    rw [List.foldl_cons, (ih _).1, (ih _).2]
    cases rule <;> exact ⟨rfl, rfl⟩

theorem isTyped_of_comes {t : UserType} (h : Comes default all attached (.object schema .type name) (.type t)) :
    IsTyped default all schema name t := by
  obtain ⟨s, hs, y, hy, hcomment⟩ := exists_creates_of_comes h (by simp [Content.kind?])
  have hdefined := mem_definitions_of_creates (by simp) hy
  cases s with
  | createEnum path labels =>
    obtain ⟨-, -, rfl⟩ := eq_of_creates (y := .type _) hy fun c c' hc => (Except.ok.inj hc).symm
    obtain ⟨⟨⟩⟩ | ⟨text, ⟨⟩⟩ := hcomment <;> exact .enum rfl
  | createComposite relation members =>
    obtain ⟨hschema, hname, rfl⟩ := eq_of_creates (y := .type _) hy fun c c' hc => (Except.ok.inj hc).symm
    have htyped {made : List Member} (hmade : made = members.mapIdx fun i entry =>
        { name := entry.1, dataType := entry.2.text, position := Int.ofNat (i + 1) : Member }) :
        ∀ m ∈ made, ∃ entry ∈ members,
          m.name = (entry.1 : Field String) ∧ m.dataType = (entry.2.text : Field String) := by
      rw [hmade]
      intro m hm
      obtain ⟨i, hi, rfl⟩ := List.mem_mapIdx.mp hm
      exact ⟨members[i], List.getElem_mem hi, rfl, rfl⟩
    obtain ⟨⟨⟩⟩ | ⟨text, ⟨⟩⟩ := hcomment <;> exact .composite rfl hs hschema.symm hname.symm (htyped rfl)
  | createDomain path base rules =>
    obtain ⟨hschema, hname, rfl⟩ := eq_of_creates (y := .type _) hy fun c c' hc => (Except.ok.inj hc).symm
    obtain ⟨⟨⟩⟩ | ⟨text, ⟨⟩⟩ := hcomment <;>
      exact .domain (base_domainRules rules _).1 hs (Prod.ext hschema.symm hname.symm) (base_domainRules rules _).2
  | createRoutine definition =>
    cases hprocedure : definition.isProcedure <;> simp [definitions, hprocedure] at hdefined
  | createSchema holder owner => cases holder <;> simp [definitions] at hdefined
  | _ => simp [definitions] at hdefined

/-! ## What columns and constraints leave as it is -/

/-- A part of a table that has nothing to do with its columns and its constraints. -/
structure IsApart {α : Type} (part : Table → α) : Prop where
  columns : ∀ (t : Table) columns, part { t with columns } = part t
  constraints : ∀ (t : Table) constraints, part { t with constraints } = part t

namespace IsApart

variable {α : Type} {part : Table → α}

theorem addConstraint_eq (hpart : IsApart part) {clause : ConstraintClause}
    (h : (addConstraint default t clause).result = .ok t') : part t' = part t := by
  unfold addConstraint at h
  split at h
  · obtain rfl := Except.ok.inj h
    rfl
  · obtain rfl := Except.ok.inj h
    split
    · rw [withoutNulls_eq]
      exact (hpart.columns _ _).trans (hpart.constraints t _)
    · exact hpart.constraints t _

theorem applyRule_eq (hpart : IsApart part) {rule : ColumnRule} (h : (applyRule default t rule).result = .ok t') :
    part t' = part t := by
  cases rule with
  | notNull | null | default value =>
    obtain rfl := Except.ok.inj h
    exact hpart.columns t _
  | identity always options =>
    obtain ⟨identity, -, h⟩ := Logged.result_bind_eq_ok.mp h
    obtain rfl := Except.ok.inj h
    exact hpart.columns t _
  | constraint clause => exact hpart.addConstraint_eq h

theorem addElement_eq (hpart : IsApart part) {d d' : Draft} {element : TableElement}
    (h : (addElement default d element).result = .ok d') : part d'.table = part d.table := by
  cases element with
  | column definition =>
    obtain ⟨next, hnext, h⟩ := Logged.result_bind_eq_ok.mp h
    obtain ⟨t, ht, h⟩ := Logged.result_bind_eq_ok.mp h
    obtain rfl := Except.ok.inj h
    have hnext : part next.table = part d.table := by
      change addColumn default d definition = .ok next at hnext
      unfold addColumn at hnext
      dsimp only at hnext
      split at hnext
      · obtain rfl := Except.ok.inj hnext
        exact hpart.columns d.table _
      · obtain ⟨column, -, hnext⟩ := exists_of_bind_eq_ok hnext
        obtain rfl := Except.ok.inj hnext
        exact hpart.columns d.table _
    exact Logged.keeps_foldlM (Q := fun t => part t = part d.table)
      (fun _ _ _ _ hsofar hstep => (hpart.applyRule_eq hstep).trans hsofar) hnext ht
  | constraint clause =>
    obtain ⟨t, ht, h⟩ := Logged.result_bind_eq_ok.mp h
    obtain rfl := Except.ok.inj h
    exact hpart.addConstraint_eq ht
  | other label =>
    obtain rfl := Except.ok.inj h
    rfl

theorem addElements_eq (hpart : IsApart part) {d d' : Draft} {elements : List TableElement}
    (h : (elements.foldlM (addElement default) d).result = .ok d') : part d'.table = part d.table :=
  Logged.keeps_foldlM (Q := fun d' : Draft => part d'.table = part d.table)
    (fun _ _ _ _ hsofar hstep => (hpart.addElement_eq hstep).trans hsofar) rfl h

theorem applyCommands_eq (hpart : IsApart part) (hrowSecurity : ∀ (t : Table) rowSecurity,
    part { t with rowSecurity } = part t) {commands : List AlterCommand} {change : Change}
    (h : (commands.foldlM (applyCommand default) { table := t }).result = .ok change) :
    part change.table = part t := by
  refine Logged.keeps_foldlM (Q := fun c : Change => part c.table = part t)
    (fun command _ c c' hsofar hstep => ?_) rfl h
  cases command with
  | addConstraint clause =>
    obtain ⟨next, hnext, hstep⟩ := Logged.result_bind_eq_ok.mp hstep
    obtain rfl := Except.ok.inj hstep
    exact (hpart.addConstraint_eq hnext).trans hsofar
  | rowSecurity enabled =>
    obtain rfl := Except.ok.inj hstep
    exact (hrowSecurity c.table _).trans hsofar
  | attachPartition child bound | other label =>
    obtain rfl := Except.ok.inj hstep
    exact hsofar

end IsApart

/-! ## Partition keys, triggers and policies -/

/-- What columns, constraints and changes leave as it is. -/
def attachedPart (t : Table) : Entries Trigger × Entries Policy × Field Bool × Field String × Field String :=
  (t.triggers, t.policies, t.isPartitioned, t.partitionStrategy, t.partitionKey)

theorem isApart_attachedPart : IsApart attachedPart :=
  ⟨fun _ _ => rfl, fun _ _ => rfl⟩

/-- The arguments of the function that a trigger calls. -/
def argumentsOf (definition : TriggerDefinition) : String :=
  if definition.arguments.isEmpty then "" else enclosed (commaList (definition.arguments.map literal))

/-- The function with its arguments, as a trigger's definition calls it. -/
def callOf (definition : TriggerDefinition) : String :=
  ".".intercalate definition.function ++ argumentsOf definition

/-- The trigger is one that a statement of the script defines. -/
def HasCall (all : List Statement) (key : String) (g : Trigger) : Prop :=
  ∃ definition, .createTrigger definition ∈ all ∧ definition.name = key ∧
    g.function = (callOf definition : Field String)

/-- The policy is one that a statement of the script defines. -/
def HasRoles (all : List Statement) (key : String) (p : Policy) : Prop :=
  ∃ definition, .createPolicy definition ∈ all ∧ definition.name = key ∧
    p.roles = (definition.namedRoles : Field (List String))

/-- How the definition says that the rows are spread. -/
def partitioningOf (definition : TableDefinition) : Field Bool × Field String × Field String :=
  match definition.partitioning with
  | none => ((false : Field Bool), .absent, .absent)
  | some p => ((true : Field Bool), (p.strategy.text : Field String), (commaList p.keys : Field String))

/-- The partition key, the triggers and the policies of the table are as the script's statements say. -/
structure IsSaid (default : String) (all : List Statement) (schema name : String) (t : Table) : Prop where
  partitioning : ∃ definition, .createTable definition ∈ all ∧ schemaOf default definition.relation = schema ∧
    definition.relation.name = name ∧
      (t.isPartitioned, t.partitionStrategy, t.partitionKey) = partitioningOf definition
  triggers : t.triggers.Each (HasCall all)
  policies : t.policies.Each (HasRoles all)

theorem IsSaid.of_attachedPart (h : IsSaid default all schema name t) (hsame : attachedPart t' = attachedPart t) :
    IsSaid default all schema name t' := by
  obtain ⟨htriggers, hrest⟩ := Prod.mk.inj hsame
  obtain ⟨hpolicies, hrest⟩ := Prod.mk.inj hrest
  obtain ⟨partitioning, triggers, policies⟩ := h
  rw [← hrest] at partitioning
  exact ⟨partitioning, htriggers ▸ triggers, hpolicies ▸ policies⟩

theorem isSaid_draftOf {definition : TableDefinition} {d : Draft} (said : .createTable definition ∈ all)
    (h : (draftOf default definition).result = .ok d) :
    IsSaid default all (schemaOf default definition.relation) definition.relation.name d.table := by
  obtain ⟨drafted, hdrafted, h⟩ := Logged.result_bind_eq_ok.mp h
  have hfirst := isApart_attachedPart.addElements_eq hdrafted
  obtain ⟨htriggers, hrest⟩ := Prod.mk.inj hfirst
  obtain ⟨hpolicies, hrest⟩ := Prod.mk.inj hrest
  have hparts : d.table.triggers = drafted.table.triggers ∧ d.table.policies = drafted.table.policies := by
    split at h <;> (obtain rfl := Except.ok.inj h; exact ⟨rfl, rfl⟩)
  refine ⟨⟨definition, said, rfl, rfl, ?_⟩, ?_, ?_⟩
  · unfold partitioningOf
    cases hpartitioning : definition.partitioning with
    | none =>
      rw [hpartitioning] at h
      obtain rfl := Except.ok.inj h
      exact hrest
    | some p =>
      rw [hpartitioning] at h
      obtain rfl := Except.ok.inj h
      rfl
  · rw [hparts.1, htriggers]
    exact Entries.each_empty
  · rw [hparts.2, hpolicies]
    exact Entries.each_empty

theorem IsSaid.alters (h : IsSaid default all schema name t) (said : s ∈ all)
    (halters : Alters default s (.table t) (.table t')) : IsSaid default all schema name t' := by
  cases halters with
  | unchanged => exact h
  | index | comment | indexComment => exact h.of_attachedPart rfl
  | @trigger definition => exact { h with triggers := h.triggers.put ⟨definition, said, rfl, rfl⟩ }
  | @policy definition => exact { h with policies := h.policies.put ⟨definition, said, rfl, rfl⟩ }
  | altered hchange =>
    exact h.of_attachedPart (isApart_attachedPart.applyCommands_eq (fun _ _ => rfl) hchange)
  | @partComment kind _ _ _ part text hpart =>
    cases kind with
    | column =>
      obtain ⟨c, -, rfl⟩ := Option.map_eq_some_iff.mp hpart
      exact h.of_attachedPart rfl
    | constraint =>
      obtain ⟨constraints, -, rfl⟩ := Option.map_eq_some_iff.mp hpart
      exact h.of_attachedPart rfl
    | trigger =>
      obtain ⟨triggers, htriggers, rfl⟩ := Option.map_eq_some_iff.mp hpart
      exact { h with triggers := each_changeNamed? h.triggers htriggers fun _ hg => hg }
    | extension | table | view | materializedView | sequence | type | domain | function | procedure
    | aggregate | index => contradiction

theorem isSaid_of_comes (h : Comes default all attached tag x) :
    ∀ schema name t, tag = .object schema .table name → x = .table t → IsSaid default all schema name t := by
  induction h with
  | created said creates =>
    rintro schema name t rfl rfl
    obtain ⟨definition, d, rfl, hd, rfl, rfl, ht⟩ := exists_draft_of_creates creates
    obtain rfl := Content.table.inj ht
    exact isSaid_draftOf said hd
  | @altered _ tag x x' said before alters ih =>
    rintro schema name t rfl rfl
    cases x with
    | table u => exact (ih schema name u rfl rfl).alters said alters
    | _ => nomatch alters
  | @filled schema name parentSchema parentTable t parent child bare place above ihChild ihAbove =>
    rintro _ _ _ ⟨⟩ ⟨⟩
    exact (ihChild schema name t rfl rfl).of_attachedPart rfl

/-! ## Types of columns -/

/-- The type is none of the system's, and is written without modifiers and brackets. -/
def isOwnType (t : WrittenType) : Bool :=
  !t.isArray && t.storedModifiers.isEmpty && !isBuiltinType t.base && (serialBase? t.base).isNone

/-- The name under which a table of the schema keeps such a type. -/
def ownName (schema : String) (type : WrittenType) : Option String :=
  dropSchema (some type.base) (schema : Field String).given

/-- The column is one that the definition declares for a table of the schema. -/
structure IsDeclared (schema : String) (definition : ColumnDefinition) (c : Column) : Prop where
  name : c.name = (definition.name : Field String)
  type : isOwnType definition.type → fixedPart c =
    { name := (definition.name : Field String), position := c.position, dataType := "USER-DEFINED",
      userType := (ownName schema definition.type : Field String) }

theorem IsDeclared.of_fixedPart {definition : ColumnDefinition} {c c' : Column} (h : IsDeclared schema definition c)
    (hsame : fixedPart c' = fixedPart c) : IsDeclared schema definition c' where
  name := (congrArg Column.name hsame).trans h.name
  type hown := by
    have hposition : (fixedPart c').position = (fixedPart c).position := congrArg Column.position hsame
    rw [hsame, h.type hown, show c'.position = c.position from hposition]

/-- All columns of the table are declared for it. -/
def AllDeclared (schema : String) (columns : List ColumnDefinition) (t : Table) : Prop :=
  ∀ c ∈ t.columns, ∃ definition ∈ columns, IsDeclared schema definition c

theorem AllDeclared.of_fixedPart {columns : List ColumnDefinition} (h : AllDeclared schema columns t)
    (hsame : t'.columns.map fixedPart = t.columns.map fixedPart) : AllDeclared schema columns t' := by
  intro c hc
  have hmem : fixedPart c ∈ t.columns.map fixedPart := hsame ▸ List.mem_map_of_mem hc
  obtain ⟨c₀, hc₀, hfixed⟩ := List.mem_map.mp hmem
  obtain ⟨definition, hdefinition, hdeclared⟩ := h c₀ hc₀
  exact ⟨definition, hdefinition, hdeclared.of_fixedPart hfixed.symm⟩

theorem isDeclared_typedColumn {definition : ColumnDefinition} {position : Int} {c : Column}
    (hschema : t.schema = (schema : Field String))
    (h : typedColumn t definition.name position definition.type = .ok c) : IsDeclared schema definition c := by
  have hsupply := gives_typedColumn_supply t definition.name position definition.type
  rw [h] at hsupply
  refine ⟨congrArg Supply.name hsupply, fun hown => ?_⟩
  simp only [isOwnType, Bool.and_eq_true, Bool.not_eq_true', List.isEmpty_iff] at hown
  obtain ⟨⟨⟨harray, hmodifiers⟩, hbuiltin⟩, -⟩ := hown
  simp only [typedColumn, harray, hmodifiers, hbuiltin, Bool.false_eq_true, if_false] at h
  obtain rfl := Except.ok.inj h
  rw [ownName, ← hschema]
  rfl

theorem isDeclared_addColumn {d d' : Draft} {definition : ColumnDefinition}
    (hschema : d.table.schema = (schema : Field String)) (h : addColumn default d definition = .ok d') :
    d'.table.schema = d.table.schema ∧
      ∃ c, d'.table.columns = d.table.columns ++ [c] ∧ IsDeclared schema definition c := by
  unfold addColumn at h
  dsimp only at h
  split at h
  · next base hbase =>
    obtain rfl := Except.ok.inj h
    refine ⟨rfl, _, rfl, rfl, fun hown => ?_⟩
    obtain ⟨-, hbase⟩ := Option.ite_none_left_eq_some.mp hbase
    simp [isOwnType, hbase] at hown
  · obtain ⟨column, hcolumn, h⟩ := exists_of_bind_eq_ok h
    obtain rfl := Except.ok.inj h
    exact ⟨rfl, column, rfl, isDeclared_typedColumn hschema hcolumn⟩

theorem allDeclared_addElement {d d' : Draft} {element : TableElement} {columns : List ColumnDefinition}
    (hcolumns : ∀ definition, element.column? = some definition → definition ∈ columns)
    (hsofar : d.table.schema = (schema : Field String) ∧ AllDeclared schema columns d.table)
    (h : (addElement default d element).result = .ok d') :
    d'.table.schema = (schema : Field String) ∧ AllDeclared schema columns d'.table := by
  obtain ⟨hschema, hsofar⟩ := hsofar
  have hedited {t t' : Table} (hedits : Edits default t t') (hs : t.schema = (schema : Field String))
      (ht : AllDeclared schema columns t) : t'.schema = (schema : Field String) ∧ AllDeclared schema columns t' :=
    ⟨hedits.name_eq.1.trans hs, ht.of_fixedPart hedits.map_fixedPart_eq⟩
  cases element with
  | column definition =>
    obtain ⟨next, hnext, h⟩ := Logged.result_bind_eq_ok.mp h
    obtain ⟨t, ht, h⟩ := Logged.result_bind_eq_ok.mp h
    obtain rfl := Except.ok.inj h
    obtain ⟨hs, c, happend, hc⟩ := isDeclared_addColumn hschema hnext
    refine hedited (edits_applyRules ht) (hs.trans hschema) fun c' hc' => ?_
    rw [happend, List.mem_append, List.mem_singleton] at hc'
    obtain hc' | rfl := hc'
    · exact hsofar c' hc'
    · exact ⟨definition, hcolumns definition rfl, hc⟩
  | constraint clause =>
    obtain ⟨t, ht, h⟩ := Logged.result_bind_eq_ok.mp h
    obtain rfl := Except.ok.inj h
    exact hedited (edits_addConstraint ht) hschema hsofar
  | other label =>
    obtain rfl := Except.ok.inj h
    exact ⟨hschema, hsofar⟩

theorem allDeclared_draftOf {definition : TableDefinition} {d : Draft}
    (h : (draftOf default definition).result = .ok d) :
    AllDeclared (schemaOf default definition.relation) definition.columns d.table := by
  obtain ⟨drafted, hdrafted, h⟩ := Logged.result_bind_eq_ok.mp h
  have hall := Logged.keeps_foldlM (Q := fun d : Draft =>
      d.table.schema = (schemaOf default definition.relation : Field String) ∧
        AllDeclared (schemaOf default definition.relation) definition.columns d.table)
    (fun element helement _ _ hsofar hstep => allDeclared_addElement
      (fun c hc => List.mem_filterMap.mpr ⟨element, helement, hc⟩) hsofar hstep) ⟨rfl, by simp [AllDeclared]⟩ hdrafted
  have hsame : d.table.columns = drafted.table.columns := by
    split at h <;> (obtain rfl := Except.ok.inj h; rfl)
  exact hall.2.of_fixedPart (by rw [hsame])

/-- The columns of every table are declared by one definition of the script. -/
theorem allDeclared_of_comes (h : Comes default all attached tag x) :
    ∀ schema name t, tag = .object schema .table name → x = .table t →
      ∃ definition, .createTable definition ∈ all ∧
        AllDeclared (schemaOf default definition.relation) definition.columns t := by
  induction h with
  | created said creates =>
    rintro schema name t rfl rfl
    obtain ⟨definition, d, rfl, hd, rfl, rfl, ht⟩ := exists_draft_of_creates creates
    obtain rfl := Content.table.inj ht
    exact ⟨definition, said, allDeclared_draftOf hd⟩
  | @altered _ tag x x' said before alters ih =>
    rintro schema name t rfl rfl
    cases x with
    | table u =>
      obtain ⟨definition, hdefinition, hall⟩ := ih schema name u rfl rfl
      exact ⟨definition, hdefinition, hall.of_fixedPart (alters.map_columns_eq (fun _ => rfl) fun _ _ => rfl)⟩
    | _ => nomatch alters
  | @filled schema name parentSchema parentTable t parent child bare place above ihChild ihAbove =>
    rintro _ _ _ ⟨⟩ ⟨⟩
    exact ihAbove parentSchema parentTable parent rfl rfl

end Effect
end SchemaScript
