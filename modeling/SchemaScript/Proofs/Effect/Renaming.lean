import SchemaScript.Proofs.Catalog.Renaming
import SchemaScript.Proofs.Effect.Filing
import SchemaScript.Proofs.Sql.TypeName

/-!
# Scripts under another default schema

A script does not look into the names of schemas: it only tells them apart. So renaming them without putting two
of them together, the default schema along with the others, renames them in the catalog that the script
describes, as long as the schemas that the script spells out keep their names (`catalogOf_rename`).
-/

namespace SchemaScript

open Sql Effect

/-! ## The schemas that a statement spells out -/

namespace Sql

def RelationName.schemas (relation : RelationName) : List String :=
  relation.schema.toList

def pathSchemas (path : List String) : List String :=
  (RelationName.ofPath path).schemas

def ConstraintClause.schemas (clause : ConstraintClause) : List String :=
  match clause.rule with
  | .references reference _ _ => reference.table.schemas
  | _ => []

def ColumnRule.schemas : ColumnRule → List String
  | .constraint clause => clause.schemas
  | _ => []

def TableElement.schemas : TableElement → List String
  | .column definition => definition.rules.flatMap (·.schemas)
  | .constraint clause => clause.schemas
  | .other _ => []

def TableDefinition.schemas (definition : TableDefinition) : List String :=
  definition.relation.schemas ++ definition.elements.flatMap (·.schemas) ++ definition.parents.flatMap (·.schemas)

def AlterCommand.schemas : AlterCommand → List String
  | .addConstraint clause => clause.schemas
  | .attachPartition child _ => child.schemas
  | _ => []

/-- The schema of a function that an aggregate uses. -/
def supportSchemas (entry : String × DefinitionValue) : List String :=
  if ["sfunc", "finalfunc"].contains (Text.lower entry.1) then (supportFunction entry.2).1.toList else []

/-- What belongs to a table comes after the name of the table, and extensions have no schema. -/
def CommentKind.schemas (kind : CommentKind) (path : List String) : List String :=
  match kind with
  | .extension => []
  | .column | .constraint | .trigger => pathSchemas path.dropLast
  | _ => pathSchemas path

/-- The schemas that the statement names. -/
def Statement.schemas : Statement → List String
  | .createSchema name _ => name.toList
  | .createTable definition => definition.schemas
  | .createView relation _ _ | .createComposite relation _ | .createSequence relation _ => relation.schemas
  | .createRoutine definition => pathSchemas definition.path
  | .createAggregate definition =>
    pathSchemas definition.path ++ definition.entries.flatMap supportSchemas
  | .createEnum path _ | .createDomain path _ _ => pathSchemas path
  | .createIndex definition => definition.table.schemas
  | .alterTable relation commands | .alterIndex relation commands =>
    relation.schemas ++ commands.flatMap (·.schemas)
  | .createTrigger definition => definition.table.schemas
  | .createPolicy definition => definition.table.schemas
  | .comment kind path _ => kind.schemas path
  | _ => []

def TableElement.types : TableElement → List WrittenType
  | .column definition => [definition.type]
  | _ => []

/-- The types of the columns, members and domains that the statement declares. -/
def Statement.types : Statement → List WrittenType
  | .createTable definition => definition.elements.flatMap (·.types)
  | .createComposite _ members => members.map (·.2)
  | .createDomain _ base _ => [base]
  | _ => []

/-- Renaming leaves alone what the statement spells out: the schemas keep their names, and types are written
without one. -/
structure Statement.Keeps (f : String → String) (s : Statement) : Prop where
  schemas : ∀ x ∈ s.schemas, f x = x
  types : ∀ type ∈ s.types, '.' ∉ type.base.toList

end Sql

namespace Effect

variable {f : String ↪ String} {default : String}

/-! ## What names stand for -/

theorem schemaOf_rename {relation : RelationName} (h : ∀ x ∈ relation.schemas, f x = x) :
    schemaOf (f default) relation = f (schemaOf default relation) := by
  unfold schemaOf Text.givenOr
  cases hgiven : Text.given relation.schema with
  | none => rfl
  | some x =>
    have hschema := (Text.given_eq_some_iff.mp hgiven).1
    exact (h x (by simp [RelationName.schemas, hschema])).symm

theorem splitPath_rename {path : List String} (h : ∀ x ∈ pathSchemas path, f x = x) :
    splitPath (f default) path = (f (splitPath default path).1, (splitPath default path).2) := by
  unfold splitPath
  unfold pathSchemas RelationName.ofPath at h
  split
  · rfl
  · rfl
  · next name schema _ hpath =>
    rw [hpath] at h
    rw [h schema (by simp [RelationName.schemas])]

/-! ## Tables -/

variable {t : Table}

theorem constraintName_rename (t : Table) (given : Option String) (columns : List String) (kind : String) :
    constraintName (t.rename f) given columns kind = constraintName t given columns kind := by
  have hcontains : (t.rename f).constraints.contains = t.constraints.contains :=
    funext (Entries.contains_map _ _)
  have hsize : (t.rename f).constraints.size = t.constraints.size := Entries.size_map _ _
  unfold constraintName
  rw [hcontains, hsize]
  rfl

theorem constraintOf_rename {clause : ConstraintClause} (h : ∀ x ∈ clause.schemas, f x = x) (t : Table) :
    constraintOf (f default) (t.rename f) clause = (constraintOf default t clause).map (Constraint.rename f) := by
  unfold constraintOf
  unfold ConstraintClause.schemas at h
  simp only [constraintName_rename]
  cases hrule : clause.rule with
  | references reference deferrable initiallyDeferred =>
    rw [hrule] at h
    simp only [schemaOf_rename h]
    rfl
  | _ => rfl

theorem putConstraint_rename (t : Table) (c : Constraint) :
    putConstraint (t.rename f) (c.rename f) = (putConstraint t c).rename f := by
  show { t.rename f with
    constraints := (t.constraints.map (Constraint.rename f)).put c.name.spelled (c.rename f) } = _
  rw [Entries.put_map]
  rfl

theorem withoutNulls_rename (t : Table) (columns : List String) :
    withoutNulls (t.rename f) columns = (withoutNulls t columns).rename f := by
  unfold withoutNulls
  induction columns generalizing t with
  | nil => rfl
  | cons name columns ih =>
    rw [List.foldl_cons, List.foldl_cons, ← ih]
    rfl

theorem addConstraint_rename {clause : ConstraintClause} (h : ∀ x ∈ clause.schemas, f x = x) (t : Table) :
    (addConstraint (f default) (t.rename f) clause).result =
      (addConstraint default t clause).result.map (Table.rename f) := by
  unfold addConstraint
  rw [constraintOf_rename h]
  cases constraintOf default t clause with
  | none => rfl
  | some c =>
    simp only [Option.map_some, putConstraint_rename, withoutNulls_rename]
    show Except.ok (if c.kind == .primaryKey then _ else _) = Except.ok (Table.rename f _)
    rw [apply_ite (Table.rename f)]

theorem applyRule_rename {rule : ColumnRule} (h : ∀ x ∈ rule.schemas, f x = x) (t : Table) :
    (applyRule (f default) (t.rename f) rule).result = (applyRule default t rule).result.map (Table.rename f) := by
  cases rule with
  | notNull | null | default value => rfl
  | identity always options =>
    simp only [applyRule, Logged.result_bind, Logged.result_ofResult]
    cases identityOf always options <;> rfl
  | constraint clause => exact addConstraint_rename h t

theorem typedColumn_rename {type : WrittenType} (h : '.' ∉ type.base.toList) (t : Table) (name : String)
    (position : Int) : typedColumn (t.rename f) name position type = typedColumn t name position type := by
  unfold typedColumn
  simp only [dropSchema_of_no_point h]

/-- The table stands in the default schema, or in one that keeps its name. -/
def Placed (f : String → String) (default : String) (t : Table) : Prop :=
  ∃ schema : String, t.schema = schema ∧ (schema = default ∨ f schema = schema)

theorem serialDefault_rename (h : Placed f default t) (column base : String) :
    serialDefault (f default) (serialSequence (t.rename f) column base) =
      serialDefault default (serialSequence t column base) := by
  obtain ⟨schema, hschema, hplaced⟩ := h
  have hold : (serialSequence t column base).schema = (schema : Field String) := hschema
  have hnew : (serialSequence (t.rename f) column base).schema = (f schema : Field String) := by
    show t.schema.rename f = _
    rw [hschema, Field.rename_text]
  have hname : (serialSequence (t.rename f) column base).name = (serialSequence t column base).name := rfl
  unfold serialDefault
  rw [hold, hnew, hname, Field.spelled_text, Field.spelled_text, f.injective.beq_eq]
  rcases hplaced with rfl | hkept
  · simp
  · rw [hkept]

def Draft.rename (f : String → String) (d : Draft) : Draft where
  table := d.table.rename f
  sequences := d.sequences.map (Sequence.rename f)

theorem addColumn_rename {definition : ColumnDefinition} (htype : '.' ∉ definition.type.base.toList) {d : Draft}
    (h : Placed f default d.table) :
    addColumn (f default) (d.rename f) definition = (addColumn default d definition).map (Draft.rename f) := by
  unfold addColumn
  have hcolumns : (d.table.rename f).columns = d.table.columns := rfl
  simp only [Draft.rename, serialDefault_rename h, typedColumn_rename htype, hcolumns]
  cases if definition.type.isArray then none else serialBase? definition.type.base with
  | none =>
    cases typedColumn d.table definition.name (Int.ofNat d.table.columns.length + 1) definition.type <;> rfl
  | some base =>
    refine congrArg Except.ok (congrArg₂ Draft.mk rfl ?_)
    rw [List.map_append]
    rfl

theorem addElement_rename {element : TableElement} (hschemas : ∀ x ∈ element.schemas, f x = x)
    (htypes : ∀ type ∈ element.types, '.' ∉ type.base.toList) {d : Draft} (h : Placed f default d.table) :
    (addElement (f default) (d.rename f) element).result =
      (addElement default d element).result.map (Draft.rename f) := by
  cases element with
  | column definition =>
    have hcolumn := addColumn_rename (htypes definition.type (List.mem_singleton_self _)) h
    refine Logged.result_bind_map (g := Draft.rename f) hcolumn fun next _ => ?_
    have hrules : (definition.rules.foldlM (applyRule (f default)) (next.table.rename f)).result =
        (definition.rules.foldlM (applyRule default) next.table).result.map (Table.rename f) :=
      Logged.foldlM_map (fun rule hrule t => applyRule_rename
        (fun x hx => hschemas x (List.mem_flatMap.mpr ⟨rule, hrule, hx⟩)) t) next.table
    exact Logged.result_bind_map hrules fun _ _ => rfl
  | constraint clause => exact Logged.result_bind_map (addConstraint_rename hschemas d.table) fun _ _ => rfl
  | other label => rfl

theorem schema_addElement {d d' : Draft} {element : TableElement}
    (h : (addElement default d element).result = .ok d') : d'.table.schema = d.table.schema := by
  cases gains_addElement h with
  | serial _ _ hedits | typed _ _ hedits | edited _ hedits => exact hedits.name_eq.1

theorem placed_schemaOf {relation : RelationName} (h : ∀ x ∈ relation.schemas, f x = x)
    (hschema : t.schema = (schemaOf default relation : Field String)) : Placed f default t := by
  refine ⟨_, hschema, ?_⟩
  unfold schemaOf Text.givenOr
  cases hgiven : Text.given relation.schema with
  | none => exact .inl rfl
  | some x =>
    have hx := (Text.given_eq_some_iff.mp hgiven).1
    exact .inr (h x (by simp [RelationName.schemas, hx]))

variable {definition : TableDefinition} (hschemas : ∀ x ∈ definition.schemas, f x = x)

include hschemas

theorem draftOf_rename (htypes : ∀ type ∈ definition.elements.flatMap (·.types), '.' ∉ type.base.toList) :
    (draftOf (f default) definition).result = (draftOf default definition).result.map (Draft.rename f) := by
  have hrelation : ∀ x ∈ definition.relation.schemas, f x = x := fun x hx =>
    hschemas x (by simp [TableDefinition.schemas, hx])
  let fresh (schema : String) : Table :=
    { schema, name := definition.relation.name, kind := if definition.isTemporary then .temporary else .base }
  have hrun : (definition.elements.foldlM (addElement (f default))
        (Draft.rename f { table := fresh (schemaOf default definition.relation) })).result =
      (definition.elements.foldlM (addElement default)
        { table := fresh (schemaOf default definition.relation) }).result.map (Draft.rename f) := by
    refine Logged.foldlM_map_of_step (Q := fun d => Placed f default d.table)
      (fun _ _ d d' hd hstep => ?_) (fun element helement d hd => ?_) (placed_schemaOf hrelation rfl)
    · obtain ⟨schema, hschema, hplaced⟩ := hd
      exact ⟨schema, (schema_addElement hstep).trans hschema, hplaced⟩
    · refine addElement_rename (fun x hx => hschemas x ?_) (fun type htype => htypes type ?_) hd
      · exact List.mem_append_left _ (List.mem_append_right _ (List.mem_flatMap.mpr ⟨element, helement, hx⟩))
      · exact List.mem_flatMap.mpr ⟨element, helement, htype⟩
  have hfirst : Draft.rename f { table := fresh (schemaOf default definition.relation) } =
      { table := fresh (schemaOf (f default) definition.relation) } := by
    rw [schemaOf_rename hrelation]
    rfl
  rw [hfirst] at hrun
  unfold draftOf
  refine Logged.result_bind_map hrun fun d _ => ?_
  cases definition.partitioning <;> rfl

theorem attachmentOf_rename :
    attachmentOf (f default) definition = (attachmentOf default definition).map (PartitionAttachment.rename f) := by
  unfold attachmentOf
  cases hbound : definition.bound with
  | none => rfl
  | some bound =>
    cases hparents : definition.parents with
    | nil => rfl
    | cons parent parents =>
      have hparent : ∀ x ∈ parent.schemas, f x = x := fun x hx =>
        hschemas x (by simp [TableDefinition.schemas, hparents, hx])
      have hrelation : ∀ x ∈ definition.relation.schemas, f x = x := fun x hx =>
        hschemas x (by simp [TableDefinition.schemas, hx])
      simp only [schemaOf_rename hparent, schemaOf_rename hrelation]
      rfl

omit hschemas

theorem putSequences_rename (sequences : List Sequence) (s : Schema) :
    putSequences (sequences.map (Sequence.rename f)) (s.rename f) = (putSequences sequences s).rename f := by
  have hall (entries : Entries Sequence) :
      (sequences.map (Sequence.rename f)).foldl (fun all q => all.put q.name.spelled q)
          (entries.map (Sequence.rename f)) =
        (sequences.foldl (fun all q => all.put q.name.spelled q) entries).map (Sequence.rename f) := by
    induction sequences generalizing entries with
    | nil => rfl
    | cons q sequences ih =>
      rw [List.map_cons, List.foldl_cons, List.foldl_cons, ← ih, ← Entries.put_map]
      rfl
  unfold putSequences
  rw [show (s.rename f).sequences = s.sequences.map (Sequence.rename f) from rfl, hall]
  rfl

/-- A table and its sequences in a schema. -/
def putDraft (name : String) (d : Draft) (s : Schema) : Schema :=
  { putSequences d.sequences s with tables := (putSequences d.sequences s).tables.put name d.table }

theorem putDraft_rename (name : String) (d : Draft) (s : Schema) :
    putDraft name (d.rename f) (s.rename f) = (putDraft name d s).rename f := by
  have htables : (putSequences (d.rename f).sequences (s.rename f)).tables.put name (d.rename f).table =
      ((putSequences d.sequences s).tables.put name d.table).map (Table.rename f) := by
    rw [← Entries.put_map]
    rfl
  unfold putDraft
  rw [htables, show (d.rename f).sequences = d.sequences.map (Sequence.rename f) from rfl, putSequences_rename]
  rfl

theorem result_createTable (default : String) (c : Catalog) (definition : TableDefinition) :
    (createTable default c definition).result = (draftOf default definition).result.map fun d =>
      { c.updateSchema (schemaOf default definition.relation) (putDraft definition.relation.name d) with
        partitions := c.partitions ++ (attachmentOf default definition).toList } := by
  unfold createTable
  rw [Logged.result_bind]
  cases (draftOf default definition).result with
  | error fault => rfl
  | ok d =>
    -- a parent without a bound only shows in the log
    dsimp only [bind, Except.bind]
    split <;> rfl

include hschemas in
theorem createTable_rename (htypes : ∀ type ∈ definition.elements.flatMap (·.types), '.' ∉ type.base.toList)
    (c : Catalog) :
    (createTable (f default) (c.rename f) definition).result =
      (createTable default c definition).result.map (Catalog.rename f) := by
  have hrelation : ∀ x ∈ definition.relation.schemas, f x = x := fun x hx =>
    hschemas x (by simp [TableDefinition.schemas, hx])
  rw [result_createTable, result_createTable, draftOf_rename hschemas htypes, attachmentOf_rename hschemas,
    schemaOf_rename hrelation]
  cases (draftOf default definition).result with
  | error fault => rfl
  | ok d =>
    have hpartitions (attachment : Option PartitionAttachment) :
        (c.rename f).partitions ++ (attachment.map (PartitionAttachment.rename f)).toList =
          (c.partitions ++ attachment.toList).map (PartitionAttachment.rename f) := by
      rw [List.map_append]
      cases attachment <;> rfl
    refine congrArg Except.ok ?_
    dsimp only
    rw [c.updateSchema_rename f (putDraft_rename definition.relation.name d), hpartitions]
    rfl

/-! ## What is added to tables -/

variable {c : Catalog} {relation : RelationName}

theorem withTable_rename (hrelation : ∀ x ∈ relation.schemas, f x = x) {g g' : Table → Logged Table}
    (hg : ∀ t, (g' (t.rename f)).result = (g t).result.map (Table.rename f)) (c : Catalog) :
    (withTable (f default) (c.rename f) relation g').result =
      (withTable default c relation g).result.map (Catalog.rename f) := by
  unfold withTable
  simp only [schemaOf_rename hrelation, Catalog.findTable?_rename]
  cases hfound : c.findTable? (schemaOf default relation) relation.name with
  | none => rfl
  | some t => exact Logged.result_bind_map (hg t) fun t' _ => congrArg Except.ok (c.setTable_rename f ..)

theorem addIndex_rename (definition : IndexDefinition) (t : Table) :
    addIndex (t.rename f) definition = (addIndex t definition).rename f := by
  unfold addIndex Table.rename
  dsimp only
  rw [← Entries.put_map]
  rfl

theorem addTrigger_rename (definition : TriggerDefinition) (t : Table) :
    addTrigger (t.rename f) definition = (addTrigger t definition).rename f := by
  unfold addTrigger Table.rename
  dsimp only
  rw [← Entries.put_map]
  rfl

theorem addPolicy_rename (definition : PolicyDefinition) (t : Table) :
    addPolicy (t.rename f) definition = (addPolicy t definition).rename f := by
  unfold addPolicy Table.rename
  dsimp only
  rw [← Entries.put_map]
  rfl

def Change.rename (f : String → String) (change : Change) : Change where
  table := change.table.rename f
  partitions := change.partitions.map (PartitionAttachment.rename f)

theorem applyCommand_rename {command : AlterCommand} (h : ∀ x ∈ command.schemas, f x = x) (change : Change) :
    (applyCommand (f default) (change.rename f) command).result =
      (applyCommand default change command).result.map (Change.rename f) := by
  cases command with
  | addConstraint clause => exact Logged.result_bind_map (addConstraint_rename h change.table) fun _ _ => rfl
  | rowSecurity enabled => rfl
  | attachPartition child bound =>
    refine congrArg Except.ok (congrArg (Change.mk _) ?_)
    rw [List.map_append, schemaOf_rename h]
    rfl
  | other label => rfl

theorem alterTable_rename {commands : List AlterCommand} (hrelation : ∀ x ∈ relation.schemas, f x = x)
    (hcommands : ∀ x ∈ commands.flatMap (·.schemas), f x = x) (c : Catalog) :
    (alterTable (f default) (c.rename f) relation commands).result =
      (alterTable default c relation commands).result.map (Catalog.rename f) := by
  unfold alterTable
  simp only [schemaOf_rename hrelation, Catalog.findTable?_rename]
  cases hfound : c.findTable? (schemaOf default relation) relation.name with
  | none => exact withTable_rename hrelation (fun _ => rfl) c
  | some t =>
    have hrun : (commands.foldlM (applyCommand (f default)) (Change.rename f { table := t })).result =
        (commands.foldlM (applyCommand default) { table := t }).result.map (Change.rename f) :=
      Logged.foldlM_map (fun command hcommand change => applyCommand_rename
        (fun x hx => hcommands x (List.mem_flatMap.mpr ⟨command, hcommand, hx⟩)) change) _
    refine Logged.result_bind_map hrun fun change _ => congrArg Except.ok ?_
    show ({ (c.rename f).modifyTable _ _ (fun _ => change.table.rename f) with
      partitions := c.partitions.map (PartitionAttachment.rename f) ++
        change.partitions.map (PartitionAttachment.rename f) } : Catalog) = _
    rw [Catalog.setTable_rename, ← List.map_append]
    rfl

theorem indexCommand_rename (hrelation : ∀ x ∈ relation.schemas, f x = x) {command : AlterCommand}
    (h : ∀ x ∈ command.schemas, f x = x) (found : List IndexAttachment) :
    (indexCommand (f default) relation (found.map (IndexAttachment.rename f)) command).result =
      (indexCommand default relation found command).result.map (List.map (IndexAttachment.rename f)) := by
  cases command with
  | attachPartition child bound =>
    refine congrArg Except.ok ?_
    rw [List.map_append, schemaOf_rename h, schemaOf_rename hrelation]
    rfl
  | _ => rfl

theorem alterIndex_rename {commands : List AlterCommand} (hrelation : ∀ x ∈ relation.schemas, f x = x)
    (hcommands : ∀ x ∈ commands.flatMap (·.schemas), f x = x) (c : Catalog) :
    (alterIndex (f default) (c.rename f) relation commands).result =
      (alterIndex default c relation commands).result.map (Catalog.rename f) := by
  have hrun : (commands.foldlM (indexCommand (f default) relation)
        (List.map (IndexAttachment.rename f) [])).result =
      (commands.foldlM (indexCommand default relation) []).result.map (List.map (IndexAttachment.rename f)) :=
    Logged.foldlM_map (fun command hcommand found => indexCommand_rename hrelation
      (fun x hx => hcommands x (List.mem_flatMap.mpr ⟨command, hcommand, hx⟩)) found) []
  refine Logged.result_bind_map hrun fun found _ => congrArg Except.ok ?_
  show ({ c.rename f with
    indexPartitions := c.indexPartitions.map (IndexAttachment.rename f) ++
      found.map (IndexAttachment.rename f) } : Catalog) = _
  rw [← List.map_append]
  rfl

/-! ## Comments -/

section

variable {α β : Type} {g h h' : α → α} {put put' : Entries α → β} {r : β → β}

theorem changeNamed?_map (hcommute : ∀ x, h' (g x) = g (h x)) (entries : Entries α) (name : String) :
    changeNamed? (entries.map g) name h' = (changeNamed? entries name h).map (Entries.map g) := by
  unfold changeNamed?
  rw [Entries.get?_map, Option.map_map, Option.map_map]
  refine congrArg (Option.map · _) (funext fun x => ?_)
  simp only [Function.comp_apply, hcommute, Entries.put_map]

/-- The same with the holder of the entries. -/
theorem map_changeNamed?_map (hcommute : ∀ x, h' (g x) = g (h x)) (hput : ∀ e, put' (e.map g) = r (put e))
    (entries : Entries α) (name : String) :
    (changeNamed? (entries.map g) name h').map put' = ((changeNamed? entries name h).map put).map r := by
  rw [changeNamed?_map hcommute, Option.map_map, Option.map_map]
  exact congrArg (Option.map · _) (funext hput)

end

theorem commentIndex?_rename (name : String) (text : Option String) (tables : List (String × Table)) :
    commentIndex? name text (tables.map fun pair => (pair.1, pair.2.rename f)) =
      (commentIndex? name text tables).map fun pair => (pair.1, pair.2.rename f) := by
  induction tables with
  | nil => rfl
  | cons pair tables ih =>
    obtain ⟨key, t⟩ := pair
    have hindexes : changeNamed? (t.rename f).indexes name (fun i => { i with comment := text }) =
        (changeNamed? t.indexes name fun i => { i with comment := text }).map (Entries.map (Index.rename f)) := by
      refine changeNamed?_map ?_ t.indexes name
      exact fun _ => rfl
    rw [List.map_cons, commentIndex?, commentIndex?, hindexes]
    cases changeNamed? t.indexes name fun i => { i with comment := text } with
    | none => exact ih
    | some indexes => rfl

theorem commentObject?_rename (s : Schema) (kind : CommentKind) (name : String) (text : Option String) :
    commentObject? (s.rename f) kind name text = (commentObject? s kind name text).map (Schema.rename f) := by
  cases kind with
  | extension | column | constraint | trigger => rfl
  | index =>
    simp only [commentObject?]
    rw [show (s.rename f).tables.pairs = s.tables.pairs.map fun pair => (pair.1, pair.2.rename f) from rfl,
      commentIndex?_rename, Option.map_map, Option.map_map]
    refine congrArg (Option.map · _) (funext fun pair => ?_)
    have hput : (s.rename f).tables.put pair.1 (pair.2.rename f) =
        (s.tables.put pair.1 pair.2).map (Table.rename f) := Entries.put_map ..
    simp only [Function.comp_apply, hput]
    rfl
  | table | view | materializedView | sequence | type | domain | function | procedure | aggregate =>
    refine map_changeNamed?_map ?_ ?_ _ name <;> intro <;> rfl

theorem commentPart?_rename (t : Table) (kind : CommentKind) (name : String) (text : Option String) :
    commentPart? (t.rename f) kind name text = (commentPart? t kind name text).map (Table.rename f) := by
  cases kind with
  | column =>
    simp only [commentPart?, commentColumn?, Option.map_map]
    rfl
  | constraint | trigger => refine map_changeNamed?_map ?_ ?_ _ name <;> intro <;> rfl
  | _ => rfl

theorem commentOnPart?_rename {path : List String} (h : ∀ x ∈ pathSchemas path.dropLast, f x = x) (c : Catalog)
    (kind : CommentKind) (text : Option String) :
    commentOnPart? (f default) (c.rename f) kind path text =
      (commentOnPart? default c kind path text).map (Catalog.rename f) := by
  unfold commentOnPart?
  simp only [splitPath_rename h, Catalog.findTable?_rename]
  cases c.findTable? (splitPath default path.dropLast).1 (splitPath default path.dropLast).2 with
  | none => rfl
  | some t =>
    simp only [Option.map_some, commentPart?_rename, Option.map_map]
    exact congrArg (Option.map · _) (funext fun t' => c.setTable_rename f ..)

theorem commentOn?_rename {kind : CommentKind} {path : List String} (h : ∀ x ∈ kind.schemas path, f x = x)
    (c : Catalog) (text : Option String) :
    commentOn? (f default) (c.rename f) kind path text =
      (commentOn? default c kind path text).map (Catalog.rename f) := by
  cases kind with
  | column | constraint | trigger => exact commentOnPart?_rename h c _ text
  | extension =>
    simp only [commentOn?, Option.map_map]
    rfl
  | table | view | materializedView | sequence | type | domain | function | procedure | aggregate | index =>
    simp only [commentOn?, splitPath_rename h, Catalog.get?_schemas_rename]
    cases c.schemas.get? (splitPath default path).1 with
    | none => rfl
    | some s =>
      simp only [Option.map_some, commentObject?_rename, Option.map_map]
      refine congrArg (Option.map · _) (funext fun s' => ?_)
      simp only [Function.comp_apply, Catalog.put_schemas_rename]
      rfl

theorem comment_rename {kind : CommentKind} {path : List String} (h : ∀ x ∈ kind.schemas path, f x = x)
    (c : Catalog) (text : Option String) :
    (comment (f default) (c.rename f) kind path text).result =
      (comment default c kind path text).result.map (Catalog.rename f) := by
  unfold comment
  split
  · rfl
  · rw [commentOn?_rename h]
    cases commentOn? default c kind path text <;> rfl

/-! ## Other objects -/

theorem createView_rename (hrelation : ∀ x ∈ relation.schemas, f x = x) (definition : String)
    (materialized : Bool) (c : Catalog) :
    createView (f default) (c.rename f) relation definition materialized =
      (createView default c relation definition materialized).rename f := by
  unfold createView
  rw [schemaOf_rename hrelation]
  refine c.updateSchema_rename f (fun s => ?_) _
  unfold Schema.rename
  dsimp only
  rw [← Entries.put_map]
  rfl

theorem putType_rename (c : Catalog) (schema name : String) (type : UserType) :
    putType (c.rename f) (f schema) name (type.rename f) = (putType c schema name type).rename f := by
  refine c.updateSchema_rename f (fun s => ?_) schema
  unfold Schema.rename
  dsimp only
  rw [← Entries.put_map]

theorem createEnum_rename {path : List String} (h : ∀ x ∈ pathSchemas path, f x = x) (labels : List String)
    (c : Catalog) :
    createEnum (f default) (c.rename f) path labels = (createEnum default c path labels).rename f := by
  unfold createEnum
  rw [splitPath_rename h]
  dsimp only
  rw [← putType_rename]
  rfl

theorem createComposite_rename (hrelation : ∀ x ∈ relation.schemas, f x = x)
    (members : List (String × WrittenType)) (c : Catalog) :
    createComposite (f default) (c.rename f) relation members =
      (createComposite default c relation members).rename f := by
  unfold createComposite
  rw [schemaOf_rename hrelation]
  dsimp only
  rw [← putType_rename]
  rfl

theorem domainRules_rename (rules : List DomainRule) (type : UserType) :
    rules.foldl domainRule (type.rename f) = (rules.foldl domainRule type).rename f := by
  induction rules generalizing type with
  | nil => rfl
  | cons rule rules ih =>
    rw [List.foldl_cons, List.foldl_cons, ← ih]
    cases rule <;> rfl

theorem createDomain_rename {path : List String} (h : ∀ x ∈ pathSchemas path, f x = x) (base : WrittenType)
    (rules : List DomainRule) (c : Catalog) :
    createDomain (f default) (c.rename f) path base rules = (createDomain default c path base rules).rename f := by
  unfold createDomain
  rw [splitPath_rename h]
  dsimp only
  rw [← putType_rename, ← domainRules_rename]
  rfl

theorem sequenceOption_rename (q : Sequence) (option : SequenceOption) :
    sequenceOption (q.rename f) option = (sequenceOption q option).map (Sequence.rename f) := by
  cases option with
  | start n | increment n =>
    simp only [sequenceOption]
    cases wholeNumber n <;> rfl
  | minimum n | maximum n =>
    simp only [sequenceOption]
    cases maybeWholeNumber n <;> rfl
  | ownedBy path =>
    simp only [sequenceOption]
    split <;> rfl
  | dataType type | cycle enabled | other => rfl

theorem createSequence_rename (hrelation : ∀ x ∈ relation.schemas, f x = x) (options : List SequenceOption)
    (c : Catalog) :
    createSequence (f default) (c.rename f) relation options =
      (createSequence default c relation options).map (Catalog.rename f) := by
  let fresh (schema : String) : Sequence := { schema, name := relation.name }
  have hrun : options.foldlM sequenceOption ((fresh (schemaOf default relation)).rename f) =
      (options.foldlM sequenceOption (fresh (schemaOf default relation))).map (Sequence.rename f) :=
    foldlM_map (fun option _ q => sequenceOption_rename q option) _
  unfold createSequence
  rw [schemaOf_rename hrelation]
  show (options.foldlM sequenceOption ((fresh (schemaOf default relation)).rename f) >>= _) = _
  rw [hrun]
  show _ = (options.foldlM sequenceOption (fresh (schemaOf default relation)) >>= _).map _
  cases options.foldlM sequenceOption (fresh (schemaOf default relation)) with
  | error fault => rfl
  | ok q =>
    refine congrArg Except.ok (c.updateSchema_rename f (fun s => ?_) _)
    unfold Schema.rename
    dsimp only
    rw [← Entries.put_map]

theorem createRoutine_rename {definition : RoutineDefinition} (h : ∀ x ∈ pathSchemas definition.path, f x = x)
    (c : Catalog) :
    (createRoutine (f default) (c.rename f) definition).result =
      (createRoutine default c definition).result.map (Catalog.rename f) := by
  unfold createRoutine
  rw [splitPath_rename h]
  dsimp only
  -- whether the routine has a body only shows in the log
  split_ifs
  all_goals
    refine congrArg Except.ok (c.updateSchema_rename f (fun s => ?_) _)
    unfold Schema.rename
    dsimp only
    rw [← Entries.put_map]
    rfl

theorem aggregateEntry_rename (hasArguments : Bool) (a : Aggregate) (entry : String × DefinitionValue) :
    aggregateEntry hasArguments (a.rename f) entry = (aggregateEntry hasArguments a entry).rename f := by
  unfold aggregateEntry
  dsimp only
  split
  · rfl
  · rfl
  · rfl
  · rfl
  · split <;> rfl
  · rfl

theorem createAggregate_rename {definition : AggregateDefinition} (h : ∀ x ∈ pathSchemas definition.path, f x = x)
    (c : Catalog) :
    createAggregate (f default) (c.rename f) definition = (createAggregate default c definition).rename f := by
  have hentries (hasArguments : Bool) (entries : List (String × DefinitionValue)) (a : Aggregate) :
      entries.foldl (aggregateEntry hasArguments) (a.rename f) =
        (entries.foldl (aggregateEntry hasArguments) a).rename f := by
    induction entries generalizing a with
    | nil => rfl
    | cons entry entries ih => rw [List.foldl_cons, List.foldl_cons, aggregateEntry_rename, ih]
  unfold createAggregate
  rw [splitPath_rename h]
  refine c.updateSchema_rename f (fun s => ?_) _
  unfold Schema.rename
  dsimp only
  rw [← Entries.put_map, ← hentries]
  rfl

/-! ## Scripts -/

variable {statement : Statement} {all : List Statement}

theorem applyTo_rename (h : statement.Keeps f) (c : Catalog) :
    (applyTo (f default) (c.rename f) statement).result =
      (applyTo default c statement).result.map (Catalog.rename f) := by
  obtain ⟨hschemas, htypes⟩ := h
  cases statement with
  | createTable definition => exact createTable_rename hschemas htypes c
  | createView relation definition materialized =>
    exact congrArg Except.ok (createView_rename hschemas definition materialized c)
  | createRoutine definition => exact createRoutine_rename hschemas c
  | createAggregate definition =>
    exact congrArg Except.ok (createAggregate_rename (fun x hx => hschemas x (List.mem_append_left _ hx)) c)
  | createEnum path labels => exact congrArg Except.ok (createEnum_rename hschemas labels c)
  | createComposite relation members => exact congrArg Except.ok (createComposite_rename hschemas members c)
  | createDomain path base rules => exact congrArg Except.ok (createDomain_rename hschemas base rules c)
  | createSequence relation options => exact createSequence_rename hschemas options c
  | createIndex definition =>
    exact withTable_rename hschemas (fun t => congrArg Except.ok (addIndex_rename definition t)) c
  | alterTable relation commands =>
    exact alterTable_rename (fun x hx => hschemas x (List.mem_append_left _ hx))
      (fun x hx => hschemas x (List.mem_append_right _ hx)) c
  | alterIndex relation commands =>
    exact alterIndex_rename (fun x hx => hschemas x (List.mem_append_left _ hx))
      (fun x hx => hschemas x (List.mem_append_right _ hx)) c
  | createTrigger definition =>
    exact withTable_rename hschemas (fun t => congrArg Except.ok (addTrigger_rename definition t)) c
  | createPolicy definition =>
    exact withTable_rename hschemas (fun t => congrArg Except.ok (addPolicy_rename definition t)) c
  | comment kind path text => exact comment_rename hschemas c text
  | createExtension _ _ _ | createTableAs | define _ | otherComment _ | other _ | createSchema _ _ => rfl

def Progress.rename (f : String ↪ String) (progress : Progress) : Progress :=
  { progress with catalog := progress.catalog.rename f }

theorem createSchema_rename {name : Option String} (h : ∀ x ∈ name.toList, f x = x) (owner : Option String)
    (progress : Progress) :
    createSchema (progress.rename f) name owner = (createSchema progress name owner).rename f := by
  cases name with
  | none =>
    have hempty : (progress.rename f).catalog.schemas.isEmpty = progress.catalog.schemas.isEmpty := by
      simp [Progress.rename, Catalog.rename, Entries.rename, Entries.map, Entries.isEmpty]
    simp only [createSchema, hempty]
    rfl
  | some name =>
    have hname : f name = name := h name (by simp)
    unfold createSchema
    refine congrArg (Progress.mk · progress.namelessFirst) ?_
    refine Eq.trans (congrArg (Catalog.updateSchema _ · _) hname.symm)
      (progress.catalog.updateSchema_rename f (fun s => ?_) name)
    split <;> rfl

theorem apply_rename (h : statement.Keeps f) (progress : Progress) :
    (apply (f default) (progress.rename f) statement).result =
      (apply default progress statement).result.map (Progress.rename f) := by
  by_cases hschema : ∃ name owner, statement = .createSchema name owner
  · obtain ⟨name, owner, rfl⟩ := hschema
    exact congrArg Except.ok (createSchema_rename h.schemas owner progress)
  · rw [result_apply hschema, result_apply hschema]
    show ((applyTo (f default) (progress.catalog.rename f) statement).result >>= _) = _
    rw [applyTo_rename h]
    cases (applyTo default progress.catalog statement).result <;> rfl

theorem inheritColumns_rename {a : PartitionAttachment} (ha : a.Named) (c : Catalog) :
    inheritColumns (c.rename f) (a.rename f) = (inheritColumns c a).rename f := by
  obtain ⟨parentSchema, parentTable, childSchema, childTable, hps, hpt, hcs, hct⟩ := ha
  unfold inheritColumns PartitionAttachment.rename
  rw [hps, hpt, hcs, hct]
  simp only [Field.rename_text, Field.text?_text, Catalog.findTable?_rename]
  cases c.findTable? parentSchema parentTable with
  | none => rfl
  | some parent =>
    refine c.modifyTable_rename f (fun child => ?_) childSchema childTable
    show (if child.columns.isEmpty then _ else _) = _
    split <;> rfl

theorem inheritAll_rename {c : Catalog} (h : ∀ a ∈ c.partitions, a.Named) :
    inheritAll (c.rename f) = (inheritAll c).rename f := by
  have hall (attachments : List PartitionAttachment) (h : ∀ a ∈ attachments, a.Named) (c : Catalog) :
      (attachments.map (PartitionAttachment.rename f)).foldl inheritColumns (c.rename f) =
        (attachments.foldl inheritColumns c).rename f := by
    induction attachments generalizing c with
    | nil => rfl
    | cons a attachments ih =>
      rw [List.forall_mem_cons] at h
      rw [List.map_cons, List.foldl_cons, List.foldl_cons, inheritColumns_rename h.1, ih h.2]
  exact hall c.partitions h c

/-- With the default schema under another name, a script describes the same catalog under that name, if the
schemas that it spells out keep their names. -/
theorem catalogOf_rename (h : ∀ statement ∈ all, statement.Keeps f) :
    (catalogOf (f default) all).result = (catalogOf default all).result.map (Catalog.rename f) := by
  have hrun : ((inOrder all).foldlM (apply (f default)) (Progress.rename f { catalog := start })).result =
      ((inOrder all).foldlM (apply default) { catalog := start }).result.map (Progress.rename f) :=
    Logged.foldlM_map
      (fun statement hs progress => apply_rename (h statement (mem_inOrder.mp hs)) progress) _
  unfold catalogOf
  refine Logged.result_bind_map hrun fun progress hlast => ?_
  obtain ⟨catalog, namelessFirst⟩ := progress
  have hnamed := (filed_effects filed_start (effects_of_run hlast)).partitions
  have hinherit : inheritAll (catalog.rename f) = (inheritAll catalog).rename f := inheritAll_rename hnamed
  have hempty : ((inheritAll catalog).rename f).schemas.isEmpty = (inheritAll catalog).schemas.isEmpty := by
    simp [Catalog.rename, Entries.rename, Entries.map, Entries.isEmpty]
  unfold Progress.rename
  simp only [hinherit, hempty]
  cases namelessFirst <;> rfl

end Effect
end SchemaScript
