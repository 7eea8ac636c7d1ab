import SchemaScript.Proofs.Effect.Origin

/-!
# Columns, sequences and their owners

What makes a column serial, its type and its default, goes back to the column's definition in the script, that
of the table or of one to which the table is attached (`columnsOf_of_comes`). The owner of a sequence goes back
to the statement that defines the sequence (`ownerOf_of_comes`).
-/

namespace SchemaScript

open Sql

/-! ## What a definition declares -/

namespace Sql

/-- The type gives a column a sequence of its own. -/
def WrittenType.isSerial (t : WrittenType) : Bool :=
  !t.isArray && (serialBase? t.base).isSome

/-- The name under which a catalog keeps a type that is not serial. -/
def WrittenType.storedName (t : WrittenType) : String :=
  if t.isArray then t.text
  else
    match t.storedModifiers with
    | [] => if isBuiltinType t.base then t.base else "USER-DEFINED"
    | modifiers =>
      if t.base == "character varying" || t.base == "character" || t.base == "numeric" then t.base
      else t.base ++ enclosed (",".intercalate modifiers)

def ColumnRule.default? : ColumnRule → Option String
  | .default value => some value.defaultText
  | _ => none

/-- The default that is declared last. -/
def ColumnDefinition.lastDefault? (definition : ColumnDefinition) : Option String :=
  definition.rules.reverse.findSome? ColumnRule.default?

def TableElement.column? : TableElement → Option ColumnDefinition
  | .column definition => some definition
  | _ => none

/-- The columns that are declared, in their order. -/
def TableDefinition.columns (definition : TableDefinition) : List ColumnDefinition :=
  definition.elements.filterMap TableElement.column?

/-- A whole number column whose default draws from a sequence; that of a serial type does. -/
def ColumnDefinition.drawsNumbers (definition : ColumnDefinition) : Bool :=
  match definition.lastDefault? with
  | some text => Text.contains text "nextval(" &&
      (definition.type.isSerial || (serialKeyword? definition.type.storedName).isSome)
  | none => definition.type.isSerial

def SequenceOption.owner? : SequenceOption → Option (String × String)
  | .ownedBy path =>
    match path.reverse with
    | column :: table :: _ => some (table, column)
    | _ => none
  | _ => none

/-- The table and the column that are named last as the owner. -/
def lastOwner? (options : List SequenceOption) : Option (String × String) :=
  options.reverse.findSome? SequenceOption.owner?

end Sql

/-! ## Where a column gets its values from -/

/-- The part of a column that decides whether it shows as serial, beside its name. -/
structure Supply where
  name : Field String
  dataType : Field String
  default : Field String

namespace Supply

def isSerial (s : Supply) : Bool :=
  match s.default.given with
  | some d => Text.contains d "nextval(" && (serialKeyword? (s.dataType.givenOr "")).isSome
  | none => false

/-- The supply after a rule of the column's definition. -/
def ruled (s : Supply) (rule : ColumnRule) : Supply :=
  match rule.default? with
  | some text => { s with default := text }
  | none => s

theorem foldl_ruled (rules : List ColumnRule) (s : Supply) :
    rules.foldl ruled s =
      match rules.reverse.findSome? ColumnRule.default? with
      | some text => { s with default := text }
      | none => s := by
  induction rules generalizing s with
  | nil => rfl
  | cons rule rules ih =>
    rw [List.foldl_cons, ih, List.reverse_cons, List.findSome?_append, List.findSome?_singleton, ruled]
    cases rules.reverse.findSome? ColumnRule.default? with
    | none => rfl
    | some text => cases rule.default? <;> rfl

end Supply

def Column.supply (c : Column) : Supply where
  name := c.name
  dataType := c.dataType
  default := c.default

theorem Column.isSerial_supply (c : Column) : c.supply.isSerial = c.isSerial := rfl

namespace Effect

variable {default : String} {t t' : Table} {d d' : Draft}

section

variable {α : Type} {part : Column → α} (hnull : ∀ c, part { c with nullable := false } = part c)

include hnull

theorem map_addConstraint {clause : ConstraintClause} (h : (addConstraint default t clause).result = .ok t') :
    t'.columns.map part = t.columns.map part := by
  unfold addConstraint at h
  split at h
  · obtain rfl := Except.ok.inj h
    rfl
  · obtain rfl := Except.ok.inj h
    split
    · exact map_withoutNulls hnull _ _
    · rfl

theorem map_applyCommands {commands : List AlterCommand} {change : Change}
    (h : (commands.foldlM (applyCommand default) { table := t }).result = .ok change) :
    change.table.columns.map part = t.columns.map part := by
  refine Logged.keeps_foldlM (Q := fun c : Change => c.table.columns.map part = t.columns.map part)
    (fun command _ c c' hsofar hstep => ?_) rfl h
  cases command with
  | addConstraint clause =>
    obtain ⟨next, hnext, hstep⟩ := Logged.result_bind_eq_ok.mp hstep
    obtain rfl := Except.ok.inj hstep
    exact (map_addConstraint hnull hnext).trans hsofar
  | rowSecurity enabled =>
    obtain rfl := Except.ok.inj hstep
    exact hsofar
  | attachPartition child bound =>
    obtain rfl := Except.ok.inj hstep
    exact hsofar
  | other label =>
    obtain rfl := Except.ok.inj hstep
    exact hsofar

/-- What tells neither about nulls nor comments of a column, no statement changes. -/
theorem Alters.map_columns_eq (hcomment : ∀ (c : Column) (text : Option String),
      part { c with comment := text } = part c) {s : Statement}
    (h : Alters default s (.table t) (.table t')) : t'.columns.map part = t.columns.map part := by
  cases h with
  | unchanged | index | trigger | policy | comment | indexComment => rfl
  | altered h => exact map_applyCommands hnull h
  | @partComment kind _ _ _ name text h =>
    cases kind with
    | column =>
      obtain ⟨c, -, rfl⟩ := Option.map_eq_some_iff.mp h
      exact map_modifyFirst (fun c => hcomment c text) t.columns
    | constraint =>
      obtain ⟨constraints, -, rfl⟩ := Option.map_eq_some_iff.mp h
      rfl
    | trigger =>
      obtain ⟨triggers, -, rfl⟩ := Option.map_eq_some_iff.mp h
      rfl
    | extension | table | view | materializedView | sequence | type | domain | function | procedure
    | aggregate | index => contradiction

end

/-! ## Columns of a new table -/

/-- The supplies of a table's columns, in their order. -/
def supplies (t : Table) : List Supply :=
  t.columns.map Column.supply

theorem supplies_changeLast {f : Column → Column} {g : Supply → Supply}
    (hf : ∀ c, (f c).supply = g c.supply) {before : List Supply} {last : Supply}
    (h : supplies t = before ++ [last]) : supplies (changeLast t f) = before ++ [g last] := by
  have hlength : t.columns.length - 1 = before.length := by
    have hlengths := congrArg List.length h
    rw [supplies, List.length_map, List.length_append, List.length_singleton] at hlengths
    omega
  show (t.columns.modify (t.columns.length - 1) f).map Column.supply = _
  rw [map_modify hf, hlength]
  show (supplies t).modify before.length g = _
  rw [h, List.modify_eq_take_cons_drop (by simp)]
  simp

/-- A rule changes the supply of the column that was added last. -/
theorem supplies_applyRule {rule : ColumnRule} {before : List Supply} {last : Supply}
    (h : supplies t = before ++ [last]) (hrule : (applyRule default t rule).result = .ok t') :
    supplies t' = before ++ [last.ruled rule] := by
  cases rule with
  | notNull | null =>
    obtain rfl := Except.ok.inj hrule
    exact supplies_changeLast (g := id) (by intro c; rfl) h
  | default value =>
    obtain rfl := Except.ok.inj hrule
    exact supplies_changeLast (g := (Supply.ruled · (.default value))) (by intro c; rfl) h
  | identity always options =>
    obtain ⟨identity, -, hrule⟩ := Logged.result_bind_eq_ok.mp hrule
    obtain rfl := Except.ok.inj hrule
    exact supplies_changeLast (g := id) (by intro c; rfl) h
  | constraint clause => exact (map_addConstraint (fun _ => rfl) hrule).trans h

theorem supplies_applyRules {rules : List ColumnRule} {before : List Supply} {last : Supply}
    (h : supplies t = before ++ [last]) (hrules : (rules.foldlM (applyRule default) t).result = .ok t') :
    supplies t' = before ++ [rules.foldl Supply.ruled last] := by
  induction rules generalizing t last with
  | nil =>
    obtain rfl := Except.ok.inj hrules
    exact h
  | cons rule rules ih =>
    rw [List.foldlM_cons] at hrules
    obtain ⟨next, hnext, hrest⟩ := Logged.result_bind_eq_ok.mp hrules
    exact ih (supplies_applyRule h hnext) hrest

/-- The supply of a column that the definition declares. -/
structure Declares (definition : ColumnDefinition) (s : Supply) : Prop where
  name : s.name = (definition.name : Field String)
  serial : s.isSerial = definition.drawsNumbers

theorem isSome_serialKeyword?_of_serialBase? {name base : String} (h : serialBase? name = some base) :
    (serialKeyword? base).isSome ∧ base ≠ "" := by
  have hcases : base = "integer" ∨ base = "smallint" ∨ base = "bigint" := by
    unfold serialBase? at h
    split at h
    · exact .inl (Option.some.inj h).symm
    split at h
    · exact .inr (.inl (Option.some.inj h).symm)
    split at h
    · exact .inr (.inr (Option.some.inj h).symm)
    · contradiction
  rcases hcases with rfl | rfl | rfl <;> decide

theorem contains_serialDefault (default : String) (s : Sequence) :
    Text.contains (serialDefault default s) "nextval(" := by
  unfold Text.contains serialDefault
  rw [Text.occursIn_iff]
  exact ⟨[], _, by simp only [String.toList_append, List.append_assoc]; rfl⟩

theorem isSerial_of_default {name dataType : String} {text : String} :
    (⟨(name : Field String), (dataType : Field String), (text : Field String)⟩ : Supply).isSerial =
      (Text.contains text "nextval(" && (serialKeyword? dataType).isSome) := by
  have hempty : Text.contains "" "nextval(" = false := by decide
  have hnone : serialKeyword? "" = none := by decide
  have htype : (dataType : Field String).givenOr "" = dataType := by
    by_cases h : dataType = "" <;> simp [Field.givenOr, Field.given_text, h]
  unfold Supply.isSerial
  rw [Field.given_text, htype]
  by_cases h : text = ""
  · simp [h, hempty]
  · simp [h]

theorem gives_typedColumn_supply (t : Table) (name : String) (position : Int) (type : WrittenType) :
    Gives (fun c => c.supply = ⟨(name : Field String), (type.storedName : Field String), .absent⟩)
      (typedColumn t name position type) := by
  have hnumber (written : String) : Gives (fun _ => True) (wholeModifier written) :=
    gives_wholeNumber _
  unfold typedColumn WrittenType.storedName
  dsimp only
  by_cases harray : type.isArray
  · rw [if_pos harray, if_pos harray]
    rfl
  rw [if_neg harray, if_neg harray]
  cases type.storedModifiers with
  | nil =>
    dsimp only
    split <;> rfl
  | cons first rest =>
    dsimp only
    by_cases htext : type.base == "character varying" || type.base == "character"
    · rw [if_pos htext, htext, Bool.true_or, if_pos rfl]
      exact (hnumber _).bind fun _ _ => rfl
    rw [if_neg htext, Bool.eq_false_of_not_eq_true htext, Bool.false_or]
    by_cases hnumeric : type.base == "numeric"
    · rw [if_pos hnumeric, if_pos hnumeric]
      refine (hnumber _).bind fun _ _ => ?_
      split
      · rfl
      · exact (hnumber _).bind fun _ _ => rfl
    · rw [if_neg hnumeric, if_neg hnumeric]
      rfl

/-- What the rules make of the supply is what the definition declares. -/
theorem declares_ruled {definition : ColumnDefinition} (dataType : String) (first : Option String)
    (hserial : definition.type.isSerial = first.isSome)
    (htype : (serialKeyword? dataType).isSome =
      (definition.type.isSerial || (serialKeyword? definition.type.storedName).isSome))
    (hfirst : ∀ text, first = some text → Text.contains text "nextval(" ∧ (serialKeyword? dataType).isSome) :
    Declares definition (definition.rules.foldl Supply.ruled
      ⟨(definition.name : Field String), (dataType : Field String), (first : Field String)⟩) := by
  rw [Supply.foldl_ruled]
  have hlast : definition.lastDefault? = definition.rules.reverse.findSome? ColumnRule.default? := rfl
  cases hdefault : definition.rules.reverse.findSome? ColumnRule.default? with
  | some text =>
    refine ⟨rfl, ?_⟩
    rw [ColumnDefinition.drawsNumbers, hlast, hdefault, isSerial_of_default, htype]
  | none =>
    refine ⟨rfl, ?_⟩
    rw [ColumnDefinition.drawsNumbers, hlast, hdefault, hserial]
    cases first with
    | none => rfl
    | some text =>
      obtain ⟨hdraws, hwhole⟩ := hfirst text rfl
      have hshown : (Supply.mk (definition.name : Field String) (dataType : Field String)
          (text : Field String)).isSerial = true := by
        rw [isSerial_of_default, hdraws, hwhole, Bool.and_self]
      exact hshown

/-- An element that declares a column adds one, and no other does. -/
theorem supplies_addElement {element : TableElement} (h : (addElement default d element).result = .ok d') :
    match element with
    | .column definition => ∃ s, Declares definition s ∧ supplies d'.table = supplies d.table ++ [s]
    | _ => supplies d'.table = supplies d.table := by
  cases element with
  | constraint clause =>
    obtain ⟨t, ht, h⟩ := Logged.result_bind_eq_ok.mp h
    obtain rfl := Except.ok.inj h
    exact map_addConstraint (fun _ => rfl) ht
  | other label =>
    obtain rfl := Except.ok.inj h
    rfl
  | column definition =>
    obtain ⟨next, hnext, h⟩ := Logged.result_bind_eq_ok.mp h
    obtain ⟨t, ht, h⟩ := Logged.result_bind_eq_ok.mp h
    obtain rfl := Except.ok.inj h
    change addColumn default d definition = .ok next at hnext
    unfold addColumn at hnext
    dsimp only at hnext
    have happend {column : Column} {s : Supply} (hs : column.supply = s) :
        supplies { d.table with columns := d.table.columns ++ [column] } = supplies d.table ++ [s] := by
      rw [supplies, supplies, List.map_append, List.map_singleton, hs]
    split at hnext
    · next base hbase =>
      obtain rfl := Except.ok.inj hnext
      obtain ⟨harray, hbase⟩ := Option.ite_none_left_eq_some.mp hbase
      obtain ⟨hwhole, -⟩ := isSome_serialKeyword?_of_serialBase? hbase
      have hserial : definition.type.isSerial = true := by
        rw [WrittenType.isSerial, hbase, Bool.eq_false_of_not_eq_true harray]
        rfl
      refine ⟨_, declares_ruled base (some (serialDefault default (serialSequence d.table definition.name base)))
        hserial ?_ ?_, supplies_applyRules (happend rfl) ht⟩
      · rw [hwhole, hserial, Bool.true_or]
      · rintro text ⟨⟩
        exact ⟨contains_serialDefault _ _, hwhole⟩
    · next hbase =>
      obtain ⟨column, hcolumn, hnext⟩ := exists_of_bind_eq_ok hnext
      obtain rfl := Except.ok.inj hnext
      have hserial : definition.type.isSerial = false := by
        rw [WrittenType.isSerial]
        by_cases harray : definition.type.isArray
        · rw [harray]
          rfl
        · rw [if_neg harray] at hbase
          rw [hbase, Option.isSome_none, Bool.and_false]
      have hsupply := gives_typedColumn_supply d.table definition.name
        (Int.ofNat d.table.columns.length + 1) definition.type
      rw [hcolumn] at hsupply
      refine ⟨_, declares_ruled definition.type.storedName none
        hserial ?_ (fun text htext => nomatch htext), supplies_applyRules (happend hsupply) ht⟩
      rw [hserial, Bool.false_or]

theorem declared_of_addElements {elements : List TableElement} {before : List ColumnDefinition}
    (h : (elements.foldlM (addElement default) d).result = .ok d')
    (hbefore : List.Forall₂ Declares before (supplies d.table)) :
    List.Forall₂ Declares (before ++ elements.filterMap TableElement.column?) (supplies d'.table) := by
  induction elements generalizing d before with
  | nil =>
    obtain rfl := Except.ok.inj h
    rwa [List.filterMap_nil, List.append_nil]
  | cons element elements ih =>
    rw [List.foldlM_cons] at h
    obtain ⟨next, hnext, hrest⟩ := Logged.result_bind_eq_ok.mp h
    have hstep := supplies_addElement hnext
    cases element with
    | column definition =>
      obtain ⟨s, hdeclares, hsupplies⟩ := hstep
      have hsofar : List.Forall₂ Declares (before ++ [definition]) (supplies next.table) := by
        rw [hsupplies]
        exact List.rel_append hbefore (.cons hdeclares .nil)
      have hcolumn : TableElement.column? (.column definition) = some definition := rfl
      rw [List.filterMap_cons_some hcolumn, List.append_cons]
      exact ih hrest hsofar
    | constraint clause =>
      rw [List.filterMap_cons_none rfl]
      exact ih hrest (by rwa [hstep])
    | other label =>
      rw [List.filterMap_cons_none rfl]
      exact ih hrest (by rwa [hstep])

/-- The columns of a new table are those that its definition declares. -/
theorem declared_of_draftOf {definition : TableDefinition} (h : (draftOf default definition).result = .ok d) :
    List.Forall₂ Declares definition.columns (supplies d.table) := by
  obtain ⟨drafted, hdrafted, h⟩ := Logged.result_bind_eq_ok.mp h
  have hsame : supplies d.table = supplies drafted.table := by
    split at h <;> (obtain rfl := Except.ok.inj h; rfl)
  rw [hsame]
  exact declared_of_addElements hdrafted .nil

/-! ## Where columns and owners come from -/

section

variable {all : List Statement} {attached : List PartitionAttachment} {schema name key : String}

/-- The script declares the columns for the table, or for one to which it is attached without columns. -/
inductive ColumnsOf (default : String) (all : List Statement) (attached : List PartitionAttachment) :
    String → String → List ColumnDefinition → Prop
  | own {definition : TableDefinition} (said : .createTable definition ∈ all) :
    ColumnsOf default all attached (schemaOf default definition.relation) definition.relation.name
      definition.columns
  | inherited {schema name parentSchema parentTable : String} {columns : List ColumnDefinition}
      (bare : ColumnsOf default all attached schema name [])
      (place : ∃ a ∈ attached, a.child = ((schema : Field String), (name : Field String)) ∧
        (a.parentSchema, a.parentTable) = ((parentSchema : Field String), (parentTable : Field String)))
      (above : ColumnsOf default all attached parentSchema parentTable columns) :
    ColumnsOf default all attached schema name columns

theorem columnsOf_of_comes {tag : Tag} {x : Content} (h : Comes default all attached tag x) :
    ∀ schema name t, tag = .object schema .table name → x = .table t →
      ∃ columns, ColumnsOf default all attached schema name columns ∧
        List.Forall₂ Declares columns (supplies t) := by
  induction h with
  | created said creates =>
    rintro schema name t rfl rfl
    obtain ⟨definition, d, rfl, hd, rfl, rfl, ht⟩ := exists_draft_of_creates creates
    obtain rfl := Content.table.inj ht
    exact ⟨_, .own said, declared_of_draftOf hd⟩
  | @altered _ tag x x' said before alters ih =>
    rintro schema name t rfl rfl
    cases x with
    | table u =>
      rw [supplies, alters.map_columns_eq (fun _ => rfl) (fun _ _ => rfl)]
      exact ih schema name u rfl rfl
    | _ => nomatch alters
  | @filled schema name parentSchema parentTable t parent child bare place above ihChild ihAbove =>
    rintro _ _ _ ⟨⟩ ⟨⟩
    obtain ⟨own, hown, hchild⟩ := ihChild schema name t rfl rfl
    obtain ⟨columns, hcolumns, hparent⟩ := ihAbove parentSchema parentTable parent rfl rfl
    rw [supplies, bare, List.map_nil, List.forall₂_nil_right_iff] at hchild
    rw [hchild] at hown
    exact ⟨columns, .inherited hown place hcolumns, hparent⟩

/-- The columns of a table that one statement declares with columns. -/
theorem ColumnsOf.eq_of_sole {definition : TableDefinition} {columns : List ColumnDefinition}
    (h : ColumnsOf default all attached schema name columns) (hschema : schemaOf default definition.relation = schema)
    (hname : definition.relation.name = name) (hcolumns : definition.columns ≠ [])
    (sole : ∀ s ∈ all, .object schema .table name ∈ definitions default s → s = .createTable definition) :
    columns = definition.columns := by
  induction h with
  | own said =>
    have hsame := sole _ said List.mem_cons_self
    rw [Statement.createTable.inj hsame]
  | inherited bare place above ihBare ihAbove =>
    exact absurd (ihBare hschema hname sole).symm hcolumns

/-- The table and the column for which a statement of the script defines a sequence. -/
inductive OwnerOf (default : String) (all : List Statement) : String → String → Option (String × String) → Prop
  | serial {definition : TableDefinition} {column : String} (said : .createTable definition ∈ all)
      (listed : column ∈ definition.elements.filterMap serialColumn?) :
    OwnerOf default all (schemaOf default definition.relation)
      (definition.relation.name ++ "_" ++ column ++ "_seq") (some (definition.relation.name, column))
  | declared {relation : RelationName} {options : List SequenceOption}
      (said : .createSequence relation options ∈ all) :
    OwnerOf default all (schemaOf default relation) relation.name (lastOwner? options)

/-- The sequence has that owner. -/
def IsOwnedBy (q : Sequence) (owner : Option (String × String)) : Prop :=
  q.ownerTable = (owner.map (·.1) : Field String) ∧ q.ownerColumn = (owner.map (·.2) : Field String)

theorem IsOwnedBy.isOwned_eq {q : Sequence} {owner : Option (String × String)} (h : IsOwnedBy q owner) :
    q.isOwned = owner.any fun o => o.1 != "" && o.2 != "" := by
  unfold Sequence.isOwned
  rw [h.1, h.2]
  rcases owner with _ | ⟨table, column⟩
  · rfl
  · show (!(Json.isNothing (.text table)) && !(Json.isNothing (.text column))) = _
    rfl

theorem IsOwnedBy.inj {q : Sequence} {owner owner' : Option (String × String)} (h : IsOwnedBy q owner)
    (h' : IsOwnedBy q owner') : owner = owner' := by
  have htable := Field.mk.inj (h.1.symm.trans h'.1)
  have hcolumn := Field.mk.inj (h.2.symm.trans h'.2)
  rcases owner with _ | ⟨table, column⟩ <;> rcases owner' with _ | ⟨table', column'⟩
  · rfl
  · nomatch htable
  · nomatch htable
  · have hnames : table = table' ∧ column = column' := ⟨Json.text.inj htable, Json.text.inj hcolumn⟩
    rw [hnames.1, hnames.2]

theorem owner_sequenceOption {q q' : Sequence} {option : SequenceOption}
    (h : sequenceOption q option = .ok q') {owner : Option (String × String)} (hq : IsOwnedBy q owner) :
    IsOwnedBy q' (option.owner?.or owner) := by
  cases option with
  | dataType type | cycle enabled | other =>
    obtain rfl := Except.ok.inj h
    exact hq
  | start n | increment n | minimum n | maximum n =>
    obtain ⟨value, -, h⟩ := exists_of_bind_eq_ok h
    obtain rfl := Except.ok.inj h
    exact hq
  | ownedBy path =>
    unfold sequenceOption at h
    unfold SequenceOption.owner?
    dsimp only at h ⊢
    generalize path.reverse = parts at h ⊢
    rcases parts with _ | ⟨column, _ | ⟨table, rest⟩⟩
    · obtain rfl := Except.ok.inj h
      exact hq
    · obtain rfl := Except.ok.inj h
      exact hq
    · obtain rfl := Except.ok.inj h
      exact ⟨rfl, rfl⟩

theorem owner_sequenceOptions {q q' : Sequence} {options : List SequenceOption}
    (h : options.foldlM sequenceOption q = .ok q') (owner : Option (String × String))
    (hq : IsOwnedBy q owner) : IsOwnedBy q' ((lastOwner? options).or owner) := by
  induction options generalizing q owner with
  | nil =>
    obtain rfl := Except.ok.inj h
    exact hq
  | cons option options ih =>
    rw [List.foldlM_cons] at h
    obtain ⟨next, hnext, hrest⟩ := exists_of_bind_eq_ok h
    have hlast := ih hrest _ (owner_sequenceOption hnext hq)
    rwa [lastOwner?, List.reverse_cons, List.findSome?_append, List.findSome?_singleton, Option.or_assoc]

theorem ownerOf_of_comes {tag : Tag} {x : Content} (h : Comes default all attached tag x) :
    ∀ schema key q, tag = .object schema .sequence key → x = .sequence q →
      ∃ owner, OwnerOf default all schema key owner ∧ IsOwnedBy q owner := by
  induction h with
  | created said creates =>
    rintro schema key q rfl rfl
    rcases sequence_of_creates creates with
      ⟨definition, d, q', rfl, hd, hmem, rfl, rfl, hq⟩ | ⟨relation, options, q', rfl, hq', rfl, rfl, hq⟩
    · obtain rfl := Content.sequence.inj hq
      obtain ⟨column, hlisted, hname, htable, hcolumn⟩ := (draftOf_adds hd).2 q hmem
      rw [hname]
      exact ⟨_, .serial said hlisted, htable, hcolumn⟩
    · obtain rfl := Content.sequence.inj hq
      have howner := owner_sequenceOptions hq' none ⟨rfl, rfl⟩
      rw [Option.or_none] at howner
      exact ⟨_, .declared said, howner⟩
  | @altered _ tag x x' said before alters ih =>
    rintro schema key q rfl rfl
    cases x with
    | sequence q' =>
      obtain ⟨owner, howner, hq'⟩ := ih schema key q' rfl rfl
      refine ⟨owner, howner, ?_⟩
      cases alters with
      | unchanged => exact hq'
      | comment => exact hq'
    | _ => nomatch alters
  | filled => rintro _ _ _ ⟨⟩

/-! ## The sequence behind a serial column -/

theorem exists_sequence_of_addElements {elements : List TableElement}
    (h : (elements.foldlM (addElement default) d).result = .ok d') {column : String}
    (hcolumn : (∃ q ∈ d.sequences, q.name.spelled = d.table.name.spelled ++ "_" ++ column ++ "_seq") ∨
      column ∈ elements.filterMap serialColumn?) :
    ∃ q ∈ d'.sequences, q.name.spelled = d.table.name.spelled ++ "_" ++ column ++ "_seq" := by
  induction elements generalizing d with
  | nil =>
    obtain rfl := Except.ok.inj h
    simpa using hcolumn
  | cons element elements ih =>
    rw [List.foldlM_cons] at h
    obtain ⟨next, hnext, hrest⟩ := Logged.result_bind_eq_ok.mp h
    have hgains := gains_addElement hnext
    have hname : next.table.name = d.table.name ∧ ∀ q ∈ d.sequences, q ∈ next.sequences := by
      cases hgains with
      | serial _ _ edits => exact ⟨edits.name_eq.2, fun q hq => List.mem_append_left _ hq⟩
      | typed _ _ edits => exact ⟨edits.name_eq.2, fun q hq => hq⟩
      | edited _ edits => exact ⟨edits.name_eq.2, fun q hq => hq⟩
    rw [← hname.1]
    refine ih hrest ?_
    rcases hcolumn with ⟨q, hq, hqname⟩ | hcolumn
    · exact .inl ⟨q, hname.2 q hq, by rw [hqname, hname.1]⟩
    · obtain ⟨other, hother, hserial⟩ := List.mem_filterMap.mp hcolumn
      rcases List.mem_cons.mp hother with hfirst | hother
      · left
        rw [hname.1]
        rw [hfirst] at hserial
        cases hgains with
        | @serial definition _ base _ serial _ _ =>
          obtain rfl := Option.some.inj (serial.symm.trans hserial)
          exact ⟨serialSequence d.table definition.name base, by simp, rfl⟩
        | typed plain _ _ =>
          rw [plain] at hserial
          contradiction
        | edited other _ =>
          cases element with
          | column definition => contradiction
          | constraint clause => contradiction
          | other label => contradiction
      · exact .inr (List.mem_filterMap.mpr ⟨other, hother, hserial⟩)

theorem isSome_written {objects : List (String × Content)} {x : Content} {kind : ObjectKind}
    (hmem : (key, x) ∈ objects) (hkind : x.kind? = some kind) :
    (Schema.written objects kind key).isSome := by
  rw [Schema.written, Option.isSome_map, List.find?_isSome]
  exact ⟨(key, x), List.mem_reverse.mpr hmem, by simp [hkind]⟩

/-- A serial column's sequence is in the catalog, whatever the script says later. -/
theorem exists_sequence {c : Catalog} (h : (catalogOf default all).result = .ok c)
    {definition : TableDefinition} (said : .createTable definition ∈ all) {column : String}
    (listed : column ∈ definition.elements.filterMap serialColumn?) :
    ∃ q, c.at? (.object (schemaOf default definition.relation) .sequence
      (definition.relation.name ++ "_" ++ column ++ "_seq")) = some (.sequence q) := by
  obtain ⟨⟨progress, hrun, rfl⟩, -⟩ := exists_run h
  have heffects := effects_of_run hrun
  obtain ⟨before, after, hsplit⟩ := List.append_of_mem (mem_inOrder.mpr said)
  rw [hsplit, List.foldlM_append] at heffects
  obtain ⟨first, -, heffects⟩ := exists_of_bind_eq_ok heffects
  rw [List.foldlM_cons] at heffects
  obtain ⟨next, hnext, hlater⟩ := exists_of_bind_eq_ok heffects
  have hdraft : ∃ d, (draftOf default definition).result = .ok d := by
    obtain ⟨d, hd, -⟩ := Logged.result_bind_eq_ok.mp hnext
    exact ⟨d, hd⟩
  obtain ⟨d, hd⟩ := hdraft
  have hdrafted : ∃ q ∈ d.sequences,
      q.name.spelled = definition.relation.name ++ "_" ++ column ++ "_seq" := by
    obtain ⟨drafted, hdrafted, hd⟩ := Logged.result_bind_eq_ok.mp hd
    have hsame : d.sequences = drafted.sequences := by
      split at hd <;> (obtain rfl := Except.ok.inj hd; rfl)
    rw [hsame]
    exact exists_sequence_of_addElements hdrafted (.inr listed)
  obtain ⟨q, hq, hname⟩ := hdrafted
  have hput : (next.at? (.object (schemaOf default definition.relation) .sequence
      (definition.relation.name ++ "_" ++ column ++ "_seq"))).isSome := by
    have hwritten : (Schema.written (objectsOf d definition.relation.name) .sequence
        (definition.relation.name ++ "_" ++ column ++ "_seq")).isSome := by
      rw [← hname]
      exact isSome_written (x := .sequence q) (List.mem_append_left _ (List.mem_map.mpr ⟨q, hq, rfl⟩)) rfl
    rw [eq_of_createTable hd hnext, (Addition.turns_inSchema first _ _ _).contents, Option.isSome_or,
      Addition.inSchema]
    dsimp only
    rw [if_pos rfl, hwritten, Bool.true_or]
  have hlast := isSome_of_effects (by simp) hlater hput
  obtain ⟨-, -, -, hother⟩ := inherit_same progress.catalog progress.catalog.partitions
  have hsame : (inheritAll progress.catalog).at? (.object (schemaOf default definition.relation) .sequence
      (definition.relation.name ++ "_" ++ column ++ "_seq")) = _ := hother _ (by simp)
  rw [hsame]
  obtain ⟨x, hx⟩ := Option.isSome_iff_exists.mp hlast
  rw [Catalog.at?_object] at hx ⊢
  obtain ⟨held, hheld, hx⟩ := Option.bind_eq_some_iff.mp hx
  obtain ⟨q, hq, rfl⟩ := Option.map_eq_some_iff.mp hx
  rw [hheld]
  exact ⟨q, congrArg (Option.map Content.sequence) hq⟩

/-- Where nothing else defines it, the sequence belongs to the serial column. -/
theorem exists_owned_sequence {c : Catalog} (h : (catalogOf default all).result = .ok c)
    {definition : TableDefinition} (said : .createTable definition ∈ all) {column : String}
    (listed : column ∈ definition.elements.filterMap serialColumn?)
    (sole : ∀ s ∈ all, .object (schemaOf default definition.relation) .sequence
      (definition.relation.name ++ "_" ++ column ++ "_seq") ∈ definitions default s →
      s = .createTable definition) :
    ∃ q, c.at? (.object (schemaOf default definition.relation) .sequence
        (definition.relation.name ++ "_" ++ column ++ "_seq")) = some (.sequence q) ∧
      IsOwnedBy q (some (definition.relation.name, column)) := by
  obtain ⟨q, hq⟩ := exists_sequence h said listed
  obtain ⟨owner, howner, howned⟩ := ownerOf_of_comes (comes_of_at? h (by simp) hq) _ _ q rfl rfl
  refine ⟨q, hq, ?_⟩
  generalize hschema : schemaOf default definition.relation = schema at howner sole
  generalize hkey : definition.relation.name ++ "_" ++ column ++ "_seq" = key at howner sole
  cases howner with
  | @serial other column' said' listed' =>
    have hsame := sole _ said' (List.mem_cons_of_mem _ (List.mem_map.mpr ⟨column', listed', rfl⟩))
    obtain rfl := Statement.createTable.inj hsame
    have hcolumn : column = column' := by
      have hlists := congrArg String.toList hkey
      simp only [String.toList_append, List.append_assoc] at hlists
      have hend := List.append_cancel_left (List.append_cancel_left hlists)
      exact String.toList_injective (List.append_cancel_right hend)
    rw [hcolumn]
    exact howned
  | declared said' =>
    have hsame := sole _ said' (List.mem_singleton_self _)
    contradiction

/-! ## Serial columns and owned sequences -/

variable {c : Catalog}

/-- The columns of a table, each with its definition. -/
theorem exists_columnsOf (h : (catalogOf default all).result = .ok c) {schema : String}
    (ht : c.findTable? schema name = some t) :
    ∃ columns, ColumnsOf default all c.partitions schema name columns ∧
      List.Forall₂ (fun definition column => Declares definition (Column.supply column)) columns t.columns := by
  have hcontent : c.at? (.object schema .table name) = some (.table t) := by
    rw [Catalog.at?_table, ht]
    rfl
  obtain ⟨columns, hcolumns, hdeclared⟩ := columnsOf_of_comes (comes_of_at? h (by simp) hcontent) _ _ t rfl rfl
  exact ⟨columns, hcolumns, List.forall₂_map_right_iff.mp hdeclared⟩

/-- A column of a table with the default of its serial type or none, where no other statement of the script
defines the table or the sequence of the column, and none gives another sequence to the column. -/
structure Undisturbed (default : String) (all : List Statement) (definition : TableDefinition)
    (column : ColumnDefinition) : Prop where
  said : .createTable definition ∈ all
  listed : column ∈ definition.columns
  once : ∀ other ∈ definition.columns, other.name = column.name → other = column
  noDefault : column.lastDefault? = none
  soleTable : ∀ s ∈ all, .object (schemaOf default definition.relation) .table definition.relation.name ∈
    definitions default s → s = .createTable definition
  soleSequence : ∀ s ∈ all, .object (schemaOf default definition.relation) .sequence
    (definition.relation.name ++ "_" ++ column.name ++ "_seq") ∈ definitions default s → s = .createTable definition
  ownedByNone : ∀ relation options, .createSequence relation options ∈ all →
    schemaOf default relation = schemaOf default definition.relation →
    lastOwner? options ≠ some (definition.relation.name, column.name)

theorem exists_of_forall₂_of_mem {α β : Type} {R : α → β → Prop} {items : List α} {others : List β} {b : β}
    (h : List.Forall₂ R items others) (hb : b ∈ others) : ∃ a ∈ items, R a b := by
  obtain ⟨i, hi, rfl⟩ := List.getElem_of_mem hb
  have hlength : i < items.length := by rw [h.length_eq]; exact hi
  exact ⟨items[i], List.getElem_mem hlength, h.get hlength hi⟩

/-- Columns are known by the names that their definitions give. -/
theorem exists_columnName (h : (catalogOf default all).result = .ok c) {schema : String} {column : Column}
    (ht : c.findTable? schema name = some t) (hcolumn : column ∈ t.columns) :
    ∃ name : String, column.name = (name : Field String) := by
  obtain ⟨columns, -, hdeclared⟩ := exists_columnsOf h ht
  obtain ⟨definition, -, hdeclares⟩ := exists_of_forall₂_of_mem hdeclared hcolumn
  exact ⟨definition.name, hdeclares.name⟩

theorem mem_serialColumns_iff {definition : TableDefinition} {name : String} :
    name ∈ definition.elements.filterMap serialColumn? ↔
      ∃ column ∈ definition.columns, column.name = name ∧ column.type.isSerial := by
  have hserial (element : TableElement) : serialColumn? element = some name ↔
      ∃ column, element.column? = some column ∧ column.name = name ∧ column.type.isSerial := by
    cases element with
    | column column =>
      simp only [TableElement.column?, Option.some.injEq, exists_eq_left', serialColumn?, WrittenType.isSerial]
      by_cases harray : column.type.isArray
      · simp [harray]
      · cases serialBase? column.type.base <;> simp [harray]
    | constraint | other => simp [serialColumn?, TableElement.column?]
  simp only [TableDefinition.columns, List.mem_filterMap, hserial]
  constructor
  · rintro ⟨element, helement, column, hcolumn, hname⟩
    exact ⟨column, ⟨element, helement, hcolumn⟩, hname⟩
  · rintro ⟨column, ⟨element, helement, hcolumn⟩, hname⟩
    exact ⟨element, helement, column, hcolumn, hname⟩

/-- In an undisturbed column, serial type and owned sequence come together. -/
theorem isSerial_iff_owned {definition : TableDefinition} {column : ColumnDefinition}
    (h : (catalogOf default all).result = .ok c) (hcolumn : Undisturbed default all definition column)
    (ht : c.findTable? (schemaOf default definition.relation) definition.relation.name = some t) {shown : Column}
    (hshown : shown ∈ t.columns) (hname : shown.name = (column.name : Field String)) :
    shown.isSerial ↔ ∃ key q, c.at? (.object (schemaOf default definition.relation) .sequence key) =
      some (.sequence q) ∧ IsOwnedBy q (some (definition.relation.name, column.name)) := by
  have hserial : shown.isSerial = column.type.isSerial := by
    obtain ⟨columns, hcolumns, hdeclared⟩ := exists_columnsOf h ht
    have hnone : definition.columns ≠ [] := List.ne_nil_of_mem hcolumn.listed
    rw [hcolumns.eq_of_sole rfl rfl hnone hcolumn.soleTable] at hdeclared
    obtain ⟨other, hother, hdeclares⟩ := exists_of_forall₂_of_mem hdeclared hshown
    have hsame : other.name = column.name := by
      have hnames := hdeclares.name.symm.trans hname
      simpa using hnames
    rw [hcolumn.once other hother hsame] at hdeclares
    have hdraws := hdeclares.serial
    rwa [ColumnDefinition.drawsNumbers, hcolumn.noDefault] at hdraws
  rw [hserial]
  constructor
  · intro htype
    have hlisted := mem_serialColumns_iff.mpr ⟨column, hcolumn.listed, rfl, htype⟩
    obtain ⟨q, hq, howned⟩ := exists_owned_sequence h hcolumn.said hlisted hcolumn.soleSequence
    exact ⟨_, q, hq, howned⟩
  · rintro ⟨key, q, hq, howned⟩
    obtain ⟨owner, howner, howned'⟩ := ownerOf_of_comes (comes_of_at? h (by simp) hq) _ _ q rfl rfl
    obtain rfl := howned.inj howned'
    generalize hschema : schemaOf default definition.relation = schema at howner
    generalize hnames : some (definition.relation.name, column.name) = names at howner
    cases howner with
    | @serial other name said listed =>
      obtain ⟨htable, rfl⟩ := Prod.mk.inj (Option.some.inj hnames)
      have hsame := hcolumn.soleTable _ said (by rw [hschema, htable]; exact List.mem_cons_self)
      obtain rfl := Statement.createTable.inj hsame
      obtain ⟨again, hagain, hagainName, htype⟩ := mem_serialColumns_iff.mp listed
      rwa [hcolumn.once again hagain hagainName] at htype
    | declared said =>
      exact absurd hnames.symm (hcolumn.ownedByNone _ _ said hschema.symm)

end

end Effect

end SchemaScript
