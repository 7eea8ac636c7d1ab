import SchemaScript.Effect.Script
import SchemaScript.Proofs.Catalog.Filing
import SchemaScript.Proofs.Effect.Gives
import Mathlib.Logic.Relation

/-!
# What a statement adds to objects that are there

A dependent statement leaves the catalog as it is or makes one of the changes of `Amends`; what it does to a
table is a row of single edits (`Edit`). Whatever all edits keep, every dependent statement keeps
(`amends_of_isDependent`).
-/

namespace SchemaScript

open Relation (ReflTransGen)

namespace Effect

open Sql

variable {default : String}

/-! ## Columns in place -/

/-- What no statement changes of a column that is there. -/
def fixedPart (c : Column) : Column where
  name := c.name
  position := c.position
  dataType := c.dataType
  userType := c.userType
  maxLength := c.maxLength
  precision := c.precision
  scale := c.scale

section

variable {α : Type} {part : Column → α}

theorem map_modifyFirst {p : Column → Bool} {f : Column → Column} (hf : ∀ c, part (f c) = part c)
    (columns : List Column) : (Table.modifyFirst p f columns).map part = columns.map part := by
  induction columns with
  | nil => rfl
  | cons c columns ih =>
    unfold Table.modifyFirst
    split
    · rw [List.map_cons, List.map_cons, hf]
    · rw [List.map_cons, List.map_cons, ih]

theorem map_modify {f : Column → Column} {g : α → α} (hf : ∀ c, part (f c) = g (part c))
    (columns : List Column) (i : Nat) : (columns.modify i f).map part = (columns.map part).modify i g := by
  refine List.ext_getElem? fun j => ?_
  rw [List.getElem?_map, List.getElem?_modify, List.getElem?_modify, List.getElem?_map]
  cases columns[j]? with
  | none => rfl
  | some c =>
    by_cases hij : i = j
    · simp [hij, hf]
    · simp [hij]

/-- Whatever does not tell whether a column holds nulls stays. -/
theorem map_withoutNulls (hnull : ∀ c, part { c with nullable := false } = part c) (t : Table)
    (columns : List String) : (withoutNulls t columns).columns.map part = t.columns.map part := by
  unfold withoutNulls
  induction columns generalizing t with
  | nil => rfl
  | cons name columns ih =>
    rw [List.foldl_cons, ih]
    exact map_modifyFirst hnull t.columns

end

theorem withoutNulls_eq (t : Table) (columns : List String) :
    withoutNulls t columns = { t with columns := (withoutNulls t columns).columns } := by
  unfold withoutNulls
  induction columns generalizing t with
  | nil => rfl
  | cons name columns ih =>
    rw [List.foldl_cons]
    exact ih _

/-! ## Edits of a table -/

/-- One change to a table. -/
inductive Edit (default : String) (t : Table) : Table → Prop
  /-- Columns change in place. -/
  | columns {columns : List Column} (same : columns.map fixedPart = t.columns.map fixedPart) :
    Edit default t { t with columns }
  | constraint {clause : ConstraintClause} {c : Constraint} (h : constraintOf default t clause = some c) :
    Edit default t (putConstraint t c)
  | index (definition : IndexDefinition) : Edit default t (addIndex t definition)
  | trigger (definition : TriggerDefinition) : Edit default t (addTrigger t definition)
  | policy (definition : PolicyDefinition) : Edit default t (addPolicy t definition)
  | rowSecurity (enabled : Field Bool) : Edit default t { t with rowSecurity := enabled }
  | comment (text : Option String) : Edit default t { t with comment := text }
  | constraintComment {name : String} {text : Option String} {constraints : Entries Constraint}
      (h : changeNamed? t.constraints name (fun x => { x with comment := text }) = some constraints) :
    Edit default t { t with constraints }
  | triggerComment {name : String} {text : Option String} {triggers : Entries Trigger}
      (h : changeNamed? t.triggers name (fun x => { x with comment := text }) = some triggers) :
    Edit default t { t with triggers }
  | indexComment {name : String} {text : Option String} {indexes : Entries Index}
      (h : changeNamed? t.indexes name (fun x => { x with comment := text }) = some indexes) :
    Edit default t { t with indexes }

/-- Changes to a table, one after another. -/
def Edits (default : String) : Table → Table → Prop :=
  ReflTransGen (Edit default)

variable {t t' : Table} {name : String} {text : Option String}

theorem edits_addConstraint {clause : ConstraintClause}
    (h : (addConstraint default t clause).result = .ok t') : Edits default t t' := by
  unfold addConstraint at h
  split at h
  · obtain rfl := Except.ok.inj h
    exact .refl
  · next c hc =>
    obtain rfl := Except.ok.inj h
    have hput : Edit default t (putConstraint t c) := .constraint hc
    split
    · rw [withoutNulls_eq]
      exact .tail (.single hput) (.columns (map_withoutNulls (fun _ => rfl) _ _))
    · exact .single hput

theorem edits_changeLast {f : Column → Column} (hf : ∀ c, fixedPart (f c) = fixedPart c) :
    Edits default t (changeLast t f) := by
  refine .single (.columns ?_)
  rw [map_modify (g := id) hf, List.modify_id]

theorem edits_applyRule {rule : ColumnRule} (h : (applyRule default t rule).result = .ok t') :
    Edits default t t' := by
  cases rule with
  | notNull | null | default value =>
    obtain rfl := Except.ok.inj h
    exact edits_changeLast fun _ => rfl
  | identity always options =>
    obtain ⟨identity, -, h⟩ := Logged.result_bind_eq_ok.mp h
    obtain rfl := Except.ok.inj h
    exact edits_changeLast fun _ => rfl
  | constraint clause => exact edits_addConstraint h

theorem edits_applyRules {rules : List ColumnRule}
    (h : (rules.foldlM (applyRule default) t).result = .ok t') : Edits default t t' :=
  Logged.keeps_foldlM (Q := Edits default t)
    (fun _ _ _ _ hsofar hstep => ReflTransGen.trans hsofar (edits_applyRule hstep)) .refl h

theorem Edit.map_fixedPart_eq (h : Edit default t t') :
    t'.columns.map fixedPart = t.columns.map fixedPart := by
  cases h with
  | columns same => exact same
  | _ => rfl

/-- Edits neither add nor remove columns, and leave them their types. -/
theorem Edits.map_fixedPart_eq (h : Edits default t t') :
    t'.columns.map fixedPart = t.columns.map fixedPart := by
  induction h with
  | refl => rfl
  | tail _ hedit ih => exact hedit.map_fixedPart_eq.trans ih

theorem Edit.name_eq (h : Edit default t t') : t'.schema = t.schema ∧ t'.name = t.name := by
  cases h <;> exact ⟨rfl, rfl⟩

theorem Edits.name_eq (h : Edits default t t') : t'.schema = t.schema ∧ t'.name = t.name := by
  induction h with
  | refl => exact ⟨rfl, rfl⟩
  | tail _ hedit ih => exact ⟨hedit.name_eq.1.trans ih.1, hedit.name_eq.2.trans ih.2⟩

/-! ## Elements of a new table -/

/-- The element declares a column. -/
def isColumn : TableElement → Bool
  | .column _ => true
  | _ => false

/-- The name of the column, if its type asks for a sequence. -/
def serialColumn? : TableElement → Option String
  | .column definition =>
    if definition.type.isArray then none
    else (serialBase? definition.type.base).map fun _ => definition.name
  | _ => none

/-- One element more in a draft. -/
inductive Gains (default : String) (d : Draft) : TableElement → Draft → Prop
  /-- The column brings a sequence along. -/
  | serial {definition : ColumnDefinition} {column : Column} {base : String} {t : Table}
      (serial : serialColumn? (.column definition) = some definition.name)
      (position : column.position = (Int.ofNat d.table.columns.length + 1 : Int))
      (edits : Edits default { d.table with columns := d.table.columns ++ [column] } t) :
    Gains default d (.column definition)
      { table := t, sequences := d.sequences ++ [serialSequence d.table definition.name base] }
  | typed {definition : ColumnDefinition} {column : Column} {t : Table}
      (plain : serialColumn? (.column definition) = none)
      (typed : typedColumn d.table definition.name (Int.ofNat d.table.columns.length + 1) definition.type =
        .ok column)
      (edits : Edits default { d.table with columns := d.table.columns ++ [column] } t) :
    Gains default d (.column definition) { d with table := t }
  | edited {element : TableElement} {t : Table} (other : isColumn element = false)
      (edits : Edits default d.table t) : Gains default d element { d with table := t }

theorem gains_addElement {d d' : Draft} {element : TableElement}
    (h : (addElement default d element).result = .ok d') : Gains default d element d' := by
  cases element with
  | column definition =>
    obtain ⟨next, hnext, h⟩ := Logged.result_bind_eq_ok.mp h
    obtain ⟨t, ht, h⟩ := Logged.result_bind_eq_ok.mp h
    obtain rfl := Except.ok.inj h
    change addColumn default d definition = .ok next at hnext
    unfold addColumn at hnext
    dsimp only at hnext
    split at hnext
    · next base hbase =>
      obtain rfl := Except.ok.inj hnext
      refine .serial ?_ rfl (edits_applyRules ht)
      unfold serialColumn?
      dsimp only
      split at hbase
      · contradiction
      · next harray => rw [if_neg harray, hbase, Option.map_some]
    · next hbase =>
      obtain ⟨column, hcolumn, hnext⟩ := exists_of_bind_eq_ok hnext
      obtain rfl := Except.ok.inj hnext
      refine .typed ?_ hcolumn (edits_applyRules ht)
      unfold serialColumn?
      dsimp only
      split at hbase
      · next harray => rw [if_pos harray]
      · next harray => rw [if_neg harray, hbase, Option.map_none]
  | constraint clause =>
    obtain ⟨t, ht, h⟩ := Logged.result_bind_eq_ok.mp h
    obtain rfl := Except.ok.inj h
    exact .edited rfl (edits_addConstraint ht)
  | other label =>
    obtain rfl := Except.ok.inj h
    exact .edited rfl .refl

/-! ## Attached partitions -/

/-- The partition is attached to the table. -/
def IsPartOf (t : Table) (a : PartitionAttachment) : Prop :=
  a.parentSchema = t.schema ∧ a.parentTable = t.name ∧
    ∃ childSchema childTable : String, a.childSchema = childSchema ∧ a.childTable = childTable

theorem edits_applyCommands {commands : List AlterCommand} {change : Change}
    (h : (commands.foldlM (applyCommand default) { table := t }).result = .ok change) :
    Edits default t change.table ∧ ∀ a ∈ change.partitions, IsPartOf t a := by
  have hfirst : Edits default t t := .refl
  refine Logged.keeps_foldlM
    (Q := fun c : Change => Edits default t c.table ∧ ∀ a ∈ c.partitions, IsPartOf t a)
    (fun command _ c c' hsofar hstep => ?_) ⟨hfirst, by simp⟩ h
  obtain ⟨hedits, hparts⟩ := hsofar
  cases command with
  | addConstraint clause =>
    obtain ⟨next, hnext, hstep⟩ := Logged.result_bind_eq_ok.mp hstep
    obtain rfl := Except.ok.inj hstep
    exact ⟨hedits.trans (edits_addConstraint hnext), hparts⟩
  | rowSecurity enabled =>
    obtain rfl := Except.ok.inj hstep
    exact ⟨hedits.tail (.rowSecurity enabled), hparts⟩
  | attachPartition child bound =>
    obtain rfl := Except.ok.inj hstep
    refine ⟨hedits, fun a ha => ?_⟩
    rcases List.mem_append.mp ha with ha | ha
    · exact hparts a ha
    · obtain rfl := List.mem_singleton.mp ha
      exact ⟨hedits.name_eq.1, hedits.name_eq.2, _, _, rfl, rfl⟩
  | other label =>
    obtain rfl := Except.ok.inj hstep
    exact ⟨hedits, hparts⟩

theorem edits_commentPart? {kind : CommentKind} (h : commentPart? t kind name text = some t') :
    Edits default t t' := by
  refine .single ?_
  cases kind with
  | column =>
    obtain ⟨c, -, rfl⟩ := Option.map_eq_some_iff.mp h
    refine .columns (map_modifyFirst (fun c => ?_) t.columns)
    rfl
  | constraint =>
    obtain ⟨constraints, hconstraints, rfl⟩ := Option.map_eq_some_iff.mp h
    exact .constraintComment hconstraints
  | trigger =>
    obtain ⟨triggers, htriggers, rfl⟩ := Option.map_eq_some_iff.mp h
    exact .triggerComment htriggers
  | extension | table | view | materializedView | sequence | type | domain | function | procedure
  | aggregate | index => contradiction

/-- The index that gets a comment belongs to a table that is listed. -/
theorem exists_of_commentIndex? {tables : List (String × Table)} {key : String}
    (h : commentIndex? name text tables = some (key, t')) : ∃ t indexes, (key, t) ∈ tables ∧
      changeNamed? t.indexes name (fun x => { x with comment := text }) = some indexes ∧
      t' = { t with indexes } := by
  induction tables with
  | nil => contradiction
  | cons entry tables ih =>
    obtain ⟨k, t⟩ := entry
    unfold commentIndex? at h
    split at h
    · next indexes hindexes =>
      obtain ⟨rfl, rfl⟩ := Prod.mk.inj (Option.some.inj h)
      exact ⟨t, indexes, List.mem_cons_self .., hindexes, rfl⟩
    · obtain ⟨t, indexes, hmem, hchange⟩ := ih h
      exact ⟨t, indexes, List.mem_cons_of_mem _ hmem, hchange⟩

/-! ## Changes to a catalog -/

/-- What a statement may do that adds to objects. -/
inductive Amends (default : String) (c : Catalog) : Catalog → Prop
  | unchanged : Amends default c c
  /-- A table is edited and may gain partitions. -/
  | table {schema name : String} {t t' : Table} (found : c.findTable? schema name = some t)
      (edits : Edits default t t') {gained : List PartitionAttachment} (parts : ∀ a ∈ gained, IsPartOf t a) :
    Amends default c
      { c.modifyTable schema name fun _ => t' with partitions := c.partitions ++ gained }
  | indexPartitions (gained : List IndexAttachment) :
    Amends default c { c with indexPartitions := c.indexPartitions ++ gained }
  /-- An object that is not part of a table gets a comment. -/
  | object {schema name : String} {s s' : Schema} {kind : CommentKind} {text : Option String}
      (found : c.schemas.get? schema = some s) (change : commentObject? s kind name text = some s')
      (tables : s'.tables = s.tables) :
    Amends default c { c with schemas := c.schemas.put schema s' }
  | extension {name : String} {text : Option String} {extensions : Entries Extension}
      (h : changeNamed? c.extensions name (fun x => { x with comment := text }) = some extensions) :
    Amends default c { c with extensions }

variable {c c' : Catalog}

theorem modifyTable_const {schema name : String} {s : Schema} {t : Table}
    (hs : c.schemas.get? schema = some s) (ht : s.tables.get? name = some t) (t' : Table) :
    c.modifyTable schema name (fun _ => t') =
      { c with schemas := c.schemas.put schema { s with tables := s.tables.put name t' } } := by
  unfold Catalog.modifyTable Entries.modify
  rw [hs]
  dsimp only
  rw [ht]

theorem amends_table {schema name : String} (found : c.findTable? schema name = some t)
    (edits : Edits default t t') : Amends default c (c.modifyTable schema name fun _ => t') := by
  have h := Amends.table found edits (List.forall_mem_nil _)
  rwa [List.append_nil] at h

theorem amends_withTable {relation : RelationName} {f : Table → Logged Table}
    (hf : ∀ t t', (f t).result = .ok t' → Edits default t t')
    (h : (withTable default c relation f).result = .ok c') : Amends default c c' := by
  unfold withTable at h
  dsimp only at h
  split at h
  · obtain rfl := Except.ok.inj h
    exact .unchanged
  · next t ht =>
    obtain ⟨t', ht', h⟩ := Logged.result_bind_eq_ok.mp h
    obtain rfl := Except.ok.inj h
    exact amends_table ht (hf t t' ht')

theorem amends_alterTable {relation : RelationName} {commands : List AlterCommand}
    (h : (alterTable default c relation commands).result = .ok c') : Amends default c c' := by
  unfold alterTable at h
  dsimp only at h
  split at h
  · refine amends_withTable (fun t t' ht => ?_) h
    obtain rfl := Except.ok.inj ht
    exact .refl
  · next t ht =>
    obtain ⟨change, hchange, h⟩ := Logged.result_bind_eq_ok.mp h
    obtain rfl := Except.ok.inj h
    obtain ⟨hedits, hparts⟩ := edits_applyCommands hchange
    exact .table ht hedits hparts

theorem amends_commentObject? {schema : String} {s s' : Schema} {kind : CommentKind}
    (hs : c.schemas.get? schema = some s) (h : commentObject? s kind name text = some s') :
    Amends default c { c with schemas := c.schemas.put schema s' } := by
  cases kind with
  | table =>
    obtain ⟨tables, htables, rfl⟩ := Option.map_eq_some_iff.mp h
    obtain ⟨t, ht, rfl⟩ := Option.map_eq_some_iff.mp htables
    rw [← modifyTable_const hs ht]
    exact amends_table (Option.bind_eq_some_iff.mpr ⟨s, hs, ht⟩) (.single (.comment text))
  | index =>
    obtain ⟨⟨key, t'⟩, hkey, rfl⟩ := Option.map_eq_some_iff.mp h
    obtain ⟨t, indexes, hmem, hindexes, rfl⟩ := exists_of_commentIndex? hkey
    have ht := Entries.get?_eq_some_iff.mpr hmem
    rw [← modifyTable_const hs ht]
    exact amends_table (Option.bind_eq_some_iff.mpr ⟨s, hs, ht⟩) (.single (.indexComment hindexes))
  | view | materializedView | sequence | type | domain | function | procedure | aggregate =>
    refine .object hs h ?_
    obtain ⟨entries, -, rfl⟩ := Option.map_eq_some_iff.mp h
    rfl
  | extension | column | constraint | trigger => contradiction

theorem amends_commentOnPart? {kind : CommentKind} {path : List String}
    (h : commentOnPart? default c kind path text = some c') : Amends default c c' := by
  unfold commentOnPart? at h
  dsimp only at h
  split at h
  · contradiction
  · next t ht =>
    obtain ⟨t', hpart, rfl⟩ := Option.map_eq_some_iff.mp h
    exact amends_table ht (edits_commentPart? hpart)

theorem amends_commentOn? {kind : CommentKind} {path : List String}
    (h : commentOn? default c kind path text = some c') : Amends default c c' := by
  unfold commentOn? at h
  split at h
  · obtain ⟨extensions, hextensions, rfl⟩ := Option.map_eq_some_iff.mp h
    exact .extension hextensions
  · exact amends_commentOnPart? h
  · exact amends_commentOnPart? h
  · exact amends_commentOnPart? h
  · dsimp only at h
    split at h
    · contradiction
    · next s hs =>
      obtain ⟨s', hobject, rfl⟩ := Option.map_eq_some_iff.mp h
      exact amends_commentObject? hs hobject

theorem amends_comment {kind : CommentKind} {path : List String}
    (h : (comment default c kind path text).result = .ok c') : Amends default c c' := by
  unfold comment at h
  split at h
  · contradiction
  · split at h
    · next c'' hc'' =>
      obtain rfl := Except.ok.inj h
      exact amends_commentOn? hc''
    · obtain rfl := Except.ok.inj h
      exact .unchanged

/-- A statement that adds to objects makes one of the changes, or none. -/
theorem amends_of_isDependent {s : Statement} (hs : s.isDependent)
    (h : (applyTo default c s).result = .ok c') : Amends default c c' := by
  cases s with
  | createIndex definition =>
    refine amends_withTable (fun t t' ht => ?_) h
    obtain rfl := Except.ok.inj ht
    exact .single (.index definition)
  | createTrigger definition =>
    refine amends_withTable (fun t t' ht => ?_) h
    obtain rfl := Except.ok.inj ht
    exact .single (.trigger definition)
  | createPolicy definition =>
    refine amends_withTable (fun t t' ht => ?_) h
    obtain rfl := Except.ok.inj ht
    exact .single (.policy definition)
  | alterTable relation commands => exact amends_alterTable h
  | alterIndex relation commands =>
    obtain ⟨found, -, h⟩ := Logged.result_bind_eq_ok.mp h
    obtain rfl := Except.ok.inj h
    exact .indexPartitions found
  | comment kind path text => exact amends_comment h
  | otherComment label =>
    obtain rfl := Except.ok.inj h
    exact .unchanged
  | _ => contradiction

end Effect
end SchemaScript
