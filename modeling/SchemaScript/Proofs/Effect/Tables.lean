import SchemaScript.Effect.Attached
import SchemaScript.Effect.Comment
import SchemaScript.Effect.Table
import SchemaScript.Proofs.Catalog.Typing
import SchemaScript.Proofs.Effect.Gives

/-!
# Tables that statements leave behind

Whatever statements do to a well-typed table, it stays well typed; the only refusal on the way is of a
number that is none.
-/

namespace SchemaScript

namespace Table

variable {t : Table}

theorem isTyped_iff : t.isTyped ↔
    [t.schema, t.name, t.comment, t.partitionStrategy, t.partitionKey].all (·.isTextual) ∧
      t.columns.all (·.isTyped) ∧ t.constraints.all (·.isTyped) ∧ t.indexes.all (·.isTyped) ∧
        t.triggers.all (·.isTyped) ∧ t.policies.all (·.isTyped) := by
  simp only [isTyped, Bool.and_eq_true, and_assoc]

theorem isTyped_withColumns (h : t.isTyped) {columns : List Column}
    (hcolumns : columns.all (·.isTyped)) : { t with columns }.isTyped := by
  rw [isTyped_iff] at h ⊢
  exact ⟨h.1, hcolumns, h.2.2⟩

theorem isTyped_withConstraints (h : t.isTyped) {constraints : Entries Constraint}
    (hconstraints : constraints.all (·.isTyped)) : { t with constraints }.isTyped := by
  rw [isTyped_iff] at h ⊢
  exact ⟨h.1, h.2.1, hconstraints, h.2.2.2⟩

theorem isTyped_withIndexes (h : t.isTyped) {indexes : Entries Index}
    (hindexes : indexes.all (·.isTyped)) : { t with indexes }.isTyped := by
  rw [isTyped_iff] at h ⊢
  exact ⟨h.1, h.2.1, h.2.2.1, hindexes, h.2.2.2.2⟩

theorem isTyped_withTriggers (h : t.isTyped) {triggers : Entries Trigger}
    (htriggers : triggers.all (·.isTyped)) : { t with triggers }.isTyped := by
  rw [isTyped_iff] at h ⊢
  exact ⟨h.1, h.2.1, h.2.2.1, h.2.2.2.1, htriggers, h.2.2.2.2.2⟩

theorem isTyped_withPolicies (h : t.isTyped) {policies : Entries Policy}
    (hpolicies : policies.all (·.isTyped)) : { t with policies }.isTyped := by
  rw [isTyped_iff] at h ⊢
  exact ⟨h.1, h.2.1, h.2.2.1, h.2.2.2.1, h.2.2.2.2.1, hpolicies⟩

/-- The names by which others refer to the table. -/
theorem isTextual_of_isTyped (h : t.isTyped) : t.schema.isTextual ∧ t.name.isTextual := by
  have hfields := (isTyped_iff.mp h).1
  simp only [List.all_cons, Bool.and_eq_true] at hfields
  exact ⟨hfields.1, hfields.2.1⟩

theorem isTyped_modifyColumn (h : t.isTyped) {f : Column → Column}
    (hf : ∀ c, c.isTyped → (f c).isTyped) (name : String) : (t.modifyColumn name f).isTyped := by
  have hcolumns := List.all_eq_true.mp (isTyped_iff.mp h).2.1
  refine isTyped_withColumns h (List.all_eq_true.mpr ?_)
  have hall (p : Column → Bool) (columns : List Column) (hall : ∀ c ∈ columns, c.isTyped) :
      ∀ c ∈ modifyFirst p f columns, c.isTyped := by
    induction columns with
    | nil => simp [modifyFirst]
    | cons c columns ih =>
      rw [List.forall_mem_cons] at hall
      rw [modifyFirst]
      split
      · exact List.forall_mem_cons.mpr ⟨hf c hall.1, hall.2⟩
      · exact List.forall_mem_cons.mpr ⟨hall.1, ih hall.2⟩
  exact hall _ _ hcolumns

end Table

namespace Effect

open Sql

variable {default : String} {t : Table}

/-! ## Numbers -/

theorem gives_wholeNumber (n : Number) : Gives (fun _ => True) (wholeNumber n) := by
  unfold wholeNumber
  split
  · trivial
  · split <;> simp [Gives, Fault.isInput]

theorem gives_maybeWholeNumber (n : Option Number) : Gives (fun _ => True) (maybeWholeNumber n) := by
  cases n with
  | none => trivial
  | some n => exact (gives_wholeNumber n).bind fun _ _ => trivial

/-! ## Columns -/

theorem gives_typedColumn (t : Table) (name : String) (position : Int) (type : WrittenType) :
    Gives (·.isTyped) (typedColumn t name position type) := by
  have hnumber (written : String) : Gives (fun _ => True) (wholeModifier written) :=
    gives_wholeNumber _
  have hok {c : Column} (h : c.isTyped) : Gives (·.isTyped) (pure c : Except Fault Column) := h
  unfold typedColumn
  dsimp only
  split
  · exact hok (by simp [Column.isTyped])
  · split
    · split <;> exact hok (by simp [Column.isTyped])
    · split
      · exact (hnumber _).bind fun _ _ => hok (by simp [Column.isTyped])
      · split
        · refine (hnumber _).bind fun _ _ => ?_
          split
          · exact hok (by simp [Column.isTyped])
          · exact (hnumber _).bind fun _ _ => hok (by simp [Column.isTyped])
        · exact hok (by simp [Column.isTyped])

/-- A table in the making is well typed, and so are the sequences that its columns own. -/
structure Draft.Typed (d : Draft) : Prop where
  table : d.table.isTyped
  sequences : ∀ s ∈ d.sequences, s.isTyped

theorem isTyped_serialSequence (h : t.isTyped) (column base : String) :
    (serialSequence t column base).isTyped := by
  obtain ⟨hschema, hname⟩ := Table.isTextual_of_isTyped h
  simp [Sequence.isTyped, serialSequence, hschema, hname]

theorem gives_addColumn {d : Draft} (h : d.Typed) (definition : ColumnDefinition) :
    Gives Draft.Typed (addColumn default d definition) := by
  have happend {c : Column} (hc : c.isTyped) : { d.table with columns := d.table.columns ++ [c] }.isTyped :=
    Table.isTyped_withColumns h.table (by
      rw [List.all_append, (Table.isTyped_iff.mp h.table).2.1]
      simp [hc])
  unfold addColumn
  dsimp only
  split
  · next base _ =>
    refine ⟨happend (by simp [Column.isTyped]), fun s hs => ?_⟩
    rcases List.mem_append.mp hs with hs | hs
    · exact h.sequences s hs
    · rw [List.mem_singleton.mp hs]
      exact isTyped_serialSequence h.table definition.name base
  · exact (gives_typedColumn _ _ _ _).bind fun c hc => ⟨happend hc, h.sequences⟩

theorem gives_identityOf (always : Bool) (options : List SequenceOption) :
    Gives (·.generation.isTextual) (identityOf always options) := by
  refine gives_foldlM (fun identity h option _ => ?_) (by cases always <;> rfl)
  cases option with
  | start n | increment n => exact (gives_wholeNumber n).bind fun _ _ => h
  | minimum n | maximum n => exact (gives_maybeWholeNumber n).bind fun _ _ => h
  | cycle enabled => exact h
  | dataType type => exact h
  | ownedBy path => exact h
  | other => exact h

theorem isTyped_changeLast (h : t.isTyped) {f : Column → Column}
    (hf : ∀ c, c.isTyped → (f c).isTyped) : (changeLast t f).isTyped := by
  have hcolumns := List.all_eq_true.mp (Table.isTyped_iff.mp h).2.1
  refine Table.isTyped_withColumns h (List.all_eq_true.mpr fun c hc => ?_)
  obtain ⟨i, hi⟩ := List.mem_iff_getElem?.mp hc
  rw [List.getElem?_modify] at hi
  obtain ⟨before, hbefore, rfl⟩ := Option.map_eq_some_iff.mp hi
  have hbefore := hcolumns before (List.mem_of_getElem? hbefore)
  split
  · exact hf before hbefore
  · exact hbefore

/-! ## Constraints -/

theorem all_isTyped_keyColumns (names : List String) : (keyColumns names).all (·.isTyped) := by
  rw [keyColumns, List.all_eq_true]
  intro c hc
  obtain ⟨i, hi, rfl⟩ := List.mem_mapIdx.mp hc
  simp [KeyColumn.isTyped]

theorem isTyped_constraintOf (h : t.isTyped) {clause : ConstraintClause} {c : Constraint}
    (hc : constraintOf default t clause = some c) : c.isTyped := by
  obtain ⟨hschema, hname⟩ := Table.isTextual_of_isTyped h
  unfold constraintOf at hc
  dsimp only at hc
  split at hc
  all_goals
    simp only [Option.some.injEq, reduceCtorEq] at hc
    try subst hc
  all_goals simp [Constraint.isTyped, hschema, hname, all_isTyped_keyColumns]

theorem isTyped_putConstraint (h : t.isTyped) {c : Constraint} (hc : c.isTyped) :
    (putConstraint t c).isTyped :=
  Table.isTyped_withConstraints h (Entries.all_put (Table.isTyped_iff.mp h).2.2.1 hc)

theorem isTyped_withoutNulls (h : t.isTyped) (columns : List String) :
    (withoutNulls t columns).isTyped := by
  unfold withoutNulls
  induction columns generalizing t with
  | nil => exact h
  | cons name columns ih =>
    refine ih (Table.isTyped_modifyColumn h ?_ name)
    exact fun _ hc => hc

theorem exists_addConstraint (default : String) (h : t.isTyped) (clause : ConstraintClause) :
    ∃ t', (addConstraint default t clause).result = .ok t' ∧ t'.isTyped := by
  unfold addConstraint
  split
  · exact ⟨t, rfl, h⟩
  · next c hc =>
    have hput := isTyped_putConstraint h (isTyped_constraintOf h hc)
    refine ⟨_, rfl, ?_⟩
    split
    · exact isTyped_withoutNulls hput clause.columns
    · exact hput

theorem gives_addConstraint (default : String) (h : t.isTyped) (clause : ConstraintClause) :
    Gives (·.isTyped) (addConstraint default t clause).result := by
  obtain ⟨t', ht, h⟩ := exists_addConstraint default h clause
  rw [ht]
  exact h

/-! ## Creation -/

theorem gives_applyRule (default : String) (h : t.isTyped) (rule : ColumnRule) :
    Gives (·.isTyped) (applyRule default t rule).result := by
  cases rule with
  | notNull | null => exact isTyped_changeLast h fun _ hc => hc
  | default value =>
    refine isTyped_changeLast h fun c hc => ?_
    simp only [Column.isTyped, List.all_cons, Bool.and_eq_true] at hc ⊢
    exact ⟨⟨hc.1.1, hc.1.2.1, hc.1.2.2.1, rfl, hc.1.2.2.2.2⟩, hc.2⟩
  | identity always options =>
    unfold applyRule
    rw [Logged.result_bind]
    refine (gives_identityOf always options).bind fun identity hidentity => ?_
    refine isTyped_changeLast h fun c hc => ?_
    simp only [Column.isTyped, List.all_cons, Bool.and_eq_true] at hc ⊢
    exact ⟨⟨hc.1.1, hc.1.2.1, hc.1.2.2.1, hc.1.2.2.2.1, hc.1.2.2.2.2.1, hidentity, rfl⟩, hc.2⟩
  | constraint clause => exact gives_addConstraint default h clause

theorem gives_addElement (default : String) {d : Draft} (h : d.Typed) (element : TableElement) :
    Gives Draft.Typed (addElement default d element).result := by
  cases element with
  | column definition =>
    unfold addElement
    rw [Logged.result_bind]
    refine (gives_addColumn h definition).bind fun d hd => ?_
    rw [Logged.result_bind, Logged.result_foldlM]
    refine (gives_foldlM (fun t ht rule _ => gives_applyRule default ht rule) hd.table).bind
      fun t ht => ?_
    exact ⟨ht, hd.sequences⟩
  | constraint clause =>
    unfold addElement
    rw [Logged.result_bind]
    exact (gives_addConstraint default h.table clause).bind fun t ht => ⟨ht, h.sequences⟩
  | other label => exact h

theorem gives_draftOf (default : String) (definition : TableDefinition) :
    Gives Draft.Typed (draftOf default definition).result := by
  unfold draftOf
  dsimp only
  rw [Logged.result_bind, Logged.result_foldlM]
  refine (gives_foldlM (fun d hd element _ => gives_addElement default hd element) ?_).bind
    fun d hd => ?_
  · exact ⟨by simp [Table.isTyped], by simp⟩
  · split
    · exact hd
    · refine ⟨?_, hd.sequences⟩
      have htable := Table.isTyped_iff.mp hd.table
      simp only [List.all_cons, Bool.and_eq_true] at htable
      simp [Table.isTyped_iff, htable]

theorem isTyped_attachmentOf {definition : TableDefinition} {a : PartitionAttachment}
    (h : attachmentOf default definition = some a) : a.isTyped := by
  unfold attachmentOf at h
  split at h
  · obtain rfl := Option.some.inj h
    rfl
  · contradiction

/-! ## Additions -/

theorem isTyped_indexColumn (i : Nat) (element : IndexElement) : (indexColumn i element).isTyped := by
  unfold indexColumn
  cases element.isExpression <;> cases element.isDescending <;>
    cases hclass : element.operatorClass <;> simp [IndexColumn.isTyped]

theorem isTyped_addIndex (h : t.isTyped) (definition : IndexDefinition) :
    (addIndex t definition).isTyped := by
  obtain ⟨hschema, hname⟩ := Table.isTextual_of_isTyped h
  have hcolumns : (definition.elements.mapIdx indexColumn).all (·.isTyped) := by
    rw [List.all_eq_true]
    intro c hc
    obtain ⟨i, hi, rfl⟩ := List.mem_mapIdx.mp hc
    exact isTyped_indexColumn i _
  refine Table.isTyped_withIndexes h (Entries.all_put (Table.isTyped_iff.mp h).2.2.2.1 ?_)
  simp [Index.isTyped, hschema, hname, hcolumns]

theorem isTyped_addTrigger (h : t.isTyped) (definition : TriggerDefinition) :
    (addTrigger t definition).isTyped := by
  obtain ⟨hschema, hname⟩ := Table.isTextual_of_isTyped h
  refine Table.isTyped_withTriggers h (Entries.all_put (Table.isTyped_iff.mp h).2.2.2.2.1 ?_)
  simp [Trigger.isTyped, hschema, hname]

theorem isTyped_addPolicy (h : t.isTyped) (definition : PolicyDefinition) :
    (addPolicy t definition).isTyped := by
  obtain ⟨hschema, hname⟩ := Table.isTextual_of_isTyped h
  refine Table.isTyped_withPolicies h (Entries.all_put (Table.isTyped_iff.mp h).2.2.2.2.2 ?_)
  simp [Policy.isTyped, hschema, hname]

/-- A table that is being changed is well typed, and so are the partitions that it gains. -/
structure Change.Typed (c : Change) : Prop where
  table : c.table.isTyped
  partitions : ∀ a ∈ c.partitions, a.isTyped

theorem exists_applyCommand (default : String) {c : Change} (h : c.Typed) (command : AlterCommand) :
    ∃ c', (applyCommand default c command).result = .ok c' ∧ c'.Typed := by
  cases command with
  | addConstraint clause =>
    obtain ⟨t, ht, htyped⟩ := exists_addConstraint default h.table clause
    refine ⟨{ c with table := t }, Logged.result_bind_eq_ok.mpr ⟨t, ht, rfl⟩, htyped, h.partitions⟩
  | rowSecurity enabled =>
    refine ⟨_, rfl, ?_, h.partitions⟩
    have htable := Table.isTyped_iff.mp h.table
    exact Table.isTyped_iff.mpr htable
  | attachPartition child bound =>
    obtain ⟨hschema, hname⟩ := Table.isTextual_of_isTyped h.table
    refine ⟨_, rfl, h.table, fun a ha => ?_⟩
    rcases List.mem_append.mp ha with ha | ha
    · exact h.partitions a ha
    · obtain rfl := List.mem_singleton.mp ha
      simp [PartitionAttachment.isTyped, hschema, hname, Json.isText]
  | other label => exact ⟨c, rfl, h⟩

theorem exists_applyCommands (default : String) {c : Change} (h : c.Typed)
    (commands : List AlterCommand) :
    ∃ c', (commands.foldlM (applyCommand default) c).result = .ok c' ∧ c'.Typed := by
  induction commands generalizing c with
  | nil => exact ⟨c, rfl, h⟩
  | cons command commands ih =>
    obtain ⟨next, hnext, h⟩ := exists_applyCommand default h command
    obtain ⟨last, hlast, h⟩ := ih h
    exact ⟨last, by rw [List.foldlM_cons, Logged.result_bind_eq_ok]; exact ⟨next, hnext, hlast⟩, h⟩

/-! ## Comments -/

/-- A change that keeps entries well typed keeps them so where one entry is changed. -/
theorem all_changeNamed? {α : Type} {p : α → Bool} {entries entries' : Entries α} {name : String}
    {f : α → α} (h : entries.all p) (hf : ∀ a, p a → p (f a))
    (hchange : changeNamed? entries name f = some entries') : entries'.all p := by
  obtain ⟨value, hvalue, rfl⟩ := Option.map_eq_some_iff.mp hchange
  exact Entries.all_put h (hf value (Entries.all_get? h hvalue))

end Effect

section

variable {text : Option String}

theorem Table.isTyped_commented {t : Table} (h : t.isTyped) : { t with comment := text }.isTyped := by
  rw [Table.isTyped_iff] at h ⊢
  simp only [List.all_cons, Bool.and_eq_true] at h ⊢
  exact ⟨⟨h.1.1, h.1.2.1, Field.isTextual_ofText? text, h.1.2.2.2⟩, h.2⟩

theorem Column.isTyped_commented {c : Column} (h : c.isTyped) : { c with comment := text }.isTyped := by
  simp_all [Column.isTyped]

theorem Constraint.isTyped_commented {c : Constraint} (h : c.isTyped) :
    { c with comment := text }.isTyped := by
  simp_all [Constraint.isTyped]

theorem Index.isTyped_commented {i : Index} (h : i.isTyped) : { i with comment := text }.isTyped := by
  simp_all [Index.isTyped]

theorem Trigger.isTyped_commented {t : Trigger} (h : t.isTyped) :
    { t with comment := text }.isTyped := by
  simp_all [Trigger.isTyped]

end

namespace Effect

open Sql

variable {t t' : Table} {name : String} {text : Option String}

theorem isTyped_commentPart? {kind : CommentKind} (h : t.isTyped)
    (hchange : commentPart? t kind name text = some t') : t'.isTyped := by
  have htable := Table.isTyped_iff.mp h
  cases kind with
  | column =>
    obtain ⟨c, -, rfl⟩ := Option.map_eq_some_iff.mp hchange
    exact Table.isTyped_modifyColumn h (fun c hc => Column.isTyped_commented hc) name
  | constraint =>
    obtain ⟨constraints, hconstraints, rfl⟩ := Option.map_eq_some_iff.mp hchange
    exact Table.isTyped_withConstraints h
      (all_changeNamed? htable.2.2.1 (fun _ hc => Constraint.isTyped_commented hc) hconstraints)
  | trigger =>
    obtain ⟨triggers, htriggers, rfl⟩ := Option.map_eq_some_iff.mp hchange
    exact Table.isTyped_withTriggers h
      (all_changeNamed? htable.2.2.2.2.1 (fun _ hg => Trigger.isTyped_commented hg) htriggers)
  | extension | table | view | materializedView | sequence | type | domain | function | procedure
  | aggregate | index => contradiction

theorem isTyped_commentIndex? {tables : List (String × Table)} {key : String}
    (h : ∀ entry ∈ tables, entry.2.isTyped) (hchange : commentIndex? name text tables = some (key, t')) :
    t'.isTyped := by
  induction tables with
  | nil => contradiction
  | cons entry tables ih =>
    obtain ⟨k, t⟩ := entry
    rw [List.forall_mem_cons] at h
    rw [commentIndex?] at hchange
    split at hchange
    · next indexes hindexes =>
      obtain ⟨rfl, rfl⟩ := Prod.mk.inj (Option.some.inj hchange)
      exact Table.isTyped_withIndexes h.1 (all_changeNamed? (Table.isTyped_iff.mp h.1).2.2.2.1
        (fun _ hi => Index.isTyped_commented hi) hindexes)
    · exact ih h.2 hchange

end Effect
end SchemaScript
