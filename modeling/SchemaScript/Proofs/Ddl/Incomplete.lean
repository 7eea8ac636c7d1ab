import SchemaScript.Proofs.Ddl.Checks
import SchemaScript.Proofs.Sql.Quoting

/-!
# Statements that lack a name

Most statements are not written where a name that they have to mention is missing. Three are: the composite
type with an incomplete member, the index built from its columns without a table, and row security on a table
without a name (`Subject.ddl_eq_empty_iff`). Where the name is null they say `None` (`Subject.shows_none`).
-/

namespace SchemaScript

/-- An object with the statement about it; row security is a statement of its own. -/
inductive Subject
  | extension (e : Extension)
  | schema (s : Schema)
  | type (t : UserType)
  | sequence (s : Sequence)
  | table (t : Table)
  | rowSecurity (t : Table)
  | constraint (c : Constraint)
  | index (i : Index)
  | trigger (t : Trigger)
  | policy (p : Policy)
  | view (v : View)
  | function (f : StoredFunction)
  | aggregate (a : Aggregate)
  | procedure (p : Procedure)

namespace Subject

variable {s : Subject} {target : Option String}

def isTyped : Subject → Bool
  | extension e => e.isTyped
  | schema s => s.isTyped
  | type t => t.isTyped
  | sequence s => s.isTyped
  | table t | rowSecurity t => t.isTyped
  | constraint c => c.isTyped
  | index i => i.isTyped
  | trigger t => t.isTyped
  | policy p => p.isTyped
  | view v => v.isTyped
  | function f => f.isTyped
  | aggregate a => a.isTyped
  | procedure p => p.isTyped

def ddl (target : Option String) : Subject → String
  | extension e => e.ddl
  | schema s => s.ddl
  | type t => t.ddl target
  | sequence s => s.ddl target
  | table t => t.ddl target
  | rowSecurity t => t.rowSecurityDdl target
  | constraint c => c.ddl target
  | index i => i.ddl target
  | trigger t => t.ddl target
  | policy p => p.ddl target
  | view v => v.ddl target
  | function f => f.ddl target
  | aggregate a => a.ddl target
  | procedure p => p.ddl target

/-- Refuses an object whose statement cannot be written. -/
def check (target : Option String) : Subject → Except Fault Unit
  | extension e => e.check
  | schema s => s.check
  | type t => t.check
  | sequence s => s.check
  | table t => t.check target
  | rowSecurity t => t.checkRowSecurity
  | constraint c => c.check target
  | index i => i.check
  | trigger t => t.check
  | policy p => p.check
  | view v => v.check
  | function f => f.check target
  | aggregate a => a.check target
  | procedure p => p.check

theorem check_of_isTyped (h : s.isTyped) : s.check target = .ok () := by
  cases s with
  | extension e => exact Extension.check_of_isTyped h
  | schema s => exact Schema.check_of_isTyped h
  | type t => exact UserType.check_of_isTyped h
  | sequence s => exact Sequence.check_of_isTyped h
  | table t => exact Table.check_of_isTyped h
  | rowSecurity t => exact Table.checkRowSecurity_of_isTyped h
  | constraint c => exact Constraint.check_of_isTyped h
  | index i => exact Index.check_of_isTyped h
  | trigger t => exact Trigger.check_of_isTyped h
  | policy p => exact Policy.check_of_isTyped h
  | view v => exact View.check_of_isTyped h
  | function f => exact StoredFunction.check_of_isTyped h
  | aggregate a => exact Aggregate.check_of_isTyped h
  | procedure p => exact Procedure.check_of_isTyped h

/-! ## What a statement has to mention -/

end Subject

/-- The names in a constraint's clause. -/
def Constraint.mentions (c : Constraint) : List (Field String) :=
  match c.kind with
  | .primaryKey | .unique => c.columns.map (·.name)
  | .foreignKey => c.referencedTable :: (c.columns ++ c.referencedColumns).map (·.name)
  | .check | .exclusion => []

/-- The names in a type's body. -/
def UserType.mentions (t : UserType) : List (Field String) :=
  match t.kind with
  | .enum => []
  | .composite => t.members.flatMap fun m => [m.name, m.dataType]
  | .domain => [t.base]

namespace Subject

/-- The names and bodies that the statement has to mention. -/
def mentions : Subject → List (Field String)
  | extension e => [e.name]
  | schema s => [s.name]
  | type t => t.name :: t.mentions
  | sequence s => [s.name]
  | table t => t.name :: t.columns.flatMap fun c => [c.name, c.dataType]
  | rowSecurity t => [t.name]
  | constraint c => c.name :: c.table :: c.mentions
  -- a stored definition holds the table and the columns already
  | index i => i.name :: if i.definition.isGiven then [] else i.table :: i.columns.map (·.name)
  | trigger t => [t.name, t.table, t.function]
  | policy p => [p.name, p.table]
  | view v => [v.name, v.definition]
  | function f => [f.name, f.definition]
  | aggregate a => [a.name, a.transition, a.stateType]
  | procedure p => [p.name, p.definition]

/-- Something that the statement has to mention is null or empty. -/
def lacksName (s : Subject) : Bool :=
  s.mentions.any fun f => !f.isGiven

/-- The statement is written without a look at its members, its table or its name. -/
def isUnguarded : Subject → Bool
  | type t => t.kind == .composite && t.name.isGiven && !t.members.isEmpty
  | index i => i.name.isGiven && !i.definition.isGiven && i.hasColumns
  | rowSecurity t => t.rowSecurity.isGiven
  | _ => false

end Subject

/-! ## Objects with a guard -/

theorem Field.given_of_not_isGiven {α : Type} {f : Field α} (h : f.isGiven = false) :
    f.given = none := by
  simp [given, h]

theorem Constraint.clause_of_lacksName {c : Constraint} {target : Option String}
    (h : ∃ f ∈ c.mentions, f.isGiven = false) : c.clause target = "" := by
  obtain ⟨f, hf, hmissing⟩ := h
  have hlist {columns : List KeyColumn} (hcolumn : ∃ k ∈ columns, k.name.isGiven = false) :
      columnList? (byPosition (·.position) columns) = none := by
    obtain ⟨k, hk, hname⟩ := hcolumn
    refine if_neg fun hall => ?_
    have := List.all_eq_true.mp hall k (mem_byPosition.mpr hk)
    simp [hname] at this
  unfold mentions at hf
  unfold clause sortedColumns sortedReferencedColumns
  cases hkind : c.kind with
  | primaryKey | unique =>
    obtain ⟨k, hk, rfl⟩ : ∃ k ∈ c.columns, k.name = f := by simpa [hkind] using hf
    rw [hlist ⟨k, hk, hmissing⟩]
  | foreignKey =>
    simp only [hkind, List.mem_cons, List.mem_map, List.mem_append] at hf
    rcases hf with rfl | ⟨k, hk | hk, rfl⟩
    · split
      · simp [foreignKeyClause, hmissing]
      · rfl
    · rw [hlist ⟨k, hk, hmissing⟩]
    · rw [hlist ⟨k, hk, hmissing⟩]
      split
      · contradiction
      · rfl
  | check => simp [hkind] at hf
  | exclusion => simp [hkind] at hf

/-- Only members of a composite type are not looked at. -/
theorem UserType.isComplete_of_lacksName {t : UserType}
    (h : ∃ f ∈ t.name :: t.mentions, f.isGiven = false)
    (hguarded : t.kind = .composite → t.name.isGiven → t.members = []) : t.isComplete = false := by
  obtain ⟨f, hf, hmissing⟩ := h
  by_cases hname : t.name.isGiven
  · rcases List.mem_cons.mp hf with rfl | hf
    · simp [hname] at hmissing
    · unfold mentions at hf
      unfold isComplete
      cases hkind : t.kind with
      | enum => simp [hkind] at hf
      | composite => simp [hguarded hkind hname]
      | domain =>
        obtain rfl : f = t.base := by simpa [hkind] using hf
        simp [hmissing]
  · simp [isComplete, hname]

theorem Table.isComplete_of_lacksName {t : Table}
    (h : ∃ f ∈ t.name :: t.columns.flatMap fun c => [c.name, c.dataType], f.isGiven = false) :
    t.isComplete = false := by
  obtain ⟨f, hf, hmissing⟩ := h
  simp only [List.mem_cons, List.mem_flatMap, List.not_mem_nil, or_false] at hf
  rcases hf with rfl | ⟨c, hc, rfl | rfl⟩
  · simp [isComplete, hmissing]
  · simpa [isComplete] using fun _ => ⟨c, hc, by simp [hmissing]⟩
  · simpa [isComplete] using fun _ => ⟨c, hc, by simp [hmissing]⟩

/-- An index without a name is not written, nor is one that has neither a definition nor columns. -/
theorem Index.ddl_of_unnamed {i : Index} {target : Option String}
    (h : i.name.isGiven → i.definition.isGiven = false ∧ i.hasColumns = false) : i.ddl target = "" := by
  by_cases hname : i.name.isGiven
  · obtain ⟨hdefinition, hcolumns⟩ := h hname
    simp [ddl, hname, Field.given_of_not_isGiven hdefinition, fromColumns?, hcolumns]
  · simp [ddl, hname]

/-- A stored definition that counts as nothing has no query in it. -/
theorem View.query_of_not_isGiven {v : View} (h : v.definition.isGiven = false) : v.query = "" := by
  simp [query, Field.givenOr, Field.given_of_not_isGiven h]
  decide

namespace Subject

/-- Without a name and without a look at it missing, nothing is written. -/
theorem ddl_of_lacksName {s : Subject} {target : Option String} (h : s.lacksName)
    (hguarded : s.isUnguarded = false) : s.ddl target = "" := by
  obtain ⟨f, hf, hmissing⟩ : ∃ f ∈ s.mentions, f.isGiven = false := by
    simpa [lacksName] using h
  cases s with
  | extension e =>
    obtain rfl := List.mem_singleton.mp hf
    simp [ddl, Extension.ddl, Field.given_of_not_isGiven hmissing]
  | schema s =>
    obtain rfl := List.mem_singleton.mp hf
    simp [ddl, Schema.ddl, Field.given_of_not_isGiven hmissing]
  | type t =>
    have hincomplete : t.isComplete = false := by
      refine UserType.isComplete_of_lacksName ⟨f, hf, hmissing⟩ fun hkind hname => ?_
      simpa [isUnguarded, hkind, hname] using hguarded
    simp [ddl, UserType.ddl, hincomplete]
  | sequence s =>
    obtain rfl := List.mem_singleton.mp hf
    simp [ddl, Sequence.ddl, hmissing]
  | table t =>
    have hincomplete : t.isComplete = false := Table.isComplete_of_lacksName ⟨f, hf, hmissing⟩
    simp [ddl, Table.ddl, hincomplete]
  | rowSecurity t =>
    have hoff : t.rowSecurity.isGiven = false := hguarded
    simp [ddl, Table.rowSecurityDdl, hoff]
  | constraint c =>
    simp only [mentions, List.mem_cons] at hf
    rcases hf with rfl | rfl | hf
    · simp [ddl, Constraint.ddl, Field.given_of_not_isGiven hmissing]
    · simp [ddl, Constraint.ddl, hmissing]
    · simp [ddl, Constraint.ddl, Constraint.clause_of_lacksName ⟨f, hf, hmissing⟩]
  | index i =>
    refine Index.ddl_of_unnamed fun hname => ?_
    have hdefinition : i.definition.isGiven = false := by
      refine Bool.eq_false_iff.mpr fun hgiven => ?_
      obtain rfl : f = i.name := by simpa [mentions, hgiven] using hf
      simp [hname] at hmissing
    exact ⟨hdefinition, by simpa [isUnguarded, hname, hdefinition] using hguarded⟩
  | trigger t =>
    have hincomplete : t.isComplete = false := by
      simp only [mentions, List.mem_cons, List.not_mem_nil, or_false] at hf
      rcases hf with rfl | rfl | rfl <;> simp [Trigger.isComplete, hmissing]
    simp [ddl, Trigger.ddl, hincomplete]
  | policy p =>
    have hincomplete : p.isComplete = false := by
      simp only [mentions, List.mem_cons, List.not_mem_nil, or_false] at hf
      rcases hf with rfl | rfl <;> simp [Policy.isComplete, hmissing]
    simp [ddl, Policy.ddl, hincomplete]
  | view v =>
    simp only [mentions, List.mem_cons, List.not_mem_nil, or_false] at hf
    rcases hf with rfl | rfl
    · simp [ddl, View.ddl, hmissing]
    · simp [ddl, View.ddl, View.query_of_not_isGiven hmissing]
  | function f' =>
    have hincomplete : f'.isComplete = false := by
      simp only [mentions, List.mem_cons, List.not_mem_nil, or_false] at hf
      rcases hf with rfl | rfl <;> simp [StoredFunction.isComplete, hmissing]
    simp [ddl, StoredFunction.ddl, hincomplete]
  | aggregate a =>
    have hincomplete : a.isComplete = false := by
      simp only [mentions, List.mem_cons, List.not_mem_nil, or_false] at hf
      rcases hf with rfl | rfl | rfl <;> simp [Aggregate.isComplete, hmissing]
    simp [ddl, Aggregate.ddl, hincomplete]
  | procedure p =>
    have hincomplete : p.isComplete = false := by
      simp only [mentions, List.mem_cons, List.not_mem_nil, or_false] at hf
      rcases hf with rfl | rfl <;> simp [Procedure.isComplete, hmissing]
    simp [ddl, Procedure.ddl, hincomplete]

/-! ## Objects without a guard -/

end Subject

namespace Ddl

/-- The part stands somewhere in the text. -/
def Shows (part text : String) : Prop := ∃ before after, text = before ++ part ++ after

variable {part text : String}

theorem Shows.append_left (h : Shows part text) (lead : String) : Shows part (lead ++ text) := by
  obtain ⟨before, after, rfl⟩ := h
  exact ⟨lead ++ before, after, by simp only [String.append_assoc]⟩

theorem Shows.append_right (h : Shows part text) (rest : String) : Shows part (text ++ rest) := by
  obtain ⟨before, after, rfl⟩ := h
  exact ⟨before, after ++ rest, by simp only [String.append_assoc]⟩

theorem shows_self (part : String) : Shows part part := ⟨"", "", by simp⟩

theorem Shows.intercalate {texts : List String} (h : Shows part text) (hmem : text ∈ texts)
    (separator : String) : Shows part (separator.intercalate texts) := by
  obtain ⟨front, back, heq, -⟩ := Sql.exists_intercalate_split hmem separator
  rw [heq]
  exact (h.append_left front).append_right back

theorem nameText_of_null {name : Field String} (h : name.stored = .null) : nameText name = "None" := by
  simp [nameText, Field.text?, h, Sql.nameText, Text.spelled]

theorem typeText_of_null {type : Field String} (h : type.stored = .null) (target : Option String) :
    typeText type target = "None" := by
  simp [typeText, Field.text?, h, Sql.dropSchema, Text.spelled]

theorem shows_reference_of_null {name : Field String} (h : name.stored = .null) (schema : Field String)
    (target : Option String) : Shows "None" (reference schema name target) := by
  have hname : name.text? = none := by simp [Field.text?, h]
  rw [reference, hname, Sql.qualified, Sql.qualified?]
  split
  · exact shows_self _
  · split
    · exact shows_self _
    · exact (shows_self "None").append_left _

end Ddl

namespace Subject

open Ddl (Shows shows_self)

variable {s : Subject} {target : Option String}

/-- The unguarded statements, up to where a name may be missing. -/
theorem isUnguarded_cases (target : Option String) (h : s.isUnguarded) :
    (∃ t lead rest, s = .type t ∧ t.kind = .composite ∧ t.members ≠ [] ∧ t.name.isGiven ∧
      s.ddl target = "CREATE TYPE " ++ lead ++ UserType.compositeBody target t.members ++ rest) ∨
    (∃ i text rest, s = .index i ∧ i.name.isGiven ∧ i.definition.isGiven = false ∧ i.hasColumns ∧
      s.ddl target = text ++ rest ∧ i.fromColumns? target = some text) ∨
    ∃ t, s = .rowSecurity t ∧ s.ddl target =
      "ALTER TABLE " ++ Ddl.reference t.schema t.name target ++ " ENABLE ROW LEVEL SECURITY;" := by
  cases s with
  | type t =>
    simp only [isUnguarded, Bool.and_eq_true, beq_iff_eq, Bool.not_eq_true', List.isEmpty_eq_false_iff] at h
    obtain ⟨⟨hkind, hname⟩, hmembers⟩ := h
    let name := Ddl.reference t.schema t.name target
    refine .inl ⟨t, name, Ddl.commentAfter ("TYPE " ++ name) t.comment, rfl, hkind, hmembers, hname, ?_⟩
    have hcomplete : t.isComplete := by simp [UserType.isComplete, hkind, hname, hmembers]
    simp only [ddl, UserType.ddl, hcomplete, Bool.not_true, Bool.false_eq_true, if_false, hkind, name]
  | index i =>
    simp only [isUnguarded, Bool.and_eq_true, Bool.not_eq_true'] at h
    obtain ⟨⟨hname, hdefinition⟩, hcolumns⟩ := h
    obtain ⟨text, htext⟩ : ∃ text, i.fromColumns? target = some text := by
      simp [Index.fromColumns?, hcolumns]
    refine .inr (.inl ⟨i, text, (if Text.endsWith text ";" then "" else ";") ++ Ddl.commentAfter
      ("INDEX " ++ Ddl.reference i.schema i.name target) i.comment, rfl, hname, hdefinition, hcolumns,
      ?_, htext⟩)
    simp only [ddl, Index.ddl, hname, Field.given_of_not_isGiven hdefinition, htext, Bool.not_true,
      Bool.false_eq_true, if_false, String.append_assoc]
  | rowSecurity t =>
    refine .inr (.inr ⟨t, rfl, ?_⟩)
    simp [ddl, Table.rowSecurityDdl, show t.rowSecurity.isGiven from h]
  | extension _ | schema _ | sequence _ | table _ | constraint _ | trigger _ | policy _ | view _
  | function _ | aggregate _ | procedure _ => simp [isUnguarded] at h

theorem ddl_ne_empty_of_isUnguarded (h : s.isUnguarded) : s.ddl target ≠ "" := by
  rcases isUnguarded_cases target h with ⟨t, lead, rest, -, -, -, -, hddl⟩ |
    ⟨i, text, rest, -, -, -, hcolumns, hddl, htext⟩ | ⟨t, -, hddl⟩
  · simp [hddl]
  · obtain rfl : _ = text := by simpa [Index.fromColumns?, hcolumns] using htext
    simp [hddl]
  · simp [hddl]

/-- Where a name is null, an unguarded statement says `None` in its place. -/
theorem shows_none (h : s.isUnguarded) (hnull : ∃ f ∈ s.mentions, f.stored = .null) :
    Shows "None" (s.ddl target) := by
  obtain ⟨f, hf, hnull⟩ := hnull
  have hmissing {name : Field String} (hgiven : name.isGiven) : f ≠ name := by
    rintro rfl
    simp [Field.isGiven, hnull, Json.isNothing] at hgiven
  rcases isUnguarded_cases target h with ⟨t, lead, rest, rfl, hkind, -, hname, hddl⟩ |
    ⟨i, text, rest, rfl, hname, hdefinition, hcolumns, hddl, htext⟩ | ⟨t, rfl, hddl⟩
  · obtain ⟨m, hm, hf⟩ : ∃ m ∈ t.members, f = m.name ∨ f = m.dataType := by
      simpa [mentions, UserType.mentions, hkind, hmissing hname] using hf
    have hmember : Shows "None" (m.ddl target) := by
      rcases hf with rfl | rfl
      · rw [Member.ddl, Ddl.nameText_of_null hnull]
        exact (((shows_self "None").append_left _).append_right _).append_right _
      · rw [Member.ddl, Ddl.typeText_of_null hnull]
        exact (shows_self "None").append_left _
    rw [hddl]
    refine (Shows.append_left ?_ _).append_right _
    exact ((hmember.intercalate (List.mem_map.mpr ⟨m, mem_byPosition.mpr hm, rfl⟩) _).append_left
      _).append_right _
  · have htable : f = i.table := by
      simp only [mentions, List.mem_cons, hdefinition, Bool.false_eq_true, if_false, List.mem_map,
        hmissing hname, false_or] at hf
      rcases hf with hf | ⟨c, hc, rfl⟩
      · exact hf
      · have hnamed := List.all_eq_true.mp (Bool.and_eq_true_iff.mp hcolumns).2 c hc
        exact absurd rfl (hmissing hnamed)
    obtain rfl : _ = text := by simpa [Index.fromColumns?, hcolumns] using htext
    have htable := Ddl.shows_reference_of_null (htable ▸ hnull) i.schema target
    rw [hddl]
    exact (((((htable.append_left _).append_right _).append_right _).append_right _).append_right
      _).append_right _ |>.append_right _
  · obtain rfl := List.mem_singleton.mp hf
    rw [hddl]
    exact ((Ddl.shows_reference_of_null hnull _ _).append_left _).append_right _

/-- An object that lacks a name renders as the empty text unless its statement is unguarded. -/
theorem ddl_eq_empty_iff (h : s.lacksName) : s.ddl target = "" ↔ s.isUnguarded = false := by
  refine ⟨fun hempty => ?_, ddl_of_lacksName h⟩
  exact Bool.eq_false_iff.mpr fun hunguarded => ddl_ne_empty_of_isUnguarded hunguarded hempty

end Subject
end SchemaScript
