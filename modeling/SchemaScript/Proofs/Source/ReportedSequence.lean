import SchemaScript.Ddl.Object
import SchemaScript.Effect.Object
import SchemaScript.Inspect.Query
import SchemaScript.Proofs.Catalog.Contents
import SchemaScript.Proofs.Effect.Gives
import SchemaScript.Proofs.Inspect.Rows
import Mathlib.Algebra.Group.Int.Defs

/-!
# Sequences that a database reports

A database reports both bounds of every sequence, also where none were given. A bound that holds without being
given is not kept, with one exception: the lowest number of a descending sequence always is
(`bounds_of_report`). So a descending sequence without bounds is written with one.
-/

namespace SchemaScript

open Sql

/-! ## Types and their bounds -/

/-- The types of numbers that a sequence can have. -/
inductive SequenceType
  | smallint
  | integer
  | bigint
  deriving DecidableEq, Repr

namespace SequenceType

def name : SequenceType → String
  | .smallint => "smallint"
  | .integer => "integer"
  | .bigint => "bigint"

/-- The name inside of the system. -/
def internalName : SequenceType → String
  | .smallint => "int2"
  | .integer => "int4"
  | .bigint => "int8"

/-- The width of a number, with the bit of its sign. -/
def bits : SequenceType → Nat
  | .smallint => 16
  | .integer => 32
  | .bigint => 64

def smallest (type : SequenceType) : Int :=
  -2 ^ (type.bits - 1)

def largest (type : SequenceType) : Int :=
  2 ^ (type.bits - 1) - 1

/-- The lower bound of a sequence that is given none: an ascending one begins with one. -/
def defaultMinimum (type : SequenceType) (step : Int) : Int :=
  if 0 < step then 1 else type.smallest

/-- The upper bound of a sequence that is given none: a descending one begins with minus one. -/
def defaultMaximum (type : SequenceType) (step : Int) : Int :=
  if 0 < step then type.largest else -1

/-- The largest number of each type is the one that the rows of sequences are compared with. -/
theorem largestValues_find (type : SequenceType) :
    (Inspect.largestValues.find? fun entry => (type.name : Field String) == (entry.1 : Field String)).map (·.2) =
      some type.largest := by
  cases type <;> decide

end SequenceType

/-! ## How bounds are written -/

namespace Sequence

variable {s : Sequence}

def boundsText (s : Sequence) : String :=
  boundText "MINVALUE" s.minimum ++ " " ++ boundText "MAXVALUE" s.maximum

/-- What stands before the bounds. -/
def leadText (s : Sequence) (target : Option String) : String :=
  let dataType := canonicalType (s.dataType.givenOr "bigint")
  " ".intercalate (["CREATE SEQUENCE " ++ Ddl.reference s.schema s.name target] ++
    (if dataType == "bigint" then [] else ["AS " ++ dataType]) ++
    unlessOne "START WITH" s.start ++ unlessOne "INCREMENT BY" s.increment)

/-- What stands behind the bounds. -/
def tailText (s : Sequence) (target : Option String) : String :=
  (if s.cycle.isGiven then " CYCLE" else "") ++ ";" ++
    Ddl.commentAfter ("SEQUENCE " ++ Ddl.reference s.schema s.name target) s.comment

/-- The bounds are always written, one beside the other. -/
theorem ddl_eq_bounds (h : s.name.isGiven) (target : Option String) :
    s.ddl target = s.leadText target ++ " " ++ s.boundsText ++ s.tailText target := by
  have hbounds : " ".intercalate ([boundText "MINVALUE" s.minimum, boundText "MAXVALUE" s.maximum] ++
      if s.cycle.isGiven then ["CYCLE"] else []) = s.boundsText ++ if s.cycle.isGiven then " CYCLE" else "" := by
    cases s.cycle.isGiven <;> simp [boundsText, String.intercalate_cons_cons, String.append_assoc]
  unfold ddl leadText tailText
  rw [h, Bool.not_true, if_neg Bool.false_ne_true]
  dsimp only
  rw [List.append_assoc _ [_, _], String.intercalate_append_of_ne_nil (by simp) (by simp), hbounds]
  simp only [String.append_assoc]

end Sequence

/-! ## Sequences without bounds -/

/-- No option sets a bound. -/
def SetsNoBound (options : List SequenceOption) : Prop :=
  ∀ option ∈ options, ∀ n, option ≠ .minimum (some n) ∧ option ≠ .maximum (some n)

/-- A sequence that a statement creates without bounds is written without bounds. -/
theorem createSequence_unbounded {default : String} {c c' : Catalog} {relation : RelationName}
    {options : List SequenceOption} (h : Effect.createSequence default c relation options = .ok c')
    (hbounds : SetsNoBound options) :
    ∃ s, c'.at? (.object (Effect.schemaOf default relation) .sequence relation.name) = some (.sequence s) ∧
      s.name = (relation.name : Field String) ∧ s.boundsText = "NO MINVALUE NO MAXVALUE" := by
  obtain ⟨s, hs, h⟩ := exists_of_bind_eq_ok h
  obtain rfl := Except.ok.inj h
  have hkeep : s.name = (relation.name : Field String) ∧ s.minimum = .absent ∧ s.maximum = .absent := by
    refine keeps_foldlM (Q := fun s : Sequence => s.name = _ ∧ s.minimum = .absent ∧ s.maximum = .absent) ?_
      ⟨rfl, rfl, rfl⟩ hs
    intro option hoption s s' hkept hstep
    obtain hbound := hbounds option hoption
    cases option with
    | dataType | cycle | other =>
      obtain rfl := Except.ok.inj hstep
      exact hkept
    | start | increment =>
      obtain ⟨n, -, hstep⟩ := exists_of_bind_eq_ok hstep
      obtain rfl := Except.ok.inj hstep
      exact hkept
    | minimum n =>
      cases n with
      | some n => exact absurd rfl (hbound n).1
      | none =>
        obtain rfl := Except.ok.inj hstep
        exact ⟨hkept.1, rfl, hkept.2.2⟩
    | maximum n =>
      cases n with
      | some n => exact absurd rfl (hbound n).2
      | none =>
        obtain rfl := Except.ok.inj hstep
        exact ⟨hkept.1, hkept.2.1, rfl⟩
    | ownedBy path =>
      rw [Effect.sequenceOption] at hstep
      split at hstep
      all_goals
        obtain rfl := Except.ok.inj hstep
        exact hkept
  refine ⟨s, ?_, ?_⟩
  · rw [Catalog.at?_updateSchema]
    simp [Schema.at?, Entries.get?_put]
  · rw [Sequence.boundsText, hkeep.2.1, hkeep.2.2]
    exact ⟨hkeep.1, rfl⟩

/-- What is written of a sequence without bounds. -/
def Sequence.IsWrittenUnbounded (s : Sequence) : Prop :=
  ∀ target, s.ddl target = s.leadText target ++ " NO MINVALUE NO MAXVALUE" ++ s.tailText target

theorem Sequence.isWrittenUnbounded_iff {s : Sequence} (h : s.name.isGiven) :
    s.IsWrittenUnbounded ↔ s.boundsText = "NO MINVALUE NO MAXVALUE" := by
  have hwords : " NO MINVALUE NO MAXVALUE" = " " ++ "NO MINVALUE NO MAXVALUE" := rfl
  unfold IsWrittenUnbounded
  simp only [Sequence.ddl_eq_bounds h, hwords, ← String.append_assoc]
  constructor
  · intro hall
    have hlist := congrArg String.toList (hall none)
    simp only [String.toList_append, List.append_assoc, List.append_cancel_left_eq, List.append_cancel_right_eq]
      at hlist
    exact String.toList_inj.mp hlist
  · intro hbounds target
    rw [hbounds]

/-! ## Rows of sequences -/

/-- What a database reports of a sequence. The type may be spelled in any way; the cells that have no part in the
bounds may hold anything. -/
structure SequenceReport where
  schema : Json
  name : Json
  type : SequenceType
  spelling : String
  spelled : canonicalType spelling = type.name
  start : Json
  first : Int
  startRead : Inspect.Cell.integer start = .ok first
  increment : Json
  step : Int
  incrementRead : Inspect.Cell.integer increment = .ok step
  moves : step ≠ 0
  minimum : Int
  maximum : Int
  cycle : Json
  ownerTable : Json
  ownerColumn : Json
  comment : Json

namespace SequenceReport

open Inspect

variable (r : SequenceReport)

def row : Row :=
  [r.schema, r.name, .text r.spelling, r.start, r.increment, .integer r.minimum, .integer r.maximum, r.cycle,
    r.ownerTable, r.ownerColumn, r.comment]

/-- Where the sequence is kept. -/
def tag : Tag :=
  .object (Cell.name r.schema) .sequence (Cell.name r.name)

/-- Both bounds are those of a sequence that is given none. -/
def IsUnbounded : Prop :=
  r.minimum = r.type.defaultMinimum r.step ∧ r.maximum = r.type.defaultMaximum r.step

/-- The sequence that is kept. -/
def sequence : Sequence where
  schema := ⟨r.schema⟩
  name := ⟨r.name⟩
  dataType := (r.type.name : String)
  start := r.first
  increment := r.step
  minimum := if 0 < r.step ∧ r.minimum = r.type.defaultMinimum r.step then .absent else r.minimum
  maximum := if r.maximum = r.type.defaultMaximum r.step then .absent else r.maximum
  cycle := Cell.isSet r.cycle
  ownerTable := ⟨r.ownerTable⟩
  ownerColumn := ⟨r.ownerColumn⟩
  comment := ⟨r.comment⟩

theorem isNumber_integer (m n : Int) : Json.isNumber m (.integer n) = decide (m = n) := by
  simp [Json.isNumber, Json.fraction?, beq_eq_decide, eq_comm]

theorem bound_integer (n : Int) (standIn : Option Int) :
    bound (.integer n) standIn = if standIn = some n then .absent else (n : Field Int) := by
  cases standIn with
  | none => rfl
  | some m => simp [bound, isNumber_integer]

theorem result_sequenceRow (c : Catalog) :
    (sequenceRow c r.row).result = .ok (c.updateSchema (Cell.name r.schema) fun s =>
      s.put (Cell.name r.name) (.sequence r.sequence)) := by
  have hwritten : r.spelling ≠ "" := by
    intro hempty
    have hname := r.spelled
    rw [hempty] at hname
    cases htype : r.type <;> rw [htype] at hname <;> revert hname <;> decide
  have htype : Cell.type (.text r.spelling) = .ok (r.type.name : Field String) := by
    simp [Cell.type, Cell.letters, Json.isNothing, Json.isText, Json.plain, hwritten, r.spelled]
  have hminimum : bound (.integer r.minimum) (if 0 < r.step then some 1 else none) =
      r.sequence.minimum := by
    rw [bound_integer, sequence]
    by_cases hup : 0 < r.step <;> simp [hup, SequenceType.defaultMinimum, eq_comm]
  have hmaximum : bound (.integer r.maximum) (if 0 < r.step then some r.type.largest else some (-1)) =
      r.sequence.maximum := by
    rw [bound_integer, sequence]
    by_cases hup : 0 < r.step <;> simp [hup, SequenceType.defaultMaximum, eq_comm]
  unfold row sequenceRow
  dsimp only
  rw [htype, r.incrementRead, r.startRead, Logged.bind_of_ok rfl, Logged.bind_of_ok rfl, Logged.bind_of_ok rfl,
    SequenceType.largestValues_find, hminimum, hmaximum]
  rfl

/-- The row reports a sequence of the same name in the same schema. -/
def IsNamedLike (row : Row) : Prop :=
  row[0]?.map Cell.name = some (Cell.name r.schema) ∧ row[1]?.map Cell.name = some (Cell.name r.name)

/-- A row about another sequence leaves what is kept of this one. -/
theorem at?_sequenceRow {c c' : Catalog} {row : Row} (hother : ¬ r.IsNamedLike row)
    (h : (sequenceRow c row).result = .ok c') : c'.at? r.tag = c.at? r.tag := by
  fun_cases sequenceRow c row with
  | case1 schema name type start increment minimum maximum cycle table column comment =>
    obtain ⟨dataType, -, h⟩ := Logged.result_bind_eq_ok.mp h
    obtain ⟨step, -, h⟩ := Logged.result_bind_eq_ok.mp h
    obtain ⟨first, -, h⟩ := Logged.result_bind_eq_ok.mp h
    obtain rfl := Except.ok.inj h
    have hname : ¬ (Cell.name r.schema = Cell.name schema ∧ Cell.name r.name = Cell.name name) := by
      simpa [IsNamedLike, eq_comm] using hother
    unfold tag
    rw [Catalog.at?_updateSchema]
    dsimp only
    split
    · next hschema =>
      have hkey : Cell.name r.name ≠ Cell.name name := fun hkey => hname ⟨hschema, hkey⟩
      rw [hschema, ← Catalog.at?_schemaOrNew_object]
      simp [Schema.at?, Entries.get?_put, hkey]
    · rfl
  | case2 row hwidth =>
    rw [sequenceRow.eq_2 c row hwidth] at h
    contradiction

theorem at?_absorb {c : Catalog} {rows : List Row} (hother : ∀ row ∈ rows, ¬ r.IsNamedLike row) :
    (absorb sequenceRow c rows).catalog.at? r.tag = c.at? r.tag := by
  induction rows generalizing c with
  | nil => rfl
  | cons row rows ih =>
    obtain ⟨hrow, hrows⟩ := List.forall_mem_cons.mp hother
    rw [absorb]
    dsimp only
    split
    · next next hnext => exact (ih hrows).trans (r.at?_sequenceRow hrow hnext)
    · rfl

/-- Of the rows about a sequence that are read, the last one counts; a row that cannot be read only ends the
reading. -/
theorem at?_load {c : Catalog} {before after : List Row} (hread : (Query.sequences.load c before).fault = none)
    (hlast : ∀ row ∈ after, ¬ r.IsNamedLike row) :
    (Query.sequences.load c (before ++ r.row :: after)).catalog.at? r.tag = some (.sequence r.sequence) := by
  show (absorb sequenceRow c (before ++ r.row :: after)).catalog.at? r.tag = _
  replace hread : (absorb sequenceRow c before).fault = none := hread
  induction before generalizing c with
  | nil =>
    rw [List.nil_append, absorb, r.result_sequenceRow]
    dsimp only
    rw [r.at?_absorb hlast]
    unfold tag
    rw [Catalog.at?_updateSchema]
    simp [Schema.at?_put, Content.kind?]
  | cons row before ih =>
    rw [absorb] at hread
    rw [List.cons_append, absorb]
    dsimp only at hread ⊢
    split at hread
    · exact ih hread
    · contradiction

/-! ## Bounds that are kept -/

theorem minimum_eq_absent_iff :
    r.sequence.minimum = .absent ↔ 0 < r.step ∧ r.minimum = r.type.defaultMinimum r.step := by
  rw [sequence]
  dsimp only
  split
  · next h => exact iff_of_true rfl h
  · next h => exact iff_of_false (fun habsent => by cases habsent) h

theorem maximum_eq_absent_iff :
    r.sequence.maximum = .absent ↔ r.maximum = r.type.defaultMaximum r.step := by
  rw [sequence]
  dsimp only
  split
  · next h => exact iff_of_true rfl h
  · next h => exact iff_of_false (fun habsent => by cases habsent) h

theorem boundsText_unbounded_iff (h : r.IsUnbounded) :
    r.sequence.boundsText = "NO MINVALUE NO MAXVALUE" ↔ 0 < r.step := by
  have hmaximum : r.sequence.maximum = .absent := r.maximum_eq_absent_iff.mpr h.2
  have hwords : "NO MINVALUE NO MAXVALUE" = "NO MINVALUE" ++ " " ++ "NO MAXVALUE" := rfl
  rw [Sequence.boundsText, hmaximum, hwords]
  by_cases hup : 0 < r.step
  · rw [r.minimum_eq_absent_iff.mpr ⟨hup, h.1⟩]
    exact iff_of_true rfl hup
  · have hminimum : r.sequence.minimum = r.minimum := if_neg fun hboth => hup hboth.1
    rw [hminimum]
    refine iff_of_false (fun htext => ?_) hup
    have hfirst := congrArg (fun s => s.toList.head?) htext
    simp [Sequence.boundText, Field.text?] at hfirst

/-- A bound that holds without being given is not kept, unless it is the lowest number of a descending sequence. So
a sequence without bounds is written as one exactly if it ascends; one that a script creates without bounds always
is. -/
theorem bounds_of_report {c : Catalog} {before after : List Row}
    (hread : (Query.sequences.load c before).fault = none) (hlast : ∀ row ∈ after, ¬ r.IsNamedLike row) :
    ∃ s, (Query.sequences.load c (before ++ r.row :: after)).catalog.at? r.tag = some (.sequence s) ∧
      (s.minimum = .absent ↔ 0 < r.step ∧ r.minimum = r.type.defaultMinimum r.step) ∧
      (s.maximum = .absent ↔ r.maximum = r.type.defaultMaximum r.step) ∧
      (r.IsUnbounded → s.name.isGiven → (s.IsWrittenUnbounded ↔ 0 < r.step)) ∧
      ∀ default d d' relation options, Effect.createSequence default d relation options = .ok d' →
        SetsNoBound options → relation.name ≠ "" →
          ∃ q, d'.at? (.object (Effect.schemaOf default relation) .sequence relation.name) = some (.sequence q) ∧
            q.IsWrittenUnbounded := by
  refine ⟨r.sequence, r.at?_load hread hlast, r.minimum_eq_absent_iff, r.maximum_eq_absent_iff, ?_, ?_⟩
  · intro hbounds hname
    rw [Sequence.isWrittenUnbounded_iff hname, r.boundsText_unbounded_iff hbounds]
  · intro default d d' relation options hcreate hoptions hrelation
    obtain ⟨q, hq, hname, hbounds⟩ := createSequence_unbounded hcreate hoptions
    refine ⟨q, hq, (Sequence.isWrittenUnbounded_iff ?_).mpr hbounds⟩
    simp [hname, Field.isGiven, Json.isNothing, hrelation]

/-- Of whole numbers in the schema `public`, without bounds. -/
def unbounded (name : String) (step : Int) (moves : step ≠ 0) : SequenceReport where
  schema := .text "public"
  name := .text name
  type := .integer
  spelling := "int4"
  spelled := by decide
  start := .integer (if 0 < step then 1 else -1)
  first := if 0 < step then 1 else -1
  startRead := rfl
  increment := .integer step
  step := step
  incrementRead := rfl
  moves := moves
  minimum := SequenceType.integer.defaultMinimum step
  maximum := SequenceType.integer.defaultMaximum step
  cycle := .flag false
  ownerTable := .null
  ownerColumn := .null
  comment := .null

/-- A countdown without bounds between two other sequences is written with the lowest number that there is. -/
theorem countdown_written_bounded :
    let countdown := unbounded "countdown" (-1) (by decide)
    let tickets := unbounded "tickets" 1 (by decide)
    let volumes := unbounded "volumes" 1 (by decide)
    (Query.sequences.load {} [tickets.row]).fault = none ∧ (∀ row ∈ [volumes.row], ¬ countdown.IsNamedLike row) ∧
      ∃ s, (Query.sequences.load {} [tickets.row, countdown.row, volumes.row]).catalog.at? countdown.tag =
          some (.sequence s) ∧
        s.minimum ≠ .absent ∧ s.maximum = .absent ∧ (s.name.isGiven → ¬ s.IsWrittenUnbounded) := by
  intro countdown tickets volumes
  have hread : (Query.sequences.load {} [tickets.row]).fault = none := rfl
  have hlast : ∀ row ∈ [volumes.row], ¬ countdown.IsNamedLike row := by
    intro row hrow
    obtain rfl := List.mem_singleton.mp hrow
    rintro ⟨-, hname⟩
    exact absurd hname (by decide)
  obtain ⟨s, hkept, hminimum, hmaximum, hwritten, -⟩ := countdown.bounds_of_report hread hlast
  have hdown : ¬ 0 < countdown.step := by decide
  exact ⟨hread, hlast, s, hkept, fun h => hdown (hminimum.mp h).1, hmaximum.mpr rfl,
    fun hname h => hdown ((hwritten ⟨rfl, rfl⟩ hname).mp h)⟩

end SequenceReport

end SchemaScript
