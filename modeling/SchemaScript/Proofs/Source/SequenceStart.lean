import SchemaScript.Proofs.Sql.SequenceText

/-!
# Where a sequence starts

A sequence that is created without a first value starts at its lower bound if it ascends, and at its upper bound if it
descends. What is written of a sequence names its first value unless that is one, so it creates a sequence that starts
there exactly if the first value is not one, or one is where such a sequence starts anyway (`started_iff`).
-/

namespace SchemaScript

open Sql

/-! ## What options say -/

namespace Sql.SequenceOption

def type? : SequenceOption → Option WrittenType
  | .dataType type => some type
  | _ => none

def start? : SequenceOption → Option Number
  | .start n => some n
  | _ => none

def increment? : SequenceOption → Option Number
  | .increment n => some n
  | _ => none

def minimum? : SequenceOption → Option Number
  | .minimum n => n
  | _ => none

def maximum? : SequenceOption → Option Number
  | .maximum n => n
  | _ => none

end Sql.SequenceOption

/-- All types, for looking one up by its name. -/
def SequenceType.all : List SequenceType :=
  [.smallint, .integer, .bigint]

/-- The numbers of a sequence; a bound is there only where one is set. -/
structure SequenceNumbers where
  type : SequenceType := .bigint
  start : Int := 1
  increment : Int := 1
  minimum : Option Int := none
  maximum : Option Int := none
  cycles : Bool := false

namespace SequenceNumbers

variable (n : SequenceNumbers)

/-- The bounds that hold. -/
def lowest : Int :=
  n.minimum.getD (n.type.defaultMinimum n.increment)

def highest : Int :=
  n.maximum.getD (n.type.defaultMaximum n.increment)

/-- Where a sequence starts that is told no first value. -/
def defaultStart : Int :=
  if 0 < n.increment then n.lowest else n.highest

end SequenceNumbers

/-- The number that options give for something, if they give one. -/
def givenNumber (pick : SequenceOption → Option Number) (options : List SequenceOption) : Option Int :=
  (options.findSome? pick).bind fun n => (Effect.wholeNumber n).toOption

/-- What a database takes for a sequence with these options, apart from its first value. -/
def numbersOf (options : List SequenceOption) : SequenceNumbers where
  type := ((options.findSome? SequenceOption.type?).bind fun written =>
    SequenceType.all.find? fun type => type.name == written.text).getD .bigint
  increment := (givenNumber SequenceOption.increment? options).getD 1
  minimum := givenNumber SequenceOption.minimum? options
  maximum := givenNumber SequenceOption.maximum? options

/-- The first value of a sequence that is created with these options. -/
def firstValue (options : List SequenceOption) : Int :=
  (givenNumber SequenceOption.start? options).getD (numbersOf options).defaultStart

/-! ## What is written of a sequence -/

/-- The sequence has these numbers. Its type may be spelled in any way; one without a type counts in the widest one. -/
structure Sequence.Has (s : Sequence) (n : SequenceNumbers) : Prop where
  type : canonicalType (s.dataType.givenOr "bigint") = n.type.name
  start : s.start = (n.start : Field Int)
  increment : s.increment = (n.increment : Field Int)
  minimum : s.minimum = (n.minimum : Field Int)
  maximum : s.maximum = (n.maximum : Field Int)
  cycle : s.cycle.isGiven = n.cycles

namespace SequenceNumbers

variable (n : SequenceNumbers)

/-- What of its numbers is written. -/
def clauses : List SequenceClause :=
  (if n.type = .bigint then [] else [.dataType n.type]) ++ (if n.start = 1 then [] else [.start n.start]) ++
    (if n.increment = 1 then [] else [.increment n.increment]) ++ [.minimum n.minimum, .maximum n.maximum] ++
    if n.cycles then [.cycle] else []

def options : List SequenceOption :=
  n.clauses.map SequenceClause.option

end SequenceNumbers

namespace Sequence

variable {s : Sequence} {n : SequenceNumbers}

theorem unlessOne_integer (words : String) (m : Int) :
    unlessOne words (m : Field Int) = if m = 1 then [] else [words ++ " " ++ Text.writeInteger m] := by
  have htext : (m : Field Int).text? = some (Text.writeInteger m) := rfl
  simp [unlessOne, htext, SequenceReport.isNumber_integer, eq_comm]

theorem boundText_integer (word : String) (bound : Option Int) :
    boundText word (bound : Field Int) =
      match bound with
      | some m => word ++ " " ++ Text.writeInteger m
      | none => "NO " ++ word := by
  cases bound <;> rfl

theorem minimum_text (bound : Option Int) :
    boundText "MINVALUE" (bound : Field Int) = (SequenceClause.minimum bound).text := by
  rw [boundText_integer]
  cases bound <;> rfl

theorem maximum_text (bound : Option Int) :
    boundText "MAXVALUE" (bound : Field Int) = (SequenceClause.maximum bound).text := by
  rw [boundText_integer]
  cases bound <;> rfl

theorem name_eq_bigint_iff {type : SequenceType} : type.name = "bigint" ↔ type = .bigint := by
  cases type <;> decide

/-- A sequence is written as its clauses, with its comment behind them. -/
theorem ddl_eq_sequenceText (h : s.Has n) (hname : s.name.isGiven) (target : Option String) :
    s.ddl target = sequenceText (Ddl.path s.schema s.name target) n.clauses ++
      sequenceRemark (Ddl.path s.schema s.name target) s.comment.given := by
  have hreference := Ddl.reference_eq_pathText hname s.schema target
  have hremark : Ddl.commentAfter ("SEQUENCE " ++ pathText (Ddl.path s.schema s.name target)) s.comment =
      sequenceRemark (Ddl.path s.schema s.name target) s.comment.given := by
    unfold Ddl.commentAfter sequenceRemark
    cases s.comment.given with
    | none => rfl
    | some text =>
      have hwords : "COMMENT ON " ++ "SEQUENCE " = "COMMENT ON SEQUENCE " := rfl
      simp [Ddl.commentStatement, remarkText, kindText, Reader.kindNaming, namingText, ← String.append_assoc, hwords]
  have hwords : ["CREATE SEQUENCE " ++ Ddl.reference s.schema s.name target] ++
        (if n.type.name == "bigint" then [] else ["AS " ++ n.type.name]) ++ unlessOne "START WITH" s.start ++
        unlessOne "INCREMENT BY" s.increment ++
        [boundText "MINVALUE" s.minimum, boundText "MAXVALUE" s.maximum] ++ (if n.cycles then ["CYCLE"] else []) =
      ("CREATE SEQUENCE " ++ Ddl.reference s.schema s.name target) :: n.clauses.map SequenceClause.text := by
    rw [h.start, h.increment, h.minimum, h.maximum, unlessOne_integer, unlessOne_integer, minimum_text, maximum_text]
    have hbigint : (n.type.name == "bigint") = decide (n.type = .bigint) := by
      rw [Bool.eq_iff_iff]
      simp [name_eq_bigint_iff]
    unfold SequenceNumbers.clauses
    rw [hbigint]
    have hone {p : Prop} [Decidable p] (clause : SequenceClause) :
        (if p then [] else [clause]).map SequenceClause.text = if p then [] else [clause.text] := apply_ite ..
    have hcycle : (if n.cycles then [SequenceClause.cycle] else []).map SequenceClause.text =
        if n.cycles then ["CYCLE"] else [] := apply_ite ..
    simp only [List.map_append, hone, hcycle, decide_eq_true_eq, List.append_assoc, List.singleton_append]
    rfl
  unfold ddl sequenceText
  rw [hname, Bool.not_true, if_neg Bool.false_ne_true, h.type, h.cycle]
  dsimp only
  rw [hwords, Sql.intercalate_blank, hreference, hremark, List.map_map]
  simp only [String.append_assoc]
  rfl

end Sequence

/-! ## What is read back -/

namespace SequenceNumbers

variable (n : SequenceNumbers)

theorem findSome?_options {α : Type} (pick : SequenceOption → Option α) :
    n.options.findSome? pick =
      ((((if n.type = .bigint then none else pick (.dataType (.ofKeyword n.type.internalName))).or
        (if n.start = 1 then none else pick (.start (writtenNumber n.start)))).or
        (if n.increment = 1 then none else pick (.increment (writtenNumber n.increment)))).or
        ((pick (.minimum (n.minimum.map writtenNumber))).or (pick (.maximum (n.maximum.map writtenNumber))))).or
        (if n.cycles then pick (.cycle true) else none) := by
  have hone {p : Prop} [Decidable p] (clause : SequenceClause) :
      (if p then [] else [clause]).findSome? (pick ∘ SequenceClause.option) =
        if p then none else pick clause.option := by
    split <;> simp
  have hcycle : (if n.cycles then [SequenceClause.cycle] else []).findSome? (pick ∘ SequenceClause.option) =
      if n.cycles then pick (.cycle true) else none := by
    split <;> simp [SequenceClause.option]
  have hbounds : [SequenceClause.minimum n.minimum, .maximum n.maximum].findSome? (pick ∘ SequenceClause.option) =
      (pick (.minimum (n.minimum.map writtenNumber))).or (pick (.maximum (n.maximum.map writtenNumber))) := by
    rw [List.findSome?_cons, List.findSome?_singleton]
    cases h : (pick ∘ SequenceClause.option) (.minimum n.minimum) <;> simp_all [SequenceClause.option]
  unfold options clauses
  simp only [List.findSome?_map, List.findSome?_append, hone, hbounds, hcycle, SequenceClause.option]

theorem toOption_wholeNumber (m : Int) : (Effect.wholeNumber (writtenNumber m)).toOption = some m := by
  rw [wholeNumber_writtenNumber]
  rfl

theorem givenNumber_start :
    givenNumber SequenceOption.start? n.options = if n.start = 1 then none else some n.start := by
  rw [givenNumber, findSome?_options]
  by_cases h : n.start = 1 <;> simp [SequenceOption.start?, h, toOption_wholeNumber]

theorem givenNumber_increment : (givenNumber SequenceOption.increment? n.options).getD 1 = n.increment := by
  rw [givenNumber, findSome?_options]
  by_cases h : n.increment = 1 <;> simp [SequenceOption.increment?, h, toOption_wholeNumber]

theorem givenNumber_minimum : givenNumber SequenceOption.minimum? n.options = n.minimum := by
  rw [givenNumber, findSome?_options]
  cases h : n.minimum <;> simp [SequenceOption.minimum?, toOption_wholeNumber]

theorem givenNumber_maximum : givenNumber SequenceOption.maximum? n.options = n.maximum := by
  rw [givenNumber, findSome?_options]
  cases h : n.maximum <;> simp [SequenceOption.maximum?, toOption_wholeNumber]

theorem type_numbersOf : (numbersOf n.options).type = n.type := by
  show ((n.options.findSome? SequenceOption.type?).bind _).getD SequenceType.bigint = _
  rw [findSome?_options]
  cases n.type with
  | bigint => simp [SequenceOption.type?]
  | smallint | integer => rfl

theorem defaultStart_numbersOf : (numbersOf n.options).defaultStart = n.defaultStart := by
  have hincrement : (numbersOf n.options).increment = n.increment := n.givenNumber_increment
  have hminimum : (numbersOf n.options).minimum = n.minimum := n.givenNumber_minimum
  have hmaximum : (numbersOf n.options).maximum = n.maximum := n.givenNumber_maximum
  simp only [defaultStart, lowest, highest, n.type_numbersOf, hincrement, hminimum, hmaximum]

theorem firstValue_options : firstValue n.options = if n.start = 1 then n.defaultStart else n.start := by
  rw [firstValue, givenNumber_start, defaultStart_numbersOf]
  split <;> rfl

theorem firstValue_eq_start_iff : firstValue n.options = n.start ↔ n.start ≠ 1 ∨ n.defaultStart = 1 := by
  rw [firstValue_options]
  by_cases h : n.start = 1
  · simp [h]
  · simp [h]

end SequenceNumbers

/-- The script creates a sequence first, and that sequence starts at the value. -/
def StartsAt (sql : String) (first : Int) : Prop :=
  ∃ relation options rest, statements sql = .ok (.createSequence relation options :: rest) ∧ firstValue options = first

section

variable {s : Sequence} {n : SequenceNumbers} {target : Option String}

theorem Sequence.length_path_le (s : Sequence) (target : Option String) :
    (Ddl.path s.schema s.name target).length ≤ 3 := by
  unfold Ddl.path
  split
  · exact Nat.le_add_left 1 2
  · split
    · exact Nat.le_add_left 1 2
    · exact Nat.le_add_left 2 1

theorem Sequence.path_ne_nil (s : Sequence) (target : Option String) : Ddl.path s.schema s.name target ≠ [] := by
  unfold Ddl.path
  split
  · exact List.cons_ne_nil _ _
  · split <;> exact List.cons_ne_nil _ _

/-- What is written of a sequence is read back as its numbers. -/
theorem Sequence.statements_ddl (h : s.Has n) (hname : s.name.isGiven)
    (hpath : ∀ name ∈ Ddl.path s.schema s.name target, IsKept name)
    (hcomment : ∀ text ∈ s.comment.given, '\x00' ∉ text.toList) :
    statements (s.ddl target) = .ok (.createSequence (.ofPath (Ddl.path s.schema s.name target)) n.options ::
      remarkStatements (Ddl.path s.schema s.name target) s.comment.given) := by
  rw [ddl_eq_sequenceText h hname]
  exact statements_sequence (s.path_ne_nil target) hpath (s.length_path_le target) hcomment

theorem startsAt_ddl_iff (h : s.Has n) (hname : s.name.isGiven)
    (hpath : ∀ name ∈ Ddl.path s.schema s.name target, IsKept name)
    (hcomment : ∀ text ∈ s.comment.given, '\x00' ∉ text.toList) (first : Int) :
    StartsAt (s.ddl target) first ↔ firstValue n.options = first := by
  have hread := Sequence.statements_ddl h hname hpath hcomment
  constructor
  · rintro ⟨relation, options, rest, hstatements, hfirst⟩
    rw [hread] at hstatements
    obtain ⟨hcreate, -⟩ := List.cons.inj (Except.ok.inj hstatements)
    obtain ⟨-, rfl⟩ := Statement.createSequence.inj hcreate
    exact hfirst
  · exact fun hfirst => ⟨_, _, _, hread, hfirst⟩

/-- A first value is written unless it is one. So the sequence that is created starts there exactly if the first value
is not one, or one is where a sequence of these bounds starts that is told no first value; otherwise it starts at its
bound. -/
theorem starts_iff (h : s.Has n) (hname : s.name.isGiven) (target : Option String) :
    s.ddl target = sequenceText (Ddl.path s.schema s.name target) n.clauses ++
        sequenceRemark (Ddl.path s.schema s.name target) s.comment.given ∧
      givenNumber SequenceOption.start? (n.clauses.map SequenceClause.option) =
        (if n.start = 1 then none else some n.start) ∧
      firstValue (n.clauses.map SequenceClause.option) = (if n.start = 1 then n.defaultStart else n.start) ∧
      ((∀ name ∈ Ddl.path s.schema s.name target, IsKept name) →
        (∀ text ∈ s.comment.given, '\x00' ∉ text.toList) →
        (StartsAt (s.ddl target) n.start ↔ n.start ≠ 1 ∨ n.defaultStart = 1)) := by
  refine ⟨Sequence.ddl_eq_sequenceText h hname target, n.givenNumber_start, n.firstValue_options, ?_⟩
  intro hpath hcomment
  rw [startsAt_ddl_iff h hname hpath hcomment, n.firstValue_eq_start_iff]

end

/-- A sequence in the schema `public`. -/
def publicSequence (name : String) (n : SequenceNumbers) : Sequence where
  schema := "public"
  name := name
  dataType := n.type.name
  start := n.start
  increment := n.increment
  minimum := n.minimum
  maximum := n.maximum
  cycle := n.cycles

theorem publicSequence_has (name : String) (n : SequenceNumbers) : (publicSequence name n).Has n where
  type := by
    have hname (type : SequenceType) : canonicalType ((type.name : Field String).givenOr "bigint") = type.name := by
      cases type <;> decide
    exact hname n.type
  start := rfl
  increment := rfl
  minimum := rfl
  maximum := rfl
  cycle := by
    show (⟨.flag n.cycles⟩ : Field Bool).isGiven = n.cycles
    cases n.cycles <;> rfl

/-- Invoices are counted from a thousand on, whatever the bounds are. -/
theorem invoices_from_thousand :
    let n : SequenceNumbers := { type := .integer, start := 1000, minimum := some (-5) }
    (publicSequence "invoices" n).Has n ∧ (publicSequence "invoices" n).name.isGiven ∧
      StartsAt ((publicSequence "invoices" n).ddl "public") 1000 := by
  intro n
  have hhas := publicSequence_has "invoices" n
  have hkept : ∀ name ∈ Ddl.path (publicSequence "invoices" n).schema (publicSequence "invoices" n).name "public",
      IsKept name := by
    intro name hname
    obtain rfl : name = "invoices" := List.mem_singleton.mp hname
    exact ⟨by decide, by decide, by decide, fun _ => by decide⟩
  exact ⟨hhas, rfl, ((starts_iff hhas rfl "public").2.2.2 hkept (by rintro _ ⟨⟩)).mpr (.inl (by decide))⟩

/-- The floors of a building begin below the ground floor, but the first one to be counted is the one above it. What
is written of them creates a sequence that starts at the lowest floor. -/
theorem floors_from_below :
    let n : SequenceNumbers := { minimum := some (-5) }
    (publicSequence "floors" n).Has n ∧ n.increment ≠ 0 ∧ n.lowest ≤ n.start ∧ n.start ≤ n.highest ∧
      (publicSequence "floors" n).ddl "public" = "CREATE SEQUENCE floors MINVALUE -5 NO MAXVALUE;" ∧
      StartsAt ((publicSequence "floors" n).ddl "public") (-5) ∧
      ¬ StartsAt ((publicSequence "floors" n).ddl "public") n.start := by
  intro n
  have hhas := publicSequence_has "floors" n
  have hkept : ∀ name ∈ Ddl.path (publicSequence "floors" n).schema (publicSequence "floors" n).name "public",
      IsKept name := by
    intro name hname
    obtain rfl : name = "floors" := List.mem_singleton.mp hname
    exact ⟨by decide, by decide, by decide, fun _ => by decide⟩
  have hfirst : firstValue n.options = -5 := by
    rw [n.firstValue_options]
    rfl
  have hread (first : Int) := startsAt_ddl_iff hhas rfl hkept (by rintro _ ⟨⟩) first
  exact ⟨hhas, by decide, by decide, by decide, by decide +kernel, (hread (-5)).mpr hfirst,
    fun h => absurd (hfirst.symm.trans ((hread 1).mp h)) (by decide)⟩

end SchemaScript
