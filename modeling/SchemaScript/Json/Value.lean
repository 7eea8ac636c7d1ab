import SchemaScript.Number.Binary64
import SchemaScript.Text.Letter

/-!
# JSON values

Objects keep the order of their fields, and a name occurs once among them. Main statement: two values
can be told apart, `sameValue_iff`.
-/

namespace SchemaScript

/-- A JSON value. -/
inductive Json
  | null
  | flag (value : Bool)
  | integer (value : Int)
  /-- A number with a fraction or an exponent. -/
  | real (value : Binary64)
  | text (value : String)
  /-- A text that holds half of a pair of units alone. -/
  | torn (letters : List Letter)
  | list (items : List Json)
  | object (fields : List (String × Json))
  deriving Inhabited

namespace Json

/-! ## Equality -/

mutual

def sameValue : Json → Json → Bool
  | null, null => true
  | flag a, flag b => a == b
  | integer a, integer b => a == b
  | real a, real b => a == b
  | text a, text b => a == b
  | torn a, torn b => a == b
  | list a, list b => sameItems a b
  | object a, object b => sameFields a b
  | _, _ => false

def sameItems : List Json → List Json → Bool
  | [], [] => true
  | a :: as, b :: bs => sameValue a b && sameItems as bs
  | _, _ => false

def sameFields : List (String × Json) → List (String × Json) → Bool
  | [], [] => true
  | (m, a) :: as, (n, b) :: bs => m == n && sameValue a b && sameFields as bs
  | _, _ => false

end

mutual

theorem sameValue_iff : (a b : Json) → (sameValue a b = true ↔ a = b)
  | null, b => by cases b <;> simp [sameValue]
  | flag a, b => by cases b <;> simp [sameValue]
  | integer a, b => by cases b <;> simp [sameValue]
  | real a, b => by cases b <;> simp [sameValue]
  | text a, b => by cases b <;> simp [sameValue]
  | torn a, b => by cases b <;> simp [sameValue]
  | list a, b => by cases b <;> simp [sameValue, sameItems_iff a]
  | object a, b => by cases b <;> simp [sameValue, sameFields_iff a]

theorem sameItems_iff : (a b : List Json) → (sameItems a b = true ↔ a = b)
  | [], b => by cases b <;> simp [sameItems]
  | a :: as, b => by cases b <;> simp [sameItems, sameValue_iff a, sameItems_iff as]

theorem sameFields_iff : (a b : List (String × Json)) → (sameFields a b = true ↔ a = b)
  | [], b => by cases b <;> simp [sameFields]
  | (m, a) :: as, b => by
    cases b with
    | nil => simp [sameFields]
    | cons field bs =>
      obtain ⟨n, b⟩ := field
      simp [sameFields, sameValue_iff a, sameFields_iff as]

end

instance : DecidableEq Json := fun a b =>
  decidable_of_iff (sameValue a b = true) (sameValue_iff a b)

/-! ## Fields -/

/-- Gives `key` the value `value`, in its old place if it was there and at the end if not. -/
def setField (key : String) (value : Json) : List (String × Json) → List (String × Json)
  | [] => [(key, value)]
  | (k, v) :: fields => if k == key then (k, value) :: fields else (k, v) :: setField key value fields

def find? (key : String) (fields : List (String × Json)) : Option Json :=
  (fields.find? fun field => field.1 == key).map (·.2)

/-- A field of an object; absent in every other value. -/
def field? (key : String) : Json → Option Json
  | object fields => find? key fields
  | _ => none

/-- The field, or `null` where it is missing. -/
def field (key : String) (value : Json) : Json :=
  (value.field? key).getD null

/-! ## Values from parts -/

def ofText? : Option String → Json
  | some s => text s
  | none => null

def ofInteger? : Option Int → Json
  | some n => integer n
  | none => null

def ofTexts (items : List String) : Json :=
  list (items.map text)

/-- A text, torn or not. -/
def ofLetters (letters : List Letter) : Json :=
  match Letter.text? letters with
  | some s => text s
  | none => torn letters

/-! ## Kinds -/

/-- The values that count as nothing: `null`, `false`, zero and everything empty. -/
def isNothing : Json → Bool
  | null => true
  | flag b => !b
  | integer n => n == 0
  | real x => x.isZero
  | text s => s == ""
  | torn _ => false
  | list items => items.isEmpty
  | object fields => fields.isEmpty

/-- The items over which a value can be gone through one by one. -/
def items? : Json → Option (List Json)
  | list items => some items
  | text s => some (s.toList.map fun c => text (String.ofList [c]))
  | torn letters => some (letters.map fun letter => ofLetters [letter])
  | object fields => some (fields.map fun field => text field.1)
  | _ => none

def isText : Json → Bool
  | text _ | torn _ => true
  | _ => false

def string? : Json → Option String
  | text s => some s
  | _ => none

theorem string?_eq_some_iff {value : Json} {s : String} :
    value.string? = some s ↔ value = text s := by
  cases value <;> simp [string?]

/-- The letters of a text, torn or not. -/
def letters? : Json → Option (List Letter)
  | text s => some (Letter.ofText s)
  | torn letters => some letters
  | _ => none

/-- The value as a fraction; a flag counts as zero or one. -/
def fraction? : Json → Option (Int × Nat)
  | integer n => some (n, 1)
  | flag b => some (if b then 1 else 0, 1)
  | real x => x.fraction?
  | _ => none

/-- The value is this number, whichever way it is written. -/
def isNumber (n : Int) (value : Json) : Bool :=
  match value.fraction? with
  | some (a, b) => b != 0 && a == n * b
  | none => false

/-! ## Order -/

/-- Where a value stands among others: first what has no order, then numbers, then texts. -/
inductive Place
  | loose
  /-- A number; `bound` is its sign if it is infinite and zero if not. -/
  | number (bound : Int) (value : Rat)
  | text (codes : List Nat)

namespace Place

def le : Place → Place → Bool
  | loose, _ => true
  | number _ _, loose => false
  | number s a, number t b => s < t || (s == t && a ≤ b)
  | number _ _, text _ => true
  | text s, text t => decide (s.le t)
  | text _, _ => false

theorem le_total (p q : Place) : p.le q || q.le p := by
  cases p <;> cases q <;> try rfl
  case number s a t b =>
    rcases Int.lt_trichotomy s t with h | h | h
    · simp [le, h]
    · simpa [le, h] using Rat.le_total
    · simp [le, h]
  case text s t =>
    rw [Place.le, Place.le, Bool.or_eq_true, decide_eq_true_iff, decide_eq_true_iff]
    exact List.le_total s t

theorem le_trans {p q r : Place} (hpq : p.le q) (hqr : q.le r) : p.le r := by
  cases p <;> cases q <;> cases r <;> simp only [le, Bool.false_eq_true] at hpq hqr ⊢
  case number.number.number s a t b u c =>
    simp only [Bool.or_eq_true, Bool.and_eq_true, decide_eq_true_eq, beq_iff_eq] at hpq hqr ⊢
    rcases hpq with hst | ⟨rfl, hab⟩ <;> rcases hqr with htu | ⟨rfl, hbc⟩
    · exact .inl (Int.lt_trans hst htu)
    · exact .inl hst
    · exact .inl htu
    · exact .inr ⟨rfl, Rat.le_trans hab hbc⟩
  case text.text.text s t u =>
    simp only [decide_eq_true_eq] at hpq hqr ⊢
    exact List.le_trans hpq hqr

end Place

def place (value : Json) : Place :=
  match value.letters?, value.fraction? with
  | some letters, _ => .text (letters.map Letter.code)
  | none, some (n, 0) => .number n 0
  | none, some (n, d) => .number 0 (mkRat n d)
  | none, none => .loose

/-- The first value does not come after the second, for two numbers or two texts. -/
def precedes (first second : Json) : Bool :=
  first.place.le second.place

theorem precedes_total (a b : Json) : a.precedes b || b.precedes a :=
  Place.le_total a.place b.place

theorem precedes_trans {a b c : Json} (hab : a.precedes b) (hbc : b.precedes c) : a.precedes c :=
  Place.le_trans hab hbc

/-- The values can be put in order: all are numbers, or all are texts, or there is just one. -/
def areOrdered (values : List Json) : Bool :=
  values.length ≤ 1 || values.all (·.fraction?.isSome) || values.all isText

theorem areOrdered_sublist {values fewer : List Json} (hsub : fewer.Sublist values)
    (h : areOrdered values) : areOrdered fewer := by
  simp only [areOrdered, Bool.or_eq_true, decide_eq_true_eq, List.all_eq_true] at h ⊢
  rcases h with (h | h) | h
  · exact .inl (.inl (Nat.le_trans hsub.length_le h))
  · exact .inl (.inr fun v hv => h v (hsub.mem hv))
  · exact .inr fun v hv => h v (hsub.mem hv)

end Json
end SchemaScript
