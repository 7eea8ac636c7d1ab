import SchemaScript.Fault
import SchemaScript.Json.Writer

/-!
# Stored fields

A field is meant for values of one type, but a catalog can come from anywhere, so a field may hold any
value at all. What is stored is kept as it is; the functions here say what it counts as.
-/

namespace SchemaScript

/-- A field that is meant for values of type `α`. -/
structure Field (α : Type) where
  stored : Json
  deriving DecidableEq, Inhabited

namespace Field

variable {α : Type}

def absent : Field α :=
  ⟨.null⟩

instance : Coe String (Field String) := ⟨fun s => ⟨.text s⟩⟩
instance : Coe (Option String) (Field String) := ⟨fun s => ⟨.ofText? s⟩⟩
instance : Coe Int (Field Int) := ⟨fun n => ⟨.integer n⟩⟩
instance : Coe (Option Int) (Field Int) := ⟨fun n => ⟨.ofInteger? n⟩⟩
instance : Coe Bool (Field Bool) := ⟨fun b => ⟨.flag b⟩⟩
instance : Coe (List String) (Field (List String)) := ⟨fun items => ⟨.ofTexts items⟩⟩

/-- Something is stored that does not count as nothing. -/
def isGiven (f : Field α) : Bool :=
  !f.stored.isNothing

/-- What is stored as a text; nothing shows as the word `None`. -/
def spelled (f : Field α) : String :=
  f.stored.plain

/-- The stored value as a text, unless none is stored. -/
def text? (f : Field α) : Option String :=
  if f.stored = .null then none else some f.spelled

/-- The stored value as a text, unless it counts as nothing. -/
def given (f : Field α) : Option String :=
  if f.isGiven then some f.spelled else none

def givenOr (f : Field α) (standIn : String) : String :=
  f.given.getD standIn

/-- The texts that are listed. -/
def texts (f : Field (List String)) : List String :=
  (f.stored.items?.getD []).map Json.plain

/-! ## What a statement needs -/

/-- The letters of a text are needed, unless nothing is stored. -/
def needText (f : Field String) : Except Fault Unit :=
  if f.isGiven && !f.stored.isText then .error .notAText else .ok ()

/-- A list of texts is needed, unless nothing is stored. -/
def needTexts (f : Field (List String)) (other : Fault) : Except Fault Unit :=
  if !f.isGiven then .ok ()
  else
    match f.stored.items? with
    | some items => if items.all Json.isText then .ok () else .error other
    | none => .error .wrongForm

theorem stored_eq_text_iff {f : Field String} {s : String} :
    f.stored = .text s ↔ f = (s : Field String) := by
  cases f
  simp

@[simp] theorem spelled_text (s : String) : (⟨.text s⟩ : Field String).spelled = s := rfl

@[simp] theorem given_absent : (absent : Field α).given = none := rfl

@[simp] theorem text?_text (s : String) : (⟨.text s⟩ : Field String).text? = some s := by
  simp [text?]

theorem given_text (s : String) :
    (⟨.text s⟩ : Field String).given = if s = "" then none else some s := by
  by_cases h : s = "" <;> simp [given, isGiven, Json.isNothing, h]

@[simp] theorem needText_text (s : String) : (⟨.text s⟩ : Field String).needText = .ok () := by
  simp [needText, Json.isText]

@[simp] theorem needText_absent : (absent : Field String).needText = .ok () := rfl

end Field

/-! ## Order by position -/

/-- Objects in the order of their positions; equal positions keep their order. -/
def byPosition {α : Type} (position : α → Field Int) (objects : List α) : List α :=
  Order.sort (fun a b => (position a).stored.precedes (position b).stored) objects

/-- Several positions have to be of one kind to be put in order. -/
def needOrder {α : Type} (position : α → Field Int) (objects : List α) : Except Fault Unit :=
  if Json.areOrdered (objects.map fun a => (position a).stored) then .ok () else .error .unordered

end SchemaScript
