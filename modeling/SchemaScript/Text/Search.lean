/-!
# Parts of a text, and texts that may be absent

What is found in a text, and what stands in for a text that is not there.
-/

/-!
## Finding and replacing parts of a text

Texts are lists of characters here; a part is found where it begins.
-/

namespace SchemaScript.Text

/-- What follows `lead` in `s`, if `s` begins with it. -/
def after? (lead s : List Char) : Option (List Char) :=
  if lead.isPrefixOf s then some (s.drop lead.length) else none

/-- `part` stands somewhere in the text. -/
def occursIn (part : List Char) : List Char → Bool
  | [] => part.isEmpty
  | c :: r => part.isPrefixOf (c :: r) || occursIn part r

/-- Leaves out the next `skip` characters and writes `new` for each later `old`, leftmost first. -/
def replaceFrom (old new : List Char) : Nat → List Char → List Char
  | _, [] => []
  | skip + 1, _ :: r => replaceFrom old new skip r
  | 0, c :: r =>
    if old.isPrefixOf (c :: r) then new ++ replaceFrom old new (old.length - 1) r
    else c :: replaceFrom old new 0 r

/-- Writes `new` for each `old`, leftmost first and without overlap. -/
def replace (old new s : List Char) : List Char :=
  replaceFrom old new 0 s

/-- The parts between the separators; there is one more part than there are separators. -/
def splitAt (sep : Char) : List Char → List (List Char)
  | [] => [[]]
  | c :: r =>
    if c == sep then [] :: splitAt sep r
    else
      match splitAt sep r with
      | [] => [[c]]
      | part :: parts => (c :: part) :: parts

/-- The text from the first occurrence of `part` on, if there is one. -/
def fromFirst? (part : List Char) : List Char → Option (List Char)
  | [] => if part.isEmpty then some [] else none
  | c :: r => if part.isPrefixOf (c :: r) then some (c :: r) else fromFirst? part r

def contains (s part : String) : Bool :=
  occursIn part.toList s.toList

def replaceAll (s old new : String) : String :=
  String.ofList (replace old.toList new.toList s.toList)

def startsWith (s lead : String) : Bool :=
  lead.toList.isPrefixOf s.toList

def endsWith (s tail : String) : Bool :=
  tail.toList.isSuffixOf s.toList

theorem occursIn_iff {part s : List Char} : occursIn part s = true ↔ part <:+: s := by
  induction s with
  | nil => cases part <;> simp [occursIn]
  | cons c r ih => simp [occursIn, ih, List.infix_cons_iff]

/-!
## Texts that may be absent

A text that is absent is different from an empty one, but most rules treat both as nothing given.
-/

/-- The text, unless it is absent or empty. -/
def given (s : Option String) : Option String :=
  s.filter fun t => t != ""

def isGiven (s : Option String) : Bool :=
  (given s).isSome

/-- An absent text shows as the word `None`. -/
def spelled (s : Option String) : String :=
  s.getD "None"

/-- The text, or `standIn` for one that is absent or empty. -/
def givenOr (s : Option String) (standIn : String) : String :=
  (given s).getD standIn

@[simp] theorem given_none : given none = none := rfl

theorem given_eq_some_iff {s : Option String} {t : String} :
    given s = some t ↔ s = some t ∧ t ≠ "" := by
  simp [given]

@[simp] theorem spelled_some (s : String) : spelled (some s) = s := rfl

end SchemaScript.Text
