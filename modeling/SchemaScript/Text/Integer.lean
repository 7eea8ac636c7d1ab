/-!
# Blanks and whole numbers

Whole numbers are read with the blanks around them.
-/

/-!
## Blanks

The characters that separate words, and the removal of blanks around a text. Removing them at one
end a second time changes nothing (`trimStart_idem`, `trimEnd_idem`).
-/

namespace SchemaScript.Text

/-- White space of the Unicode standard, together with the four information separators. -/
def isBlank (c : Char) : Bool :=
  let n := c.toNat
  (9 ≤ n && n ≤ 13) || (28 ≤ n && n ≤ 32) || n == 133 || n == 160 || n == 5760 ||
    (8192 ≤ n && n ≤ 8202) || n == 8232 || n == 8233 || n == 8239 || n == 8287 || n == 12288

def trimStart (s : List Char) : List Char :=
  s.dropWhile isBlank

def trimEnd (s : List Char) : List Char :=
  (s.reverse.dropWhile isBlank).reverse

def trim (s : List Char) : List Char :=
  trimEnd (trimStart s)

/-- The text without the blanks at its ends. -/
def strip (s : String) : String :=
  String.ofList (trim s.toList)

@[simp] theorem trimStart_nil : trimStart [] = [] := rfl

theorem trimStart_cons_of_not_blank {c : Char} (h : isBlank c = false) (s : List Char) :
    trimStart (c :: s) = c :: s := by
  simp [trimStart, h]

theorem dropWhile_idem (p : Char → Bool) (s : List Char) :
    (s.dropWhile p).dropWhile p = s.dropWhile p := by
  induction s with
  | nil => rfl
  | cons c r ih => by_cases h : p c <;> simp [List.dropWhile, h, ih]

@[simp] theorem trimStart_idem (s : List Char) : trimStart (trimStart s) = trimStart s :=
  dropWhile_idem _ _

@[simp] theorem trimEnd_idem (s : List Char) : trimEnd (trimEnd s) = trimEnd s := by
  simp [trimEnd, dropWhile_idem]

/-!
## Whole numbers in decimal

Reading takes blanks around the number, a sign, single underscores between digits and the digits of
any script; writing uses the ASCII digits. Neither has an upper bound.
-/

/-- The code points of the digit zero; the other nine digits follow each of them. -/
def zeros : List Nat :=
  [48, 1632, 1776, 1984, 2406, 2534, 2662, 2790, 2918, 3046, 3174, 3302, 3430, 3558, 3664, 3792,
   3872, 4160, 4240, 6112, 6160, 6470, 6608, 6784, 6800, 6992, 7088, 7232, 7248, 42528, 43216,
   43264, 43472, 43504, 43600, 44016, 65296, 66720, 68912, 69734, 69872, 69942, 70096, 70384,
   70736, 70864, 71248, 71360, 71472, 71904, 72016, 72784, 73040, 73120, 92768, 92864, 93008,
   120782, 120792, 120802, 120812, 120822, 123200, 123632, 125264, 130032]

def digit? (c : Char) : Option Nat :=
  (zeros.find? fun z => z ≤ c.toNat && c.toNat ≤ z + 9).map fun z => c.toNat - z

/-- Goes on reading after a digit; `value` is what stands before. -/
def readDigits (value : Nat) : List Char → Option Nat
  | [] => some value
  | '_' :: c :: r => (digit? c).bind fun d => readDigits (10 * value + d) r
  | c :: r => (digit? c).bind fun d => readDigits (10 * value + d) r

/-- A number without a sign: at least one digit, and no underscore at its ends. -/
def readNatural : List Char → Option Nat
  | [] => none
  | c :: r => (digit? c).bind fun d => readDigits d r

def readInteger (s : String) : Option Int :=
  match trim s.toList with
  | '-' :: r => (readNatural r).map fun n => -Int.ofNat n
  | '+' :: r => (readNatural r).map Int.ofNat
  | r => (readNatural r).map Int.ofNat

/-- The decimal digits of `n`, the leading one first. -/
def digits (n : Nat) : List Char :=
  Nat.toDigits 10 n

def writeNatural (n : Nat) : String :=
  String.ofList (digits n)

def writeInteger : Int → String
  | .ofNat n => writeNatural n
  | .negSucc n => "-" ++ writeNatural (n + 1)

end SchemaScript.Text
