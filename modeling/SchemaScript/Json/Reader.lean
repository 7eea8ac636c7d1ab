import SchemaScript.Json.Value
import SchemaScript.Text.Integer

/-!
# JSON texts

What a text says as JSON, or what is wrong with it.
-/

/-!
## Flaws in a JSON text

What is wrong with a text that is not JSON, and where.
-/

namespace SchemaScript.Json

inductive Cause
  | byteOrderMark
  | valueExpected
  | nameExpected
  | colonExpected
  | commaExpected
  | textGoesOn
  | openText
  | controlCharacter
  | escape
  | codePoint
  deriving DecidableEq, Repr

def Cause.message : Cause → String
  | byteOrderMark => "Unexpected UTF-8 BOM (decode using utf-8-sig)"
  | valueExpected => "Expecting value"
  | nameExpected => "Expecting property name enclosed in double quotes"
  | colonExpected => "Expecting ':' delimiter"
  | commaExpected => "Expecting ',' delimiter"
  | textGoesOn => "Extra data"
  | openText => "Unterminated string starting at"
  | controlCharacter => "Invalid control character at"
  | escape => "Invalid \\escape"
  | codePoint => "Invalid \\uXXXX escape"

/-- A cause and the number of characters before the place where it was found. -/
structure Flaw where
  cause : Cause
  offset : Nat
  line : Nat
  column : Nat
  deriving DecidableEq, Repr

/-- Lines and columns count from one. -/
def Flaw.at (cause : Cause) (s : List Char) (offset : Nat) : Flaw :=
  let before := s.take offset
  { cause
    offset
    line := before.count '\n' + 1
    column := (before.reverse.takeWhile (· != '\n')).length + 1 }

def Flaw.message (flaw : Flaw) : String :=
  flaw.cause.message ++ ": line " ++ Text.writeNatural flaw.line ++ " column " ++
    Text.writeNatural flaw.column ++ " (char " ++ Text.writeNatural flaw.offset ++ ")"

/-!
## Reading JSON

Each reader takes the characters that are left and returns a value with the characters after it.
A reader that stops says why and what was left at that place; `read` turns that into a position.
Of two fields with one name the later value stands in the place of the earlier.
-/

/-- Why reading stopped, and the characters from the place that is to blame on. -/
structure Stop where
  cause : Cause
  rest : List Char

def isSpace (c : Char) : Bool :=
  c == ' ' || c == '\t' || c == '\n' || c == '\r'

def skipSpaces (s : List Char) : List Char :=
  s.dropWhile isSpace

def hexValue? (c : Char) : Option Nat :=
  if '0' ≤ c && c ≤ '9' then some (c.toNat - 48)
  else if 'a' ≤ c && c ≤ 'f' then some (c.toNat - 87)
  else if 'A' ≤ c && c ≤ 'F' then some (c.toNat - 55)
  else none

/-- The number that four hexadecimal digits write. -/
def fourDigits? (a b c d : Char) : Option Nat :=
  match hexValue? a, hexValue? b, hexValue? c, hexValue? d with
  | some a, some b, some c, some d => some (((a * 16 + b) * 16 + c) * 16 + d)
  | _, _, _, _ => none

/-- A unit is a character unless it is half of a pair. -/
def unitLetter (n : Nat) : Letter :=
  if 0xD800 ≤ n && n ≤ 0xDFFF then .half n else .whole (Char.ofNat n)

def isHighUnit (n : Nat) : Bool :=
  0xD800 ≤ n && n ≤ 0xDBFF

def isLowUnit (n : Nat) : Bool :=
  0xDC00 ≤ n && n ≤ 0xDFFF

def pairLetter (high low : Nat) : Letter :=
  .whole (Char.ofNat (0x10000 + (high - 0xD800) * 0x400 + (low - 0xDC00)))

/-- The character that a one-letter escape stands for. -/
def escaped? : Char → Option Char
  | '"' => some '"'
  | '\\' => some '\\'
  | '/' => some '/'
  | 'b' => some '\x08'
  | 'f' => some '\x0c'
  | 'n' => some '\n'
  | 'r' => some '\r'
  | 't' => some '\t'
  | _ => none

/-- Reads up to the closing quote; `opening` starts at the quote that was read before. -/
def readText (opening : List Char) : List Char → Except Stop (List Letter × List Char)
  | [] => .error ⟨.openText, opening⟩
  | '"' :: r => .ok ([], r)
  | ['\\'] => .error ⟨.openText, opening⟩
  | '\\' :: 'u' :: a :: b :: c :: d :: '\\' :: 'u' :: e :: f :: g :: h :: x :: r =>
    match fourDigits? a b c d with
    | none => .error ⟨.codePoint, 'u' :: a :: b :: c :: d :: '\\' :: 'u' :: e :: f :: g :: h :: x :: r⟩
    | some n =>
      if isHighUnit n then
        match fourDigits? e f g h with
        | none => .error ⟨.codePoint, 'u' :: e :: f :: g :: h :: x :: r⟩
        | some m =>
          if isLowUnit m then do
            let (cs, r) ← readText opening (x :: r)
            return (pairLetter n m :: cs, r)
          else do
            let (cs, r) ← readText opening ('\\' :: 'u' :: e :: f :: g :: h :: x :: r)
            return (unitLetter n :: cs, r)
      else do
        let (cs, r) ← readText opening ('\\' :: 'u' :: e :: f :: g :: h :: x :: r)
        return (unitLetter n :: cs, r)
  | '\\' :: 'u' :: a :: b :: c :: d :: x :: r =>
    match fourDigits? a b c d with
    | none => .error ⟨.codePoint, 'u' :: a :: b :: c :: d :: x :: r⟩
    | some n => do
      let (cs, r) ← readText opening (x :: r)
      return (unitLetter n :: cs, r)
  | '\\' :: 'u' :: r => .error ⟨.codePoint, 'u' :: r⟩
  | '\\' :: c :: r =>
    match escaped? c with
    | none => .error ⟨.escape, '\\' :: c :: r⟩
    | some e => do
      let (cs, r) ← readText opening r
      return (.whole e :: cs, r)
  | c :: r =>
    if c.toNat < 32 then .error ⟨.controlCharacter, c :: r⟩
    else do
      let (cs, r) ← readText opening r
      return (.whole c :: cs, r)

/-- Splits off the digits at the front. -/
def readDigits (s : List Char) : List Char × List Char :=
  (s.takeWhile Char.isDigit, s.dropWhile Char.isDigit)

/-- The digits after a point, of which there has to be one. -/
def readFraction : List Char → List Char × List Char
  | '.' :: r =>
    match readDigits r with
    | ([], _) => ([], '.' :: r)
    | found => found
  | r => ([], r)

def digitsValue (digits : List Char) : Nat :=
  digits.foldl (fun n c => 10 * n + (c.toNat - 48)) 0

/-- A power of ten after the letter for it, in digits with or without a sign. -/
def readExponent (s : List Char) : Option Int × List Char :=
  let digitsAfter (negative : Bool) (r : List Char) : Option Int × List Char :=
    match readDigits r with
    | ([], _) => (none, s)
    | (digits, t) =>
      let value := Int.ofNat (digitsValue digits)
      (some (if negative then -value else value), t)
  match s with
  | e :: r =>
    if e == 'e' || e == 'E' then
      match r with
      | '+' :: t => digitsAfter false t
      | '-' :: t => digitsAfter true t
      | _ => digitsAfter false r
    else (none, s)
  | [] => (none, [])

/-- The digits before the point: a single zero, or digits that begin with another one. -/
def readWhole : List Char → Option (List Char × List Char)
  | '0' :: r => some (['0'], r)
  | s =>
    match readDigits s with
    | ([], _) => none
    | (digits, r) => some (digits, r)

/-- The number that digits write, those of a fraction behind the others. -/
def realOf (negative : Bool) (whole fraction : List Char) (exponent : Int) : Binary64 :=
  .ofDecimal negative (digitsValue (whole ++ fraction)) (exponent - Int.ofNat fraction.length)

/-- A number without its sign. -/
def readUnsigned (negative : Bool) (s : List Char) : Option (Json × List Char) := do
  let (whole, r) ← readWhole s
  let (fraction, r) := readFraction r
  let (exponent, r) := readExponent r
  if fraction.isEmpty && exponent.isNone then
    let value := Int.ofNat (digitsValue whole)
    return (integer (if negative then -value else value), r)
  else return (real (realOf negative whole fraction (exponent.getD 0)), r)

def readNumber : List Char → Option (Json × List Char)
  | '-' :: 'I' :: 'n' :: 'f' :: 'i' :: 'n' :: 'i' :: 't' :: 'y' :: r =>
    some (real (.infinite true), r)
  | '-' :: r => readUnsigned true r
  | s => readUnsigned false s

mutual

/-- A value at the front of the text; `fuel` bounds the number of steps. -/
def readValue : Nat → List Char → Except Stop (Json × List Char)
  | 0, s => .error ⟨.valueExpected, s⟩
  | fuel + 1, s =>
    match s with
    | '"' :: r => do
      let (value, r) ← readText s r
      return (ofLetters value, r)
    | '{' :: r =>
      match skipSpaces r with
      | '}' :: t => .ok (object [], t)
      | t => do
        let (fields, r) ← readFields fuel [] t
        return (object fields, r)
    | '[' :: r =>
      match skipSpaces r with
      | ']' :: t => .ok (list [], t)
      | t => do
        let (items, r) ← readItems fuel t
        return (list items, r)
    | 'n' :: 'u' :: 'l' :: 'l' :: r => .ok (null, r)
    | 't' :: 'r' :: 'u' :: 'e' :: r => .ok (flag true, r)
    | 'f' :: 'a' :: 'l' :: 's' :: 'e' :: r => .ok (flag false, r)
    | 'N' :: 'a' :: 'N' :: r => .ok (real .nan, r)
    | 'I' :: 'n' :: 'f' :: 'i' :: 'n' :: 'i' :: 't' :: 'y' :: r => .ok (real (.infinite false), r)
    | _ =>
      match readNumber s with
      | some found => .ok found
      | none => .error ⟨.valueExpected, s⟩

/-- The fields after those in `fields`, up to the closing brace. -/
def readFields : Nat → List (String × Json) → List Char →
    Except Stop (List (String × Json) × List Char)
  | 0, _, s => .error ⟨.nameExpected, s⟩
  | fuel + 1, fields, s =>
    match s with
    | '"' :: r => do
      let (name, r) ← readText s r
      match skipSpaces r with
      | ':' :: r =>
        let (value, r) ← readValue fuel (skipSpaces r)
        let fields := setField (Letter.mended name) value fields
        match skipSpaces r with
        | '}' :: r => return (fields, r)
        | ',' :: r => readFields fuel fields (skipSpaces r)
        | r => .error ⟨.commaExpected, r⟩
      | r => .error ⟨.colonExpected, r⟩
    | _ => .error ⟨.nameExpected, s⟩

/-- The items from here on, up to the closing bracket. -/
def readItems : Nat → List Char → Except Stop (List Json × List Char)
  | 0, s => .error ⟨.valueExpected, s⟩
  | fuel + 1, s => do
    let (first, r) ← readValue fuel s
    match skipSpaces r with
    | ']' :: r => return ([first], r)
    | ',' :: r =>
      let (items, r) ← readItems fuel (skipSpaces r)
      return (first :: items, r)
    | r => .error ⟨.commaExpected, r⟩

end

/-- Reads a whole text, with nothing but spaces after the value. -/
def readAll (s : List Char) : Except Stop Json :=
  match s with
  | '\uFEFF' :: _ => .error ⟨.byteOrderMark, s⟩
  | _ =>
    match readValue (2 * s.length + 2) (skipSpaces s) with
    | .error stop => .error stop
    | .ok (value, r) =>
      match skipSpaces r with
      | [] => .ok value
      | t => .error ⟨.textGoesOn, t⟩

def read (s : String) : Except Flaw Json :=
  match readAll s.toList with
  | .ok value => .ok value
  | .error stop => .error (Flaw.at stop.cause s.toList (s.toList.length - stop.rest.length))

end SchemaScript.Json
