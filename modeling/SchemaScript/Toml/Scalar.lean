import SchemaScript.Json.Reader
import SchemaScript.Toml.Value

/-!
# Texts, numbers and dates in TOML

The values that are neither lists nor tables.
-/

/-!
## Texts in TOML

Texts stand between single quotes, where every character means itself, or between double quotes with
escapes; three quotes open a text that may span lines. A reader returns the text and what follows it.
-/

namespace SchemaScript.Toml

def isBlank (c : Char) : Bool :=
  c == ' ' || c == '\t'

def skipBlanks (s : List Char) : List Char :=
  s.dropWhile isBlank

/-- Any character but a control character; the tabulator counts as plain. -/
def isPlain (c : Char) : Bool :=
  c == '\t' || (32 ≤ c.toNat && c.toNat != 127)

def isPlainIn (long : Bool) (c : Char) : Bool :=
  isPlain c || (long && c == '\n')

/-- Up to two quotes that stand before the three closing ones belong to the text. -/
def extraQuotes (quote : Char) : List Char → List Char × List Char
  | a :: b :: r =>
    if a == quote then if b == quote then ([a, b], r) else ([a], b :: r) else ([], a :: b :: r)
  | [a] => if a == quote then ([a], []) else ([], [a])
  | [] => ([], [])

def consFirst (c : Char) (found : List Char × List Char) : List Char × List Char :=
  (c :: found.1, found.2)

/-- Reads a text up to its closing single quotes. -/
def readLiteral (long : Bool) : List Char → Option (List Char × List Char)
  | [] => none
  | '\'' :: r =>
    if long then
      match r with
      | '\'' :: '\'' :: t => some (extraQuotes '\'' t)
      | _ => (readLiteral long r).map (consFirst '\'')
    else some ([], r)
  | c :: r => if isPlainIn long c then (readLiteral long r).map (consFirst c) else none

/-- The character that a one-letter escape stands for. -/
def escaped? : Char → Option Char
  | '"' => some '"'
  | '\\' => some '\\'
  | 'b' => some '\x08'
  | 'f' => some '\x0c'
  | 'n' => some '\n'
  | 'r' => some '\r'
  | 't' => some '\t'
  | _ => none

/-- The character with this code point, written in hexadecimal; surrogates are none. -/
def hexChar? (digits : List Char) : Option Char := do
  let value ← digits.foldlM (fun n c => (Json.hexValue? c).map (16 * n + ·)) 0
  if value < 0xD800 || (0xDFFF < value && value < 0x110000) then some (Char.ofNat value) else none

/-- What a backslash at the end of a line leaves to skip. -/
inductive Pause
  | none
  | toLineEnd
  | toNextWord
  deriving DecidableEq

/-- Reads a text up to its closing double quotes. -/
def readEscaped (long : Bool) : Pause → List Char → Option (List Char × List Char)
  | _, [] => .none
  | .toLineEnd, c :: r =>
    if isBlank c then readEscaped long .toLineEnd r
    else if c == '\n' then readEscaped long .toNextWord r
    else .none
  | _, '"' :: r =>
    if long then
      match r with
      | '"' :: '"' :: t => some (extraQuotes '"' t)
      | _ => (readEscaped long .none r).map (consFirst '"')
    else some ([], r)
  | _, '\\' :: 'u' :: a :: b :: c :: d :: r => do
    let e ← hexChar? [a, b, c, d]
    return consFirst e (← readEscaped long .none r)
  | _, '\\' :: 'U' :: a :: b :: c :: d :: e :: f :: g :: h :: r => do
    let e ← hexChar? [a, b, c, d, e, f, g, h]
    return consFirst e (← readEscaped long .none r)
  | _, '\\' :: c :: r =>
    if long && isBlank c then readEscaped long .toLineEnd r
    else if long && c == '\n' then readEscaped long .toNextWord r
    else do
      let e ← escaped? c
      return consFirst e (← readEscaped long .none r)
  | pause, c :: r =>
    if pause == .toNextWord && (isBlank c || c == '\n') then readEscaped long pause r
    else if isPlainIn long c && c != '\\' then (readEscaped long .none r).map (consFirst c)
    else .none

/-- A line break right after the opening quotes does not belong to the text. -/
def dropLineBreak : List Char → List Char
  | '\n' :: r => r
  | r => r

/-- A text on one line, if one begins here. -/
def readShort : List Char → Option (List Char × List Char)
  | '\'' :: r => readLiteral false r
  | '"' :: r => readEscaped false .none r
  | _ => none

/-- A text of either length, if one begins here. -/
def readText : List Char → Option (List Char × List Char)
  | '\'' :: '\'' :: '\'' :: r => readLiteral true (dropLineBreak r)
  | '"' :: '"' :: '"' :: r => readEscaped true .none (dropLineBreak r)
  | s => readShort s

/-!
## Numbers and dates in TOML

Single underscores may stand between the digits of a number.
-/

/-- Digits that single underscores may separate, at the front of a text. -/
def readGroup (isDigit : Char → Bool) : List Char → List Char × List Char
  | '_' :: c :: r =>
    if isDigit c then consFirst c (readGroup isDigit r) else ([], '_' :: c :: r)
  | c :: r => if isDigit c then consFirst c (readGroup isDigit r) else ([], c :: r)
  | [] => ([], [])

/-- A group that is not empty and does not begin with an underscore. -/
def readDigits (isDigit : Char → Bool) (s : List Char) : Option (List Char × List Char) :=
  match s with
  | c :: _ => if isDigit c then some (readGroup isDigit s) else none
  | [] => none

def digitsValue (base : Nat) (digits : List Char) : Nat :=
  digits.foldl (fun n c => base * n + (Json.hexValue? c).getD 0) 0

def isBinary (c : Char) : Bool :=
  c == '0' || c == '1'

def isOctal (c : Char) : Bool :=
  '0' ≤ c && c ≤ '7'

def isHexadecimal (c : Char) : Bool :=
  (Json.hexValue? c).isSome

/-- A whole number in another base than ten. -/
def readBased (base : Nat) (isDigit : Char → Bool) (s : List Char) : Option (Value × List Char) :=
  (readDigits isDigit s).map fun found => (.integer (digitsValue base found.1), found.2)

/-- The digits before the point: a single zero, or digits that begin with another one. -/
def readWhole : List Char → Option (List Char × List Char)
  | '0' :: r => some (['0'], r)
  | s => readDigits Char.isDigit s

/-- The digits after a point, of which there has to be one. -/
def readFraction : List Char → List Char × List Char
  | '.' :: r => (readDigits Char.isDigit r).getD ([], '.' :: r)
  | r => ([], r)

/-- A power of ten after the letter for it, in digits with or without a sign. -/
def readExponent (s : List Char) : Option Int × List Char :=
  let digitsAfter (negative : Bool) (r : List Char) : Option Int × List Char :=
    match readDigits Char.isDigit r with
    | some (digits, t) =>
      let value := Int.ofNat (digitsValue 10 digits)
      (some (if negative then -value else value), t)
    | none => (none, s)
  match s with
  | e :: r =>
    if e == 'e' || e == 'E' then
      match r with
      | '+' :: t => digitsAfter false t
      | '-' :: t => digitsAfter true t
      | _ => digitsAfter false r
    else (none, s)
  | [] => (none, [])

/-- A decimal number after its sign. -/
def readDecimal (negative : Bool) (s : List Char) : Option (Value × List Char) := do
  let (whole, r) ← readWhole s
  let (fraction, r) := readFraction r
  let (exponent, r) := readExponent r
  if fraction.isEmpty && exponent.isNone then
    let value := Int.ofNat (digitsValue 10 whole)
    return (.integer (if negative then -value else value), r)
  else return (.real (Json.realOf negative whole fraction (exponent.getD 0)), r)

/-- The two numbers that are written with letters. -/
def readNamed (negative : Bool) : List Char → Option (Value × List Char)
  | 'i' :: 'n' :: 'f' :: r => some (.real (.infinite negative), r)
  | 'n' :: 'a' :: 'n' :: r => some (.real .nan, r)
  | _ => none

def readSigned (negative : Bool) (s : List Char) : Option (Value × List Char) :=
  (readDecimal negative s).orElse fun _ => readNamed negative s

def readNumber : List Char → Option (Value × List Char)
  | '0' :: 'x' :: r => readBased 16 isHexadecimal r
  | '0' :: 'o' :: r => readBased 8 isOctal r
  | '0' :: 'b' :: r => readBased 2 isBinary r
  | '+' :: r => readSigned false r
  | '-' :: r => readSigned true r
  | s => readSigned false s

/-! ### Dates and times -/

def twoDigits? (a b : Char) : Option Nat :=
  if a.isDigit && b.isDigit then some (10 * (a.toNat - 48) + (b.toNat - 48)) else none

/-- Two digits of a number that is at most `limit`. -/
def bounded? (limit : Nat) (a b : Char) : Option Nat :=
  (twoDigits? a b).filter (· ≤ limit)

/-- The millionth parts of a second that decimals write; further decimals do not count. -/
def microsOf (decimals : List Char) : Nat :=
  digitsValue 10 ((decimals ++ List.replicate 6 '0').take 6)

/-- Hours, minutes and seconds. -/
def readTime : List Char → Option (Time × List Char)
  | a :: b :: ':' :: c :: d :: ':' :: e :: f :: r => do
    let hour ← bounded? 23 a b
    let minute ← bounded? 59 c d
    let second ← bounded? 59 e f
    match r with
    | '.' :: t =>
      match t.takeWhile Char.isDigit with
      | [] => return ({ hour, minute, second, micro := 0 }, r)
      | decimals =>
        return ({ hour, minute, second, micro := microsOf decimals }, t.dropWhile Char.isDigit)
    | _ => return ({ hour, minute, second, micro := 0 }, r)
  | _ => none

/-- The distance from universal time in minutes; there may be none. -/
def readOffset (s : List Char) : Option Int × List Char :=
  match s with
  | 'Z' :: r | 'z' :: r => (some 0, r)
  | sign :: a :: b :: ':' :: c :: d :: r =>
    if sign == '+' || sign == '-' then
      match bounded? 23 a b, bounded? 59 c d with
      | some hours, some minutes =>
        let distance := Int.ofNat (60 * hours + minutes)
        (some (if sign == '-' then -distance else distance), r)
      | _, _ => (none, s)
    else (none, s)
  | _ => (none, s)

def isLeapYear (year : Nat) : Bool :=
  year % 4 == 0 && (year % 100 != 0 || year % 400 == 0)

def daysIn (year month : Nat) : Nat :=
  match month with
  | 2 => if isLeapYear year then 29 else 28
  | 4 | 6 | 9 | 11 => 30
  | _ => 31

/-- A day of the calendar; the years count from one. -/
def readDate : List Char → Option (Date × List Char)
  | a :: b :: c :: d :: '-' :: e :: f :: '-' :: g :: h :: r => do
    let year := 100 * (← twoDigits? a b) + (← twoDigits? c d)
    let month ← twoDigits? e f
    let day ← twoDigits? g h
    if 1 ≤ year && 1 ≤ month && month ≤ 12 && 1 ≤ day && day ≤ daysIn year month then
      some ({ year, month, day }, r)
    else none
  | _ => none

/-- A date, with a time behind it or not. -/
def readMoment (s : List Char) : Option (Moment × List Char) := do
  let (date, r) ← readDate s
  match r with
  | mark :: t =>
    if mark == 'T' || mark == 't' || mark == ' ' then
      match readTime t with
      | some (time, t) =>
        let (offset, t) := readOffset t
        return (.dateTime date time offset, t)
      | none => return (.date date, r)
    else return (.date date, r)
  | [] => return (.date date, r)

/-- A number, a date or a time. -/
def readScalar (s : List Char) : Option (Value × List Char) :=
  match readMoment s with
  | some (moment, r) => some (.moment moment, r)
  | none =>
    match readTime s with
    | some (time, r) => some (.moment (.time time), r)
    | none => readNumber s

end SchemaScript.Toml
