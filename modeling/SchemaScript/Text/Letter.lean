/-!
# Letters and bytes

Characters as they are stored: as sixteen-bit units, of which halves may be lost, and as bytes.
-/

/-!
## Letters of torn texts

A text that comes as sixteen-bit units may hold half of a pair without the other half. Such a half is
no character, so a torn text is a list of characters and halves.
-/

namespace SchemaScript

inductive Letter
  | whole (c : Char)
  /-- A unit that is half of a pair and stands alone. -/
  | half (unit : Nat)
  deriving DecidableEq, Repr

namespace Letter

def char? : Letter → Option Char
  | whole c => some c
  | half _ => none

/-- The number by which letters are put in order. -/
def code : Letter → Nat
  | whole c => c.toNat
  | half unit => unit

/-- The text without gaps, if no half stands alone in it. -/
def text? (letters : List Letter) : Option String :=
  (letters.mapM char?).map String.ofList

/-- The letters of a text without gaps. -/
def ofText (s : String) : List Letter :=
  s.toList.map whole

/-- A run of halves: how many letters stand before it, its first half and its length. -/
structure Gap where
  position : Nat
  unit : Nat
  length : Nat
  deriving DecidableEq, Repr

/-- The first run of halves in a text. -/
def firstGap? : List Letter → Option Gap
  | [] => none
  | whole _ :: letters =>
    (firstGap? letters).map fun gap => { gap with position := gap.position + 1 }
  | half unit :: letters =>
    some { position := 0, unit, length := (letters.takeWhile (·.char?.isNone)).length + 1 }

/-- The text with a mark in place of every half. -/
def mended (letters : List Letter) : String :=
  String.ofList (letters.map fun letter => letter.char?.getD '\uFFFD')

end Letter
end SchemaScript

/-!
## UTF-8

Characters as bytes, and bytes read back as characters.
-/

namespace SchemaScript.Text

/-- The bytes of a character. -/
def utf8 (c : Char) : List Nat :=
  let n := c.toNat
  if n < 0x80 then [n]
  else if n < 0x800 then [0xc0 + n / 0x40, 0x80 + n % 0x40]
  else if n < 0x10000 then [0xe0 + n / 0x1000, 0x80 + n / 0x40 % 0x40, 0x80 + n % 0x40]
  else
    [0xf0 + n / 0x40000, 0x80 + n / 0x1000 % 0x40, 0x80 + n / 0x40 % 0x40, 0x80 + n % 0x40]

/-- How many bytes a character has, as far as the first one tells. -/
def utf8Width (lead : Nat) : Nat :=
  if lead < 0xc0 then 1
  else if lead < 0xe0 then 2
  else if lead < 0xf0 then 3
  else if lead < 0xf8 then 4
  else 1

/-- The number that the bytes of one character stand for. -/
def utf8Value : List Nat → Nat
  | [a] => a
  | [a, b] => (a - 0xc0) * 0x40 + (b - 0x80)
  | [a, b, c] => ((a - 0xe0) * 0x40 + (b - 0x80)) * 0x40 + (c - 0x80)
  | [a, b, c, d] => (((a - 0xf0) * 0x40 + (b - 0x80)) * 0x40 + (c - 0x80)) * 0x40 + (d - 0x80)
  | _ => 0

/-- The character in front. It has to be written in the one right way, and zero is none. -/
def utf8Char? (bytes : List Nat) : Option Char :=
  let own := bytes.take (utf8Width (bytes.headD 0))
  let c := Char.ofNat (utf8Value own)
  if utf8 c == own && c != '\x00' then some c else none

/-- The characters that follow the next `skip` bytes, or the bytes that are no character. -/
def ofUtf8From : Nat → List Nat → Except (List Nat) (List Char)
  | _, [] => .ok []
  | skip + 1, _ :: r => ofUtf8From skip r
  | 0, a :: r =>
    match utf8Char? (a :: r) with
    | some c => (ofUtf8From (utf8Width a - 1) r).map (c :: ·)
    | none => .error ((a :: r).take (utf8Width a))

/-- The characters that the bytes write, or the first bytes that write none. -/
def ofUtf8 (bytes : List Nat) : Except (List Nat) (List Char) :=
  ofUtf8From 0 bytes

end SchemaScript.Text
