import SchemaScript.Json.Value
import SchemaScript.Number.Binary64
import SchemaScript.Order.Topological
import SchemaScript.Text.Integer
import SchemaScript.Text.Quoted

/-!
# Writing JSON

The written form is ASCII with the fields of every object in the order of their names, so two values
that differ only in the order of fields are written alike.
-/

namespace SchemaScript.Json

/-- A code unit as a four-digit escape. -/
def unitEscape (n : Nat) : List Char :=
  '\\' :: 'u' :: Text.hex 4 n

/-- One character of a text; beyond the basic plane it takes two units. -/
def charText (c : Char) : List Char :=
  if c == '"' then ['\\', '"']
  else if c == '\\' then ['\\', '\\']
  else if c == '\n' then ['\\', 'n']
  else if c == '\r' then ['\\', 'r']
  else if c == '\t' then ['\\', 't']
  else if c == '\x08' then ['\\', 'b']
  else if c == '\x0c' then ['\\', 'f']
  else if 32 ≤ c.toNat && c.toNat ≤ 126 then [c]
  else if c.toNat < 0x10000 then unitEscape c.toNat
  else
    let n := c.toNat - 0x10000
    unitEscape (0xD800 + n / 0x400) ++ unitEscape (0xDC00 + n % 0x400)

def quoted (s : String) : String :=
  String.ofList ('"' :: s.toList.flatMap charText ++ ['"'])

def letterText : Letter → List Char
  | .whole c => charText c
  | .half unit => unitEscape unit

/-- How items are set apart: all on one line, or each on its own line behind one more `indent`. -/
inductive Layout
  | line
  | block (indent : String)
  deriving DecidableEq

/-- Items on their own lines, each level set in by this many blanks. -/
def Layout.ofWidth (width : Nat) : Layout :=
  block (String.ofList (List.replicate width ' '))

def Layout.newline : Layout → Nat → String
  | line, _ => ""
  | block indent, depth => "\n" ++ String.join (List.replicate depth indent)

def Layout.comma : Layout → Nat → String
  | line, _ => ", "
  | block indent, depth => "," ++ (block indent).newline depth

/-- Items between brackets that close at depth `depth`. -/
def Layout.enclose (layout : Layout) (depth : Nat) (opening closing : String)
    (items : List String) : String :=
  if items.isEmpty then opening ++ closing
  else
    opening ++ layout.newline (depth + 1) ++ (layout.comma (depth + 1)).intercalate items ++
      layout.newline depth ++ closing

/-- Fields by name, in the order of code points. -/
def sortFields {α : Type} (fields : List (String × α)) : List (String × α) :=
  Order.sort (fun a b => a.1 ≤ b.1) fields

mutual

def writeAt (layout : Layout) (depth : Nat) : Json → String
  | null => "null"
  | flag b => if b then "true" else "false"
  | integer n => Text.writeInteger n
  | real x => x.text "Infinity" "NaN"
  | text s => quoted s
  | torn letters => String.ofList ('"' :: letters.flatMap letterText ++ ['"'])
  | list items => layout.enclose depth "[" "]" (writeItems layout (depth + 1) items)
  | object fields =>
    layout.enclose depth "\x7b" "\x7d"
      ((sortFields (writeFields layout (depth + 1) fields)).map fun field =>
        quoted field.1 ++ ": " ++ field.2)

def writeItems (layout : Layout) (depth : Nat) : List Json → List String
  | [] => []
  | item :: items => writeAt layout depth item :: writeItems layout depth items

def writeFields (layout : Layout) (depth : Nat) : List (String × Json) → List (String × String)
  | [] => []
  | (name, value) :: fields =>
    (name, writeAt layout depth value) :: writeFields layout depth fields

end

def write (layout : Layout) (value : Json) : String :=
  writeAt layout 0 value

/-- A torn text as messages show it. -/
def shownLetters (letters : List Letter) : String :=
  let quote :=
    if letters.contains (.whole '\'') && !letters.contains (.whole '"') then '"' else '\''
  let shownLetter : Letter → List Char
    | .whole c => Text.shownChar quote c
    | .half unit => unitEscape unit
  String.ofList (quote :: letters.flatMap shownLetter ++ [quote])

mutual

/-- A value as messages show it. -/
def shown : Json → String
  | null => "None"
  | flag b => if b then "True" else "False"
  | integer n => Text.writeInteger n
  | real x => x.text "inf" "nan"
  | text s => Text.shown s
  | torn letters => shownLetters letters
  | list items => "[" ++ ", ".intercalate (shownItems items) ++ "]"
  | object fields => "\x7b" ++ ", ".intercalate (shownFields fields) ++ "\x7d"

def shownItems : List Json → List String
  | [] => []
  | item :: items => shown item :: shownItems items

def shownFields : List (String × Json) → List String
  | [] => []
  | (name, value) :: fields => (Text.shown name ++ ": " ++ shown value) :: shownFields fields

end

/-- A text as it is, and any other value as messages show it. -/
def plain : Json → String
  | text s => s
  | torn letters => Letter.mended letters
  | value => shown value

end SchemaScript.Json
