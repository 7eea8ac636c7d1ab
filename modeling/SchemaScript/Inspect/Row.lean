import SchemaScript.Catalog.Decode
import SchemaScript.Log
import SchemaScript.Sql.TypeName
import SchemaScript.Text.Case

/-!
# Rows of a query

A database answers a query with rows of cells. A cell may hold any value; the readers here say what
each kind of column makes of it.
-/

namespace SchemaScript.Inspect

abbrev Row := List Json

/-- What is wrong with a row that should have `width` cells and has another number of them. -/
def widthFault (width : Nat) (row : Row) : Fault :=
  if row.length < width then .rowTooShort width row.length else .rowTooLong width

namespace Cell

/-- A name under which something is kept. -/
def name (cell : Json) : String :=
  cell.plain

def isSet (cell : Json) : Bool :=
  !cell.isNothing

/-- The cell holds these letters. -/
def isWord (word : String) (cell : Json) : Bool :=
  cell == .text word

/-- Texts say yes by a word, other cells by not being nothing. -/
def saysYes : Json → Bool
  | .text s => ["YES", "TRUE", "T"].contains (Text.upper s)
  | cell => isSet cell

/-- A number; a fraction is cut off. -/
def integer : Json → Except Fault Int
  | .integer n => .ok n
  | .flag b => .ok (if b then 1 else 0)
  | .text s =>
    match Text.readInteger s with
    | some n => .ok n
    | none => .error (.notANumber s)
  | .real x =>
    match x.fraction? with
    | some (n, d) => if d == 0 then .error .wrongForm else .ok (Int.tdiv n d)
    | none => .error .wrongForm
  | _ => .error .wrongForm

/-- A number that may be missing. -/
def integer? : Json → Except Fault (Option Int)
  | .null => .ok none
  | .text "" => .ok none
  | cell => (integer cell).map some

/-- The items of a list; nothing is an empty one. -/
def items (cell : Json) : Except Fault (List Json) :=
  if cell.isNothing then .ok [] else Decode.items cell

/-- The letters of a text; nothing is an empty one. -/
def letters (cell : Json) : Except Fault String :=
  if cell.isNothing then .ok ""
  else if cell.isText then .ok cell.plain
  else .error .notAText

/-- The one spelling of a type; what counts as nothing stays as it is. -/
def type (cell : Json) : Except Fault (Field String) :=
  if cell.isNothing then .ok ⟨cell⟩
  else do
    let written ← letters cell
    return Sql.canonicalType written

/-- What a code stands for. -/
def decode {α : Type} (codes : List (String × α)) (cell : Json) : Option α :=
  match cell with
  | .text code => (codes.find? fun entry => entry.1 == code).map (·.2)
  | _ => none

/-- What a code stands for that has to be known. -/
def decodeKnown {α : Type} (codes : List (String × α)) (cell : Json) : Except Fault α :=
  match decode codes cell with
  | some a => .ok a
  | none => .error .unknownCode

end Cell

/-- Changes a table that the catalog has; a row for another table says nothing. -/
def atTable (catalog : Catalog) (schema table : Json) (f : Table → Except Fault Table) :
    Logged Catalog :=
  match catalog.findTable? (Cell.name schema) (Cell.name table) with
  | none => return catalog
  | some found => do
    let changed ← .ofResult (f found)
    return catalog.modifyTable (Cell.name schema) (Cell.name table) fun _ => changed

end SchemaScript.Inspect
