import SchemaScript.Text.Search
import SchemaScript.Toml.Scalar
import SchemaScript.Toml.Value

/-!
# TOML documents

A document is read line by line into a tree of tables.
-/

/-!
## Trees of settings

A TOML document grows table by table. Each table remembers how it came to be, because a table may be
declared once and a table made by dotted keys may grow only while its part of the document lasts;
the parts are numbered, and a heading begins a new one.
-/

namespace SchemaScript.Toml

/-- How a table came to be. -/
inductive Origin
  /-- A longer heading passed through it. -/
  | passedThrough
  /-- A heading names it. -/
  | headed
  /-- Dotted keys in this part of the document name it. -/
  | dotted (part : Nat)
  deriving DecidableEq

/-- A place in the document. A list of tables grows at its end, so its other items are plain. -/
inductive Node
  | value (value : Value)
  | table (origin : Origin) (fields : List (String × Node))
  | tables (earlier : List Value) (last : List (String × Node))

abbrev Fields := List (String × Node)

namespace Fields

def get? (fields : Fields) (key : String) : Option Node :=
  (fields.find? fun field => field.1 == key).map (·.2)

/-- Gives `key` the node, in its old place if it was there and at the end if not. -/
def set (key : String) (node : Node) : Fields → Fields
  | [] => [(key, node)]
  | (k, n) :: fields => if k == key then (k, node) :: fields else (k, n) :: set key node fields

end Fields

mutual

def Node.toValue : Node → Value
  | .value v => v
  | .table _ fields => .table (toFields fields)
  | .tables earlier last => .list (earlier ++ [.table (toFields last)])

def toFields : List (String × Node) → List (String × Value)
  | [] => []
  | (key, node) :: fields => (key, node.toValue) :: toFields fields

end

/-- What goes through tables on its way: a heading, or dotted keys in a part of the document. -/
inductive Path
  | heading
  | keys (part : Nat)

/-- How a table that is made on the way came to be. -/
def Path.origin : Path → Origin
  | heading => .passedThrough
  | keys part => .dotted part

/-- The origin of a table after it was gone through; dotted keys may not touch every table. -/
def Path.through? : Path → Origin → Option Origin
  | heading, origin => some origin
  | keys part, .passedThrough => some (.dotted part)
  | keys _, .headed => none
  | keys part, .dotted old => if old == part then some (.dotted old) else none

/-- Changes the table at the end of a path. A list of tables stands for its last one, but dotted
keys do not enter it, and nothing enters a value. -/
def Fields.change (path : Path) (f : Fields → Option Fields) : List String → Fields → Option Fields
  | [], fields => f fields
  | key :: rest, fields =>
    match fields.get? key, path with
    | none, _ => do
      return fields.set key (.table path.origin (← Fields.change path f rest []))
    | some (.table origin inner), _ => do
      let origin ← path.through? origin
      return fields.set key (.table origin (← Fields.change path f rest inner))
    | some (.tables earlier last), .heading => do
      return fields.set key (.tables earlier (← Fields.change path f rest last))
    | some (.tables _ _), .keys _ => none
    | some (.value _), _ => none

/-- Declares the table `key`, which no heading and no finished dotted keys have named. -/
def Fields.declare (key : String) (fields : Fields) : Option Fields :=
  match fields.get? key with
  | none => some (fields.set key (.table .headed []))
  | some (.table .passedThrough inner) => some (fields.set key (.table .headed inner))
  | some _ => none

/-- Adds a table to the list `key`. -/
def Fields.append (key : String) (fields : Fields) : Option Fields :=
  match fields.get? key with
  | none => some (fields.set key (.tables [] []))
  | some (.tables earlier last) =>
    some (fields.set key (.tables (earlier ++ [.table (toFields last)]) []))
  | some _ => none

/-- Gives `key` a value, which it must not have. -/
def Fields.assign (key : String) (value : Value) (fields : Fields) : Option Fields :=
  match fields.get? key with
  | none => some (fields.set key (.value value))
  | some _ => none

/-- The keys before the last one, and the last one. -/
def splitLast : List String → Option (List String × String)
  | [] => none
  | [key] => some ([], key)
  | key :: keys => (splitLast keys).map fun found => (key :: found.1, found.2)

/-!
## Reading TOML

Each reader takes the characters that are left and returns what it read with the characters after
it, or nothing where the text is not TOML.
-/

/-! ### Gaps -/

/-- The end of the line that a comment stands on. -/
def skipLine : List Char → Option (List Char)
  | [] => some []
  | c :: r => if c == '\n' then some (c :: r) else if isPlain c then skipLine r else none

def skipComment : List Char → Option (List Char)
  | '#' :: r => skipLine r
  | s => some s

/-- Skips blanks, line breaks and comments; `inComment` tells that one has begun. -/
def skipGap : (inComment : Bool) → List Char → Option (List Char)
  | _, [] => some []
  | true, c :: r =>
    if c == '\n' then skipGap false r else if isPlain c then skipGap true r else none
  | false, c :: r =>
    if c == '#' then skipGap true r
    else if isBlank c || c == '\n' then skipGap false r
    else some (c :: r)

/-! ### Keys -/

def isKeyChar (c : Char) : Bool :=
  c.isAlphanum || c == '-' || c == '_'

def readSimpleKey (s : List Char) : Option (String × List Char) :=
  match s.takeWhile isKeyChar with
  | [] => (readShort s).map fun found => (String.ofList found.1, found.2)
  | key => some (String.ofList key, s.dropWhile isKeyChar)

/-- Keys with points between them; `fuel` bounds their number. -/
def readKeys : Nat → List Char → Option (List String × List Char)
  | 0, _ => none
  | fuel + 1, s => do
    let (key, r) ← readSimpleKey s
    match skipBlanks r with
    | '.' :: r =>
      let (keys, r) ← readKeys fuel (skipBlanks r)
      return (key :: keys, r)
    | r => return ([key], r)

def readKey (s : List Char) : Option (List String × List Char) :=
  readKeys (s.length + 1) s

/-- A key and the equals sign behind it. -/
def readAssigned (s : List Char) : Option (List String × List Char) := do
  let (keys, r) ← readKey s
  match r with
  | '=' :: r => return (keys, skipBlanks r)
  | _ => none

/-! ### Values -/

/-- Gives the place at the end of dotted keys a value. -/
def assignAt (part : Nat) (keys : List String) (value : Value) (fields : Fields) : Option Fields := do
  let (path, key) ← splitLast keys
  fields.change (.keys part) (Fields.assign key value) path

mutual

/-- A value at the front of the text; `fuel` bounds the number of steps. -/
def readValue : Nat → List Char → Option (Value × List Char)
  | 0, _ => none
  | fuel + 1, s =>
    match s with
    | 't' :: 'r' :: 'u' :: 'e' :: r => some (.flag true, r)
    | 'f' :: 'a' :: 'l' :: 's' :: 'e' :: r => some (.flag false, r)
    | '[' :: r => do
      let (items, r) ← readItems fuel r
      return (.list items, r)
    | '{' :: r =>
      match skipBlanks r with
      | '}' :: t => some (.table [], t)
      | t => do
        let (fields, r) ← readFields fuel [] t
        return (.table (toFields fields), r)
    | '"' :: _ | '\'' :: _ => (readText s).map fun found => (.text (String.ofList found.1), found.2)
    | _ => readScalar s

/-- The items up to the closing bracket, before which a comma may stand. -/
def readItems : Nat → List Char → Option (List Value × List Char)
  | 0, _ => none
  | fuel + 1, s => do
    match ← skipGap false s with
    | ']' :: r => return ([], r)
    | t =>
      let (item, r) ← readValue fuel t
      match ← skipGap false r with
      | ']' :: r => return ([item], r)
      | ',' :: r =>
        let (items, r) ← readItems fuel r
        return (item :: items, r)
      | _ => none

/-- The fields up to the closing brace, all on one line and without a comma before the brace. -/
def readFields : Nat → Fields → List Char → Option (Fields × List Char)
  | 0, _, _ => none
  | fuel + 1, fields, s => do
    let (keys, r) ← readAssigned s
    let (value, r) ← readValue fuel r
    let fields ← assignAt 0 keys value fields
    match skipBlanks r with
    | '}' :: r => return (fields, r)
    | ',' :: r => readFields fuel fields (skipBlanks r)
    | _ => none

end

/-! ### Documents -/

/-- What was read of a document: its fields, the heading in force and the number of its part. -/
structure Document where
  fields : Fields := []
  heading : List String := []
  part : Nat := 0

/-- Begins a new part under the heading. -/
def Document.open (document : Document) (keys : List String)
    (f : String → Fields → Option Fields) : Option Document := do
  let (path, key) ← splitLast keys
  let fields ← document.fields.change .heading (f key) path
  return { fields, heading := keys, part := document.part + 1 }

def Document.assign (document : Document) (keys : List String) (value : Value) :
    Option Document := do
  let fields ← document.fields.change .heading (assignAt document.part keys value) document.heading
  return { document with fields }

/-- What one line says; a line may say nothing. -/
def readLine (document : Document) (s : List Char) : Option (Document × List Char) :=
  match s with
  | [] | '\n' :: _ | '#' :: _ => some (document, s)
  | '[' :: '[' :: r => do
    let (keys, r) ← readKey (skipBlanks r)
    let document ← document.open keys Fields.append
    match r with
    | ']' :: ']' :: r => return (document, r)
    | _ => none
  | '[' :: r => do
    let (keys, r) ← readKey (skipBlanks r)
    let document ← document.open keys Fields.declare
    match r with
    | ']' :: r => return (document, r)
    | _ => none
  | _ => do
    let (keys, r) ← readAssigned s
    let (value, r) ← readValue (2 * r.length + 2) r
    return (← document.assign keys value, r)

/-- Line by line; `fuel` bounds the number of lines. -/
def readLines : Nat → Document → List Char → Option Document
  | 0, _, _ => none
  | fuel + 1, document, s => do
    let (document, r) ← readLine document (skipBlanks s)
    match ← skipComment (skipBlanks r) with
    | [] => return document
    | '\n' :: r => readLines fuel document r
    | _ => none

/-- The table that the text describes, if it is TOML. Lines may end in either way. -/
def read? (text : String) : Option Value :=
  let s := Text.replace ['\r', '\n'] ['\n'] text.toList
  (readLines (s.length + 1) {} s).map fun document => .table (toFields document.fields)

end SchemaScript.Toml
