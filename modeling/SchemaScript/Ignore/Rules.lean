import SchemaScript.Catalog.Basic
import SchemaScript.Log
import SchemaScript.Text.Search
import SchemaScript.Toml.Reader

/-!
# What is left out

Patterns for names, and the rules that are made of them.
-/

/-!
## Name patterns

A star stands for any run of characters, a question mark for any one, and a class between brackets
for one of its characters. A backslash means nothing special to the matcher.
-/

namespace SchemaScript.Ignore

/-- What one place of a pattern accepts. -/
inductive Atom
  | run
  | one
  | char (c : Char)
  | oneOf (negated : Bool) (ranges : List (Char × Char))
  deriving DecidableEq, Repr

/-- The inside of a class, up to the bracket that closes it. A closing bracket at its front, also
after `!`, belongs to it. -/
def classInside? (s : List Char) : Option (List Char) :=
  let (mark, r) := match s with | '!' :: r => (['!'], r) | r => ([], r)
  let (bracket, r) := match r with | ']' :: r => ([']'], r) | r => ([], r)
  if r.contains ']' then some (mark ++ bracket ++ r.takeWhile (· != ']')) else none

/-- Splits the inside of a class at the hyphens that stand between two characters. `held` characters
go by before a hyphen counts; `part` is the part so far. -/
def splitRanges : Nat → List Char → List Char → List (List Char)
  | _, part, [] => [part]
  | held + 1, part, c :: r => splitRanges held (part ++ [c]) r
  | 0, part, c :: r => if c == '-' then part :: splitRanges 2 [] r else splitRanges 0 (part ++ [c]) r

/-- A hyphen at the end belongs to the part before it. -/
def closeRanges : List (List Char) → List (List Char)
  | [part, []] => [part ++ ['-']]
  | part :: parts => part :: closeRanges parts
  | [] => []

/-- Two parts are joined by a range of characters; a backward range goes, with both its ends. -/
def dropBackward : List (List Char) → List (List Char)
  | [] => []
  | part :: parts =>
    match dropBackward parts with
    | [] => [part]
    | next :: rest =>
      match part.getLast?, next.head? with
      | some a, some b =>
        if b < a then (part.dropLast ++ next.tail) :: rest else part :: next :: rest
      | _, _ => part :: next :: rest

/-- The characters of a class; `none` marks the hyphen of a range. -/
def rangeMarks : List (List Char) → List (Option Char)
  | [] => []
  | [part] => part.map some
  | part :: parts => part.map some ++ none :: rangeMarks parts

def ranges : List (Option Char) → List (Char × Char)
  | some a :: none :: some b :: r => (a, b) :: ranges r
  | some a :: r => (a, a) :: ranges r
  | none :: r => ('-', '-') :: ranges r
  | [] => []

/-- The class with this inside. -/
def classAtom (inside : List Char) : Atom :=
  let held := if inside.head? == some '!' then 2 else 1
  match rangeMarks (dropBackward (closeRanges (splitRanges held [] inside))) with
  | some '!' :: r => .oneOf true (ranges r)
  | r => .oneOf false (ranges r)

/-- Reads a pattern, of which the next `skip` characters are already read. A bracket that opens no
class stands for itself. -/
def atomsFrom : Nat → List Char → List Atom
  | _, [] => []
  | skip + 1, _ :: r => atomsFrom skip r
  | 0, '*' :: r => .run :: atomsFrom 0 r
  | 0, '?' :: r => .one :: atomsFrom 0 r
  | 0, '[' :: r =>
    match classInside? r with
    | some inside => classAtom inside :: atomsFrom (inside.length + 1) r
    | none => .char '[' :: atomsFrom 0 r
  | 0, c :: r => .char c :: atomsFrom 0 r

def atoms (pattern : String) : List Atom :=
  atomsFrom 0 pattern.toList

def Atom.accepts : Atom → Char → Bool
  | run, _ => true
  | one, _ => true
  | char a, c => a == c
  | oneOf negated ranges, c => (ranges.any fun r => r.1 ≤ c && c ≤ r.2) != negated

/-- For each end of a list, longest first: some member of it holds. -/
def anyFrom : List Bool → List Bool
  | [] => []
  | b :: bs =>
    let rest := anyFrom bs
    (b || rest.headD false) :: rest

/-- For each end of a text: its first character is accepted, and `after` holds for what follows. -/
def advance (a : Atom) : List Char → List Bool → List Bool
  | c :: r, _ :: after => (a.accepts c && after.headD false) :: advance a r after
  | _, _ => [false]

/-- For each end of a text, the whole text first and the empty one last: the atoms accept it. -/
def verdicts : List Atom → List Char → List Bool
  | [], s => s.map (fun _ => false) ++ [true]
  | .run :: p, s => anyFrom (verdicts p s)
  | a :: p, s => advance a s (verdicts p s)

def accepts (p : List Atom) (s : List Char) : Bool :=
  (verdicts p s).headD false

/-- Every bracket that is not behind a backslash is closed; `inside` tells that one is open. -/
def isClosed : Bool → List Char → Bool
  | inside, [] => !inside
  | true, c :: r => isClosed (c != ']') r
  | false, '\\' :: _ :: r => isClosed false r
  | false, c :: r => isClosed (c == '[') r

/-- A pattern with an open bracket matches only itself. -/
def matchesName (pattern name : String) : Bool :=
  if isClosed false pattern.toList then accepts (atoms pattern) name.toList else pattern == name

/-- A pattern after `!` takes names back. -/
def exception? (pattern : String) : Option String :=
  (Text.after? ['!'] pattern.toList).map String.ofList

/-- Some plain pattern matches and no exception does. -/
def isIgnored (name : String) (patterns : List String) : Bool :=
  (patterns.any fun p => (exception? p).isNone && matchesName p name) &&
    !(patterns.any fun p => (exception? p).any fun e => matchesName e name)

end SchemaScript.Ignore

/-!
## Rules for what to leave out

A list of name patterns for each kind of object. Applying rules removes the matched objects from
every schema and touches nothing else.
-/

namespace SchemaScript

structure IgnoreRules where
  tables : List String := []
  views : List String := []
  functions : List String := []
  procedures : List String := []
  types : List String := []
  sequences : List String := []
  deriving DecidableEq, Inhabited

namespace IgnoreRules

open Ignore (isIgnored)

/-- The patterns of a section: they stand under `patterns` or in place of the section. -/
def section? (name : String) (settings : Toml.Value) : Except Fault (List String) :=
  let value := (settings.field? name).getD .nothing
  let listed :=
    match value with
    | .table _ => (value.field? "patterns").getD .nothing
    | _ => value
  if listed.isNothing then .ok []
  else
    match listed.items? with
    | some items => .ok (items.map (·.plain))
    | none => .error .wrongForm

def ofSettings (settings : Toml.Value) : Except Fault IgnoreRules := do
  let .table _ := settings | throw .notAnObject
  return {
    tables := ← section? "tables" settings
    views := ← section? "views" settings
    functions := ← section? "functions" settings
    procedures := ← section? "procedures" settings
    types := ← section? "types" settings
    sequences := ← section? "sequences" settings }

def ofJson (value : Json) : Except Fault IgnoreRules :=
  ofSettings (.ofJson value)

/-- Reads rules from the text of an ignore file, which stands at `path`. -/
def ofToml (path text : String) : Logged IgnoreRules :=
  match Toml.read? text with
  | none => Logged.fail (.ignoreFile path)
  | some value => do
    Logged.info ("Loaded ignore patterns from " ++ path)
    .ofResult (ofSettings value)

/-- The entries whose names no pattern takes away. -/
def keep {α : Type} (patterns : List String) (entries : Entries α) : Entries α :=
  entries.filter fun name => !isIgnored name patterns

/-- The schema without the objects that the rules take away. -/
def filterSchema (rules : IgnoreRules) (s : Schema) : Schema :=
  { s with
    tables := keep rules.tables s.tables
    views := keep rules.views s.views
    functions := keep rules.functions s.functions
    procedures := keep rules.procedures s.procedures
    types := keep rules.types s.types
    sequences := keep rules.sequences s.sequences }

/-- One entry in the log for each object that goes, in the order of names. -/
def notices {α : Type} (kind : String) (schema : Field String) (patterns : List String)
    (entries : Entries α) : List LogEntry :=
  (entries.sortedNames.filter fun name => isIgnored name patterns).map fun name =>
    ⟨.debug, "Ignoring " ++ kind ++ " " ++ schema.spelled ++ "." ++ name⟩

def schemaNotices (rules : IgnoreRules) (s : Schema) : List LogEntry :=
  notices "table" s.name rules.tables s.tables ++ notices "view" s.name rules.views s.views ++
    notices "function" s.name rules.functions s.functions ++
    notices "procedure" s.name rules.procedures s.procedures ++
    notices "type" s.name rules.types s.types ++
    notices "sequence" s.name rules.sequences s.sequences

end IgnoreRules

/-- The catalog without the objects that the rules take away. -/
def Catalog.without (catalog : Catalog) (rules : IgnoreRules) : Catalog :=
  { catalog with schemas := catalog.schemas.map rules.filterSchema }

/-- The same, with what went in the log; without rules nothing goes. -/
def Catalog.ignoring (catalog : Catalog) : Option IgnoreRules → Logged Catalog
  | none => return catalog
  | some rules => ⟨catalog.schemas.values.flatMap rules.schemaNotices, .ok (catalog.without rules)⟩

end SchemaScript
