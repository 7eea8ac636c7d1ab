import SchemaScript.Catalog.Stored
import SchemaScript.Effect.Script
import SchemaScript.Fault
import SchemaScript.Ignore.Rules
import SchemaScript.Inspect.Query
import SchemaScript.Order.Topological
import SchemaScript.Text.Search

/-!
# Where catalogs come from

The files of a project, and the sources that a catalog is loaded from.
-/

/-!
## Files

A tree of directories and files with a place in it from which relative paths start.
-/

namespace SchemaScript

inductive FileTree
  | file (text : String)
  | directory (entries : List (String × FileTree))
  deriving Inhabited

namespace FileTree

def isDirectory : FileTree → Bool
  | file _ => false
  | directory _ => true

def child? (name : String) : FileTree → Option FileTree
  | file _ => none
  | directory entries => (entries.find? fun entry => entry.1 == name).map (·.2)

/-- What stands at the end of a chain of names. -/
def at? : List String → FileTree → Option FileTree
  | [], tree => some tree
  | name :: names, tree => (tree.child? name).bind (at? names)

def entries : FileTree → List (String × FileTree)
  | file _ => []
  | directory entries => entries

/-- Gives a name an entry, in its old place if it was there and at the end if not. -/
def setEntry (name : String) (tree : FileTree) : List (String × FileTree) → List (String × FileTree)
  | [] => [(name, tree)]
  | (n, t) :: entries =>
    if n == name then (n, tree) :: entries else (n, t) :: setEntry name tree entries

/-- Puts a tree at the end of a chain of names; missing directories on the way are made. -/
def put (tree : FileTree) : List String → FileTree → FileTree
  | [], _ => tree
  | name :: names, old =>
    directory
      (setEntry name (put tree names ((old.child? name).getD (directory []))) old.entries)

def isScript (name : String) : Bool :=
  Text.endsWith name ".sql"

/-- What a directory holds, under its name: the scripts in a file or in the tree below it. -/
structure Holding where
  name : String
  isDirectory : Bool
  scripts : List String

/-- The files of a directory come before what its directories hold, both in the order of names. -/
def inOrder (holdings : List Holding) : List String :=
  let sorted := Order.sort (fun a b => a.name ≤ b.name) holdings
  (sorted.filter (!·.isDirectory)).flatMap (·.scripts) ++
    (sorted.filter (·.isDirectory)).flatMap (·.scripts)

mutual

/-- The texts of the scripts in a tree. -/
def scripts : FileTree → List String
  | file text => [text]
  | directory entries => inOrder (holdings entries)

def holdings : List (String × FileTree) → List Holding
  | [] => []
  | (name, tree) :: entries =>
    { name
      isDirectory := tree.isDirectory
      scripts := if tree.isDirectory || isScript name then tree.scripts else [] } ::
      holdings entries

end

end FileTree

/-- A tree and the place where relative paths start. -/
structure Files where
  root : FileTree := .directory []
  here : List String := []
  deriving Inhabited

namespace Files

open FileFlaw

/-- The names between the slashes of a path. -/
def parts (path : String) : List String :=
  (Text.splitAt '/' path.toList).map String.ofList

/-- Where a path starts. -/
def start (files : Files) (path : String) : List String :=
  if Text.startsWith path "/" then [] else files.here

/-- Follows names from a place on; every name but the last has to be that of a directory. -/
def follow (files : Files) (place : List String) : List String → Except FileFlaw (List String)
  | [] => .ok place
  | name :: names =>
    match files.root.at? place with
    | none => .error missing
    | some (.file _) => .error notDirectory
    | some (.directory _) =>
      if name == "" || name == "." then follow files place names
      else if name == ".." then follow files place.dropLast names
      else if 255 < name.utf8ByteSize then .error nameTooLong
      else
        match files.root.at? (place ++ [name]) with
        | none => .error missing
        | some _ => follow files (place ++ [name]) names

/-- A path that cannot be the path of anything. -/
def badPath? (path : String) : Option FileFlaw :=
  if path.toList.contains '\x00' then some nullCharacter
  else if path == "" then some missing
  else if 4096 ≤ path.utf8ByteSize then some nameTooLong
  else none

/-- What a path leads to. -/
def find (files : Files) (path : String) : Except FileFlaw FileTree :=
  match badPath? path with
  | some flaw => .error flaw
  | none => do
    let place ← files.follow (files.start path) (parts path)
    match files.root.at? place with
    | some tree => return tree
    | none => throw missing

def holds (files : Files) (path : String) : Bool :=
  match files.find path with
  | .ok _ => true
  | .error _ => false

def directory? (files : Files) (path : String) : Option FileTree :=
  match files.find path with
  | .ok (.directory entries) => some (.directory entries)
  | _ => none

/-- Lines end in a line feed, whichever way they ended in the file. -/
def unifyLineEnds (text : List Char) : List Char :=
  (Text.replace ['\r', '\n'] ['\n'] text).map fun c => if c == '\r' then '\n' else c

/-- The text of a file. -/
def readRaw (files : Files) (path : String) : Except Fault String :=
  match files.find path with
  | .ok (.file text) => .ok text
  | .ok (.directory _) => .error (.file .directory path)
  | .error flaw => .error (.file flaw path)

/-- The text of a file, with its lines ending in one way. -/
def read (files : Files) (path : String) : Except Fault String :=
  (files.readRaw path).map fun text => String.ofList (unifyLineEnds text.toList)

/-- The place that a path to write to names: its directory has to be there. -/
def target (files : Files) (path : String) : Except FileFlaw (List String) := do
  if let some flaw := badPath? path then throw flaw
  let named := (parts path).reverse.dropWhile (· == "")
  match named with
  | [] => throw directory
  | name :: before =>
    let place ← files.follow (files.start path) before.reverse
    match files.root.at? place with
    | some (.directory _) =>
      if Text.endsWith path "/" || name == "." || name == ".." then throw directory
      else if 255 < name.utf8ByteSize then throw nameTooLong
      else
        match files.root.at? (place ++ [name]) with
        | some (.directory _) => throw directory
        | _ => return place ++ [name]
    | some (.file _) => throw notDirectory
    | none => throw missing

/-- Writes a whole file. -/
def write (files : Files) (path text : String) : Except Fault Files :=
  match files.target path with
  | .ok place => .ok { files with root := FileTree.put (.file text) place files.root }
  | .error flaw => .error (.file flaw path)

/-- The names on the way to a path, whatever stands there. -/
def placeOf (files : Files) (path : String) : List String :=
  (parts path).foldl
    (fun place name =>
      if name == "" || name == "." then place
      else if name == ".." then place.dropLast
      else place ++ [name])
    (files.start path)

/-- Puts a file, or a directory if the path ends in a slash, where the path leads; what is missing
on the way is made. -/
def add (files : Files) (path text : String) : Files :=
  let place := files.placeOf path
  let isDirectory := Text.endsWith path "/"
  if isDirectory && (files.root.at? place).any (·.isDirectory) then files
  else
    let tree := if isDirectory then .directory [] else .file text
    { files with root := FileTree.put tree place files.root }

end Files
end SchemaScript

/-!
## Sources of catalogs

One word says where a catalog comes from: a database, a stored catalog, a script, a directory of
scripts, or the text of a script itself.
-/

namespace SchemaScript

inductive Source
  | database
  | stored (path : String)
  | script (path : String)
  | directory (path : String) (tree : FileTree)
  | text (sql : String)

namespace Source

/-- The words of which one has to stand, in upper or lower case, in the text of a script. -/
def telltales : List String :=
  ["CREATE", "ALTER", "COMMENT"]

/-- What a word stands for; the first reading that applies counts. -/
def ofWord? (files : Files) (word : String) : Option Source :=
  if Text.startsWith word "postgres://" || Text.startsWith word "postgresql://" then some database
  else if Text.endsWith word ".json" then some (stored word)
  else if Text.endsWith word ".sql" then some (script word)
  else
    match files.directory? word with
    | some tree => some (directory word tree)
    | none =>
      if telltales.any (Text.contains (Text.upper word)) then some (text word) else none

/-- The texts of the scripts below a directory, as one text. -/
def joined (scripts : List String) : String :=
  "\n\n".intercalate (scripts.map fun text => String.ofList (Files.unifyLineEnds text.toList))

/-- The catalog of a source; `answer` is what a database says. -/
def load (files : Files) (answer : Logged Catalog) (defaultSchema : String) :
    Source → Logged Catalog
  | database => answer
  | stored path => do
    let text ← .ofResult (files.read path)
    .ofResult (Catalog.load text)
  | script path => do
    let text ← .ofResult (files.read path)
    Catalog.ofSql text defaultSchema
  | directory path tree =>
    match tree.scripts with
    | [] => .fail (.noSqlFiles path)
    | scripts => Catalog.ofSql (joined scripts) defaultSchema
  | text sql => Catalog.ofSql sql defaultSchema

end Source

/-- The catalog that a word stands for. -/
def Catalog.ofSource (files : Files) (answer : Logged Catalog) (defaultSchema word : String) :
    Logged Catalog :=
  match Source.ofWord? files word with
  | some source => source.load files answer defaultSchema
  | none => .fail (.unknownSource word)

namespace IgnoreRules

/-- The file that is looked for where no other is named. -/
def defaultPath : String :=
  "./.pgschemaignore"

/-- The rules in a file; none, if the file is not there. -/
def ofFile (files : Files) (path : String) : Logged (Option IgnoreRules) :=
  if files.holds path then do
    let text ← .ofResult (files.readRaw path)
    return some (← ofToml path text)
  else do
    Logged.debug ("No ignore file at " ++ path)
    return none

/-- The rules in the file that is named, which has to be there, or else in the usual one. -/
def find (files : Files) (named : Option String) : Logged (Option IgnoreRules) := do
  match Text.given named with
  | none => ofFile files defaultPath
  | some path =>
    match ← ofFile files path with
    | some rules => return some rules
    | none => .fail (.noIgnoreFile path)

end IgnoreRules
end SchemaScript
