import SchemaScript.Effect.Script
import SchemaScript.Json.Reader
import SchemaScript.Script.Diff

/-!
# The web service

Two orders can be posted, for a dump and for a diff of SQL texts. The state of health can be asked for,
and so can pages that describe the service itself.
-/

namespace SchemaScript.Service

/-- A request; a body that is missing or not JSON is absent. -/
structure Request where
  method : String
  path : String
  body : Option Json := none

inductive Content
  | json (value : Json)
  | text (value : String)
  | empty
  /-- A form for which nothing is promised. -/
  | unspecified

structure Response where
  status : Nat
  content : Content

inductive Route
  | health
  | dump
  | diff
  /-- The description of the service for programs. -/
  | description
  /-- The description of the service for people, where orders can be tried. -/
  | manual
  /-- Where signing in to the manual ends. -/
  | manualEntry
  /-- The description of the service for people, to be read only. -/
  | reference
  deriving DecidableEq, Repr

def Route.all : List Route :=
  [health, dump, diff, description, manual, manualEntry, reference]

def Route.path : Route → String
  | health => "/health"
  | dump => "/dump"
  | diff => "/diff"
  | description => "/openapi.json"
  | manual => "/docs"
  | manualEntry => "/docs/oauth2-redirect"
  | reference => "/redoc"

def Route.methods : Route → List String
  | health => ["GET"]
  | dump | diff => ["POST"]
  | description | manual | manualEntry | reference => ["GET", "HEAD"]

/-- A final line break does not belong to a path. -/
def Route.ofPath? (path : String) : Option Route :=
  Route.all.find? fun route => path == route.path || path == route.path ++ "\n"

/-- The path with a slash at its end where there was none, and without any where there was one. -/
def togglePath (path : String) : String :=
  if Text.endsWith path "/" then
    String.ofList (path.toList.reverse.dropWhile (· == '/')).reverse
  else path ++ "/"

/-- The value that a body as it was sent stands for. A mark of byte order before it is no part of it. -/
def readBody (sent : String) : Option Json :=
  let text := match sent.toList with
    | '\uFEFF' :: rest => String.ofList rest
    | _ => sent
  (Json.read text).toOption

/-! ## Orders -/

def requiredText? (key : String) (fields : List (String × Json)) : Option (List Letter) :=
  (Json.find? key fields).bind Json.letters?

/-- A text that may be left out or null. -/
def optionalText? (key : String) (fields : List (String × Json)) : Option (Option String) :=
  match Json.find? key fields with
  | none | some .null => some none
  | some value => value.letters?.map fun letters => some (Letter.mended letters)

/-- The words that stand for a flag, in any case. -/
def flagWords : List (String × Bool) :=
  [("0", false), ("off", false), ("f", false), ("false", false), ("n", false), ("no", false),
   ("1", true), ("on", true), ("t", true), ("true", true), ("y", true), ("yes", true)]

/-- A flag that may be left out; a few words stand for flags too, and zero and one in any form. -/
def optionalFlag? (key : String) (fields : List (String × Json)) : Option Bool :=
  match Json.find? key fields with
  | none => some false
  | some (.text s) => flagWords.lookup (String.ofList (s.toList.map Char.toLower))
  | some value =>
    if value.isNumber 0 then some false
    else if value.isNumber 1 then some true
    else none

/-- How a script is to be written. -/
structure Manner where
  target : Option String
  withHeadings : Bool

def Manner.ofFields? (fields : List (String × Json)) : Option Manner := do
  let target ← optionalText? "target_schema" fields
  let withHeadings ← optionalFlag? "include_comments" fields
  return { target, withHeadings }

def fields? : Option Json → Option (List (String × Json))
  | some (.object fields) => some fields
  | _ => none

/-- The script that an order asks for, if the order is well formed. -/
def Route.script? (route : Route) (body : Option Json) : Option (Logged String) := do
  let fields ← fields? body
  let manner ← Manner.ofFields? fields
  match route with
  | dump =>
    let sql ← requiredText? "sql" fields
    return do
      let catalog ← Catalog.ofLetters sql "public"
      catalog.dump manner.target manner.withHeadings
  | diff =>
    let oldSql ← requiredText? "old_sql" fields
    let newSql ← requiredText? "new_sql" fields
    return do
      let old ← Catalog.ofLetters oldSql "public"
      let new ← Catalog.ofLetters newSql "public"
      old.diff new manner.target manner.withHeadings
  | _ => none

/-! ## Answers -/

def detail (status : Nat) (fault : Fault) : Response :=
  { status, content := .json (.object [("detail", .text fault.message)]) }

/-- A script as an answer. A fault in the order blames the order; any other is logged. -/
def answerWith (work : String) (script : Logged String) : Logged Response :=
  match script.result with
  | .ok text => ⟨script.log, .ok { status := 200, content := .text text }⟩
  | .error fault =>
    if fault.isInput then ⟨script.log, .ok (detail 400 fault)⟩
    else
      ⟨script.log ++ [⟨.warning, work ++ " failed: " ++ fault.message⟩], .ok (detail 500 fault)⟩

/-- What an order is called in the log. -/
def Route.work : Route → String
  | dump => "Dump"
  | diff => "Diff"
  | _ => ""

def healthy : Response :=
  { status := 200
    content := .json (.object [("status", .text "healthy"), ("version", .text release)]) }

/-- A path as an answer shows it: from its first slash on, without tabs and line breaks, and with
escapes for the characters that would end or bend a path. -/
def shownPath (path : String) : String :=
  let escaped (c : Char) : List Char :=
    if c == '?' || c == '#' || c == '\\' then '%' :: (Text.hex 2 c.toNat).map Char.toUpper
    else if c == '\t' || c == '\r' || c == '\n' then []
    else [c]
  String.ofList ((path.toList.dropWhile (· != '/')).flatMap escaped)

def notFound (path : String) : Response :=
  { status := 404
    content := .json
      (.object [("error", .text "Endpoint not found"), ("path", .text (shownPath path))]) }

def Route.respond (route : Route) (request : Request) : Logged Response :=
  if !route.methods.contains request.method then return { status := 405, content := .unspecified }
  else
    match route with
    | health => return healthy
    | dump | diff =>
      match route.script? request.body with
      | none => return { status := 422, content := .unspecified }
      | some script => answerWith route.work script
    | _ => return { status := 200, content := .unspecified }

def respond (request : Request) : Logged Response :=
  match Route.ofPath? request.path with
  | some route => route.respond request
  | none =>
    if request.path != "/" && (Route.ofPath? (togglePath request.path)).isSome then
      return { status := 307, content := .empty }
    else return notFound request.path

end SchemaScript.Service
