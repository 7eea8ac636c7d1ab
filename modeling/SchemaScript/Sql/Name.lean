import SchemaScript.Text.Case
import SchemaScript.Text.Integer
import SchemaScript.Text.Search

/-!
# Names and texts in SQL

How a name, a text and the body of a routine are written.
-/

/-!
## Names in SQL text

A name is written bare where folding to lower case leaves it as it is, and between double quotes
otherwise. A reference to an object in the schema a script is written for leaves that schema out.
-/

namespace SchemaScript.Sql

/-- Words that are never written bare as a name. -/
def reservedWords : List String :=
  ["all", "analyse", "analyze", "and", "any", "array", "as", "asc", "asymmetric", "authorization",
   "binary", "both", "case", "cast", "check", "collate", "collation", "column", "concurrently",
   "constraint", "create", "cross", "current_catalog", "current_date", "current_role",
   "current_schema", "current_time", "current_timestamp", "current_user", "default", "deferrable",
   "desc", "distinct", "do", "else", "end", "except", "false", "fetch", "for", "foreign", "freeze",
   "from", "full", "grant", "group", "having", "ilike", "in", "initially", "inner", "intersect",
   "into", "is", "isnull", "join", "lateral", "leading", "left", "like", "limit", "localtime",
   "localtimestamp", "natural", "not", "notnull", "null", "offset", "on", "only", "or", "order",
   "outer", "overlaps", "placing", "primary", "references", "returning", "right", "select",
   "session_user", "similar", "some", "symmetric", "system_user", "table", "tablesample", "then",
   "to", "trailing", "true", "union", "unique", "user", "using", "variadic", "verbose", "when",
   "where", "window", "with"]

def isReserved (word : String) : Bool :=
  reservedWords.contains word

def isBareStart (c : Char) : Bool :=
  ('a' ≤ c && c ≤ 'z') || c == '_'

def isBareContinue (c : Char) : Bool :=
  isBareStart c || c.isDigit || c == '$'

/-- Every character may follow the first one of a bare name; a final newline is passed over. -/
def allBareContinue : List Char → Bool
  | [] => true
  | ['\n'] => true
  | c :: r => isBareContinue c && allBareContinue r

/-- The form of a bare name: lower-case letters, underscores, and after the first also digits and `$`. -/
def isBare : List Char → Bool
  | [] => false
  | c :: r => isBareStart c && allBareContinue r

def needsQuotes (name : String) : Bool :=
  name != "" && (isReserved (Text.lower name) || !isBare name.toList)

/-- Writes every double quote twice. -/
def doubleQuotes (s : List Char) : List Char :=
  s.flatMap fun c => if c == '"' then ['"', '"'] else [c]

/-- The name between double quotes. -/
def quoted (name : String) : String :=
  String.ofList ('"' :: doubleQuotes name.toList ++ ['"'])

def quoteName (name : String) : String :=
  if needsQuotes name then quoted name else name

/-- A name as it stands inside a statement. -/
def nameText (name : Option String) : String :=
  Text.spelled (name.map quoteName)

/-- A reference as seen from the schema `target`; absent only if there is no name to refer to. -/
def qualified? (schema name target : Option String) : Option String :=
  match Text.given schema with
  | none => name.map quoteName
  | some s =>
    if some s == target then name.map quoteName else some (quoteName s ++ "." ++ nameText name)

def qualified (schema name target : Option String) : String :=
  Text.spelled (qualified? schema name target)

/-- The schema shown above a statement; `-` stands for the target schema and for none. -/
def headingSchema (schema target : Option String) : String :=
  match Text.given target with
  | some t => if schema == some t then "-" else Text.givenOr schema "-"
  | none => Text.givenOr schema "-"

/-- The reference without `schema.` in front, whether the schema is quoted there or not. -/
def dropSchema (reference schema : Option String) : Option String :=
  match reference, Text.given schema with
  | some r, some s =>
    match Text.after? (s ++ ".").toList r.toList with
    | some rest => some (String.ofList rest)
    | none =>
      match Text.after? ("\"" ++ s ++ "\".").toList r.toList with
      | some rest => some (String.ofList rest)
      | none => some r
  | r, _ => r

/-!
## Text literals

Between single quotes a quote is written twice. Reading a literal back is a scan that stops at the
first quote that stands alone.
-/

/-- Writes every single quote twice. -/
def doubleApostrophes : List Char → List Char
  | [] => []
  | c :: r => if c = '\'' then '\'' :: '\'' :: doubleApostrophes r else c :: doubleApostrophes r

def escapeLiteral (s : String) : String :=
  String.ofList (doubleApostrophes s.toList)

def literal (s : String) : String :=
  "'" ++ escapeLiteral s ++ "'"

/-- Reads the inside of a literal: its text and what follows the closing quote. -/
def scanLiteral : List Char → Option (List Char × List Char)
  | [] => none
  | '\'' :: '\'' :: r => (scanLiteral r).map fun found => ('\'' :: found.1, found.2)
  | '\'' :: r => some ([], r)
  | c :: r => (scanLiteral r).map fun found => (c :: found.1, found.2)

/-!
## Dollar quotes

A body is written between two copies of a delimiter that does not occur in it.
-/

/-- A positional parameter such as `$1` occurs in the text. -/
def mentionsParameter : List Char → Bool
  | '$' :: c :: r => c.isDigit || mentionsParameter (c :: r)
  | _ :: r => mentionsParameter r
  | [] => false

/-- The delimiters that are tried by name. -/
def namedDelimiters : List String :=
  ["$_$", "$procedure$", "$body$", "$pgdump$"]

/-- The delimiters that are tried by number. -/
def numberedDelimiters : List String :=
  (List.range 999).map fun i => "$tag" ++ Text.writeNatural (i + 1) ++ "$"

/-- Stands in when every other delimiter occurs in the body. -/
def lastDelimiter : String :=
  "$fallback$"

/-- The first delimiter that is free; the empty one is also ruled out by a positional parameter. -/
def delimiter (body : String) : String :=
  if !Text.contains body "$$" && !mentionsParameter body.toList then "$$"
  else
    ((namedDelimiters ++ numberedDelimiters).find? fun d => !Text.contains body d).getD lastDelimiter

def dollarQuoted (body : String) : String :=
  delimiter body ++ body ++ delimiter body

end SchemaScript.Sql
