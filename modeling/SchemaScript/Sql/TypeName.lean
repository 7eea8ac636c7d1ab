import SchemaScript.Sql.Phrase
import SchemaScript.Text.Case
import SchemaScript.Text.Integer
import SchemaScript.Text.Search

/-!
# Types

The names of types in a catalog, and types as statements write them.
-/

/-!
## Type names

Every built-in type has one spelling here, whatever alias, prefix or array form it came with.
-/

namespace SchemaScript.Sql

/-- The spelling used for each alias. -/
def typeAliases : List (String × String) :=
  [("int2", "smallint"), ("int4", "integer"), ("int", "integer"), ("int8", "bigint"),
   ("float4", "real"), ("float8", "double precision"), ("bool", "boolean"),
   ("decimal", "numeric"), ("bpchar", "character"), ("char", "character"),
   ("varchar", "character varying"), ("timestamp with time zone", "timestamptz"),
   ("time with time zone", "timetz"), ("timestamp without time zone", "timestamp"),
   ("time without time zone", "time"), ("serial", "SERIAL"), ("serial4", "SERIAL"),
   ("smallserial", "SMALLSERIAL"), ("serial2", "SMALLSERIAL"), ("bigserial", "BIGSERIAL"),
   ("serial8", "BIGSERIAL")]

def builtinTypes : List String :=
  ["smallint", "integer", "bigint", "decimal", "numeric", "real", "double precision",
   "smallserial", "serial", "bigserial", "int2", "int4", "int8", "float4", "float8", "money",
   "character varying", "varchar", "character", "char", "text", "bpchar", "bytea", "timestamp",
   "timestamp without time zone", "timestamp with time zone", "date", "time",
   "time without time zone", "time with time zone", "interval", "timestamptz", "timetz",
   "boolean", "bool", "point", "line", "lseg", "box", "path", "polygon", "circle", "cidr", "inet",
   "macaddr", "macaddr8", "bit", "bit varying", "varbit", "tsvector", "tsquery", "uuid", "xml",
   "json", "jsonb", "int4range", "int8range", "numrange", "tsrange", "tstzrange", "daterange",
   "oid", "regclass", "regconfig", "regdictionary", "regnamespace", "regoper", "regoperator",
   "regproc", "regprocedure", "regrole", "regtype", "pg_lsn", "name", "void", "trigger", "record"]

def alias? (name : String) : Option String :=
  (typeAliases.find? fun entry => entry.1 == name).map (·.2)

def catalogPrefix : List Char :=
  "pg_catalog.".toList

/-- The name without blanks around it and without one `pg_catalog.` in front. -/
def bareTypeName (name : List Char) : List Char :=
  let name := Text.trim name
  (Text.after? catalogPrefix name).getD name

/-- The element of an array type: what stands before a final `[]`. -/
def arrayElement? (name : List Char) : Option (List Char) :=
  match name.reverse with
  | ']' :: '[' :: r => some r.reverse
  | _ => none

/-- The element in the internal spelling of an array type, an underscore before a known name. -/
def underscoreElement? : List Char → Option String
  | '_' :: c :: r =>
    let element := String.ofList (c :: r)
    if (alias? element).isSome || builtinTypes.contains element then some element else none
  | _ => none

/-- The spelling of a name that has no array brackets. -/
def canonicalScalar (name : List Char) : String :=
  match underscoreElement? name with
  | some element => (alias? element).getD element ++ "[]"
  | none => (alias? (String.ofList name)).getD (String.ofList name)

/-- Takes off at most `depth` array brackets, one by one. -/
def canonicalWithin : Nat → List Char → String
  | 0, name => String.ofList name
  | depth + 1, name =>
    if name.isEmpty then ""
    else
      match arrayElement? (bareTypeName name) with
      | some element => canonicalWithin depth element ++ "[]"
      | none => canonicalScalar (bareTypeName name)

/-- The one spelling of a type. -/
def canonicalType (name : String) : String :=
  canonicalWithin (name.toList.length + 1) name.toList

def isBuiltinType (name : String) : Bool :=
  builtinTypes.contains (Text.lower (canonicalType name)) || builtinTypes.contains (Text.lower name)

/-- The keyword that stands for a whole number type with a sequence of its own. -/
def serialKeyword? (name : String) : Option String :=
  let base := Text.lower name
  if base == "smallint" || base == "int2" then some "SMALLSERIAL"
  else if base == "integer" || base == "int4" then some "SERIAL"
  else if base == "bigint" || base == "int8" then some "BIGSERIAL"
  else none

def serialKeyword (name : String) : String :=
  (serialKeyword? name).getD "SERIAL"

/-- The whole number type behind a serial keyword. -/
def serialBase? (name : String) : Option String :=
  if name == "SERIAL" then some "integer"
  else if name == "SMALLSERIAL" then some "smallint"
  else if name == "BIGSERIAL" then some "bigint"
  else none

def isCastChar (c : Char) : Bool :=
  c.isAlphanum || c == '_' || Text.isBlank c

/-- A type after `::`, written with ASCII letters, digits and blanks, and possibly `[]`. -/
def isCastType : List Char → Bool
  | [] => false
  | c :: r =>
    (c.isAlpha || c == '_') &&
      match r.dropWhile isCastChar with
      | [] => true
      | ['[', ']'] => true
      | ['[', ']', '\n'] => true
      | _ => false

/-- Splits at the last `::`. -/
def lastCast? (s : List Char) : Option (List Char × List Char) :=
  match s with
  | [] => none
  | c :: r =>
    match lastCast? r with
    | some (before, after) => some (c :: before, after)
    | none =>
      match c, r with
      | ':', ':' :: after => some ([], after)
      | _, _ => none

/-- The expression without a final cast. -/
def dropCast (expression : String) : String :=
  match lastCast? expression.toList with
  | some (before, after) => if isCastType after then String.ofList before else expression
  | none => expression

end SchemaScript.Sql

/-!
## Types as statements write them

A type that a keyword names belongs to the schema `pg_catalog` from the start. In a cast such a type
gets its keyword back; in a catalog every type has its canonical spelling.
-/

namespace SchemaScript.Sql

structure WrittenType where
  path : List String
  modifiers : List String := []
  /-- The fields that an interval keeps. -/
  fields : Option String := none
  /-- One entry for each pair of brackets. -/
  bounds : List (Option Nat) := []
  isSetOf : Bool := false
  deriving DecidableEq, Repr, Inhabited

namespace WrittenType

def ofKeyword (name : String) (modifiers : List String := []) : WrittenType :=
  { path := ["pg_catalog", name], modifiers := modifiers }

/-- The keywords of a type of the system: those before its modifiers and those behind them. -/
def keywords? (name : String) : Option (String × String) :=
  [("bool", "boolean", ""), ("bpchar", "char", ""), ("float4", "real", ""),
   ("float8", "double precision", ""), ("int2", "smallint", ""), ("int4", "integer", ""),
   ("int8", "bigint", ""), ("interval", "interval", ""), ("numeric", "numeric", ""),
   ("time", "time", ""), ("timestamp", "timestamp", ""),
   ("timestamptz", "timestamp", " with time zone"), ("timetz", "time", " with time zone"),
   ("varbit", "bit varying", ""), ("varchar", "varchar", "")].lookup name

def boundText : Option Nat → String
  | some n => "[" ++ Text.writeNatural n ++ "]"
  | none => "[]"

def modifierText (modifiers : List String) : String :=
  if modifiers.isEmpty then "" else enclosed (commaList modifiers)

/-- The name with the names that lead to it, which is the same however they are taken apart. -/
def joinedPath (t : WrittenType) : String :=
  ".".intercalate t.path

/-- A single character needs no length. -/
def castModifiers (t : WrittenType) : List String :=
  if t.joinedPath == "pg_catalog.bpchar" && t.modifiers == ["1"] then [] else t.modifiers

/-- What an interval keeps: its fields, and the digits of a second behind a blank. -/
def intervalText (t : WrittenType) : String :=
  (t.fields.map (" " ++ ·)).getD "" ++
    (if t.modifiers.isEmpty then "" else " " ++ modifierText t.modifiers)

def scalarText (t : WrittenType) : String :=
  let modifiers :=
    if t.joinedPath == "pg_catalog.interval" then t.intervalText else modifierText t.castModifiers
  match (Text.after? "pg_catalog.".toList t.joinedPath.toList).bind
      fun name => keywords? (String.ofList name) with
  | some (front, behind) => front ++ modifiers ++ behind
  | none => (if t.path == ["char"] then "\"char\"" else phrasePath t.path) ++ modifiers

/-- The type inside a cast. -/
def castText (t : WrittenType) : String :=
  (if t.isSetOf then "SETOF " else "") ++ t.scalarText ++ String.join (t.bounds.map boundText)

/-- The canonical name, without modifiers and brackets. -/
def base (t : WrittenType) : String :=
  match t.path with
  | "pg_catalog" :: [] => "unknown"
  | "pg_catalog" :: rest => canonicalType (".".intercalate rest)
  | [] => "unknown"
  | path => canonicalType (".".intercalate path)

def isArray (t : WrittenType) : Bool :=
  !t.bounds.isEmpty

/-- The modifiers that a catalog keeps: those of an interval say nothing about its values. -/
def storedModifiers (t : WrittenType) : List String :=
  if t.base == "interval" then [] else t.modifiers

/-- The type as a catalog spells it, with one pair of brackets for any array. -/
def text (t : WrittenType) : String :=
  let modifiers :=
    match t.storedModifiers with
    | [] => ""
    | modifiers => enclosed (",".intercalate modifiers)
  (if t.isSetOf then "SETOF " else "") ++ t.base ++ modifiers ++ (if t.isArray then "[]" else "")

end WrittenType

/-- The type is that of a text of blank-padded characters of any length. -/
def WrittenType.isCharacter (t : WrittenType) : Bool :=
  t.path.take 2 == ["pg_catalog", "bpchar"] && t.modifiers.isEmpty

/-- A cast; a constant that is merely a character text keeps its short form. -/
def Phrase.castTo (p : Phrase) (type : WrittenType) : Phrase :=
  let q := p.cast type.castText type.text
  if p.isConstant && type.isCharacter then { q with text := "char " ++ p.text, restricted := "char " ++ p.text }
  else q

end SchemaScript.Sql
