import SchemaScript.Sql.Grammar.Call

/-!
# Reading functions on documents

Functions that make or look into XML and JSON have clauses of their own between their parentheses.
-/

namespace SchemaScript.Sql.Reader

/-- Clauses that are there, each after a blank. -/
def spaced (clauses : List String) : String :=
  String.join ((clauses.filter (· != "")).map (" " ++ ·))

/-! ## XML -/

/-- A value that may have a label. -/
def labeledValue (r : Rules) : Reader String := do
  let value ← r.expression
  if ← acceptWord "as" then return value.text ++ " AS " ++ phraseName (← label)
  return value.text

def labeledValues (r : Rules) : Reader String := do
  return commaList (← list (labeledValue r))

/-- What is parsed or written: a whole document, or any content. -/
def documentOrContent : Reader String :=
  oneOf ["document", "content"]

/-- The name of an element, after the word `NAME`. -/
def elementName : Reader String := do
  word "name"
  return "name " ++ phraseName (← label)

def xmlElement (r : Rules) : Reader String := do
  let name ← elementName
  unless ← acceptSymbol "," do return name
  if ← both ((← ahead 1) == some (.symbol "(")) (acceptWord "xmlattributes") then
    let name := name ++ ", xmlattributes" ++ enclosed (← parenthesized (labeledValues r))
    unless ← acceptSymbol "," do return name
    return name ++ ", " ++ commaList (← plainExpressions r)
  return name ++ ", " ++ commaList (← plainExpressions r)

def xmlParse (r : Rules) : Reader String := do
  let kind ← documentOrContent
  let value ← r.expression
  let blanks ←
    match ← acceptAny ["preserve", "strip"] with
    | some w =>
      word "whitespace"
      pure (if w == "preserve" then " PRESERVE WHITESPACE" else "")
    | none => pure ""
  return kind ++ " " ++ value.text ++ blanks

def xmlProcessing (r : Rules) : Reader String := do
  let name ← elementName
  if ← acceptSymbol "," then return name ++ ", " ++ (← r.expression).text
  return name

def xmlRoot (r : Rules) : Reader String := do
  let value ← r.expression
  symbol ","
  word "version"
  let version ←
    if ← acceptWords ["no", "value"] then pure "NO VALUE" else pure (← r.expression).text
  let front := value.text ++ ", VERSION " ++ version
  unless ← acceptSymbol "," do return front
  word "standalone"
  if ← acceptWord "yes" then return front ++ ", STANDALONE YES"
  word "no"
  if ← acceptWord "value" then return front ++ ", STANDALONE NO VALUE"
  return front ++ ", STANDALONE NO"

def xmlSerialize (r : Rules) : Reader String := do
  let kind ← documentOrContent
  let value ← r.expression
  word "as"
  let type ← simpleType r
  let indent ← do
    if ← acceptWord "no" then
      word "indent"
      pure ""
    else if ← acceptWord "indent" then pure " INDENT"
    else pure ""
  return kind ++ " " ++ value.text ++ " AS " ++ type.castText ++ indent

/-- How a document is handed over, which makes no difference. -/
def passingMechanism : Reader Unit := do
  if ← acceptWord "by" then
    let _ ← oneOf ["ref", "value"]

/-- The document that is looked into. -/
def passedDocument (r : Rules) : Reader Phrase := do
  word "passing"
  passingMechanism
  let document ← r.primary
  passingMechanism
  return document

def xmlExists (r : Rules) : Reader Phrase :=
  parenthesized do
    let path ← r.primary
    return .ofSystemCall "xmlexists" [path, ← passedDocument r]

def xmlFunction? (r : Rules) (w : String) : Option (Reader Phrase) :=
  let function (inside : Reader String) : Option (Reader Phrase) :=
    some do return { text := w ++ enclosed (← parenthesized inside) }
  match w with
  | "xmlconcat" => function do return commaList (← plainExpressions r)
  | "xmlelement" => function (xmlElement r)
  | "xmlexists" => some (xmlExists r)
  | "xmlforest" => function (labeledValues r)
  | "xmlparse" => function (xmlParse r)
  | "xmlpi" => function (xmlProcessing r)
  | "xmlroot" => function (xmlRoot r)
  | "xmlserialize" => function (xmlSerialize r)
  | _ => none

/-! ## Clauses of JSON functions -/

/-- How a value is written as JSON. -/
def jsonFormat : Reader String := do
  unless ← acceptJoined "format" do return ""
  word "json"
  unless ← acceptWord "encoding" do return "FORMAT JSON"
  let at? ← place
  let name ← columnName
  unless ["utf8", "utf16", "utf32"].contains (Text.lower name) do
    breach ("unrecognized JSON encoding: " ++ name) at?
  return "FORMAT JSON ENCODING " ++ Text.upper name

/-- A value that can be said to be written as JSON. -/
def jsonValue (r : Rules) : Reader String := do
  let value ← r.expression
  return value.text ++ spaced [← jsonFormat]

def jsonReturning (r : Rules) : Reader String := do
  unless ← acceptWord "returning" do return ""
  let type ← type r
  return "RETURNING " ++ type.castText ++ spaced [← jsonFormat]

/-- Whether keys may be repeated. -/
def jsonKeys : Reader String := do
  match ← acceptAny ["with", "without"] with
  | some w =>
    word "unique"
    let _ ← acceptWord "keys"
    return if w == "with" then "WITH UNIQUE KEYS" else ""
  | none => return ""

/-- Whether absent values are left out; `isAbsent` says so where nothing is said. -/
def jsonNulls (isAbsent : Bool) : Reader String := do
  let isAbsent ← do
    if ← acceptWord "null" then
      words ["on", "null"]
      pure false
    else if ← acceptWord "absent" then
      words ["on", "null"]
      pure true
    else pure isAbsent
  return if isAbsent then "ABSENT ON NULL" else ""

/-- A key with its value, of which the key is read already. -/
def jsonMember (r : Rules) (key : Phrase) : Reader String := do
  unless ← acceptWord "value" do symbol ":"
  return key.text ++ ": " ++ (← jsonValue r)

def jsonMembers (r : Rules) (key : Phrase) : Reader String := do
  let first ← jsonMember r key
  let rest ← many do
    if ← acceptSymbol "," then return some (← jsonMember r (← r.expression)) else return none
  return commaList (first :: rest)

def jsonPassing (r : Rules) : Reader String := do
  unless ← acceptWord "passing" do return ""
  let items ← list do
    let value ← jsonValue r
    word "as"
    return value ++ " AS " ++ phraseName (← label)
  return "PASSING " ++ commaList items

def jsonWrapper : Reader String := do
  match ← acceptAny ["with", "without"] with
  | some "with" =>
    let kind ← acceptAny ["conditional", "unconditional"]
    let _ ← acceptWord "array"
    word "wrapper"
    return if kind == some "conditional" then "WITH CONDITIONAL WRAPPER" else "WITH WRAPPER"
  | some _ =>
    let _ ← acceptWord "array"
    word "wrapper"
    return "WITHOUT WRAPPER"
  | none => return ""

def jsonQuotes : Reader String := do
  match ← acceptAny ["keep", "omit"] with
  | some w =>
    word "quotes"
    if ← acceptWord "on" then words ["scalar", "string"]
    return Text.upper w ++ " QUOTES"
  | none => return ""

/-- What takes the place of a result that cannot be had, if it is given. -/
def jsonBehavior (r : Rules) : Reader (Option String) := do
  if ← acceptWord "default" then return some ("DEFAULT " ++ (← r.expression).text)
  match ← acceptAny ["error", "null", "true", "false", "unknown", "empty"] with
  | some "empty" =>
    match ← acceptAny ["array", "object"] with
    | some "object" => return some "EMPTY OBJECT"
    | _ => return some "EMPTY ARRAY"
  | some w => return some (Text.upper w)
  | none => return none

def jsonOnError (r : Rules) : Reader String := do
  let some behavior ← jsonBehavior r | return ""
  words ["on", "error"]
  return behavior ++ " ON ERROR"

/-- What happens when nothing is found, and on an error. -/
def jsonBehaviors (r : Rules) : Reader String := do
  let some behavior ← jsonBehavior r | return ""
  word "on"
  match ← oneOf ["empty", "error"] with
  | "empty" => return behavior ++ " ON EMPTY" ++ spaced [← jsonOnError r]
  | _ => return behavior ++ " ON ERROR"

/-! ## JSON -/

/-- The rest of an object, after its members. -/
def jsonObjectEnd (r : Rules) (members : String) : Reader String := do
  let nulls ← jsonNulls false
  let keys ← jsonKeys
  return members ++ spaced [nulls, keys, ← jsonReturning r]

def jsonObject (r : Rules) : Reader Phrase :=
  parenthesized do
    if (← atSymbol ")") || (← atWord "returning") then
      return { text := "json_object" ++ enclosed (spaced [← jsonReturning r]) }
    if ← atNamedArgument then return ← plainCall r "json_object"
    let first ← r.expression
    unless (← atWord "value") || (← atSymbol ":") do return ← callAfter r "json_object" first
    return { text := "json_object" ++ enclosed (← jsonObjectEnd r (← jsonMembers r first)) }

/-- A word that begins a query, which would otherwise be a name or nothing. -/
def atQuery : Reader Bool := do
  match ← front with
  | some (.word "values") => return (← ahead 1) == some (.symbol "(")
  | some token => return token.opensQuery
  | none => return false

def jsonArray (r : Rules) : Reader String := do
  if (← atQuery) || (← atExtendedQuery) then
    let q ← r.query
    let format ← jsonFormat
    return q.text ++ spaced [format, ← jsonReturning r]
  if (← atSymbol ")") || (← atWord "returning") then
    return spaced ["ABSENT ON NULL", ← jsonReturning r]
  let items ← list (jsonValue r)
  let nulls ← jsonNulls true
  return commaList items ++ spaced [nulls, ← jsonReturning r]

def jsonPath (r : Rules) : Reader String := do
  let value ← jsonValue r
  symbol ","
  let path ← r.expression
  return value ++ ", " ++ path.text ++ spaced [← jsonPassing r]

def jsonQuery (r : Rules) : Reader String := do
  let path ← jsonPath r
  let returning ← jsonReturning r
  let wrapper ← jsonWrapper
  let quotes ← jsonQuotes
  return path ++ spaced [returning, wrapper, quotes, ← jsonBehaviors r]

def jsonExists (r : Rules) : Reader String := do
  return (← jsonPath r) ++ spaced [← jsonOnError r]

def jsonLookup (r : Rules) : Reader String := do
  let path ← jsonPath r
  let returning ← jsonReturning r
  return path ++ spaced [returning, ← jsonBehaviors r]

def jsonFunction? (r : Rules) (w : String) : Option (Reader Phrase) :=
  let function (name : String) (inside : Reader String) : Option (Reader Phrase) :=
    some do return { text := name ++ enclosed (← parenthesized inside) }
  match w with
  | "json" => function w do
    let value ← jsonValue r
    return value ++ spaced [← jsonKeys]
  | "json_object" => some (jsonObject r)
  | "json_array" => function w (jsonArray r)
  | "json_scalar" => function w do return (← r.expression).text
  | "json_serialize" => function w do
    let value ← jsonValue r
    return value ++ spaced [← jsonReturning r]
  | "json_query" => function "JSON_QUERY" (jsonQuery r)
  | "json_exists" => function "JSON_EXISTS" (jsonExists r)
  | "json_value" => function "JSON_VALUE" (jsonLookup r)
  | "merge_action" => function w (return "")
  | _ => none

/-! ## Aggregates of JSON -/

def jsonObjectAggregate (r : Rules) : Reader String := do
  let key ← r.expression
  jsonObjectEnd r (← jsonMember r key)

def jsonArrayAggregate (r : Rules) : Reader String := do
  let value ← jsonValue r
  let order := ((← sortKeys r).map (softly "ORDER BY")).getD ""
  let nulls ← jsonNulls true
  return value ++ spaced [order, nulls, ← jsonReturning r]

/-- An aggregate with the inside that it has. -/
def jsonAggregate? (r : Rules) (w : String) : Option (Reader String) :=
  match w with
  | "json_objectagg" => some (jsonObjectAggregate r)
  | "json_arrayagg" => some (jsonArrayAggregate r)
  | _ => none

end SchemaScript.Sql.Reader
