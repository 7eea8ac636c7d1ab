import SchemaScript.Sql.Grammar.Object

/-!
# Reading operators, conversions and languages

Statements about objects that a catalog passes over.
-/

/-!
## Reading operators

Operators, and the classes and families of operators that indexes use.
-/

namespace SchemaScript.Sql.Reader

def createOperator (r : Rules) : Reader Statement := do
  let _ ← operatorPath
  definition r
  return .define "OBJECT_OPERATOR"

/-- What an operator of a class is for. -/
def operatorPurpose : Reader Unit := do
  if ← acceptWord "for" then
    if (← oneOf ["search", "order"]) == "order" then
      word "by"
      let _ ← anyName

/-- A member of a class of operators. -/
def classItem (r : Rules) : Reader Unit := do
  match ← oneOf ["operator", "function", "storage"] with
  | "operator" =>
    let _ ← integer
    let _ ← operatorPath
    if ← atSymbol "(" then operatorOperands r
    operatorPurpose
  | "function" =>
    let _ ← integer
    let _ ← maybeParenthesized (list (type r))
    let _ ← routineObject r
  | _ =>
    let _ ← type r

/-- A member that a family of operators loses. -/
def lostItem (r : Rules) : Reader Unit := do
  let _ ← oneOf ["operator", "function"]
  let _ ← integer
  let _ ← parenthesized (list (type r))

def createOperatorClass (r : Rules) : Reader Statement := do
  let _ ← anyName
  let _ ← acceptWord "default"
  words ["for", "type"]
  let _ ← type r
  word "using"
  let _ ← columnName
  if ← acceptWord "family" then
    let _ ← anyName
  word "as"
  let _ ← list (classItem r)
  return .other "CreateOpClassStmt"

def createOperatorFamily : Reader Statement := do
  let _ ← anyName
  word "using"
  let _ ← columnName
  return .other "CreateOpFamilyStmt"

/-- A change to a family of operators, after its name. -/
def familyChange (r : Rules) : Reader Statement := do
  match ← oneOf ["add", "drop"] with
  | "add" =>
    let _ ← list (classItem r)
  | _ =>
    let _ ← list (lostItem r)
  return .other "AlterOpFamilyStmt"

/-!
## Reading conversions and languages

Casts, conversions between encodings, collations, languages with the transforms of their values,
methods of access and what a search in texts needs.
-/

/-- Where a cast is made without being asked for. -/
def castContext : Reader Unit := do
  if ← acceptWord "as" then
    let _ ← oneOf ["implicit", "assignment"]

def createCast (r : Rules) : Reader Statement := do
  castTypes r
  match ← oneOf ["with", "without"] with
  | "with" =>
    if (← oneOf ["function", "inout"]) == "function" then
      let _ ← routineObject r
  | _ => word "function"
  castContext
  return .other "CreateCastStmt"

def createConversion : Reader Statement := do
  let _ ← anyName
  word "for"
  let _ ← text
  word "to"
  let _ ← text
  word "from"
  let _ ← anyName
  return .other "CreateConversionStmt"

def createCollation (r : Rules) : Reader Statement := do
  let _ ← ifNotExists
  let _ ← anyName
  if ← acceptWord "from" then
    let _ ← anyName
  else definition r
  return .define "OBJECT_COLLATION"

/-- The rest of a statement that creates a language. One without a handler comes as an extension. -/
def createLanguage : Reader Statement := do
  let name ← columnName
  unless ← acceptWord "handler" do return .createExtension name none none
  let _ ← anyName
  if ← acceptWord "inline" then
    let _ ← anyName
  if ← acceptWord "validator" then
    let _ ← anyName
  else if ← acceptWord "no" then word "validator"
  return .other "CreatePLangStmt"

/-- A function that turns values of the language into values of the database, or back. -/
def transformFunction (r : Rules) (w : String) : Reader Unit := do
  words [w, "sql", "with", "function"]
  let _ ← routineObject r

def createTransform (r : Rules) : Reader Statement := do
  transformObject r
  parenthesized do
    if ← atWord "from" then
      transformFunction r "from"
      if ← acceptSymbol "," then transformFunction r "to"
    else
      transformFunction r "to"
      if ← acceptSymbol "," then transformFunction r "from"
  return .other "CreateTransformStmt"

def createAccessMethod : Reader Statement := do
  let _ ← columnName
  word "type"
  let _ ← oneOf ["index", "table"]
  word "handler"
  let _ ← anyName
  return .other "CreateAmStmt"

/-! ### Search in texts -/

def createSearchObject (r : Rules) (label : String) : Reader Statement := do
  let _ ← anyName
  definition r
  return .define label

def searchDictionaryChange (r : Rules) : Reader Statement := do
  definition r
  return .other "AlterTSDictionaryStmt"

/-- The dictionaries for kinds of words, in a change to how texts are searched. -/
def searchConfigurationChange : Reader Statement := do
  let verb ← oneOf ["add", "alter", "drop"]
  word "mapping"
  if ← both (verb == "alter") (acceptWord "replace") then
    let _ ← anyName
    word "with"
    let _ ← anyName
    return .other "AlterTSConfigurationStmt"
  if verb == "drop" then
    let _ ← plainIfExists
  word "for"
  let _ ← list columnName
  if ← both (verb == "alter") (acceptWord "replace") then
    let _ ← anyName
    word "with"
    let _ ← anyName
  else if verb != "drop" then
    word "with"
    let _ ← list anyName
  return .other "AlterTSConfigurationStmt"

end SchemaScript.Sql.Reader
