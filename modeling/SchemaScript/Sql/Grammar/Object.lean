import SchemaScript.Sql.Grammar.Routine

/-!
# Reading objects and their names

Extensions, views, types and sequences that are created, and the names by which other statements call objects.
-/

/-!
## Reading extensions, views, types and sequences
-/

namespace SchemaScript.Sql.Reader

structure ExtensionOptions where
  schema : Option String := none
  version : Option String := none

def createExtension : Reader Statement := do
  let _ ← ifNotExists
  let name ← columnName
  let _ ← acceptWith
  let options ← repeated (fun (options : ExtensionOptions) => do
    let at? ← place
    if ← acceptWord "from" then
      let _ ← nameOrText
      breach "CREATE EXTENSION ... FROM is no longer supported" at?
    if ← acceptWord "schema" then return some { options with schema := some (← columnName) }
    if ← acceptWord "version" then return some { options with version := some (← nameOrText) }
    if ← acceptWord "cascade" then return some options
    return none) {}
  return .createExtension name options.schema options.version

/-! ### Views -/

/-- The rest of a statement that creates a view, after the word `VIEW`. A recursive view selects from
a query by its own name. -/
def createView (r : Rules) (isRecursive : Bool) : Reader Statement := do
  let relation ← relationName r
  let columns ←
    if isRecursive then parenthesized (list columnName)
    else pure ((← maybeParenthesized (list columnName)).getD [])
  storageOptions r
  word "as"
  let q ← r.query
  let checkAt? ← place
  if ← acceptWord "with" then
    let _ ← acceptAny ["cascaded", "local"]
    words ["check", "option"]
    if isRecursive then breach "WITH CHECK OPTION not supported on recursive views" checkAt?
  if !isRecursive then return .createView relation q.wholeText false
  let name := phraseName relation.name
  let columns := commaList (columns.map phraseName)
  return .createView relation
    ("WITH RECURSIVE " ++ name ++ enclosed columns ++ " AS " ++ enclosed q.text ++ " SELECT " ++
      columns ++ " FROM " ++ name) false

def createMaterializedView (r : Rules) : Reader Statement := do
  let _ ← ifNotExists
  let relation ← relationName r
  let _ ← maybeParenthesized (list columnName)
  if ← acceptWord "using" then
    let _ ← columnName
  storageOptions r
  tablespace
  let q ← tableQuery r
  return .createView relation q.wholeText true

/-! ### Types -/

def compositeMember (r : Rules) : Reader (String × WrittenType) := do
  let name ← columnName
  let type ← type r
  if ← acceptWord "collate" then
    let _ ← anyName
  return (name, type)

def createType (r : Rules) : Reader Statement := do
  let at? ← place
  let path ← anyName
  if ← acceptWord "as" then
    if ← acceptWord "enum" then
      let labels ← parenthesized do
        if ← atSymbol ")" then pure [] else list text
      return .createEnum path labels
    if ← acceptWord "range" then
      definition r
      return .other "CreateRangeStmt"
    let members ← parenthesized do
      if ← atSymbol ")" then pure [] else list (compositeMember r)
    if path.length > 3 then
      breach ("improper qualified name (too many dotted names): " ++ ".".intercalate path) at?
    return .createComposite (.ofPath path) members
  if ← atSymbol "(" then
    definition r
  return .define "OBJECT_TYPE"

/-- The rule of a domain that a column's rule states. A default keeps its general form here. -/
def DomainRule.ofColumnRule : ColumnRule → DomainRule
  | .notNull => .notNull
  | .default value => .default value.wholeText
  | .constraint { name, rule := .check condition, .. } => .check name condition
  | _ => .other

def createDomain (r : Rules) : Reader Statement := do
  let path ← anyName
  let _ ← acceptWord "as"
  let base ← type r
  return .createDomain path base ((← columnRules r "").map DomainRule.ofColumnRule)

def createSequence (r : Rules) : Reader Statement := do
  let _ ← ifNotExists
  let relation ← relationName r
  return .createSequence relation (← sequenceOptions r)

/-!
## Reading the names of objects

Statements of many kinds name objects. How an object is named depends on what it is: some have a
schema, some hang on a table, and a routine may be told from others of its name by its arguments.
-/

/-- How objects of a kind are named. -/
inductive Naming
  /-- By a name that may have a schema before it. -/
  | path
  /-- By a name alone. -/
  | name
  /-- By a name on a table. -/
  | onTable
  | type
  | routine
  | aggregate
  | operator
  /-- By a name with the method that an index uses. -/
  | operatorGroup
  /-- By the types between which it converts. -/
  | cast
  /-- By a type with a language. -/
  | transform
  | number
  deriving DecidableEq

/-- An object on a table, after its kind. -/
def pathOnTable : Reader (List String) := do
  let name ← columnName
  word "on"
  return (← anyName) ++ [name]

/-- A routine by its name, and possibly by the types of its arguments. -/
def routineObject (r : Rules) : Reader (List String) := do
  let path ← routinePath r
  if ← atSymbol "(" then
    let _ ← parenthesized do
      if ← atSymbol ")" then pure [] else list (parameter r)
  return path

def aggregateObject (r : Rules) : Reader (List String) := do
  let path ← routinePath r
  let _ ← aggregateArguments r
  return path

/-- The types of an operator's operands; there has to be a right one. -/
def operatorOperands (r : Rules) : Reader Unit :=
  parenthesized do
    if ← acceptWord "none" then
      symbol ","
      let _ ← type r
    else
      let _ ← type r
      if ← atSymbol ")" then breach "missing argument" (← place)
      symbol ","
      unless ← acceptWord "none" do
        let _ ← type r

def operatorObject (r : Rules) : Reader (List String) := do
  let (schemas, symbol) ← operatorPath
  operatorOperands r
  return schemas ++ [symbol]

def typeObject (r : Rules) : Reader (List String) := do
  return (← type r).path

/-- The types of a conversion between parentheses. -/
def castTypes (r : Rules) : Reader Unit :=
  parenthesized do
    let _ ← type r
    word "as"
    let _ ← type r

def transformObject (r : Rules) : Reader Unit := do
  word "for"
  let _ ← type r
  word "language"
  let _ ← columnName

/-- The name of an object; what has no name of its own has an empty path. -/
def objectName (r : Rules) : Naming → Reader (List String)
  | .path => anyName
  | .name => return [← columnName]
  | .onTable => pathOnTable
  | .type => typeObject r
  | .routine => routineObject r
  | .aggregate => aggregateObject r
  | .operator => operatorObject r
  | .operatorGroup => do
    let path ← anyName
    word "using"
    let _ ← columnName
    return path
  | .cast => do
    castTypes r
    return []
  | .transform => do
    transformObject r
    return []
  | .number => do
    let _ ← number
    return []

/-- What an object can be, by the words that say so. -/
def objectKinds : List (List String × String × Naming) :=
  [(["table"], "OBJECT_TABLE", .path), (["sequence"], "OBJECT_SEQUENCE", .path),
   (["view"], "OBJECT_VIEW", .path), (["materialized", "view"], "OBJECT_MATVIEW", .path),
   (["index"], "OBJECT_INDEX", .path), (["foreign", "table"], "OBJECT_FOREIGN_TABLE", .path),
   (["collation"], "OBJECT_COLLATION", .path), (["conversion"], "OBJECT_CONVERSION", .path),
   (["statistics"], "OBJECT_STATISTIC_EXT", .path),
   (["text", "search", "parser"], "OBJECT_TSPARSER", .path),
   (["text", "search", "dictionary"], "OBJECT_TSDICTIONARY", .path),
   (["text", "search", "template"], "OBJECT_TSTEMPLATE", .path),
   (["text", "search", "configuration"], "OBJECT_TSCONFIGURATION", .path),
   (["access", "method"], "OBJECT_ACCESS_METHOD", .name),
   (["event", "trigger"], "OBJECT_EVENT_TRIGGER", .name),
   (["extension"], "OBJECT_EXTENSION", .name),
   (["foreign", "data", "wrapper"], "OBJECT_FDW", .name),
   (["procedural", "language"], "OBJECT_LANGUAGE", .name), (["language"], "OBJECT_LANGUAGE", .name),
   (["publication"], "OBJECT_PUBLICATION", .name), (["schema"], "OBJECT_SCHEMA", .name),
   (["server"], "OBJECT_FOREIGN_SERVER", .name), (["database"], "OBJECT_DATABASE", .name),
   (["role"], "OBJECT_ROLE", .name), (["subscription"], "OBJECT_SUBSCRIPTION", .name),
   (["tablespace"], "OBJECT_TABLESPACE", .name), (["policy"], "OBJECT_POLICY", .onTable),
   (["rule"], "OBJECT_RULE", .onTable), (["trigger"], "OBJECT_TRIGGER", .onTable),
   (["type"], "OBJECT_TYPE", .type), (["domain"], "OBJECT_DOMAIN", .type),
   (["function"], "OBJECT_FUNCTION", .routine), (["procedure"], "OBJECT_PROCEDURE", .routine),
   (["routine"], "OBJECT_ROUTINE", .routine), (["aggregate"], "OBJECT_AGGREGATE", .aggregate),
   (["operator", "class"], "OBJECT_OPCLASS", .operatorGroup),
   (["operator", "family"], "OBJECT_OPFAMILY", .operatorGroup),
   (["operator"], "OBJECT_OPERATOR", .operator), (["cast"], "OBJECT_CAST", .cast),
   (["transform"], "OBJECT_TRANSFORM", .transform),
   (["large", "object"], "OBJECT_LARGEOBJECT", .number)]

/-- Takes the words of the first entry that is in front. -/
def acceptEntry {α : Type} : List (List String × α) → Reader (Option α)
  | [] => return none
  | (ws, a) :: entries => do
    if ← acceptWords ws then return some a else acceptEntry entries

/-- The first entry whose words are in front; there has to be one. -/
def entry {α : Type} (entries : List (List String × α)) : Reader α := do
  if let some a ← acceptEntry entries then return a
  let common : Reader Nat := fun rest =>
    let isThere (w : String) (l : Lexeme) : Bool := l.token == .word w
    let lengths := entries.map fun e => ((e.1.zip rest).takeWhile fun (w, l) => isThere w l).length
    .ok (lengths.foldl max 0, rest)
  for _ in List.range (← common) do skip
  refuse

/-- What is to be done with the objects that depend on another. -/
def dropBehavior : Reader Unit := do
  let _ ← acceptAny ["cascade", "restrict"]

end SchemaScript.Sql.Reader
