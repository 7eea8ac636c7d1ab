import SchemaScript.Sql.Grammar.Expression

/-!
# Reading the sources of a query

The rows of a query come from tables, from other queries and from functions.
-/

/-!
## Reading tables made of documents

Functions that take an XML or JSON document apart into rows, with the columns that these have.
-/

namespace SchemaScript.Sql.Reader

/-! ### XML -/

def xmlNamespace (r : Rules) : Reader String := do
  if ← acceptWord "default" then return "DEFAULT " ++ (← r.restrictedExpression).restricted
  let value ← r.restrictedExpression
  word "as"
  return value.restricted ++ " AS " ++ phraseName (← label)

/-- One thing said of a column besides its type. -/
inductive ColumnOption
  | path (value : String)
  | default (value : String)
  | notNull (isNotNull : Bool)
  | unknown (name : String)
  deriving DecidableEq

/-- Two options say something about the same. -/
def ColumnOption.clashes : ColumnOption → ColumnOption → Bool
  | path _, path _ => true
  | default _, default _ => true
  | notNull _, notNull _ => true
  | _, _ => false

/-- What is wrong with an option of this column that comes after others. -/
def ColumnOption.fault? (column : String) (found : List ColumnOption) (o : ColumnOption) :
    Option String :=
  match o, found.any o.clashes with
  | unknown name, _ => some ("unrecognized column option \"" ++ name ++ "\"")
  | path _, true => some "only one PATH value per column is allowed"
  | default _, true => some "only one DEFAULT value is allowed"
  | notNull _, true =>
    some ("conflicting or redundant NULL / NOT NULL declarations for column \"" ++ column ++ "\"")
  | _, false => none

/-- An option of a column, if one is in front, with its place. -/
def columnOption (r : Rules) : Reader (Option (ColumnOption × Option Nat)) := do
  let at? ← place
  if ← acceptWord "default" then
    return some (.default (← r.restrictedExpression).restricted, at?)
  if ← acceptWord "path" then return some (.path (← r.restrictedExpression).restricted, at?)
  if ← acceptPhrase ["not", "null"] then return some (.notNull true, at?)
  if ← acceptWord "null" then return some (.notNull false, at?)
  match nameOf? (fun w => !isKeyword w) (← front) with
  | some name =>
    skip
    let _ ← r.restrictedExpression
    return some (.unknown name, at?)
  | none => return none

/-- The options of a column, of each kind at most one. -/
def columnOptions (r : Rules) (column : String) : Reader (List ColumnOption) := do
  let options ← many (columnOption r)
  options.foldlM (fun found (o, at?) => do
    if let some text := o.fault? column found then lateBreach text at?
    return found ++ [o]) []

def xmlColumn (r : Rules) : Reader String := do
  let column ← columnName
  let name := phraseName column
  if ← acceptPhrase ["for", "ordinality"] then return name ++ " FOR ORDINALITY"
  let type ← type r
  let options ← columnOptions r column
  let path := options.findSome? fun o => if let .path value := o then some value else none
  let value := options.findSome? fun o => if let .default value := o then some value else none
  return name ++ " " ++ type.castText ++ spaced
    [(path.map ("PATH " ++ ·)).getD "", (value.map ("DEFAULT " ++ ·)).getD "",
      if options.contains (.notNull true) then "NOT NULL" else ""]

def xmlTable (r : Rules) : Reader String :=
  parenthesized do
    let namespaces ←
      if ← both ((← ahead 1) == some (.symbol "(")) (acceptWord "xmlnamespaces") then
        let items ← parenthesized (list (xmlNamespace r))
        symbol ","
        pure ("xmlnamespaces" ++ enclosed (commaList items) ++ ", ")
      else pure ""
    let rows ← r.primary
    let document ← passedDocument r
    word "columns"
    let columns ← list (xmlColumn r)
    return namespaces ++ enclosed rows.text ++ " PASSING " ++ document.text ++ " COLUMNS " ++
      commaList columns

/-! ### JSON -/

/-- The path to what is looked up, after the word for it. -/
def jsonColumnPath : Reader String := do
  if ← acceptWord "path" then return "PATH " ++ literal (← text) else return ""

/-- The columns between parentheses; `depth` bounds how deep they are nested. -/
def jsonColumns (r : Rules) : Nat → Reader String
  | 0 => refuse
  | depth + 1 => do
    let column : Reader String := do
      let isNested :=
        match ← ahead 1 with
        | some (.text _) | some (.word "path") => true
        | _ => false
      if ← both isNested (acceptWord "nested") then
        let _ ← acceptWord "path"
        let path ← text
        let name ← if ← acceptWord "as" then pure (" AS " ++ phraseName (← columnName)) else pure ""
        word "columns"
        return "NESTED PATH " ++ literal path ++ name ++ " COLUMNS " ++ (← jsonColumns r depth)
      let name := phraseName (← columnName)
      if ← acceptPhrase ["for", "ordinality"] then return name ++ " FOR ORDINALITY"
      let front := name ++ " " ++ (← type r).castText
      if ← acceptWord "exists" then
        let path ← jsonColumnPath
        return front ++ spaced ["EXISTS", path, ← jsonOnError r]
      let format ← jsonFormat
      let path ← jsonColumnPath
      let wrapper ← jsonWrapper
      let quotes ← jsonQuotes
      return front ++ spaced [format, path, wrapper, quotes, ← jsonBehaviors r]
    return enclosed (commaList (← parenthesized (list column)))

def jsonTable (r : Rules) : Reader String :=
  parenthesized do
    let value ← jsonValue r
    symbol ","
    let at? ← place
    let path ← r.expression
    let name ← if ← acceptWord "as" then pure ("AS " ++ phraseName (← columnName)) else pure ""
    let passing ← jsonPassing r
    word "columns"
    let columns ← fun rest => jsonColumns r rest.length rest
    let ending ← jsonOnError r
    unless path.isConstant && path.text.toList.head? == some '\'' do
      breach "only string constants are supported in JSON_TABLE path specification" at?
    return value ++ ", " ++ path.text ++ spaced [name, passing, "COLUMNS " ++ columns, ending]

/-- A table made of a document, if one is in front. -/
def tableFunction (r : Rules) : Reader (Option String) := do
  unless (← ahead 1) == some (.symbol "(") do return none
  match ← acceptAny ["xmltable", "json_table"] with
  | some "xmltable" => return some ("xmltable" ++ enclosed (← xmlTable r))
  | some name => return some (name ++ enclosed (← jsonTable r))
  | none => return none

/-!
## Reading sources

What a query takes its rows from: tables, functions, other queries, and joins of these.
-/

/-! ### Other names for sources -/

/-- A column of a function's result with its type. -/
def resultColumnText (r : Rules) (name : String) : Reader String := do
  let type ← type r
  let collation ← if ← acceptWord "collate" then pure (" COLLATE " ++ phrasePath (← anyName)) else pure ""
  return phraseName name ++ " " ++ type.castText ++ collation

/-- The columns of a function's result, all of them with types. -/
def resultColumnList (r : Rules) : Reader String := do
  return commaList (← list do resultColumnText r (← columnName))

/-- The columns in the alias of a source; those of a function may all have types. -/
def aliasColumns (r : Rules) (isFunction : Bool) : Reader String := do
  unless ← acceptSymbol "(" do return ""
  let first ← columnName
  let isName := (← atSymbol ",") || (← atSymbol ")")
  if isName || !isFunction then
    let rest ← if ← acceptSymbol "," then list columnName else pure []
    symbol ")"
    return " " ++ enclosed (commaList ((first :: rest).map phraseName))
  let first ← resultColumnText r first
  let rest ← if ← acceptSymbol "," then pure [← resultColumnList r] else pure []
  symbol ")"
  return enclosed (commaList (first :: rest))

/-- Another name for a source; that of a function may give only its columns. -/
def aliasClause (r : Rules) (isFunction : Bool) : Reader String := do
  if ← acceptWord "as" then
    if isFunction && (← atSymbol "(") then
      return " AS " ++ enclosed (← parenthesized (resultColumnList r))
    return " AS " ++ phraseName (← columnName) ++ (← aliasColumns r isFunction)
  if ← isColumnNameAhead 0 then
    return " AS " ++ phraseName (← columnName) ++ (← aliasColumns r isFunction)
  return ""

/-! ### Sources -/

/-- Parts of a sample are set apart by two blanks. -/
def sampleClause (r : Rules) : Reader String := do
  unless ← acceptWord "tablesample" do return ""
  let method ← routinePath r
  let arguments ← parenthesized (plainExpressions r)
  let seed ←
    if ← acceptWord "repeatable" then
      pure (" REPEATABLE " ++ enclosed (← parenthesized r.expression).text)
    else pure ""
  return " TABLESAMPLE " ++ "  ".intercalate (method.map phraseName) ++
    enclosed ("  ".intercalate arguments) ++ seed

def functionSource (r : Rules) (isLateral : Bool) (call : String) : Reader Source := do
  let ordinality ←
    if ← acceptJoined "with" then
      word "ordinality"
      pure " WITH ORDINALITY"
    else pure ""
  return { text := Source.lateralWord isLateral ++ call ++ ordinality ++ (← aliasClause r true) }

def querySource (r : Rules) (isLateral : Bool) (q : Query) : Reader Source := do
  let source := Source.ofQuery isLateral q
  return { source with text := source.text ++ (← aliasClause r false) }

def tableSource (r : Rules) (isOnly : Bool) (path : List String) : Reader Source := do
  let source := Source.ofTable isOnly path
  let named ← aliasClause r false
  return { source with text := source.text ++ named ++ (← sampleClause r) }

/-- Several functions side by side. -/
def functionsSource (r : Rules) (isLateral : Bool) : Reader Source := do
  words ["rows", "from"]
  let calls ← parenthesized <| list do
    let call ← functionCall r
    if ← acceptWord "as" then
      return call.text ++ " AS " ++ enclosed (← parenthesized (resultColumnList r))
    return call.text
  functionSource r isLateral ("ROWS FROM " ++ enclosed (commaList calls))

/-- A table or a function, by its name. -/
def namedSource (r : Rules) (isLateral : Bool) : Reader Source := do
  let at? ← place
  let isColumn ← isColumnNameAhead 0
  let isFunction := (nameOf? isFunctionName (← front)).isSome
  unless isColumn do return ← functionSource r isLateral (← functionCall r).text
  let first ← columnName
  let path := first :: (← fieldsOnly (← parts r))
  if ← atSymbol "(" then
    if path.length == 1 && !isFunction then refuse
    return ← functionSource r isLateral (phrasePath path ++ (← callArguments r).text)
  if isLateral then refuse
  if path.length > 3 then
    lateBreach ("improper qualified name (too many dotted names): " ++ ".".intercalate path) at?
  let _ ← acceptSymbol "*"
  tableSource r false path

/-- A source that is no join, unless between parentheses. -/
def simpleSource (r : Rules) : Reader Source := do
  let isLateral ← acceptWord "lateral"
  if ← atWords ["rows", "from"] then return ← functionsSource r isLateral
  if ← atSymbol "(" then
    if isLateral then return ← querySource r true (← r.enclosedQuery)
    match ← r.sourceGroup with
    | .query q => return ← querySource r false q
    | .join s =>
      match ← aliasClause r false with
      | "" => return s
      | named => return { text := enclosed s.text ++ named }
  if let some call ← specialCall r then return ← functionSource r isLateral call.text
  if let some text ← aggregateCall r then return ← functionSource r isLateral text
  if let some text ← tableFunction r then
    return { text := Source.lateralWord isLateral ++ text ++ (← aliasClause r false) }
  if ← both (!isLateral) (acceptWord "only") then
    if ← atSymbol "(" then return ← tableSource r true (← parenthesized (relationPath r))
    return ← tableSource r true (← relationPath r)
  namedSource r isLateral

/-! ### Joins -/

def atJoin : Reader Bool := do
  match ← front with
  | some (.word w) =>
    return ["join", "cross", "natural", "inner", "left", "right", "full"].contains w
  | _ => return false

/-- The kind of a join, up to and with the word `JOIN`. -/
def joinKind : Reader String := do
  match ← acceptAny ["inner", "left", "right", "full"] with
  | some "inner" =>
    word "join"
    return "INNER JOIN"
  | some kind =>
    let _ ← acceptWord "outer"
    word "join"
    return Text.upper kind ++ " JOIN"
  | none =>
    word "join"
    return "INNER JOIN"

/-- Which rows belong together. -/
def joinCondition (r : Rules) : Reader String := do
  if ← acceptWord "using" then
    let columns ← parenthesized (list columnName)
    let named ← if ← acceptWord "as" then pure (" AS " ++ phraseName (← columnName)) else pure ""
    return " USING " ++ enclosed (commaList (columns.map phraseName)) ++ named
  word "on"
  return " ON " ++ (← r.expression).text

/-- The joins that follow a source. -/
def joins (r : Rules) (s : Source) : Reader Source :=
  repeated (fun s => do if ← atJoin then return some (← r.joinAfter s) else return none) s

def joinWith (r : Rules) (left : Source) : Reader Source := do
  if ← acceptPhrase ["cross", "join"] then
    return .join "CROSS JOIN" left (← simpleSource r) ""
  if ← acceptWord "natural" then
    let kind ← joinKind
    return .join ("NATURAL " ++ kind) left (← simpleSource r) ""
  let kind ← joinKind
  let right ← joins r (← simpleSource r)
  return .join kind left right (← joinCondition r)

def source (r : Rules) : Reader Source := do
  joins r (← simpleSource r)

/-- A join that has to be one, up to its closing parenthesis. -/
def enclosedJoin (r : Rules) (first : Source) : Reader SourceGroup := do
  unless ← atJoin do refuse
  let s ← joins r first
  symbol ")"
  return .join s

def sourceGroupWith (r : Rules) : Reader SourceGroup := do
  symbol "("
  if ← atQuery then
    let q ← r.query
    symbol ")"
    return .query q
  if ← atSymbol "(" then
    match ← r.sourceGroup with
    | .query q =>
      if ← acceptSymbol ")" then return .query q
      if (← front).any Token.extendsQuery then
        let q ← r.queryAfter q
        symbol ")"
        return .query q
      enclosedJoin r (← querySource r false q)
    | .join s =>
      if ← acceptSymbol ")" then return .join s
      match ← aliasClause r false with
      | "" => enclosedJoin r s
      | named => enclosedJoin r { text := enclosed s.text ++ named }
  else
    enclosedJoin r (← simpleSource r)

end SchemaScript.Sql.Reader
