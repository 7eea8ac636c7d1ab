import SchemaScript.Sql.Grammar.Object

/-!
# Reading sessions and maintenance

Statements that define nothing.
-/

/-!
## Reading statements of a session

Transactions, cursors, prepared statements, locks and messages. They leave no trace in a catalog.
-/

namespace SchemaScript.Sql.Reader

/-! ### Transactions -/

def transactionWord : Reader Unit := do
  let _ ← acceptAny ["work", "transaction"]

/-- Whether another transaction follows at once. -/
def transactionChain : Reader Unit := do
  if ← acceptWord "and" then
    let _ ← acceptWord "no"
    word "chain"

/-- A savepoint, possibly after the word for it. -/
def savepoint : Reader Unit := do
  if ← isColumnNameAhead 1 then
    let _ ← acceptWord "savepoint"
  let _ ← columnName

/-- The rest of a statement about transactions, after its first word. -/
def transaction (w : String) : Reader Statement := do
  match w with
  | "begin" =>
    transactionWord
    maybeTransactionModes
  | "start" =>
    word "transaction"
    maybeTransactionModes
  | "savepoint" =>
    let _ ← columnName
  | "release" => savepoint
  | "commit" =>
    if ← acceptWord "prepared" then
      let _ ← text
    else
      transactionWord
      transactionChain
  | "rollback" =>
    if ← acceptWord "prepared" then
      let _ ← text
    else
      transactionWord
      if ← acceptWord "to" then savepoint else transactionChain
  | _ =>
    transactionWord
    transactionChain
  return .other "TransactionStmt"

/-! ### Prepared statements -/

/-- The rest of a statement after the word `PREPARE`. -/
def preparation (r : Rules) : Reader Statement := do
  if ← both ((← ahead 1).any Token.isText) (acceptWord "transaction") then
    let _ ← text
    return .other "TransactionStmt"
  let _ ← columnName
  let _ ← maybeParenthesized (list (type r))
  word "as"
  let _ ← r.rowStatement
  return .other "PrepareStmt"

/-! ### Cursors -/

/-- The rest of a statement after the word `DECLARE`. -/
def cursor (r : Rules) : Reader Statement := do
  let _ ← columnName
  let _ ← many do
    if ← acceptWord "no" then
      word "scroll"
      return some ()
    return (← acceptAny ["scroll", "binary", "asensitive", "insensitive"]).map fun _ => ()
  word "cursor"
  if (← acceptAny ["with", "without"]).isSome then word "hold"
  word "for"
  let _ ← r.query
  return .other "DeclareCursorStmt"

/-- A cursor, possibly after a word. -/
def fromCursor : Reader Unit := do
  let _ ← acceptAny ["from", "in"]
  let _ ← columnName

/-- How far a cursor goes, by a word that may as well be the name of the cursor. -/
def cursorDirection : Reader Unit := do
  let next ← ahead 1
  if next.isNone || next == some (.symbol ";") then return
  match ← acceptAny ["next", "prior", "first", "last", "absolute", "relative", "forward",
    "backward"] with
  | some "absolute" | some "relative" => signedInteger
  | some "forward" | some "backward" =>
    unless ← acceptWord "all" do
      if ← atNumber then signedInteger
  | _ => pure ()

/-- The rows that a cursor goes over, and the cursor. -/
def cursorMove : Reader Statement := do
  if ← atNumber then signedInteger
  else
    unless ← acceptWord "all" do cursorDirection
  fromCursor
  return .other "FetchStmt"

/-! ### Locks and messages -/

def lockMode : Reader Unit := do
  match ← oneOf ["access", "exclusive", "row", "share"] with
  | "access" | "row" =>
    let _ ← oneOf ["exclusive", "share"]
  | "share" =>
    if (← acceptAny ["row", "update"]).isSome then word "exclusive"
  | _ => pure ()

/-- The rest of a statement after the word `LOCK`. -/
def lock (r : Rules) : Reader Statement := do
  let _ ← acceptWord "table"
  let _ ← list (openPath r)
  if ← acceptWord "in" then
    lockMode
    word "mode"
  let _ ← acceptWord "nowait"
  return .other "LockStmt"

def truncation (r : Rules) : Reader Statement := do
  let _ ← acceptWord "table"
  let _ ← list (openPath r)
  if (← acceptAny ["continue", "restart"]).isSome then word "identity"
  dropBehavior
  return .other "TruncateStmt"

/-- Code that runs at once, after the word `DO`. -/
def codeBlock : Reader Statement := do
  let part : Reader (Option Unit) := do
    if ← acceptWord "language" then
      let _ ← nameOrText
      return some ()
    if ← atText then
      let _ ← text
      return some ()
    return none
  if (← part).isNone then refuse
  let _ ← many part
  return .other "DoStmt"

/-- A prepared statement that is given up, or all of them. -/
def deallocation : Reader Statement := do
  if (← ahead 1) == some (.word "all") || (← isColumnNameAhead 1) then
    let _ ← acceptWord "prepare"
  unless ← acceptWord "all" do
    let _ ← columnName
  return .other "DeallocateStmt"

/-- Statements of a session, by their first word. -/
def sessionStatements (r : Rules) : List (String × Reader Statement) :=
  (["start", "savepoint", "release", "commit", "rollback", "abort"].map
    fun w => (w, transaction w)) ++
  [("set", settingStatement r),
   ("reset", do
      settingReference
      return .other "VariableSetStmt"),
   ("show", do
      settingReference
      return .other "VariableShowStmt"),
   ("prepare", preparation r),
   ("execute", do
      execution r
      return .other "ExecuteStmt"),
   ("deallocate", deallocation),
   ("declare", cursor r),
   ("close", do
      unless ← acceptWord "all" do
        let _ ← columnName
      return .other "ClosePortalStmt"),
   ("fetch", cursorMove), ("move", cursorMove), ("lock", lock r), ("truncate", truncation r),
   ("do", codeBlock),
   ("call", do
      let _ ← routinePath r
      let _ ← callArguments r
      return .other "CallStmt"),
   ("listen", do
      let _ ← columnName
      return .other "ListenStmt"),
   ("unlisten", do
      unless ← acceptSymbol "*" do
        let _ ← columnName
      return .other "UnlistenStmt"),
   ("notify", do
      let _ ← columnName
      if ← acceptSymbol "," then
        let _ ← text
      return .other "NotifyStmt"),
   ("load", do
      let _ ← text
      return .other "LoadStmt"),
   ("discard", do
      let _ ← oneOf ["all", "temp", "temporary", "plans", "sequences"]
      return .other "DiscardStmt"),
   ("checkpoint", return .other "CheckPointStmt")]

/-!
## Reading commands about stored rows

Copies, plans of execution, and the upkeep of tables and indexes. They leave no trace in a catalog.
-/

/-- Options of a command, each a name with or without a value. -/
def commandOptions : Reader Unit := do
  let _ ← parenthesized <| list do
    if !(← acceptJoined "format") && (← acceptAny ["analyze", "analyse"]).isNone then
      let _ ← plainName
    unless (← atSymbol ",") || (← atSymbol ")") do settingValue

/-! ### Copies -/

/-- An option that is written without parentheses, if one is in front. -/
def copyOption : Reader (Option Unit) := do
  let some w ← acceptAny ["binary", "freeze", "delimiter", "null", "csv", "header", "quote", "escape",
    "force", "encoding"] | return none
  match w with
  | "delimiter" | "null" | "quote" | "escape" =>
    let _ ← acceptWord "as"
    let _ ← text
  | "encoding" =>
    let _ ← text
  | "force" =>
    if (← oneOf ["quote", "not", "null"]) == "not" then word "null"
    unless ← acceptSymbol "*" do
      let _ ← list columnName
  | _ => pure ()
  return some ()

/-- The value of an option between parentheses. -/
def copyValue : Reader Unit := do
  if ← either (← acceptSymbol "*") (acceptWord "default") then return
  if ← atSymbol "(" then
    let _ ← parenthesized (list settingWord)
  else settingValue

def copyOptions : Reader Unit := do
  let _ ← acceptWith
  if ← atSymbol "(" then
    let _ ← parenthesized <| list do
      let _ ← label
      unless (← atSymbol ",") || (← atSymbol ")") do copyValue
  else
    let _ ← many copyOption

/-- Where rows come from or go to; whether that is a program and whether it is a stream. -/
def copyPlace : Reader (Bool × Bool) := do
  let isProgram ← acceptWord "program"
  if (← acceptAny ["stdin", "stdout"]).isSome then return (isProgram, true)
  let _ ← text
  return (isProgram, false)

/-- A program has no streams. -/
def copyFault : Bool × Bool → Option String
  | (true, true) => some "STDIN/STDOUT not allowed with PROGRAM"
  | _ => none

def copyQuery (r : Rules) : Reader Statement := do
  let _ ← parenthesized r.rowStatement
  let at? ← place
  word "to"
  let place ← copyPlace
  copyOptions
  if let some text := copyFault place then lateBreach text at?
  return .other "CopyStmt"

/-- The rest of a statement after the word `COPY`. -/
def copy (r : Rules) : Reader Statement := do
  if ← atSymbol "(" then return ← copyQuery r
  let _ ← acceptWord "binary"
  let _ ← relationPath r
  let _ ← maybeParenthesized (list columnName)
  let direction ← oneOf ["from", "to"]
  let from? ← copyPlace
  let delimitersAt? ← place
  let isUsing ← acceptWord "using"
  let hasDelimiters ← acceptWord "delimiters"
  if isUsing && !hasDelimiters then refuse
  if hasDelimiters then
    let _ ← text
  copyOptions
  let whereAt? ← place
  let condition ← afterWord "where" r.expression
  if let some text := copyFault from? then
    lateBreach text (if hasDelimiters then delimitersAt? else none)
  if direction == "to" && condition.isSome then
    lateBreach "WHERE clause not allowed with COPY TO" whereAt?
  return .other "CopyStmt"

/-! ### Plans -/

/-- The rest of a statement after the word `REFRESH`. -/
def refreshment (r : Rules) : Reader Statement := do
  words ["materialized", "view"]
  let _ ← acceptWord "concurrently"
  let _ ← relationPath r
  withData
  return .other "RefreshMatViewStmt"

/-- The creation of a table or a view from a query, after the word `CREATE`. -/
def creationFromQuery (r : Rules) : Reader Unit := do
  let isUnlogged ← both ((← ahead 1) == some (.word "materialized")) (acceptWord "unlogged")
  if isUnlogged || (← atWord "materialized") then
    words ["materialized", "view"]
    let _ ← createMaterializedView r
  else
    let _ ← persistence
    word "table"
    let _ ← ifNotExists
    let _ ← relationPath r
    let _ ← maybeParenthesized (list columnName)
    let _ ← tableAs r

/-- A statement whose plan can be shown. -/
def plannedStatement (r : Rules) : Reader Unit := do
  match ← acceptAny ["declare", "create", "refresh", "execute"] with
  | some "declare" =>
    let _ ← cursor r
  | some "create" => creationFromQuery r
  | some "refresh" =>
    let _ ← refreshment r
  | some _ => execution r
  | none =>
    let _ ← r.rowStatement

/-- A query between parentheses is in front. -/
def atEnclosedQuery : Reader Bool := do
  match ← ahead 1 with
  | some (.symbol s) => return s == "("
  | some (.word "values") => return (← ahead 2) == some (.symbol "(")
  | some token => return token.opensQuery
  | none => return false

/-- The rest of a statement after the word `EXPLAIN`. -/
def explanation (r : Rules) : Reader Statement := do
  if (← atSymbol "(") && !(← atEnclosedQuery) then commandOptions
  else
    let _ ← acceptAny ["analyze", "analyse"]
    let _ ← acceptWord "verbose"
  plannedStatement r
  return .other "ExplainStmt"

/-! ### Upkeep -/

/-- The relations that a command is about, each with the columns that count; all, if none is given. -/
def upkeepTargets (r : Rules) : Reader Unit := do
  if (← atWord "only") || (← isColumnNameAhead 0) then
    let _ ← list do
      let _ ← openPath r
      maybeParenthesized (list columnName)

/-- The rest of a statement after the word `VACUUM`. -/
def vacuum (r : Rules) : Reader Statement := do
  if ← atSymbol "(" then commandOptions
  else
    for w in ["full", "freeze", "verbose"] do
      let _ ← acceptWord w
    let _ ← acceptAny ["analyze", "analyse"]
  upkeepTargets r
  return .other "VacuumStmt"

/-- The rest of a statement after the word `ANALYZE`. -/
def analysis (r : Rules) : Reader Statement := do
  if ← atSymbol "(" then commandOptions
  else
    let _ ← acceptWord "verbose"
  upkeepTargets r
  return .other "VacuumStmt"

/-- The rest of a statement after the word `CLUSTER`. -/
def clustering (r : Rules) : Reader Statement := do
  let hasOptions ← atSymbol "("
  if hasOptions then commandOptions
  else
    let _ ← acceptWord "verbose"
  if ← isColumnNameAhead 0 then
    let path ← relationPath r
    if ← acceptWord "using" then
      let _ ← columnName
    else if ← both (!hasOptions && path.length == 1) (acceptWord "on") then
      let _ ← relationPath r
  return .other "ClusterStmt"

/-- The rest of a statement after the word `REINDEX`. -/
def reindexing (r : Rules) : Reader Statement := do
  if ← atSymbol "(" then commandOptions
  let kind ← oneOf ["index", "table", "schema", "system", "database"]
  let _ ← acceptWord "concurrently"
  match kind with
  | "index" | "table" =>
    let _ ← relationPath r
  | "schema" =>
    let _ ← columnName
  | _ =>
    if ← isColumnNameAhead 0 then
      let _ ← columnName
  return .other "ReindexStmt"

/-! ### Labels -/

/-- The kinds of objects that can have a label for security. -/
def labeledKinds : List (List String × Naming) :=
  (["column"], .path) :: (objectKinds.filter fun (_, _, naming) =>
    [Naming.path, .name, .type, .routine, .aggregate, .number].contains naming).map
      fun (ws, _, naming) => (ws, naming)

/-- The rest of a statement after the word `SECURITY`. -/
def securityLabel (r : Rules) : Reader Statement := do
  word "label"
  if ← acceptWord "for" then
    let _ ← nameOrText
  word "on"
  let _ ← objectName r (← entry labeledKinds)
  word "is"
  unless ← acceptWord "null" do
    let _ ← text
  return .other "SecLabelStmt"

end SchemaScript.Sql.Reader
