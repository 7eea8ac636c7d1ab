import SchemaScript.Sql.Grammar.Attached
import SchemaScript.Sql.Grammar.Change
import SchemaScript.Sql.Grammar.Foreign
import SchemaScript.Sql.Grammar.Role
import SchemaScript.Sql.Grammar.Session

/-!
# Reading schemas, removals and what is left

Schemas with their objects, removals, rules, statistics, and whatever else has no family of its own.
-/

/-!
## Reading schemas

A schema can be created with some of its objects, which a catalog passes over.
-/

namespace SchemaScript.Sql.Reader

/-- The creation of a view, possibly a recursive one, if one is in front. -/
def viewCreation (r : Rules) : Reader (Option Statement) := do
  if ← acceptWord "view" then return some (← createView r false)
  if ← acceptPhrase ["recursive", "view"] then return some (← createView r true)
  return none

/-- The creation of a trigger, if one is in front; if it may replace another one, the place of the
statement is given. -/
def triggerCreation (r : Rules) (replacingAt? : Option (Option Nat)) :
    Reader (Option Statement) := do
  if ← acceptWord "trigger" then return some (← createTrigger r)
  if ← acceptPhrase ["constraint", "trigger"] then
    return some (← createConstraintTrigger r replacingAt?)
  return none

/-- An object that is created inside of a schema, after the word `CREATE`. -/
def elementCreation (r : Rules) (at? : Option Nat) : Reader Statement := do
  let isReplacing ← acceptPhrase ["or", "replace"]
  let persistence ← persistence
  if let some statement ← viewCreation r then return statement
  if persistence.isNone then
    let replacingAt? := if isReplacing then some at? else none
    if let some statement ← triggerCreation r replacingAt? then return statement
  if isReplacing then refuse
  if persistence.isNone then
    if ← acceptWord "index" then return ← createIndex r false
    if ← acceptPhrase ["unique", "index"] then return ← createIndex r true
  match ← oneOf ["table", "sequence"] with
  | "table" => createTable r (persistence == some true) true
  | _ => createSequence r

/-- An element of a schema, if one is in front. -/
def schemaElement (r : Rules) : Reader (Option Statement) := do
  let at? ← place
  if ← acceptWord "create" then return some (← elementCreation r at?)
  unless ← acceptWord "grant" do return none
  let _ ← privileges
  return some (← objectGrant r)

def createSchema (r : Rules) : Reader Statement := do
  let mayExist ← ifNotExists
  let name ← if ← atWord "authorization" then pure none else some <$> columnName
  let owner ← afterWord "authorization" role
  let at? ← place
  let elements ← many (schemaElement r)
  if mayExist && !elements.isEmpty then
    lateBreach "CREATE SCHEMA IF NOT EXISTS cannot include schema elements" at?
  return .createSchema name (owner.bind (·.1))

/-!
## Reading removals

Statements that drop objects, users or databases.
-/

/-- Roles by the word for them. -/
def droppedRoles : Reader Statement := do
  let _ ← ifExists
  let _ ← list role
  return .other "DropRoleStmt"

def droppedDatabase : Reader Statement := do
  let _ ← ifExists
  let _ ← columnName
  if ← either (← acceptWith) (atSymbol "(") then
    let _ ← parenthesized (list (word "force"))
  return .other "DropdbStmt"

def droppedOwned : Reader Statement := do
  word "by"
  let _ ← list role
  dropBehavior
  return .other "DropOwnedStmt"

/-- Objects of a kind; some kinds take only one at a time. -/
def droppedObjects (r : Rules) (naming : Naming) : Reader Statement := do
  let isNamed := naming != .cast && naming != .transform
  let _ ← if isNamed then ifExists else plainIfExists
  match naming with
  | .onTable | .operatorGroup | .cast | .transform =>
    let _ ← objectName r naming
  | .path | .name | .type | .routine | .aggregate | .operator | .number =>
    let _ ← list (objectName r naming)
  dropBehavior
  return .other "DropStmt"

/-- Removals that differ from those of most objects, by the words that name what is dropped. -/
def specialRemovals : List (List String × Reader Statement) :=
  [(["role"], droppedRoles), (["group"], droppedRoles), (["user"], droppedRoles),
   (["database"], droppedDatabase), (["owned"], droppedOwned),
   (["tablespace"], do
      let _ ← ifExists
      let _ ← columnName
      return .other "DropTableSpaceStmt"),
   (["subscription"], do
      let _ ← ifExists
      let _ ← columnName
      dropBehavior
      return .other "DropSubscriptionStmt")]

/-- The rest of a statement that drops something. -/
def dropped (r : Rules) : Reader Statement := do
  let isMapping := (← ahead 2) == some (.word "for") || (← ahead 2) == some (.word "if")
  if ← both isMapping (acceptWords ["user", "mapping"]) then return ← dropUserMapping
  if let some removal ← acceptEntry specialRemovals then return ← removal
  let isIndex ← atWord "index"
  let (_, naming) ← entry (objectKinds.filter (·.1 != ["large", "object"]))
  if isIndex then
    let _ ← acceptWord "concurrently"
  droppedObjects r naming

/-!
## Reading other statements

Rules, triggers on events, statistics and assertions, and the statements that neither create nor
change nor drop an object.
-/

/-! ### Rules -/

/-- What a rule does. -/
def ruleAction (r : Rules) : Reader RowStatement := do
  if ← acceptWord "notify" then
    let _ ← columnName
    if ← acceptSymbol "," then
      let _ ← text
    return { label := "NotifyStmt", text := "" }
  if ← atWord "merge" then refuse
  r.rowStatement

/-- What a rule does besides, behind a semicolon; that can be nothing. -/
def furtherActions (r : Rules) : Reader Unit := do
  let _ ← many do
    unless ← acceptSymbol ";" do return none
    unless (← atSymbol ";") || (← atSymbol ")") do
      let _ ← ruleAction r
    return some ()

/-- A query between parentheses can go on behind them; several actions cannot. -/
def ruleActions (r : Rules) : Reader Unit := do
  if ← acceptWord "nothing" then return
  unless ← acceptSymbol "(" do
    let _ ← ruleAction r
    return
  let first ←
    if (← atSymbol ";") || (← atSymbol ")") then pure none else some <$> ruleAction r
  match first with
  | some { label := "SelectStmt", text } =>
    if ← acceptSymbol ")" then
      let _ ← r.queryAfter { body := text }
      return
  | _ => pure ()
  furtherActions r
  symbol ")"

def createRule (r : Rules) : Reader Statement := do
  let _ ← columnName
  words ["as", "on"]
  let _ ← oneOf ["select", "update", "delete", "insert"]
  word "to"
  let _ ← relationPath r
  if ← acceptWord "where" then
    let _ ← r.expression
  word "do"
  let _ ← acceptAny ["instead", "also"]
  ruleActions r
  return .other "RuleStmt"

/-! ### Events, statistics and assertions -/

/-- A condition on an event. -/
def eventCondition : Reader Unit := do
  let _ ← columnName
  word "in"
  let _ ← parenthesized (list text)

def createEventTrigger (r : Rules) : Reader Statement := do
  let _ ← columnName
  word "on"
  let _ ← label
  if ← acceptWord "when" then
    eventCondition
    let _ ← many do
      if ← acceptWord "and" then return some (← eventCondition) else return none
  word "execute"
  let _ ← oneOf ["function", "procedure"]
  let _ ← routinePath r
  symbol "("
  symbol ")"
  return .other "CreateEventTrigStmt"

/-- Statistics on several columns at once; their name can be left out. -/
def createStatistics (r : Rules) : Reader Statement := do
  let mayExist ← ifNotExists
  if mayExist || (← isColumnNameAhead 0) then
    let _ ← anyName
  let _ ← maybeParenthesized (list columnName)
  word "on"
  let _ ← list (indexKey r)
  word "from"
  let _ ← list (source r)
  return .other "CreateStatsStmt"

/-- An assertion, in a statement that begins at `at?`. -/
def createAssertion (r : Rules) (at? : Option Nat) : Reader Statement := do
  let _ ← anyName
  word "check"
  let _ ← parenthesized r.expression
  let _ ← properties
  lateBreach "CREATE ASSERTION is not yet implemented" at?

/-! ### Creation without a trace in a catalog -/

/-- What can also take the place of an older one, by the words that name it. -/
def replaceableObjects (r : Rules) : List (List String × Reader Statement) :=
  [(["rule"], createRule r), (["transform"], createTransform r),
   (["trusted", "procedural", "language"], createLanguage),
   (["trusted", "language"], createLanguage), (["procedural", "language"], createLanguage),
   (["language"], createLanguage)]

/-- What can be created besides, by the words that name it. -/
def createdObjects (r : Rules) (at? : Option Nat) : List (List String × Reader Statement) :=
  replaceableObjects r ++
  [(["collation"], createCollation r),
   (["text", "search", "parser"], createSearchObject r "OBJECT_TSPARSER"),
   (["text", "search", "dictionary"], createSearchObject r "OBJECT_TSDICTIONARY"),
   (["text", "search", "template"], createSearchObject r "OBJECT_TSTEMPLATE"),
   (["text", "search", "configuration"], createSearchObject r "OBJECT_TSCONFIGURATION"),
   (["cast"], createCast r), (["operator", "class"], createOperatorClass r),
   (["operator", "family"], createOperatorFamily), (["operator"], createOperator r),
   (["foreign", "table"], createForeignTable r),
   (["foreign", "data", "wrapper"], createWrapper), (["server"], createServer),
   (["event", "trigger"], createEventTrigger r), (["role"], createRole), (["user"], createRole),
   (["group"], createRole), (["database"], createDatabase),
   (["tablespace"], createTablespace r), (["default", "conversion"], createConversion),
   (["conversion"], createConversion), (["publication"], createPublication r),
   (["subscription"], createSubscription r), (["statistics"], createStatistics r),
   (["access", "method"], createAccessMethod), (["assertion"], createAssertion r at?)]

/-- The creation of another object, in a statement that begins at `at?`. -/
def otherCreation (r : Rules) (at? : Option Nat) : Reader Statement := do
  let isMapping := (← ahead 2) == some (.word "for") || (← ahead 2) == some (.word "if")
  if ← both isMapping (acceptWords ["user", "mapping"]) then return ← createUserMapping
  let creation ← entry (createdObjects r at?)
  creation

/-! ### The rest -/

/-- The rest of a statement after the word `REASSIGN`. -/
def reassignment : Reader Statement := do
  words ["owned", "by"]
  let _ ← list role
  word "to"
  let _ ← role
  return .other "ReassignOwnedStmt"

/-- Statements by their first word. -/
def otherStatements (r : Rules) : List (List String × Reader Statement) :=
  [(["grant"], grant r), (["revoke"], revoke r), (["reassign"], reassignment),
   (["refresh"], refreshment r), (["copy"], copy r), (["explain"], explanation r),
   (["reindex"], reindexing r), (["security"], securityLabel r),
   (["import", "foreign", "schema"], importSchema r), (["vacuum"], vacuum r),
   (["analyze"], analysis r), (["analyse"], analysis r), (["cluster"], clustering r)] ++
  (sessionStatements r).map fun (w, reader) => ([w], reader)

/-- A statement that neither creates nor changes nor drops. -/
def otherStatement (r : Rules) : Reader Statement := do
  let statement ← entry (otherStatements r)
  statement

end SchemaScript.Sql.Reader
