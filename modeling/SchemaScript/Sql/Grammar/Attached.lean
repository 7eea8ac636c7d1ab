import SchemaScript.Sql.Grammar.Alter

/-!
# Reading indexes, triggers, policies and comments
-/

namespace SchemaScript.Sql.Reader

/-! ## Indexes -/

def createIndex (r : Rules) (isUnique : Bool) : Reader Statement := do
  let isConcurrent ← acceptWord "concurrently"
  let name ←
    if !(← ifNotExists) && (← atWord "on") then pure none
    else some <$> columnName
  word "on"
  let table ← openRelation r
  let method ← if ← acceptWord "using" then columnName else pure "btree"
  let elements ← parenthesized (list (indexElement r))
  if ← acceptWord "include" then
    let _ ← parenthesized (list (indexElement r))
  nullsDistinct
  storageOptions r
  tablespace
  let predicate ← afterWord "where" r.expression
  return .createIndex {
    name, table, method, elements, isUnique, isConcurrent
    predicate := predicate.map (·.wholeText) }

/-! ## Triggers -/

def triggerEvent : Reader Event := do
  match ← oneOf ["insert", "delete", "update", "truncate"] with
  | "insert" => return .insert
  | "delete" => return .delete
  | "update" => return .update
  | _ => return .truncate

/-- The columns whose updates count. -/
def updatedColumns : Reader Unit := do
  if ← acceptWord "of" then
    let _ ← list columnName

/-- The events of a trigger, each given once. That an update is given again is seen only at what
follows it, since columns can. -/
def triggerEvents : Reader (List Event) := do
  let next (found : List Event) : Reader (List Event) := do
    let start ← get
    let event ← triggerEvent
    if event == .update then updatedColumns
    if found.contains event then
      if event == .update then breachHere duplicate else throw (ruleFlawAt duplicate start)
    return event :: found
  let first ← next []
  let events ← repeated (fun found => do
    if ← acceptWord "or" then return some (← next found) else return none) first
  return Event.all.filter events.contains
where
  duplicate := "duplicate trigger events specified"

/-- The tables of changed rows that a trigger can look into. -/
def transitionTables : Reader Unit := do
  if ← acceptWord "referencing" then
    let tables ← many do
      if (← acceptAny ["old", "new"]).isNone then return none
      let _ ← oneOf ["table", "row"]
      let _ ← acceptWord "as"
      return some (← columnName)
    if tables.isEmpty then refuse

/-- An argument of a trigger, as the text that the trigger gets. -/
def triggerArgument : Reader String := do
  match ← front with
  | some (.integer n) =>
    skip
    return Text.writeNatural n
  | some (.number written) =>
    skip
    return written
  | some (.text value) =>
    skip
    return value
  | _ => label

/-- The arguments of a trigger; the first of several can be left out. -/
def triggerArguments : Reader (List String) := do
  let first ← if (← atSymbol ")") || (← atSymbol ",") then pure [] else pure [← triggerArgument]
  let rest ← many do
    if ← acceptSymbol "," then return some (← triggerArgument) else return none
  return first ++ rest

structure TriggerCall where
  condition : Option String
  function : List String
  arguments : List String

/-- When a trigger acts, and what it calls. -/
def triggerCall (r : Rules) : Reader TriggerCall := do
  let condition ← afterWord "when" (parenthesized r.expression)
  word "execute"
  unless ← acceptWord "function" do word "procedure"
  let function ← routinePath r
  let arguments ← parenthesized triggerArguments
  return { condition := condition.map (·.wholeText), function, arguments }

/-- A trigger that acts like a constraint. It replaces no other one; if it is said to, that is a fault
of the statement that begins at `replacingAt?`. -/
def createConstraintTrigger (r : Rules) (replacingAt? : Option (Option Nat)) : Reader Statement := do
  let name ← columnName
  word "after"
  let events ← triggerEvents
  word "on"
  let table ← relationName r
  if ← acceptWord "from" then
    let _ ← relationPath r
  let propertiesAt? ← place
  let all ← properties
  words ["for", "each", "row"]
  let call ← triggerCall r
  if let some at? := replacingAt? then
    breach "CREATE OR REPLACE CONSTRAINT TRIGGER is not supported" at?
  if let some text := Property.fault? "TRIGGER" [.deferrable] all then breach text propertiesAt?
  return .createTrigger {
    name, table, events
    timing := .after
    granularity := .row
    function := call.function
    arguments := call.arguments
    condition := call.condition }

def createTrigger (r : Rules) : Reader Statement := do
  let name ← columnName
  let timing ←
    match ← oneOf ["before", "after", "instead"] with
    | "before" => pure Timing.before
    | "after" => pure .after
    | _ =>
      word "of"
      pure .insteadOf
  let events ← triggerEvents
  word "on"
  let table ← relationName r
  transitionTables
  let granularity ←
    if ← acceptWord "for" then
      let _ ← acceptWord "each"
      if ← acceptWord "row" then pure Granularity.row
      else
        word "statement"
        pure .statement
    else pure .statement
  let call ← triggerCall r
  return .createTrigger {
    name, table, timing, events, granularity
    function := call.function
    arguments := call.arguments
    condition := call.condition }

/-! ## Policies -/

def policyCommand : Reader PolicyCommand := do
  match ← oneOf ["all", "select", "insert", "update", "delete"] with
  | "all" => return .all
  | "select" => return .select
  | "insert" => return .insert
  | "update" => return .update
  | _ => return .delete

/-- Whether a policy admits rows or holds them back. -/
def policyEffect : Reader Bool := do
  unless ← acceptWord "as" do return true
  let at? ← place
  match ← ownWord with
  | "permissive" => return true
  | "restrictive" => return false
  | other => breach ("unrecognized row security option \"" ++ other ++ "\"") at?

/-- The roles that a policy is about. -/
def policyRoles : Reader (List String) := do
  unless ← acceptWord "to" do return ["PUBLIC"]
  return (← list role).map (·.2)

/-- The rows that a policy shows, and those that it lets be written. -/
def policyConditions (r : Rules) : Reader (Option String × Option String) := do
  let visible ← afterWord "using" (parenthesized r.expression)
  let allowed ←
    if ← acceptPhrase ["with", "check"] then some <$> parenthesized r.expression else pure none
  return (visible.map (·.wholeText), allowed.map (·.wholeText))

def createPolicy (r : Rules) : Reader Statement := do
  let name ← columnName
  word "on"
  let table ← relationName r
  let permissive ← policyEffect
  let command ← if ← acceptWord "for" then policyCommand else pure .all
  let roles ← policyRoles
  let (visible, allowed) ← policyConditions r
  return .createPolicy { name, table, command, permissive, roles, visible, allowed }

/-! ## Comments -/

def commentText : Reader (Option String) := do
  word "is"
  if ← acceptWord "null" then return none
  return some (← text)

/-- The kinds of objects whose comments a catalog keeps. -/
def commentedKinds : List (List String × CommentKind × Naming) :=
  [(["extension"], .extension, .name), (["table"], .table, .path), (["view"], .view, .path),
   (["materialized", "view"], .materializedView, .path), (["sequence"], .sequence, .path),
   (["index"], .index, .path), (["column"], .column, .path), (["type"], .type, .type),
   (["domain"], .domain, .type), (["function"], .function, .routine),
   (["procedure"], .procedure, .routine), (["aggregate"], .aggregate, .aggregate),
   (["trigger"], .trigger, .onTable)]

/-- A comment on a constraint of a table or of a domain. -/
def constraintComment : Reader Statement := do
  let name ← columnName
  word "on"
  let isDomain := (← atWord "domain") && (← isColumnNameAhead 1)
  if isDomain then skip
  let path ← anyName
  let text ← commentText
  return if isDomain then .otherComment "OBJECT_DOMCONSTRAINT"
    else .comment .constraint (path ++ [name]) text

def commentStatement (r : Rules) : Reader Statement := do
  if ← acceptWord "constraint" then return ← constraintComment
  if let some (kind, naming) ← acceptEntry commentedKinds then
    let path ← objectName r naming
    return .comment kind path (← commentText)
  let (label, naming) ← entry objectKinds
  let _ ← objectName r naming
  let _ ← commentText
  return .otherComment label

end SchemaScript.Sql.Reader
