import SchemaScript.Sql.Grammar.Attached
import SchemaScript.Sql.Grammar.Operator
import SchemaScript.Sql.Grammar.Foreign
import SchemaScript.Sql.Grammar.Role

/-!
# Reading changes to other objects

Changes that a catalog does not keep up with. Most objects can get a new name, owner or schema; some
have changes of their own.
-/

namespace SchemaScript.Sql.Reader

/-- Changes to an object: the first of some that is in front, or what `other` reads. -/
def changeOf (object : Reader Unit) (changes : List (Reader (Option Statement)))
    (other : Reader Statement) : Reader Statement := do
  object
  match ← firstOf changes with
  | some statement => return statement
  | none => other

/-! ## Domains -/

/-- A new constraint of a domain. -/
def domainConstraint (r : Rules) : Reader Unit := do
  let _ ← afterWord "constraint" columnName
  match ← oneOf ["check", "not"] with
  | "check" =>
    let _ ← parenthesized r.expression
    let _ ← propertiesOf "CHECK" [.notValid, .noInherit]
  | _ =>
    word "null"
    let _ ← propertiesOf "NOT NULL" []

def domainChange (r : Rules) : Reader Statement := do
  match ← oneOf ["set", "drop", "add", "validate"] with
  | "set" =>
    match ← oneOf ["default", "not"] with
    | "default" =>
      let _ ← r.expression
    | _ => word "null"
  | "drop" =>
    match ← oneOf ["default", "not", "constraint"] with
    | "not" => word "null"
    | "constraint" =>
      let _ ← ifExists
      let _ ← columnName
      dropBehavior
    | _ => pure ()
  | "add" => domainConstraint r
  | _ =>
    word "constraint"
    let _ ← columnName
  return .other "AlterDomainStmt"

/-! ## Routines -/

/-- Another schema of a routine. A setting can have the same word for its name. -/
def routineSchema : Reader (Option Statement) := do
  if ← isColumnNameAhead 2 then newSchema else return none

def routineChange : Reader Statement := do
  if (← many commonOption).isEmpty then refuse
  let _ ← acceptWord "restrict"
  return .other "AlterFunctionStmt"

/-! ## Extensions -/

/-- What can belong to an extension. -/
def extensionMembers : List (List String × Naming) :=
  (objectKinds.filter fun (_, _, naming) => naming != .onTable && naming != .number).map
    fun (ws, _, naming) => (ws, naming)

def extensionUpdate (r : Rules) : Reader Statement := do
  match ← oneOf ["update", "add", "drop"] with
  | "update" =>
    let _ ← many do
      if ← acceptWord "to" then return some (← nameOrText) else return none
    return .other "AlterExtensionStmt"
  | _ =>
    let _ ← objectName r (← entry extensionMembers)
    return .other "AlterExtensionContentsStmt"

/-! ## Other objects -/

def operatorChange (r : Rules) : Reader Statement := do
  word "set"
  definition r
  return .other "AlterOperatorStmt"

def collationChange : Reader Statement := do
  words ["refresh", "version"]
  return .other "AlterCollationStmt"

/-- When an event has the trigger act. -/
def eventTriggerChange : Reader Statement := do
  if (← oneOf ["enable", "disable"]) == "enable" then
    let _ ← acceptAny ["replica", "always"]
  return .other "AlterEventTrigStmt"

def statisticsChange : Reader Statement := do
  let _ ← statisticsTarget
  return .other "AlterStatsStmt"

def tablespaceChange (r : Rules) : Reader Statement := do
  let _ ← oneOf ["set", "reset"]
  settings r
  return .other "AlterTableSpaceOptionsStmt"

/-- A change to a policy, or its new name. -/
def alterPolicy (r : Rules) : Reader Statement := do
  let mayMiss ← ifExists
  let _ ← columnName
  word "on"
  let _ ← relationPath r
  if let some statement ← newName .nothing then return statement
  if mayMiss then refuse
  let _ ← policyRoles
  let _ ← policyConditions r
  return .other "AlterPolicyStmt"

/-- A name on a table. -/
def nameOnTable (r : Rules) : Reader Unit := do
  let _ ← columnName
  word "on"
  let _ ← relationPath r

def alterStatistics : Reader Statement := do
  let mayMiss ← ifExists
  let _ ← anyName
  unless mayMiss do
    if let some statement ← firstOf [newName .nothing, newOwner, newSchema] then return statement
  statisticsChange

/-- Changes to objects, by the words for what they are. -/
def objectChanges (r : Rules) : List (List String × Reader Statement) :=
  let object (naming : Naming) : Reader Unit := do
    let _ ← objectName r naming
  let name := newName .nothing
  let routine := changeOf (object .routine) [name, newOwner, routineSchema, extensionChange]
    routineChange
  let whole (naming : Naming) (other : Reader Statement) : Reader Statement :=
    changeOf (object naming) [name, newOwner, onlyNewSchema] other
  let unowned (naming : Naming) : Reader Statement :=
    changeOf (object naming) [name, onlyNewSchema] refuse
  let owned (other : Reader Statement) : Reader Statement :=
    changeOf (object .name) [name, newOwner] other
  [(["default", "privileges"], defaultPrivileges), (["function"], routine),
   (["procedure"], routine), (["routine"], routine), (["aggregate"], whole .aggregate refuse),
   (["domain"], changeOf (object .path) [newName .constraints, newOwner, newSchema]
      (domainChange r)),
   (["extension"], changeOf (object .name) [onlyNewSchema] (extensionUpdate r)),
   (["schema"], owned refuse), (["database"], alterDatabase),
   (["operator", "class"], whole .operatorGroup refuse),
   (["operator", "family"], whole .operatorGroup (familyChange r)),
   (["operator"], changeOf (object .operator) [newOwner, newSchema] (operatorChange r)),
   (["collation"], whole .path collationChange), (["conversion"], whole .path refuse),
   (["server"], owned serverChange), (["foreign", "data", "wrapper"], owned wrapperChange),
   (["event", "trigger"], owned eventTriggerChange),
   (["publication"], owned (publicationChange r)),
   (["subscription"], owned (subscriptionChange r)), (["statistics"], alterStatistics),
   (["tablespace"], owned (tablespaceChange r)), (["rule"], changeOf (nameOnTable r) [name] refuse),
   (["procedural", "language"], owned refuse), (["language"], owned refuse),
   (["text", "search", "configuration"], whole .path searchConfigurationChange),
   (["text", "search", "dictionary"], whole .path (searchDictionaryChange r)),
   (["text", "search", "parser"], unowned .path), (["text", "search", "template"], unowned .path),
   (["large", "object"], changeOf (object .number) [newOwner] refuse), (["policy"], alterPolicy r),
   (["trigger"], changeOf (nameOnTable r) [name, extensionChange] refuse), (["role"], alterRole),
   (["group"], alterGroup), (["user"], alterRole), (["system"], alterSystem)]

/-- The rest of a statement that changes an object of another kind. -/
def otherChange (r : Rules) : Reader Statement := do
  if ← both ((← ahead 2) == some (.word "for")) (acceptWords ["user", "mapping"]) then
    return ← alterUserMapping
  let change ← entry (objectChanges r)
  change

end SchemaScript.Sql.Reader
