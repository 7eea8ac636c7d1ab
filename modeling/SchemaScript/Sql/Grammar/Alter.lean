import SchemaScript.Sql.Grammar.Object

/-!
# Reading changes to relations

Tables and what is like them are changed by lists of commands. Those without a part in a catalog leave
only a label.
-/

namespace SchemaScript.Sql.Reader

/-! ## Changes to columns -/

/-- A new type for a column, after the word `TYPE`. -/
def newType (r : Rules) : Reader String := do
  let _ ← type r
  if ← acceptWord "collate" then
    let _ ← anyName
  if ← acceptWord "using" then
    let _ ← r.expression
  return "AT_AlterColumnType"

/-- When the values of a column are generated. -/
def generatedWhen : Reader Unit := do
  unless ← acceptWord "always" do words ["by", "default"]

/-- Changes to the sequence behind a column. -/
def identityChanges (r : Rules) : Reader String := do
  let change : Reader (Option Unit) := do
    if ← acceptWord "restart" then
      let isGiven ← acceptWith
      if isGiven || (← atNumber) then
        let _ ← number
      return some ()
    unless ← acceptWord "set" do return none
    if ← acceptWord "generated" then
      generatedWhen
      return some ()
    let at? ← place
    let unsupported (name : String) : Reader (Option Unit) :=
      lateBreach ("sequence option \"" ++ name ++ "\" not supported here") at?
    match ← front, ← sequenceOption r with
    | some (.word "as"), _ => unsupported "as"
    | some (.word "restart"), _ => unsupported "restart"
    | some (.word "owned"), _ => unsupported "owned_by"
    | _, some _ => return some ()
    | _, none => refuse
  let _ ← many change
  return "AT_SetIdentity"

/-- A change that takes something from a column, after the word `DROP`. -/
def columnRemoval : Reader String := do
  match ← oneOf ["default", "not", "expression", "identity"] with
  | "default" => return "AT_ColumnDefault"
  | "not" =>
    word "null"
    return "AT_DropNotNull"
  | "expression" =>
    let _ ← plainIfExists
    return "AT_DropExpression"
  | _ =>
    let _ ← plainIfExists
    return "AT_DropIdentity"

def statisticsTarget : Reader String := do
  words ["set", "statistics"]
  unless ← acceptWord "default" do signedInteger
  return "AT_SetStatistics"

/-- A name, or the word for the one that is chosen without it. -/
def nameOrDefault : Reader Unit := do
  unless ← acceptWord "default" do
    let _ ← columnName

/-- A change that sets something of a column. -/
def columnSetting (r : Rules) : Reader String := do
  if (← ahead 1) == some (.symbol "(") then
    word "set"
    settings r
    return "AT_SetOptions"
  let some (.word w) ← ahead 1 | do
    word "set"
    refuse
  if w == "statistics" then return ← statisticsTarget
  unless ["default", "not", "expression", "storage", "compression", "data"].contains w do
    return ← identityChanges r
  words ["set", w]
  match w with
  | "default" =>
    let _ ← r.expression
    return "AT_ColumnDefault"
  | "not" =>
    word "null"
    return "AT_SetNotNull"
  | "expression" =>
    word "as"
    let _ ← parenthesized r.expression
    return "AT_SetExpression"
  | "storage" =>
    nameOrDefault
    return "AT_SetStorage"
  | "compression" =>
    nameOrDefault
    return "AT_SetCompression"
  | _ =>
    word "type"
    newType r

/-- The label of a change to a column, after its name. -/
def columnChange (r : Rules) : Reader String := do
  if ← atWord "set" then return ← columnSetting r
  if ← atWord "restart" then return ← identityChanges r
  match ← oneOf ["drop", "reset", "type", "add", "options"] with
  | "drop" => columnRemoval
  | "reset" =>
    settings r
    return "AT_ResetOptions"
  | "type" => newType r
  | "add" =>
    word "generated"
    generatedWhen
    words ["as", "identity"]
    if ← acceptSymbol "(" then
      if (← sequenceOptions r).isEmpty then refuse
      symbol ")"
    return "AT_AddIdentity"
  | _ =>
    foreignOptionChanges
    return "AT_AlterColumnGenericOptions"

/-! ## Changes to tables -/

/-- The label of switching triggers and rules on or off. -/
def switchLabel (isOn : Bool) : Reader String := do
  let front := if isOn then "AT_Enable" else "AT_Disable"
  let mode ← if isOn then acceptAny ["always", "replica"] else pure none
  let kind ← oneOf ["rule", "trigger"]
  if kind == "trigger" && mode.isNone then
    match ← acceptAny ["all", "user"] with
    | some "all" => return front ++ "TrigAll"
    | some _ => return front ++ "TrigUser"
    | none => pure ()
  let _ ← columnName
  let mode := (mode.map fun w => if w == "always" then "Always" else "Replica").getD ""
  return front ++ mode ++ (if kind == "rule" then "Rule" else "Trig")

/-- A change that sets something of the table itself, after the word `SET`. -/
def tableSetting (r : Rules) : Reader String := do
  if ← atSymbol "(" then
    settings r
    return "AT_SetRelOptions"
  match ← oneOf ["without", "logged", "unlogged", "access", "tablespace"] with
  | "without" =>
    return if (← oneOf ["oids", "cluster"]) == "oids" then "AT_DropOids" else "AT_DropCluster"
  | "logged" => return "AT_SetLogged"
  | "unlogged" => return "AT_SetUnLogged"
  | "access" =>
    word "method"
    nameOrDefault
    return "AT_SetAccessMethod"
  | _ =>
    let _ ← columnName
    return "AT_SetTableSpace"

/-- How an old row is known to a copy of the table. -/
def replicaIdentity : Reader Unit := do
  word "identity"
  if (← oneOf ["nothing", "full", "default", "using"]) == "using" then
    word "index"
    let _ ← columnName

/-- A change to a column or a constraint, after the word `ALTER`. -/
def partChange (r : Rules) : Reader String := do
  if ← acceptWord "constraint" then
    let _ ← columnName
    unless ← acceptWord "inherit" do
      let at? ← place
      let all ← properties
      if all.contains .notValid then
        lateBreach "constraints cannot be altered to be NOT VALID" at?
    return "AT_AlterConstraint"
  let _ ← acceptWord "column"
  let at? ← place
  match ← front with
  | some (.integer n) =>
    skip
    let label ← statisticsTarget
    unless 0 < n && n < 32768 do breach "column number must be in range from 1 to 32767" at?
    return label
  | _ =>
    let _ ← columnName
    columnChange r

/-- A change that takes a column or a constraint away, after the word `DROP`. -/
def partRemoval : Reader String := do
  let isConstraint ← acceptWord "constraint"
  unless isConstraint do
    let _ ← acceptWord "column"
  let _ ← ifExists
  let _ ← columnName
  dropBehavior
  return if isConstraint then "AT_DropConstraint" else "AT_DropColumn"

/-- The label of a change that plays no part in a catalog, after its first word. -/
def changeLabel (r : Rules) (w : String) : Reader String := do
  match w with
  | "alter" => partChange r
  | "drop" => partRemoval
  | "validate" =>
    word "constraint"
    let _ ← columnName
    return "AT_ValidateConstraint"
  | "cluster" =>
    word "on"
    let _ ← columnName
    return "AT_ClusterOn"
  | "enable" => switchLabel true
  | "disable" => switchLabel false
  | "inherit" =>
    let _ ← relationPath r
    return "AT_AddInherit"
  | "of" =>
    let _ ← anyName
    return "AT_AddOf"
  | "owner" =>
    word "to"
    let _ ← role
    return "AT_ChangeOwner"
  | "reset" =>
    settings r
    return "AT_ResetRelOptions"
  | "replica" =>
    replicaIdentity
    return "AT_ReplicaIdentity"
  | "options" =>
    foreignOptionChanges
    return "AT_GenericOptions"
  | "force" =>
    words ["row", "level", "security"]
    return "AT_ForceRowSecurity"
  | "set" => tableSetting r
  | "not" =>
    word "of"
    return "AT_DropOf"
  | _ =>
    if ← acceptWord "inherit" then
      let _ ← relationPath r
      return "AT_DropInherit"
    words ["force", "row", "level", "security"]
    return "AT_NoForceRowSecurity"

def addedColumn (r : Rules) : Reader AlterCommand := do
  let _ ← acceptWord "column"
  let _ ← ifNotExists
  let _ ← columnDefinition r
  return .other "AT_AddColumn"

def alterCommand (r : Rules) : Reader AlterCommand := do
  if ← acceptWord "add" then
    if ← atConstraint then return .addConstraint (← tableConstraint r)
    return ← addedColumn r
  if ← acceptWords ["enable", "row"] then
    words ["level", "security"]
    return .rowSecurity true
  if ← acceptWords ["disable", "row"] then
    words ["level", "security"]
    return .rowSecurity false
  match ← acceptAny ["alter", "drop", "validate", "cluster", "enable", "disable", "inherit", "of",
    "owner", "reset", "replica", "options", "force", "set", "not", "no"] with
  | none => refuse
  | some w => return .other (← changeLabel r w)

/-- A change to the partitions of a table, which stands alone. -/
def partitionChange (r : Rules) : Reader (Option AlterCommand) := do
  if ← acceptWord "attach" then
    word "partition"
    let child ← relationName r
    return some (.attachPartition child (← partitionBound r))
  if ← acceptWord "detach" then
    word "partition"
    let _ ← relationPath r
    match ← acceptAny ["concurrently", "finalize"] with
    | some "finalize" => return some (.other "AT_DetachPartitionFinalize")
    | _ => return some (.other "AT_DetachPartition")
  return none

/-! ## Statements -/

/-- What of a relation can have another name besides itself. -/
inductive Renamed
  | nothing
  | columns
  | constraints
  | columnsAndConstraints
  deriving DecidableEq

/-- A new name, if the word `RENAME` is in front. -/
def newName (inside : Renamed) : Reader (Option Statement) := do
  unless ← acceptWord "rename" do return none
  let hasConstraints := inside == .constraints || inside == .columnsAndConstraints
  let hasColumns := inside == .columns || inside == .columnsAndConstraints
  if ← both hasConstraints (acceptWord "constraint") then
    let _ ← columnName
  else if hasColumns && !(← atWord "to") then
    let _ ← acceptWord "column"
    let _ ← columnName
  word "to"
  let _ ← columnName
  return some (.other "RenameStmt")

/-- Another schema, if it is set. Other things can be set as well. -/
def newSchema : Reader (Option Statement) := do
  unless ← acceptWords ["set", "schema"] do return none
  let _ ← columnName
  return some (.other "AlterObjectSchemaStmt")

/-- Another schema of an object of which nothing else can be set. -/
def onlyNewSchema : Reader (Option Statement) := do
  if (← ahead 1) != some (.word "schema") then
    if ← acceptWord "set" then refuse
  newSchema

/-- Another owner, if it is given. -/
def newOwner : Reader (Option Statement) := do
  unless ← acceptPhrase ["owner", "to"] do return none
  let _ ← role
  return some (.other "AlterOwnerStmt")

/-- Whether an extension owns what is changed, if that is said. -/
def extensionChange : Reader (Option Statement) := do
  unless (← atWord "depends") || (← atWords ["no", "depends"]) do return none
  let _ ← acceptWord "no"
  words ["depends", "on", "extension"]
  let _ ← columnName
  return some (.other "AlterObjectDependsStmt")

/-- The first of these changes that is in front. -/
def firstOf : List (Reader (Option Statement)) → Reader (Option Statement)
  | [] => return none
  | change :: changes => do
    match ← change with
    | some statement => return some statement
    | none => firstOf changes

/-- Moves all relations of one place to another. -/
def moveAll : Reader (Option Statement) := do
  unless ← acceptWord "all" do return none
  words ["in", "tablespace"]
  let _ ← columnName
  if ← acceptPhrase ["owned", "by"] then
    let _ ← list role
  words ["set", "tablespace"]
  let _ ← columnName
  let _ ← acceptWord "nowait"
  return some (.other "AlterTableMoveAllStmt")

/-- The rest of a statement that changes a table. -/
def alterTable (r : Rules) : Reader Statement := do
  if let some statement ← moveAll then return statement
  let _ ← ifExists
  let relation ← openRelation r
  if let some statement ← firstOf [newName .columnsAndConstraints, newSchema] then return statement
  match ← partitionChange r with
  | some command => return .alterTable relation [command]
  | none => return .alterTable relation (← list (alterCommand r))

def alterForeignTable (r : Rules) : Reader Statement := do
  let _ ← ifExists
  let relation ← openRelation r
  if let some statement ← firstOf [newName .columns, newSchema] then return statement
  return .alterTable relation (← list (alterCommand r))

def alterView (r : Rules) : Reader Statement := do
  let _ ← ifExists
  let relation ← relationName r
  if let some statement ← firstOf [newName .columns, newSchema] then return statement
  return .alterTable relation (← list (alterCommand r))

def alterMaterializedView (r : Rules) : Reader Statement := do
  if let some statement ← moveAll then return statement
  let mayMiss ← ifExists
  let relation ← relationName r
  if let some statement ← firstOf [newName .columns, newSchema] then return statement
  unless mayMiss do
    if let some statement ← extensionChange then return statement
  return .alterTable relation (← list (alterCommand r))

def alterIndex (r : Rules) : Reader Statement := do
  if let some statement ← moveAll then return statement
  let mayMiss ← ifExists
  let relation ← relationName r
  if let some statement ← newName .nothing then return statement
  unless mayMiss do
    if let some statement ← extensionChange then return statement
    if ← acceptWord "attach" then
      word "partition"
      return .alterIndex relation [.attachPartition (← relationName r) ""]
  return .alterIndex relation (← list (alterCommand r))

/-- The rest of a statement that changes a sequence. Some changes are those of any relation. -/
def alterSequence (r : Rules) : Reader Statement := do
  let _ ← ifExists
  let relation ← relationName r
  if let some statement ← firstOf [newName .nothing, newSchema] then return statement
  let isOther := (← atWords ["no", "inherit"]) || (← atWords ["no", "force"])
  let options ← if isOther then pure [] else sequenceOptions r
  if options.isEmpty then return .alterTable relation (← list (alterCommand r))
  return .other "AlterSeqStmt"

/-! ## Types -/

/-- A change to the members of a composite type. -/
def memberChange (r : Rules) : Reader AlterCommand := do
  match ← oneOf ["add", "drop", "alter"] with
  | "add" =>
    word "attribute"
    let _ ← compositeMember r
    dropBehavior
    return .other "AT_AddColumn"
  | "drop" =>
    word "attribute"
    let _ ← ifExists
    let _ ← columnName
    dropBehavior
    return .other "AT_DropColumn"
  | _ =>
    word "attribute"
    let _ ← columnName
    if ← acceptWord "set" then word "data"
    word "type"
    let _ ← type r
    if ← acceptWord "collate" then
      let _ ← anyName
    dropBehavior
    return .other "AT_AlterColumnType"

/-- A change to the labels of an enumeration. -/
def labelChange : Reader (Option Statement) := do
  let at? ← place
  if ← acceptWords ["add", "value"] then
    let _ ← plainIfNotExists
    let _ ← text
    if (← acceptAny ["before", "after"]).isSome then
      let _ ← text
    return some (.other "AlterEnumStmt")
  if ← acceptWords ["rename", "value"] then
    let _ ← text
    word "to"
    let _ ← text
    return some (.other "AlterEnumStmt")
  if ← acceptWords ["drop", "value"] then
    let _ ← text
    breach "dropping an enum value is not implemented" at?
  return none

def alterType (r : Rules) : Reader Statement := do
  let at? ← place
  let path ← anyName
  if let some statement ← labelChange then return statement
  if ← acceptWords ["rename", "attribute"] then
    let _ ← columnName
    word "to"
    let _ ← columnName
    dropBehavior
    return .other "RenameStmt"
  if let some statement ← firstOf [newName .nothing, newOwner, newSchema] then return statement
  if ← acceptWord "set" then
    definition r
    return .other "AlterTypeStmt"
  let commands ← list (memberChange r)
  if path.length > 3 then
    lateBreach ("improper qualified name (too many dotted names): " ++ ".".intercalate path) at?
  return .alterTable (.ofPath path) commands

end SchemaScript.Sql.Reader
