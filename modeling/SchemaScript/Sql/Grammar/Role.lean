import SchemaScript.Sql.Grammar.Alter
import SchemaScript.Sql.Grammar.Object

/-!
# Reading roles and privileges

Who may do what with which objects.
-/

/-!
## Reading roles and databases

Roles, groups, databases and the places where tables are kept. No catalog keeps them.
-/

namespace SchemaScript.Sql.Reader

/-! ### Roles -/

/-- Stops if a role that has to have a name of its own has none. -/
def checkNamed (role : Option String × String) (at? : Option Nat) : Reader Unit := do
  match role with
  | (some _, _) => pure ()
  | (none, "PUBLIC") => breach "role name \"public\" is reserved" at?
  | (none, w) => breach (w ++ " cannot be used as a role name here") at?

def namedRole : Reader Unit := do
  let at? ← place
  checkNamed (← role) at?

/-- Properties of a role that are no keywords. -/
def roleProperties : List String :=
  ["superuser", "nosuperuser", "createrole", "nocreaterole", "replication", "noreplication",
   "createdb", "nocreatedb", "login", "nologin", "bypassrls", "nobypassrls", "noinherit"]

/-- An option that any role can have, if one is in front. -/
def roleOption : Reader (Option Unit) := do
  let at? ← place
  match ← acceptAny ["password", "encrypted", "unencrypted", "inherit", "connection", "valid",
    "user"] with
  | some "password" =>
    unless ← acceptWord "null" do
      let _ ← text
  | some "encrypted" =>
    word "password"
    let _ ← text
  | some "unencrypted" =>
    word "password"
    let _ ← text
    breach "UNENCRYPTED PASSWORD is no longer supported" at?
  | some "connection" =>
    word "limit"
    signedInteger
  | some "valid" =>
    word "until"
    let _ ← text
  | some "user" =>
    let _ ← list role
  | some _ => pure ()
  | none =>
    let some name := nameOf? (fun w => !isKeyword w) (← front) | return none
    unless roleProperties.contains name do
      breach ("unrecognized role option \"" ++ name ++ "\"") at?
    skip
  return some ()

/-- An option that a new role can have, if one is in front. -/
def newRoleOption : Reader (Option Unit) := do
  match ← acceptAny ["sysid", "admin", "role", "in"] with
  | some "sysid" =>
    let _ ← integer
  | some "in" =>
    let _ ← oneOf ["role", "group"]
    let _ ← list role
  | some _ =>
    let _ ← list role
  | none => return ← roleOption
  return some ()

/-- The rest of a statement that creates a role. -/
def createRole : Reader Statement := do
  namedRole
  let _ ← acceptWith
  let _ ← many newRoleOption
  return .other "CreateRoleStmt"

/-- A setting that is made or set back, if that is in front. -/
def storedSetting : Reader Bool := do
  if ← acceptWord "set" then
    settingOrModes
    return true
  if ← acceptWord "reset" then
    settingReference
    return true
  return false

/-- Settings of a role, possibly for one database only. -/
def roleSetting : Reader (Option Statement) := do
  let isLimited ← acceptPhrase ["in", "database"]
  if isLimited then
    let _ ← columnName
  if ← storedSetting then return some (.other "AlterRoleSetStmt")
  if isLimited then refuse
  return none

/-- A new name of a role, if that is given. -/
def newRoleName (old : Option String × String) (at? : Option Nat) : Reader (Option Statement) := do
  unless ← acceptWord "rename" do return none
  checkNamed old at?
  word "to"
  namedRole
  return some (.other "RenameStmt")

/-- The rest of a statement that changes a role. -/
def alterRole : Reader Statement := do
  if ← acceptWord "all" then
    match ← roleSetting with
    | some statement => return statement
    | none => refuse
  let at? ← place
  let role ← role
  if let some statement ← firstOf [newRoleName role at?, roleSetting] then return statement
  let _ ← acceptWith
  let _ ← many roleOption
  return .other "AlterRoleStmt"

def alterGroup : Reader Statement := do
  let at? ← place
  let group ← role
  if let some statement ← newRoleName group at? then return statement
  let _ ← oneOf ["add", "drop"]
  word "user"
  let _ ← list role
  return .other "AlterRoleStmt"

/-! ### Databases -/

/-- An option of a database, if one is in front. -/
def databaseOption : Reader (Option Unit) := do
  match ← acceptAny ["connection", "encoding", "location", "owner", "tablespace", "template"] with
  | some "connection" => word "limit"
  | some _ => pure ()
  | none =>
    if (nameOf? (fun w => !isKeyword w) (← front)).isNone then return none
    skip
  let _ ← acceptSymbol "="
  unless ← acceptWord "default" do settingValue
  return some ()

def createDatabase : Reader Statement := do
  let _ ← columnName
  let _ ← acceptWith
  let _ ← many databaseOption
  return .other "CreatedbStmt"

/-- Another place for a database, if it is set. -/
def databasePlace : Reader (Option Statement) := do
  unless (← atWords ["set", "tablespace"]) && (← isColumnNameAhead 2) do return none
  words ["set", "tablespace"]
  let _ ← columnName
  return some (.other "AlterDatabaseStmt")

def alterDatabase : Reader Statement := do
  let _ ← columnName
  if let some statement ← newName .nothing then return statement
  if ← atWords ["owner", "to"] then
    if let some statement ← newOwner then return statement
  if let some statement ← databasePlace then return statement
  if ← storedSetting then return .other "AlterDatabaseSetStmt"
  if ← acceptPhrase ["refresh", "collation", "version"] then
    return .other "AlterDatabaseRefreshCollStmt"
  let _ ← acceptWith
  let _ ← many databaseOption
  return .other "AlterDatabaseStmt"

/-- The rest of a statement after the words `ALTER SYSTEM`. -/
def alterSystem : Reader Statement := do
  match ← oneOf ["set", "reset"] with
  | "set" =>
    settingName
    assignedValues
  | _ =>
    unless ← acceptWord "all" do settingName
  return .other "AlterSystemStmt"

/-! ### Places -/

def createTablespace (r : Rules) : Reader Statement := do
  let _ ← columnName
  if ← acceptWord "owner" then
    let _ ← role
  word "location"
  let _ ← text
  storageOptions r
  return .other "CreateTableSpaceStmt"

/-!
## Reading privileges

Privileges on objects, and membership in roles, can be granted and revoked. No catalog keeps them.
-/

/-- A privilege by name, possibly on some columns only. -/
def privilege : Reader Unit := do
  if ← acceptWords ["alter", "system"] then return
  unless (← acceptAny ["select", "references", "create"]).isSome do
    let _ ← columnName
  let _ ← maybeParenthesized (list columnName)

/-- Privileges; those to everything concern objects and no roles. -/
def privileges : Reader Bool := do
  if ← acceptWord "all" then
    let _ ← acceptWord "privileges"
    let _ ← maybeParenthesized (list columnName)
    return false
  let _ ← list privilege
  return true

/-- What privileges are about, by the words that say so. -/
def privilegeKinds (r : Rules) : List (List String × Reader Unit) :=
  let names (item : Reader Unit) : Reader Unit := do
    let _ ← list item
  let object (naming : Naming) : Reader Unit := names do
    let _ ← objectName r naming
  let relation : Reader Unit := names do
    let _ ← relationPath r
  [(["table"], relation), (["sequence"], relation),
   (["foreign", "data", "wrapper"], object .name), (["foreign", "server"], object .name),
   (["function"], object .routine), (["procedure"], object .routine), (["routine"], object .routine),
   (["database"], object .name), (["domain"], object .path), (["language"], object .name),
   (["large", "object"], object .number), (["parameter"], names settingName),
   (["schema"], object .name), (["tablespace"], object .name), (["type"], object .path)]

/-- The words name the kind of what follows, and are no names themselves. -/
def isKindAhead (words : List String) : Reader Bool := do
  unless ← atWords words do return false
  if words.length > 1 || words == ["table"] then return true
  return (nameOf? (!isReservedKeyword ·) (← ahead 1)).isSome

/-- The objects that privileges are about. -/
def privilegeTarget (r : Rules) : Reader Unit := do
  if ← acceptWord "all" then
    let _ ← oneOf ["tables", "sequences", "functions", "procedures", "routines"]
    words ["in", "schema"]
    let _ ← list columnName
    return
  for (ws, objects) in privilegeKinds r do
    if ← isKindAhead ws then
      words ws
      return ← objects
  if ← acceptWord "foreign" then
    let _ ← acceptWord "data"
    refuse
  let _ ← list (relationPath r)

/-- Those who get or lose privileges. -/
def grantees : Reader Unit := do
  let _ ← list do
    let _ ← acceptWord "group"
    role

def grantedBy : Reader Unit := do
  if ← acceptPhrase ["granted", "by"] then
    let _ ← role

/-- How a role is a member of another. -/
def membershipOptions : Reader Unit := do
  let _ ← list do
    let _ ← label
    oneOf ["option", "true", "false"]

/-- Who gets privileges on which objects, after the privileges. -/
def objectGrant (r : Rules) : Reader Statement := do
  word "on"
  privilegeTarget r
  word "to"
  grantees
  if ← acceptWord "with" then words ["grant", "option"]
  grantedBy
  return .other "GrantStmt"

/-- The rest of a statement that grants something. -/
def grant (r : Rules) : Reader Statement := do
  let mayBeRoles ← privileges
  unless ← both mayBeRoles (acceptWord "to") do return ← objectGrant r
  let _ ← list role
  if ← acceptWord "with" then membershipOptions
  grantedBy
  return .other "GrantRoleStmt"

/-- The rest of a statement that revokes something. -/
def revoke (r : Rules) : Reader Statement := do
  let isGrantOption ← acceptPhrase ["grant", "option", "for"]
  let isRoleOption := !isGrantOption && (← isColumnNameAhead 0) &&
    (← ahead 1) == some (.word "option")
  if isRoleOption then
    let _ ← columnName
    words ["option", "for"]
  let mayBeRoles ← privileges
  let isRole := isRoleOption || (mayBeRoles && !isGrantOption && (← atWord "from"))
  unless isRole do
    word "on"
    privilegeTarget r
  word "from"
  if isRole then
    let _ ← list role
  else grantees
  grantedBy
  dropBehavior
  return .other (if isRole then "GrantRoleStmt" else "GrantStmt")

/-- Privileges on the objects to come, after the words `DEFAULT PRIVILEGES`. -/
def defaultPrivileges : Reader Statement := do
  let _ ← many do
    if ← acceptPhrase ["in", "schema"] then
      let _ ← list columnName
      return some ()
    if ← acceptWord "for" then
      let _ ← oneOf ["role", "user"]
      let _ ← list role
      return some ()
    return none
  let isGrant ← acceptWord "grant"
  unless isGrant do
    word "revoke"
    let _ ← acceptPhrase ["grant", "option", "for"]
  let _ ← privileges
  word "on"
  unless ← acceptPhrase ["large", "objects"] do
    let _ ← oneOf ["tables", "functions", "routines", "sequences", "types", "schemas"]
  word (if isGrant then "to" else "from")
  grantees
  if isGrant then
    if ← acceptWord "with" then words ["grant", "option"]
  else dropBehavior
  return .other "AlterDefaultPrivilegesStmt"

end SchemaScript.Sql.Reader
