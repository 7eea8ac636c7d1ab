import SchemaScript.Sql.Grammar.Object

/-!
# Reading foreign data and replication

Statements about data that other servers keep or are sent.
-/

/-!
## Reading what lies outside of the database

Servers, the wrappers around them, the users that they know and their tables.
-/

namespace SchemaScript.Sql.Reader

/-! ### Wrappers -/

/-- A function of a wrapper, or that there is none, if one of these is in front. -/
def wrapperFunction : Reader (Option Unit) := do
  if ← acceptWord "no" then
    let _ ← oneOf ["handler", "validator"]
    return some ()
  if (← acceptAny ["handler", "validator"]).isNone then return none
  let _ ← anyName
  return some ()

def createWrapper : Reader Statement := do
  let _ ← columnName
  let _ ← many wrapperFunction
  foreignOptions
  return .other "CreateFdwStmt"

/-- Changes to the options of something outside, if they are in front. -/
def optionChanges : Reader Bool := do
  unless ← acceptWord "options" do return false
  foreignOptionChanges
  return true

/-- A change to a wrapper, after its name; there has to be one. -/
def wrapperChange : Reader Statement := do
  let functions ← many wrapperFunction
  if !(← optionChanges) && functions.isEmpty then refuse
  return .other "AlterFdwStmt"

/-! ### Servers -/

/-- The version of a server, if it is given. -/
def serverVersion : Reader Bool := do
  unless ← acceptWord "version" do return false
  unless ← acceptWord "null" do
    let _ ← text
  return true

def createServer : Reader Statement := do
  let _ ← ifNotExists
  let _ ← columnName
  if ← acceptWord "type" then
    let _ ← text
  let _ ← serverVersion
  words ["foreign", "data", "wrapper"]
  let _ ← columnName
  foreignOptions
  return .other "CreateForeignServerStmt"

/-- A change to a server, after its name; there has to be one. -/
def serverChange : Reader Statement := do
  let hasVersion ← serverVersion
  if !(← optionChanges) && !hasVersion then refuse
  return .other "AlterForeignServerStmt"

/-! ### Users -/

/-- The user of a server, after the words `USER MAPPING`. -/
def mappedUser : Reader Unit := do
  word "for"
  unless ← acceptWord "user" do
    let _ ← role
  word "server"
  let _ ← columnName

def createUserMapping : Reader Statement := do
  let _ ← plainIfNotExists
  mappedUser
  foreignOptions
  return .other "CreateUserMappingStmt"

def alterUserMapping : Reader Statement := do
  mappedUser
  word "options"
  foreignOptionChanges
  return .other "AlterUserMappingStmt"

def dropUserMapping : Reader Statement := do
  let _ ← plainIfExists
  mappedUser
  return .other "DropUserMappingStmt"

/-! ### Tables -/

def createForeignTable (r : Rules) : Reader Statement := do
  let _ ← ifNotExists
  let _ ← relationPath r
  if ← acceptPhrase ["partition", "of"] then
    let _ ← relationPath r
    let _ ← typedElements r
    let _ ← partitionBound r
  else
    let _ ← tableElements r
    let _ ← parentList r
  word "server"
  let _ ← columnName
  foreignOptions
  return .other "CreateForeignTableStmt"

/-- The rest of a statement after the words `IMPORT FOREIGN SCHEMA`. -/
def importSchema (r : Rules) : Reader Statement := do
  let _ ← columnName
  let isLimited ← acceptPhrase ["limit", "to"]
  if ← either isLimited (acceptWord "except") then
    let _ ← parenthesized (list (openPath r))
  words ["from", "server"]
  let _ ← columnName
  word "into"
  let _ ← columnName
  foreignOptions
  return .other "ImportForeignSchemaStmt"

/-!
## Reading publications and subscriptions

A publication offers the changes of some tables, or of all tables of some schemas, to other databases.
-/

/-! ### Publications -/

/-- What a publication is about. -/
inductive PublishedKind
  | table
  | schema
  /-- It is not said, so it is what the object before it is. -/
  | sameAsBefore
  deriving DecidableEq

/-- An object of a publication, as far as it matters which ones can stand together. -/
structure Published where
  kind : PublishedKind
  place : Option Nat
  isCurrentSchema : Bool := false
  /-- It can only be a table by the way it is written. -/
  isTableName : Bool := false
  hasColumns : Bool := false
  hasCondition : Bool := false

/-- The columns and the rows of a table that are published. -/
def publishedPart (r : Rules) (p : Published) : Reader Published := do
  let columns ← maybeParenthesized (list columnName)
  let condition ← afterWord "where" (parenthesized r.expression)
  return { p with hasColumns := columns.isSome, hasCondition := condition.isSome }

def publishedObject (r : Rules) : Reader Published := do
  let place ← place
  if ← acceptWord "table" then
    let _ ← openPath r
    return ← publishedPart r { kind := .table, place, isTableName := true }
  if ← acceptWords ["tables", "in"] then
    word "schema"
    let place ← Reader.place
    if ← acceptWord "current_schema" then
      return { kind := .schema, place, isCurrentSchema := true }
    let _ ← columnName
    return { kind := .schema, place }
  if ← acceptWord "current_schema" then
    return { kind := .sameAsBefore, place, isCurrentSchema := true }
  let isOnly ← atWord "only"
  let start ← get
  let (_, path) ← openPath r
  let hasStar := (start[2 * path.length - 1]?.map (·.token)) == some (.symbol "*")
  publishedPart r
    { kind := .sameAsBefore, place, isTableName := isOnly || hasStar || path.length > 1 }

/-- What is wrong with an object whose kind is settled. -/
def Published.fault? (p : Published) : Option String :=
  match p.kind with
  | .table => if p.isCurrentSchema then some "invalid table name" else none
  | .schema =>
    if p.hasCondition then some "WHERE clause not allowed for schema"
    else if p.hasColumns then some "column specification not allowed for schema"
    else if p.isTableName then some "invalid schema name"
    else none
  | .sameAsBefore => some "invalid publication object list"

/-- Settles the kinds of the objects, which is that of the one before where it is not said. -/
def checkPublished : PublishedKind → List Published → Reader Unit
  | _, [] => pure ()
  | before, p :: rest => do
    let p := if p.kind == .sameAsBefore then { p with kind := before } else p
    check p.fault? p.place
    checkPublished p.kind rest

def publishedObjects (r : Rules) : Reader Unit := do
  checkPublished .sameAsBefore (← list (publishedObject r))

/-- Further settings, if there are any. -/
def maybeDefinition (r : Rules) : Reader Unit := do
  if ← acceptWord "with" then definition r

def createPublication (r : Rules) : Reader Statement := do
  let _ ← columnName
  if ← acceptWord "for" then
    unless ← acceptPhrase ["all", "tables"] do
      let objects ← list (publishedObject r)
      maybeDefinition r
      checkPublished .sameAsBefore objects
      return .other "CreatePublicationStmt"
  maybeDefinition r
  return .other "CreatePublicationStmt"

/-- A change to a publication, after its name. -/
def publicationChange (r : Rules) : Reader Statement := do
  let verb ← oneOf ["set", "add", "drop"]
  if verb == "set" && (← atSymbol "(") then definition r else publishedObjects r
  return .other "AlterPublicationStmt"

/-! ### Subscriptions -/

def createSubscription (r : Rules) : Reader Statement := do
  let _ ← columnName
  word "connection"
  let _ ← text
  word "publication"
  let _ ← list columnName
  maybeDefinition r
  return .other "CreateSubscriptionStmt"

/-- A change to a subscription, after its name. -/
def subscriptionChange (r : Rules) : Reader Statement := do
  match ← oneOf ["set", "connection", "refresh", "add", "drop", "enable", "disable", "skip"] with
  | "connection" =>
    let _ ← text
  | "refresh" =>
    word "publication"
    maybeDefinition r
  | "skip" => definition r
  | "enable" | "disable" => pure ()
  | verb =>
    if verb == "set" && (← atSymbol "(") then definition r
    else
      word "publication"
      let _ ← list columnName
      maybeDefinition r
  return .other "AlterSubscriptionStmt"

end SchemaScript.Sql.Reader
