import SchemaScript.Sql.Grammar.RowChange

/-!
# Reading options and settings

What many statements can say in the same words.
-/

/-!
## Reading options

The options of sequences, and clauses that many statements have and that play no part in a catalog.
-/

namespace SchemaScript.Sql.Reader

def relationName (r : Rules) : Reader RelationName := do
  return .ofPath (← relationPath r)

/-- A relation whose descendants may be left out. -/
def openRelation (r : Rules) : Reader RelationName := do
  return .ofPath (← openPath r).2

/-! ### Clauses without a part in catalogs -/

def tablespace : Reader Unit := do
  if ← acceptWord "tablespace" then
    let _ ← columnName

def indexTablespace : Reader Unit := do
  if ← acceptPhrase ["using", "index", "tablespace"] then
    let _ ← columnName

def nullsDistinct : Reader Unit := do
  if ← acceptWord "nulls" then
    let _ ← acceptWord "not"
    word "distinct"

/-- Columns that are stored with a key and are no part of it. -/
def includedColumns : Reader Unit := do
  if ← acceptWord "include" then
    let _ ← parenthesized (list columnName)

/-! ### Sequences -/

/-- An option of a sequence, if one is in front. -/
def sequenceOption (r : Rules) : Reader (Option SequenceOption) := do
  let some w ← acceptAny ["as", "cache", "cycle", "increment", "logged", "maxvalue", "minvalue",
    "no", "owned", "sequence", "start", "restart", "unlogged"] | return none
  match w with
  | "as" => return some (.dataType (← simpleType r))
  | "cache" =>
    let _ ← number
    return some .other
  | "cycle" => return some (.cycle true)
  | "increment" =>
    let _ ← acceptWord "by"
    return some (.increment (← number))
  | "maxvalue" => return some (.maximum (some (← number)))
  | "minvalue" => return some (.minimum (some (← number)))
  | "no" =>
    match ← oneOf ["maxvalue", "minvalue", "cycle"] with
    | "maxvalue" => return some (.maximum none)
    | "minvalue" => return some (.minimum none)
    | _ => return some (.cycle false)
  | "owned" =>
    word "by"
    return some (.ownedBy (← anyName))
  | "sequence" =>
    word "name"
    let _ ← anyName
    return some .other
  | "start" =>
    let _ ← acceptWith
    return some (.start (← number))
  | "restart" =>
    let isGiven ← acceptWith
    if isGiven || (← atNumber) then
      let _ ← number
    return some .other
  | _ => return some .other

def sequenceOptions (r : Rules) : Reader (List SequenceOption) :=
  many (sequenceOption r)

/-!
## Reading settings

A setting can be made for a session, for a transaction, or while a routine runs.
-/

/-- The name of a setting, possibly with that of a group before it. -/
def settingName : Reader Unit := do
  let _ ← columnName
  let _ ← many do
    if ← acceptSymbol "." then return some (← columnName) else return none

/-- A switch, a name or a text. -/
def settingWord : Reader Unit := do
  unless (← acceptAny ["true", "false", "on"]).isSome do
    let _ ← nameOrText

/-- A switch, a name, a text or a number. -/
def settingValue : Reader Unit := do
  if ← atNumber then
    let _ ← number
  else settingWord

def transactionMode : Reader (Option Unit) := do
  if ← acceptWord "isolation" then
    word "level"
    match ← oneOf ["read", "repeatable", "serializable"] with
    | "read" =>
      let _ ← oneOf ["uncommitted", "committed"]
    | "repeatable" => word "read"
    | _ => pure ()
    return some ()
  if ← acceptWord "read" then
    let _ ← oneOf ["only", "write"]
    return some ()
  if ← acceptWord "not" then
    word "deferrable"
    return some ()
  if ← acceptWord "deferrable" then return some ()
  return none

/-- Modes of a transaction, with or without commas between them. -/
def transactionModes : Reader Unit := do
  if (← transactionMode).isNone then refuse
  let _ ← many do
    if ← acceptSymbol "," then
      match ← transactionMode with
      | some _ => return some ()
      | none => refuse
    transactionMode

/-- The modes of a transaction that may have none. -/
def maybeTransactionModes : Reader Unit := do
  match ← front with
  | some (.word w) =>
    if ["isolation", "read", "not", "deferrable"].contains w then transactionModes
  | _ => pure ()

/-- The time zone of a session. -/
def zoneValue : Reader Unit := do
  if (← acceptAny ["default", "local"]).isSome then return
  if ← atText then
    let _ ← text
  else if ← atNumber then
    let _ ← number
  else if ← acceptWord "interval" then
    let length ← typeLength
    let _ ← text
    if length.isEmpty then
      let at? ← place
      match ← intervalFields with
      | some (fields, _) =>
        unless ["hour", "minute", "hour to minute"].contains fields do
          lateBreach "time zone interval must be HOUR or HOUR TO MINUTE" at?
      | none => pure ()
  else
    let _ ← ownWord

/-- What a setting gets, with the word or sign before it. -/
def assignedValues : Reader Unit := do
  unless ← acceptSymbol "=" do word "to"
  unless ← acceptWord "default" do
    let _ ← list settingValue

/-- A setting of any name. -/
def namedSetting : Reader Unit := do
  settingName
  unless ← acceptPhrase ["from", "current"] do assignedValues

/-- The word in front is one of those of a special setting, since a word follows that none of the
other settings has. -/
def atSpecialSetting : Reader Bool := do
  match ← ahead 1 with
  | some (.symbol s) => return s != "=" && s != "."
  | some (.word w) => return w != "to" && w != "from"
  | _ => return true

/-- A setting as a routine can have it. -/
def setting : Reader Unit := do
  unless ← atSpecialSetting do return ← namedSetting
  match ← acceptAny ["time", "catalog", "schema", "names", "role", "session", "xml",
    "transaction"] with
  | some "time" =>
    word "zone"
    zoneValue
  | some "catalog" =>
    let at? ← place
    let _ ← text
    breach "current database cannot be changed" at?
  | some "schema" =>
    let _ ← text
  | some "names" =>
    if ← atText then
      let _ ← text
    else
      let _ ← acceptWord "default"
  | some "role" =>
    let _ ← nameOrText
  | some "session" =>
    word "authorization"
    unless ← acceptWord "default" do
      let _ ← nameOrText
  | some "xml" =>
    word "option"
    let _ ← oneOf ["document", "content"]
  | some _ =>
    word "snapshot"
    let _ ← text
  | none => namedSetting

/-- What is set back or shown, after the first word. -/
def settingReference : Reader Unit := do
  if ← acceptWord "all" then return
  if ← acceptWords ["time", "zone"] then return
  if ← atWords ["transaction", "isolation"] then return ← words ["transaction", "isolation", "level"]
  if ← acceptWords ["session", "authorization"] then return
  settingName

/-- When constraints are checked. -/
def constraintTimes (r : Rules) : Reader Statement := do
  unless ← acceptWord "all" do
    let _ ← list (relationPath r)
  let _ ← oneOf ["deferred", "immediate"]
  return .other "ConstraintsSetStmt"

/-- A setting, or the modes of transactions. -/
def settingOrModes : Reader Unit := do
  if ← acceptWords ["session", "characteristics"] then
    words ["as", "transaction"]
    transactionModes
  else if (← atWord "transaction") && (← ahead 1) != some (.word "snapshot") &&
      (← atSpecialSetting) then
    word "transaction"
    transactionModes
  else setting

/-- The rest of a statement that sets something. -/
def settingStatement (r : Rules) : Reader Statement := do
  if (← atWord "constraints") && (← atSpecialSetting) then
    word "constraints"
    return ← constraintTimes r
  let isWhole := (← atWords ["session", "authorization"]) ||
    (← atWords ["session", "characteristics", "as"])
  if !isWhole && (← atSpecialSetting) then
    let _ ← acceptAny ["local", "session"]
  settingOrModes
  return .other "VariableSetStmt"

end SchemaScript.Sql.Reader
