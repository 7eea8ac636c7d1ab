import SchemaScript.Sql.Grammar.Expression
import SchemaScript.Sql.Statement

/-!
# Reading definitions

Numbers, roles and the lists of settings between parentheses that many statements have, and the
elements of an index.
-/

namespace SchemaScript.Sql.Reader

/-! ## Numbers and names -/

/-- A number, if one is in front. -/
def number? : Reader (Option Number) := do
  match ← front with
  | some (.integer n) =>
    skip
    return some (.integer n)
  | some (.number written) =>
    skip
    return some (.decimal written)
  | _ => return none

def number : Reader Number := do
  let isNegative ← acceptSymbol "-"
  unless isNegative do
    let _ ← acceptSymbol "+"
  match ← number? with
  | some n => return if isNegative then n.negate else n
  | none => refuse

/-- A number without a sign stands after `n` other lexemes. -/
def isDigitsAhead (n : Nat) : Reader Bool := do
  match ← ahead n with
  | some (.integer _) | some (.number _) => return true
  | _ => return false

def atSign : Reader Bool := do
  either (← atSymbol "-") (atSymbol "+")

/-- A number begins in front, where a sign has no other meaning. -/
def atNumber : Reader Bool := do
  either (← atSign) (isDigitsAhead 0)

/-- A whole number with its sign. -/
def signedInteger : Reader Unit := do
  unless ← acceptSymbol "-" do
    let _ ← acceptSymbol "+"
  let _ ← integer

/-- A text is in front. -/
def atText : Reader Bool := do
  return (← front).any Token.isText

/-- A name or a text. -/
def nameOrText : Reader String := do
  if ← atText then text else plainName

/-- A role by its name, or one of those that depend on the session. -/
def role : Reader (Option String × String) := do
  match ← front with
  | some (.word "current_user") =>
    skip
    return (none, "CURRENT_USER")
  | some (.word "session_user") =>
    skip
    return (none, "SESSION_USER")
  | some (.word "current_role") =>
    skip
    return (none, "CURRENT_ROLE")
  | _ =>
    let at? ← place
    let name ← plainName
    if name == "public" then return (none, "PUBLIC")
    if name == "none" then breach "role name \"none\" is reserved" at?
    return (some name, name)

/-- A condition on what is there already. Without the second word the first one is a name. -/
def ifExists : Reader Bool :=
  acceptWords ["if", "exists"]

/-- A condition on what is there already, where no name can stand. -/
def plainIfExists : Reader Bool :=
  acceptPhrase ["if", "exists"]

/-- A condition on what is there already. Without the second word the first one is a name. -/
def ifNotExists : Reader Bool := do
  unless ← atWords ["if", "not"] do return false
  words ["if", "not", "exists"]
  return true

/-- A condition on what is there already, where no name can stand. -/
def plainIfNotExists : Reader Bool :=
  acceptPhrase ["if", "not", "exists"]

/-! ## Lists of settings -/

/-- The value of an entry of a definition. -/
def definitionValue (r : Rules) : Reader DefinitionValue := do
  let isSigned ← both (← atSign) (isDigitsAhead 1)
  if isSigned || (← isDigitsAhead 0) then return .text (← number).text
  match ← front with
  | some (.text value) =>
    skip
    return .text value
  | some (.symbol s) =>
    unless isOperatorSymbol s do refuse
    skip
    return .text s
  | some (.word w) =>
    if w == "operator" && (← ahead 1) == some (.symbol "(") then
      skip
      return .text (operatorText (← explicitOperator))
    if isReservedKeyword w || w == "none" then
      skip
      return .text w
    return .type (← routineType r)
  | _ => return .type (← routineType r)

def definitionEntry (r : Rules) : Reader (String × DefinitionValue) := do
  let name ← label
  if ← acceptSymbol "=" then return (name, ← definitionValue r)
  return (name, .text "")

def definitionEntries (r : Rules) : Reader (List (String × DefinitionValue)) :=
  parenthesized (list (definitionEntry r))

/-- A definition that plays no part in a catalog. -/
def definition (r : Rules) : Reader Unit := do
  let _ ← definitionEntries r

/-- Settings of a relation; a name may have the name of a group before it. -/
def settings (r : Rules) : Reader Unit := do
  let _ ← parenthesized <| list do
    let _ ← label
    if ← acceptSymbol "." then
      let _ ← label
    if ← acceptSymbol "=" then
      let _ ← definitionValue r

def storageOptions (r : Rules) : Reader Unit := do
  if ← acceptWord "with" then settings r

/-- Options of what lies outside of the database: names with texts. -/
def foreignOptions : Reader Unit := do
  if ← acceptWord "options" then
    let _ ← parenthesized <| list do
      let _ ← label
      text

/-- Changes to such options, after the word `OPTIONS`. -/
def foreignOptionChanges : Reader Unit := do
  let _ ← parenthesized <| list do
    let isVerb := !(← ahead 1).any Token.isText
    if ← both isVerb (acceptWord "drop") then
      let _ ← label
    else
      if isVerb then
        let _ ← acceptAny ["set", "add"]
      let _ ← label
      let _ ← text

/-! ## Elements of indexes -/

/-- The part of an index element behind its key: its operator class and order. -/
def indexElementEnd (r : Rules) (element : IndexElement) : Reader IndexElement := do
  if ← acceptWord "collate" then
    let _ ← anyName
  let operatorClass ←
    if ← isColumnNameAhead 0 then
      let path ← anyName
      if ← atSymbol "(" then settings r
      pure path
    else pure []
  let isDescending ←
    match ← acceptAny ["asc", "desc"] with
    | some w => pure (w == "desc")
    | none => pure false
  if ← acceptJoined "nulls" then
    let _ ← oneOf ["first", "last"]
  return { element with operatorClass, isDescending }

/-- A column, a function call, or any expression between parentheses. -/
def indexKey (r : Rules) : Reader (String × Bool) := do
  if ← atSymbol "(" then return ((← parenthesized r.expression).text, true)
  let next ← ahead 1
  let isCall := next == some (.symbol "(") || next == some (.symbol ".")
  if (← isColumnNameAhead 0) && !isCall then return (← columnName, false)
  return ((← functionCall r).text, true)

def indexElement (r : Rules) : Reader IndexElement := do
  let (key, isExpression) ← indexKey r
  indexElementEnd r { key, isExpression }

end SchemaScript.Sql.Reader
