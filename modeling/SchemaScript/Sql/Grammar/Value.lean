import SchemaScript.Sql.Grammar.Document

/-!
# Reading values

Expressions without operators around them: constants, columns, calls and what parentheses enclose.
-/

namespace SchemaScript.Sql.Reader

def withParts (r : Rules) (p : Phrase) : Reader Phrase := do
  match ← checkedParts r with
  | [] => return p
  | found => return p.select (found.map (·.text))

/-! ## Constants -/

/-- A constant with its type in front of it. -/
def typedText (type : WrittenType) : Reader Phrase := do
  return (Phrase.ofText (← text)).castTo type

/-- A keyword in front begins the type of a constant, and is no column. -/
def atTypedConstant : Reader Bool := do
  match ← front, ← ahead 1 with
  | some (.word w), some next =>
    let isType := ["int", "integer", "smallint", "bigint", "real", "boolean", "json", "float",
      "decimal", "dec", "numeric", "bit", "character", "char", "nchar", "varchar", "time",
      "timestamp", "interval"].contains w
    match next with
    | .text _ => return isType
    | .symbol "(" => return isType
    | .word v =>
      if w == "double" then return v == "precision"
      if w == "national" then return v == "character" || v == "char"
      if v == "varying" then return ["bit", "character", "char", "nchar"].contains w
      return false
    | .joined v => return (w == "time" || w == "timestamp") && (v == "with" || v == "without")
    | _ => return false
  | _, _ => return false

def intervalConstant : Reader Phrase := do
  match ← typeLength with
  | [] =>
    let value ← text
    let type : WrittenType ←
      match ← intervalFields with
      | some (fields, modifiers) =>
        pure { path := ["pg_catalog", "interval"], modifiers, fields := some fields }
      | none => pure (.ofKeyword "interval")
    return (Phrase.ofText value).castTo type
  | modifiers => typedText (.ofKeyword "interval" modifiers)

def typedConstant (r : Rules) : Reader Phrase := do
  if ← acceptWord "interval" then
    intervalConstant
  else
    match ← keywordType r false with
    | some type => typedText type
    | none => refuse

def constant? : Token → Option Phrase
  | .integer n => some (.ofNumber (.integer n))
  | .number written => some (.ofNumber (.decimal written))
  | .text value => some (.ofText value)
  | .bits written =>
    match written.toList with
    | lead :: digits => some (.ofConstant (String.ofList [lead] ++ literal (String.ofList digits)))
    | [] => none
  | .word "true" => some (.ofConstant "TRUE")
  | .word "false" => some (.ofConstant "FALSE")
  | .word "null" => some (.ofConstant "NULL")
  | _ => none

/-- A constant, possibly with the name of its type in front of it. -/
def constant (r : Rules) : Reader Phrase := do
  if let some p := (← front).bind constant? then
    skip
    return p
  if ← atTypedConstant then return ← typedConstant r
  let path ← routinePath r
  if ← atSymbol "(" then return ← modifiedConstant path (← callArguments r)
  typedText { path }

/-! ## Functions whose names are keywords -/

/-- Values that are written as a single keyword. -/
def valueKeywords : List String :=
  ["current_date", "current_role", "current_user", "current_catalog", "session_user", "user"]

/-- Values that are written as a keyword and may have a precision. -/
def timeKeywords : List String :=
  ["current_time", "current_timestamp", "localtime", "localtimestamp"]

def keywordFunction? (r : Rules) (w : String) : Option (Reader Phrase) :=
  match w with
  | "coalesce" => some (keywordCall r "COALESCE")
  | "greatest" => some (keywordCall r "GREATEST")
  | "least" => some (keywordCall r "LEAST")
  | "nullif" => some (nullifCall r)
  | "extract" => some (extractCall r)
  | "position" => some (positionCall r)
  | "overlay" => some (overlayCall r)
  | "substring" => some (substringCall r)
  | "trim" => some (trimCall r)
  | "normalize" => some (normalizeCall r)
  | "treat" => some (treatCall r)
  | _ => (xmlFunction? r w).orElse fun _ => jsonFunction? r w

/-- A value that is written as a keyword without parentheses, if one is in front. -/
def keywordValue (w : String) : Reader (Option Phrase) := do
  if valueKeywords.contains w then
    skip
    return some { text := Text.upper w }
  if timeKeywords.contains w then
    skip
    return some { text := Text.upper w ++ WrittenType.modifierText (← typeLength) }
  if w == "system_user" then
    skip
    return some (.ofSystemCall (phraseName w) [])
  if w == "current_schema" && (← ahead 1) != some (.symbol "(") then
    skip
    return some { text := "CURRENT_SCHEMA" }
  return none

/-- A function that has its own grammar or is written as a keyword, if one is in front. -/
def specialCall (r : Rules) : Reader (Option Phrase) := do
  let some (.word w) ← front | return none
  if let some p ← keywordValue w then return some p
  if w == "cast" then
    skip
    return some (← castCall r)
  if w == "collation" && (← ahead 1) == some (.word "for") then
    words ["collation", "for"]
    return some (.ofSystemCall "pg_collation_for" [← parenthesized r.expression])
  if (← ahead 1) == some (.symbol "(") then
    match keywordFunction? r w with
    | some reader =>
      skip
      return some (← reader)
    | none => return none
  return none

/-- An aggregate that makes JSON, if one is in front. -/
def aggregateCall (r : Rules) : Reader (Option String) := do
  let some (.word w) ← front | return none
  unless (← ahead 1) == some (.symbol "(") do return none
  match jsonAggregate? r w with
  | some inside =>
    skip
    return some (w ++ enclosed (← parenthesized inside))
  | none => return none

/-! ## Names -/

/-- The name in front can begin an expression. -/
def atNamed : Reader Bool := do
  match ← front with
  | some (.quotedName _) => return true
  | some (.word w) => return !isReservedKeyword w
  | _ => return false

/-- The path of a column, and the parts of its value that follow it. -/
def columnWithParts (first : String) (found : List Part) : Phrase :=
  let isElement (part : Part) : Bool :=
    match part with
    | .element _ => true
    | _ => false
  let own := found.takeWhile (!isElement ·)
  let p : Phrase :=
    { text := phraseName first ++ String.join (own.map (·.text)), form := .column }
  match found.dropWhile (!isElement ·) with
  | [] => p
  | rest => p.select (rest.map (·.text))

/-- What a name begins: a column, a call, or a constant of the type so named. -/
def named (r : Rules) : Reader Phrase := do
  let isColumn ← isColumnNameAhead 0
  let isFunction := (nameOf? isFunctionName (← front)).isSome
  let first ← label
  let found ← if isColumn then parts r else pure []
  let path : Reader (List String) := do
    if found.isEmpty && !isFunction then refuse
    return first :: (← fieldsOnly found)
  match ← front with
  | some (.text value) =>
    let path ← path
    skip
    return (Phrase.ofText value).castTo { path }
  | some (.symbol "(") => callOf r (← path)
  | _ =>
    unless isColumn do refuse
    if found.dropLast.contains .all then breachHere "improper use of \"*\""
    return columnWithParts first found

/-- A function call where only calls will do. -/
def functionCall (r : Rules) : Reader Phrase := do
  if let some call ← specialCall r then return call
  if let some text ← aggregateCall r then return { text }
  unless ← atNamed do refuse
  let path ← routinePath r
  return { text := phrasePath path ++ (← callArguments r).text, form := .call }

/-! ## Values -/

/-- What parentheses enclose; a row in further parentheses is a value like any other. -/
def groupValue (r : Rules) : Group → Reader Phrase
  | .query q => withParts r q.phrase
  | .items [p] =>
    match p.form with
    | .row _ => withParts r { p with form := .other }
    | _ => withParts r p
  | .items items => return .ofRow false (items.map (·.text))

/-- A row that is written with its keyword. -/
def explicitRow (r : Rules) : Reader Phrase := do
  word "row"
  let items ← parenthesized do
    if ← atSymbol ")" then return [] else plainExpressions r
  return .ofRow true items

/-- What begins with a word that has a meaning of its own in front of a parenthesis. -/
def wordBeforeParenthesis (r : Rules) : Reader (Option Phrase) := do
  unless (← ahead 1) == some (.symbol "(") do return none
  if ← atWord "row" then return some (← explicitRow r)
  if ← acceptWord "exists" then return some (← r.enclosedQuery).existence
  if ← acceptWord "grouping" then
    return some { text := " GROUPING" ++ enclosed (commaList (← parenthesized (plainExpressions r))) }
  if let some text ← aggregateCall r then
    let filter ← filterClause r
    return some { text := text ++ filter ++ (← overClause r) }
  return none

/-- An expression without operators around it. -/
def primaryWith (r : Rules) : Reader Phrase := do
  let some token ← front | refuse
  if let some p := constant? token then
    skip
    return p
  match token with
  | .parameter n =>
    skip
    withParts r (.ofParameter n)
  | .symbol "(" => groupValue r (← r.group)
  | .word "case" =>
    skip
    caseExpression r
  | .word "array" =>
    skip
    if ← atSymbol "(" then return (← r.enclosedQuery).array
    r.array
  | _ =>
    if let some p ← wordBeforeParenthesis r then return p
    if let some call ← specialCall r then return call
    if ← atTypedConstant then
      typedConstant r
    else if ← atNamed then
      named r
    else refuse

end SchemaScript.Sql.Reader
