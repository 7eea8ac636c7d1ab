import SchemaScript.Sql.Grammar.Rules
import SchemaScript.Sql.TypeName

/-!
# Reading types
-/

namespace SchemaScript.Sql.Reader

/-- Modifiers between parentheses, if there are any. -/
def typeModifiers (r : Rules) : Reader (List String) := do
  return ((← maybeParenthesized (list r.expression)).getD []).map (·.text)

/-- A single whole number between parentheses, if there is one. -/
def typeLength : Reader (List String) := do
  return (← maybeParenthesized integer).toList.map Text.writeNatural

/-- The words for a time with and without its zone. -/
def withTimeZone : Reader Bool := do
  if ← acceptJoined "with" then
    words ["time", "zone"]
    return true
  if ← acceptJoined "without" then words ["time", "zone"]
  return false

/-- Seconds, and how many digits of their fraction count. -/
def intervalSeconds (front : String) : Reader (String × List String) := do
  word "second"
  return (front ++ "second", ← typeLength)

/-- The fields of an interval. -/
def intervalFields : Reader (Option (String × List String)) := do
  let upTo (first : String) (others : List String) : Reader (Option (String × List String)) := do
    unless ← acceptWord "to" do return some (first, [])
    match ← acceptAny others with
    | some last => return some (first ++ " to " ++ last, [])
    | none =>
      if first == "year" then refuse
      return some (← intervalSeconds (first ++ " to "))
  match ← acceptAny ["year", "month", "day", "hour", "minute"] with
  | some "year" => upTo "year" ["month"]
  | some "month" => return some ("month", [])
  | some "day" => upTo "day" ["hour", "minute"]
  | some "hour" => upTo "hour" ["minute"]
  | some field => upTo field []
  | none =>
    if ← atWord "second" then return some (← intervalSeconds "") else return none

def characterType (hasDefaultLength : Bool) : Reader WrittenType := do
  let name := if ← acceptWord "varying" then "varchar" else "bpchar"
  match ← typeLength with
  | [] => return .ofKeyword name (if name == "bpchar" && hasDefaultLength then ["1"] else [])
  | length => return .ofKeyword name length

def floatType : Reader WrittenType := do
  let at? ← place
  match ← maybeParenthesized integer with
  | none => return .ofKeyword "float8"
  | some 0 => breach "precision for type float must be at least 1 bit" (at?.map (· + 1))
  | some n =>
    if n ≤ 24 then return .ofKeyword "float4"
    if n ≤ 53 then return .ofKeyword "float8"
    breach "precision for type float must be less than 54 bits" (at?.map (· + 1))

/-- A type that begins with a keyword. Without a length some have length one, but not in front of a
constant. -/
def keywordType (r : Rules) (hasDefaultLength : Bool) : Reader (Option WrittenType) := do
  let plain (name : String) : Reader (Option WrittenType) := do
    skip
    return some (.ofKeyword name)
  let timeType (name zoned : String) : Reader (Option WrittenType) := do
    skip
    let modifiers ← typeLength
    return some (.ofKeyword (if ← withTimeZone then zoned else name) modifiers)
  match ← front with
  | some (.word w) =>
    match w with
    | "int" | "integer" => plain "int4"
    | "smallint" => plain "int2"
    | "bigint" => plain "int8"
    | "real" => plain "float4"
    | "boolean" => plain "bool"
    | "json" => plain "json"
    | "float" =>
      skip
      return some (← floatType)
    | "double" =>
      unless ← acceptWords ["double", "precision"] do return none
      return some (.ofKeyword "float8")
    | "decimal" | "dec" | "numeric" =>
      skip
      return some (.ofKeyword "numeric" (← typeModifiers r))
    | "bit" =>
      skip
      let name := if ← acceptWord "varying" then "varbit" else "bit"
      match ← typeModifiers r with
      | [] => return some (.ofKeyword name (if name == "bit" && hasDefaultLength then ["1"] else []))
      | modifiers => return some (.ofKeyword name modifiers)
    | "character" | "char" | "nchar" =>
      skip
      return some (← characterType hasDefaultLength)
    | "national" =>
      skip
      match ← acceptAny ["character", "char"] with
      | some _ => return some (← characterType hasDefaultLength)
      | none => refuse
    | "varchar" =>
      skip
      return some (.ofKeyword "varchar" (← typeLength))
    | "time" => timeType "time" "timetz"
    | "timestamp" => timeType "timestamp" "timestamptz"
    | "interval" =>
      skip
      if ← atSymbol "(" then return some (.ofKeyword "interval" (← typeLength))
      match ← intervalFields with
      | some (fields, modifiers) =>
        return some { path := ["pg_catalog", "interval"], modifiers, fields := some fields }
      | none => return some (.ofKeyword "interval")
    | _ => return none
  | _ => return none

/-- A type with its modifiers, but without brackets. -/
def simpleType (r : Rules) : Reader WrittenType := do
  match ← keywordType r true with
  | some type => return type
  | none =>
    let path := (← functionName) :: (← pointedLabels)
    return { path, modifiers := ← typeModifiers r }

def arrayBounds : Reader (List (Option Nat)) := do
  if ← acceptWord "array" then
    if ← acceptSymbol "[" then
      let length ← integer
      symbol "]"
      return [some length]
    return [none]
  many do
    unless ← acceptSymbol "[" do return none
    if ← acceptSymbol "]" then return some none
    let length ← integer
    symbol "]"
    return some (some length)

def type (r : Rules) : Reader WrittenType := do
  let isSetOf ← acceptWord "setof"
  let type ← simpleType r
  return { type with bounds := ← arrayBounds, isSetOf }

/-- The type of a parameter or result, which can also be that of a column. -/
def routineType (r : Rules) : Reader WrittenType := do
  let isSetOf ← acceptWord "setof"
  match ← keywordType r true with
  | some type => return { type with bounds := ← arrayBounds, isSetOf }
  | none =>
    let path := (← functionName) :: (← pointedLabels)
    if path.length > 1 then
      if ← acceptSymbol "%" then
        word "type"
        return { path, isSetOf }
    let modifiers ← typeModifiers r
    return { path, modifiers, bounds := ← arrayBounds, isSetOf }

end SchemaScript.Sql.Reader
