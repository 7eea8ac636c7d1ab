import SchemaScript.Sql.Grammar.Setting
import SchemaScript.Sql.Grammar.Table

/-!
# Reading functions, procedures and aggregates
-/

namespace SchemaScript.Sql.Reader

/-! ## Parameters -/

def parameterMode : Reader (Option ParameterMode) := do
  if ← acceptWord "in" then
    return some (if ← acceptWord "out" then .both else .input)
  if ← acceptWord "out" then return some .output
  if ← acceptWord "inout" then return some .both
  if ← acceptWord "variadic" then return some .variadic
  return none

/-- A type can begin with this token. -/
def beginsType : Option Token → Bool
  | some (.quotedName _) => true
  | some (.word w) =>
    isFunctionName w || ["setof", "int", "integer", "smallint", "bigint", "real", "float", "decimal",
      "dec", "numeric", "boolean", "bit", "character", "char", "nchar", "national", "varchar",
      "time", "timestamp", "interval", "json"].contains w
  | _ => false

def isModeWord : Option Token → Bool
  | some (.word w) => ["in", "out", "inout", "variadic"].contains w
  | _ => false

/-- The name in front is that of a parameter, since its type follows. -/
def parameterName : Reader (Option String) := do
  match nameOf? isFunctionName (← front) with
  | none => return none
  | some name =>
    let next ← ahead 1
    if beginsType next || isModeWord next then
      skip
      return some name
    return none

def parameter (r : Rules) : Reader ParameterDefinition := do
  let before ← parameterMode
  let name ← parameterName
  let after ← if before.isNone && name.isSome then parameterMode else pure none
  let mode := (before.orElse fun _ => after).getD .default
  return { name, type := ← routineType r, mode }

def parameterWithDefault (r : Rules) : Reader ParameterDefinition := do
  let p ← parameter r
  if ← either (← acceptWord "default") (acceptSymbol "=") then
    return { p with default := some (← r.expression).wholeText }
  return p

/-- What is read, with the place where it begins. -/
def placed {α : Type} (inner : Reader α) : Reader (α × Option Nat) := do
  let at? ← place
  return (← inner, at?)

def parameters (r : Rules) : Reader (List (ParameterDefinition × Option Nat)) :=
  parenthesized do
    if ← atSymbol ")" then return []
    list (placed (parameterWithDefault r))

/-! ## Options -/

def routineBody : Reader RoutineOption := do
  let first ← text
  if ← acceptSymbol "," then return .body [first, ← text]
  return .body [first]

/-- The types that are converted on the way into a routine. -/
def transformedTypes (r : Rules) : Reader Unit := do
  let _ ← list do
    words ["for", "type"]
    type r

/-- With whose rights a routine runs. -/
def routineSecurity : Reader RoutineOption := do
  return .securityDefiner ((← oneOf ["definer", "invoker"]) == "definer")

/-- An option that can be changed later, if one is in front. -/
def commonOption : Reader (Option RoutineOption) := do
  let some w ← acceptAny ["called", "returns", "strict", "immutable", "stable", "volatile",
    "external", "security", "leakproof", "not", "cost", "rows", "support", "set", "reset",
    "parallel"] | return none
  match w with
  | "called" =>
    words ["on", "null", "input"]
    return some (.strict false)
  | "returns" =>
    words ["null", "on", "null", "input"]
    return some (.strict true)
  | "strict" => return some (.strict true)
  | "immutable" | "stable" | "volatile" => return some (.volatility w)
  | "external" =>
    word "security"
    return some (← routineSecurity)
  | "security" => return some (← routineSecurity)
  | "not" => word "leakproof"
  | "cost" | "rows" =>
    let _ ← number
  | "support" =>
    let _ ← anyName
  | "set" => setting
  | "reset" => settingReference
  | "parallel" =>
    let _ ← columnName
  | _ => pure ()
  return some .other

def routineOption (r : Rules) : Reader (Option RoutineOption) := do
  match ← acceptAny ["as", "language", "transform", "window"] with
  | some "as" => return some (← routineBody)
  | some "language" => return some (.language (← nameOrText))
  | some "transform" =>
    transformedTypes r
    return some .other
  | some _ => return some .other
  | none => commonOption

/-- A statement of a body, or a value that the body returns. -/
def bodyStatement (r : Rules) : Reader Unit := do
  if ← acceptWord "return" then
    let _ ← r.expression
  else
    unless ← atSymbol ";" do r.statement

/-- A body that is no text. -/
def writtenBody (r : Rules) : Reader Unit := do
  if ← acceptWord "return" then
    let _ ← r.expression
  else if ← acceptWord "begin" then
    word "atomic"
    let _ ← many do
      if ← atWord "end" then return none
      bodyStatement r
      return some (← symbol ";")
    word "end"

def resultColumn (r : Rules) : Reader (String × WrittenType) := do
  let name ← functionName
  return (name, ← routineType r)

/-- What a routine gives back: the columns of a table, or a value. -/
structure RoutineResult where
  columns : List (String × WrittenType) := []
  value : Option WrittenType := none

def routineResult (r : Rules) : Reader RoutineResult := do
  unless (← atWord "returns") && (← ahead 1) != some (.word "null") do return {}
  skip
  if ← acceptWord "table" then
    return { columns := ← parenthesized (list (resultColumn r)) }
  return { value := some (← routineType r) }

/-- The rest of a statement that creates a function or a procedure. -/
def createRoutine (r : Rules) (isProcedure : Bool) : Reader Statement := do
  let path ← routinePath r
  let parameters ← parameters r
  let result ← if isProcedure then pure {} else routineResult r
  let options ← many (routineOption r)
  writtenBody r
  unless result.columns.isEmpty do
    if let some (_, at?) := parameters.find? (·.1.mode.isOutput) then
      lateBreach "OUT and INOUT arguments aren't allowed in TABLE functions" at?
  return .createRoutine {
    path, isProcedure, options
    parameters := parameters.map (·.1)
    resultColumns := result.columns
    result := result.value }

/-! ## Aggregates -/

/-- An argument of an aggregate, which is never one for output. -/
def aggregateArgument (r : Rules) : Reader (ParameterDefinition × Option Nat) := do
  let (p, at?) ← placed (parameter r)
  if p.mode.isOutput then lateBreach "aggregates cannot have output arguments" at?
  return (p, at?)

/-- The arguments of an aggregate of ordered rows. One for any number of values stands on both sides
of the order and counts once. -/
def orderedArguments (direct ordered : List (ParameterDefinition × Option Nat)) :
    Reader (List WrittenType) := do
  let types := direct.map (·.1.type)
  let some (last, _) := direct.getLast? | return ordered.map (·.1.type)
  unless last.mode == .variadic do return types ++ ordered.map (·.1.type)
  unless ordered.map (fun (p, _) => (p.mode, p.type)) == [(.variadic, last.type)] do
    breach ("an ordered-set aggregate with a VARIADIC direct argument must have one VARIADIC " ++
      "aggregated argument of the same data type") (ordered.head?.bind (·.2))
  return types

/-- The arguments of an aggregate, those that order its rows last. -/
def aggregateArguments (r : Rules) : Reader (List WrittenType) := do
  let arguments := list (aggregateArgument r)
  let (direct, ordered) ← parenthesized do
    if ← acceptSymbol "*" then return ([], none)
    if ← acceptPhrase ["order", "by"] then return ([], some (← arguments))
    let direct ← arguments
    if ← acceptPhrase ["order", "by"] then return (direct, some (← arguments))
    return (direct, none)
  match ordered with
  | some ordered => orderedArguments direct ordered
  | none => return direct.map (·.1.type)

def createAggregate (r : Rules) : Reader Statement := do
  let path ← routinePath r
  let isEntry := (nameOf? (fun w => !isKeyword w) (← ahead 1)).isSome
  if isEntry && (← ahead 2) == some (.symbol "=") then
    let entries ← parenthesized <| list do
      let name ← ownWord
      symbol "="
      return (name, ← definitionValue r)
    return .createAggregate { path, entries }
  let arguments ← aggregateArguments r
  return .createAggregate { path, arguments, entries := ← definitionEntries r }

end SchemaScript.Sql.Reader
