import SchemaScript.Catalog.Basic
import SchemaScript.Effect.Object

/-!
# Functions, procedures and aggregates that statements create
-/

namespace SchemaScript.Effect

open Sql Logged

def parameterAt (index : Nat) (p : ParameterDefinition) : Parameter :=
  { name := p.name
    dataType := p.type.text
    mode := p.mode.text?
    default := p.default
    position := Int.ofNat (index + 1) }

/-- The types that tell the routine from its overloads: those of all parameters but mere outputs. -/
def identityArguments (parameters : List Parameter) : String :=
  commaList (parameters.filterMap fun p =>
    let type := p.dataType.spelled
    match p.mode.text? with
    | some "OUT" => none
    | some "INOUT" => some ("INOUT " ++ type)
    | some "VARIADIC" => some ("VARIADIC " ++ type)
    | _ => some type)

/-- What the options say; of two that contradict each other the later one counts. -/
structure RoutineTraits where
  definition : String := ""
  language : Option String := none
  volatility : Option String := none
  isStrict : Bool := false
  isSecurityDefiner : Bool := false

def RoutineTraits.take (traits : RoutineTraits) : RoutineOption → RoutineTraits
  | .body parts => { traits with definition := "\n".intercalate parts }
  | .language name => { traits with language := some name }
  | .volatility word => { traits with volatility := some (Text.upper word) }
  | .strict enabled => { traits with isStrict := enabled }
  | .securityDefiner enabled => { traits with isSecurityDefiner := enabled }
  | .other => traits

/-- The type of a result, where there is one. -/
def resultType (definition : RoutineDefinition) : Option String :=
  match definition.resultColumns with
  | [] => definition.result.map (·.text)
  | columns =>
    some ("TABLE" ++ enclosed (commaList (columns.map fun column =>
      column.1 ++ " " ++ column.2.text)))

def createRoutine (default : String) (catalog : Catalog) (definition : RoutineDefinition) :
    Logged Catalog := do
  let (schema, name) := splitPath default definition.path
  let parameters := definition.parameters.mapIdx parameterAt
  let traits := definition.options.foldl RoutineTraits.take {}
  if traits.definition == "" then
    debug ("Function " ++ schema ++ "." ++ name ++ " has no string body")
  let arguments := identityArguments parameters
  let signature := commaList (parameters.map (·.sql))
  if definition.isProcedure then
    let procedure : Procedure := {
      schema
      name
      definition := traits.definition
      language := Text.givenOr traits.language "plpgsql"
      arguments
      signature }
    return catalog.updateSchema schema fun s =>
      { s with procedures := s.procedures.put name procedure }
  else
    let function : StoredFunction := {
      schema
      name
      definition := traits.definition
      language := Text.givenOr traits.language "sql"
      arguments
      signature
      returnType := resultType definition
      parameters
      volatility := traits.volatility
      isStrict := traits.isStrict
      isSecurityDefiner := traits.isSecurityDefiner }
    return catalog.updateSchema schema fun s => { s with functions := s.functions.put name function }

/-! ## Aggregates -/

def DefinitionValue.plain : DefinitionValue → String
  | .type t => ".".intercalate t.path
  | .text value => value

/-- The schema and the name of a function that an aggregate uses. -/
def supportFunction (value : DefinitionValue) : Option String × Option String :=
  let parts := (Text.splitAt '.' (DefinitionValue.plain value).toList).map String.ofList
  match parts.reverse with
  | name :: schema :: _ => (some schema, some name)
  | [name] => (none, some name)
  | [] => (none, none)

def aggregateEntry (hasArguments : Bool) (a : Aggregate) (entry : String × DefinitionValue) :
    Aggregate :=
  let (key, value) := entry
  match Text.lower key with
  | "sfunc" =>
    let (schema, name) := supportFunction value
    { a with transition := name, transitionSchema := schema }
  | "stype" =>
    let type :=
      match value with
      | .type t => t.text
      | .text written => written
    { a with stateType := type }
  | "initcond" => { a with initialCondition := DefinitionValue.plain value }
  | "finalfunc" =>
    let (schema, name) := supportFunction value
    { a with final := name, finalSchema := schema }
  | "basetype" =>
    if hasArguments then a
    else { a with arguments := canonicalType (DefinitionValue.plain value) }
  | _ => a

def createAggregate (default : String) (catalog : Catalog) (definition : AggregateDefinition) :
    Catalog :=
  let (schema, name) := splitPath default definition.path
  let plain : Aggregate := {
    schema
    name
    arguments := commaList (definition.arguments.map (·.text)) }
  let aggregate := definition.entries.foldl (aggregateEntry !definition.arguments.isEmpty) plain
  catalog.updateSchema schema fun s => { s with aggregates := s.aggregates.put name aggregate }

end SchemaScript.Effect
