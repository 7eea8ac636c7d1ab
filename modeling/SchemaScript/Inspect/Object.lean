import SchemaScript.Inspect.Row

/-!
# Rows about the other objects of a schema

Schemas, extensions, sequences, views, routines, aggregates and types.
-/

namespace SchemaScript.Inspect

def schemaRow (catalog : Catalog) : Row → Logged Catalog
  | [name, owner] =>
    return catalog.updateSchema (Cell.name name) fun s => { s with owner := ⟨owner⟩ }
  | row => .fail (widthFault 2 row)

def extensionRow (catalog : Catalog) : Row → Logged Catalog
  | [name, schema, version, comment] =>
    let extension : Extension := {
      name := ⟨name⟩
      schema := ⟨schema⟩
      version := ⟨version⟩
      comment := ⟨comment⟩ }
    return { catalog with extensions := catalog.extensions.put (Cell.name name) extension }
  | row => .fail (widthFault 4 row)

/-! ## Sequences -/

/-- The largest value of each type that a sequence may have. -/
def largestValues : List (String × Int) :=
  [("smallint", 32767), ("integer", 2147483647), ("bigint", 9223372036854775807)]

/-- A bound, unless it is the one that holds without any. -/
def bound (cell : Json) (standIn : Option Int) : Field Int :=
  if (standIn.map fun n => cell.isNumber n).getD false then .absent else ⟨cell⟩

def sequenceRow (catalog : Catalog) : Row → Logged Catalog
  | [schema, name, type, start, increment, minimum, maximum, cycle, table, column, comment] => do
    let dataType ← .ofResult (Cell.type type)
    let step ← .ofResult (Cell.integer increment)
    let first ← .ofResult (Cell.integer start)
    let largest := (largestValues.find? fun entry => dataType == (entry.1 : String)).map (·.2)
    let sequence : Sequence := {
      schema := ⟨schema⟩
      name := ⟨name⟩
      dataType
      start := first
      increment := step
      minimum := bound minimum (if 0 < step then some 1 else none)
      maximum := bound maximum (if 0 < step then largest else some (-1))
      cycle := Cell.isSet cycle
      ownerTable := ⟨table⟩
      ownerColumn := ⟨column⟩
      comment := ⟨comment⟩ }
    return catalog.updateSchema (Cell.name schema) fun s =>
      { s with sequences := s.sequences.put (Cell.name name) sequence }
  | row => .fail (widthFault 11 row)

def viewRow (catalog : Catalog) : Row → Logged Catalog
  | [schema, name, materialized, definition, comment] => do
    let query ← .ofResult (Cell.letters definition)
    let view : View := {
      schema := ⟨schema⟩
      name := ⟨name⟩
      definition := Text.strip query
      materialized := Cell.isSet materialized
      comment := ⟨comment⟩ }
    return catalog.updateSchema (Cell.name schema) fun s =>
      { s with views := s.views.put (Cell.name name) view }
  | row => .fail (widthFault 5 row)

/-! ## Routines -/

/-- Adds a routine unless its name is taken: of several overloads the first one stays, and each of
the others is told in the log. -/
def putFirst {α : Type} (word : String) (identity : α → String) (schema name : Json)
    (entries : Entries α) (value : α) : Logged (Entries α) :=
  match entries.get? (Cell.name name) with
  | none => return entries.put (Cell.name name) value
  | some kept => do
    Logged.warning (word ++ " " ++ Cell.name schema ++ "." ++ Cell.name name ++
      " is overloaded; keeping " ++ identity kept)
    return entries

def volatilityCodes : List (String × String) :=
  [("i", "IMMUTABLE"), ("s", "STABLE"), ("v", "VOLATILE")]

def routineRow (catalog : Catalog) : Row → Logged Catalog
  | [schema, name, kind, language, arguments, signature, result, body, volatility, strict, definer,
      comment] => do
    let owner := catalog.schemaOrNew (Cell.name schema)
    if Cell.isWord "p" kind then
      let procedure : Procedure := {
        schema := ⟨schema⟩
        name := ⟨name⟩
        definition := ⟨body⟩
        language := ⟨language⟩
        arguments := ⟨arguments⟩
        signature := ⟨signature⟩
        comment := ⟨comment⟩ }
      let procedures ←
        putFirst "Procedure" Procedure.identity schema name owner.procedures procedure
      return catalog.updateSchema (Cell.name schema) fun s => { s with procedures }
    else
      let function : StoredFunction := {
        schema := ⟨schema⟩
        name := ⟨name⟩
        definition := ⟨body⟩
        language := ⟨language⟩
        arguments := ⟨arguments⟩
        signature := ⟨signature⟩
        returnType := ⟨result⟩
        volatility := Cell.decode volatilityCodes volatility
        isStrict := Cell.isSet strict
        isSecurityDefiner := Cell.isSet definer
        comment := ⟨comment⟩ }
      let functions ←
        putFirst "Function" StoredFunction.identity schema name owner.functions function
      return catalog.updateSchema (Cell.name schema) fun s => { s with functions }
  | row => .fail (widthFault 12 row)

/-- The schema of a function that an aggregate uses; what the system brings along needs none. -/
def supportSchema (cell : Json) : Field String :=
  if Cell.isWord "pg_catalog" cell then .absent else ⟨cell⟩

def aggregateRow (catalog : Catalog) : Row → Logged Catalog
  | [schema, name, arguments, result, transition, transitionSchema, state, initial, final,
      finalSchema, comment] => do
    let type ← .ofResult (Cell.type state)
    let aggregate : Aggregate := {
      schema := ⟨schema⟩
      name := ⟨name⟩
      arguments := ⟨arguments⟩
      returnType := ⟨result⟩
      transition := ⟨transition⟩
      transitionSchema := supportSchema transitionSchema
      stateType := type
      initialCondition := ⟨initial⟩
      final := ⟨final⟩
      finalSchema := supportSchema finalSchema
      comment := ⟨comment⟩ }
    let owner := catalog.schemaOrNew (Cell.name schema)
    let aggregates ←
      putFirst "Aggregate" Aggregate.identity schema name owner.aggregates aggregate
    return catalog.updateSchema (Cell.name schema) fun s => { s with aggregates }
  | row => .fail (widthFault 11 row)

/-! ## Types -/

def typeCodes : List (String × TypeKind) :=
  [("e", .enum), ("c", .composite), ("d", .domain)]

def typeRow (catalog : Catalog) : Row → Logged Catalog
  | [schema, name, code, comment, labels, base, notNull, default] => do
    let kind ← .ofResult (Cell.decodeKnown typeCodes code)
    let labels ← .ofResult (Cell.items labels)
    let type : UserType := {
      schema := ⟨schema⟩
      name := ⟨name⟩
      kind
      labels := ⟨.list labels⟩
      base := ⟨base⟩
      notNull := Cell.isSet notNull
      default := ⟨default⟩
      comment := ⟨comment⟩ }
    return catalog.updateSchema (Cell.name schema) fun s =>
      { s with types := s.types.put (Cell.name name) type }
  | row => .fail (widthFault 8 row)

/-- Changes a type that the catalog has; a row for another type says nothing. -/
def atType (catalog : Catalog) (schema type : Json) (f : UserType → Except Fault UserType) :
    Logged Catalog :=
  match (catalog.schemas.get? (Cell.name schema)).bind fun s => s.types.get? (Cell.name type) with
  | none => return catalog
  | some found => do
    let changed ← .ofResult (f found)
    return catalog.updateSchema (Cell.name schema) fun s =>
      { s with types := s.types.put (Cell.name type) changed }

def memberRow (catalog : Catalog) : Row → Logged Catalog
  | [schema, type, name, dataType, position] =>
    atType catalog schema type fun owner => do
      let member : Member := {
        name := ⟨name⟩
        dataType := ← Cell.type dataType
        position := ← Cell.integer position }
      return { owner with members := owner.members ++ [member] }
  | row => .fail (widthFault 5 row)

def domainConstraintRow (catalog : Catalog) : Row → Logged Catalog
  | [schema, type, name, definition] =>
    atType catalog schema type fun owner =>
      let constraint : DomainConstraint :=
        { definition := ⟨definition⟩, name := ⟨name⟩ }
      .ok { owner with constraints := owner.constraints ++ [constraint] }
  | row => .fail (widthFault 4 row)

end SchemaScript.Inspect
