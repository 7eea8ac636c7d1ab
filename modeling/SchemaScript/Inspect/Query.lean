import SchemaScript.Inspect.Attached
import SchemaScript.Inspect.Object
import SchemaScript.Inspect.Table

/-!
# Queries

What a database is asked, in order, and what the rows of each answer do to a catalog. Rows take
effect one by one, so that a bad row leaves the effect of those before it.
-/

namespace SchemaScript.Inspect

inductive Query
  | version
  | schemas
  | extensions
  | tables
  | columns
  | constraints
  | indexes
  | sequences
  | views
  | routines
  | aggregates
  | types
  | members
  | domainConstraints
  | triggers
  | policies
  | partitions
  deriving DecidableEq, Repr

/-- All queries in the order in which they are asked. -/
def Query.all : List Query :=
  [version, schemas, extensions, tables, columns, constraints, indexes, sequences, views, routines,
   aggregates, types, members, domainConstraints, triggers, policies, partitions]

/-- The query can be narrowed to some schemas. -/
def Query.isNarrowed : Query → Bool
  | version | extensions => false
  | _ => true

/-- The version counts only in the first row; a catalog without one has an empty version. -/
def withVersion (catalog : Catalog) (version : Json) : Catalog :=
  { catalog with
    metadata := { databaseVersion := ⟨version⟩, dumpVersion, source := "database" } }

/-- What one row does. -/
def Query.row : Query → Catalog → Row → Logged Catalog
  | version => fun catalog row => return withVersion catalog (row.headD (.text ""))
  | schemas => schemaRow
  | extensions => extensionRow
  | tables => tableRow
  | columns => columnRow
  | constraints => constraintRow
  | indexes => indexRow
  | sequences => sequenceRow
  | views => viewRow
  | routines => routineRow
  | aggregates => aggregateRow
  | types => typeRow
  | members => memberRow
  | domainConstraints => domainConstraintRow
  | triggers => triggerRow
  | policies => policyRow
  | partitions => partitionRow

/-- The rows that count. -/
def Query.counted : Query → List Row → List Row
  | version, rows => [rows.headD []]
  | _, rows => rows

/-- A catalog in the making: `fault` is what stopped its making. -/
structure Loading where
  catalog : Catalog
  log : List LogEntry := []
  fault : Option Fault := none

/-- Lets rows take effect one by one until one is at fault. -/
def absorb (step : Catalog → Row → Logged Catalog) (catalog : Catalog) : List Row → Loading
  | [] => { catalog }
  | row :: rows =>
    let changed := step catalog row
    match changed.result with
    | .ok next =>
      let rest := absorb step next rows
      { rest with log := changed.log ++ rest.log }
    | .error fault => { catalog, log := changed.log, fault := some fault }

def Query.load (query : Query) (catalog : Catalog) (rows : List Row) : Loading :=
  absorb query.row catalog (query.counted rows)

/-- What was asked and what came of it: for each query the schemas it was narrowed to, if any. -/
structure Inspection where
  catalog : Catalog
  parameters : List (Option (List String)) := []
  log : List LogEntry := []
  fault : Option Fault := none

/-- The schemas that a query is narrowed to; none are the same as all. -/
def Query.parameter (query : Query) (names : List String) : Option (List String) :=
  if query.isNarrowed && !names.isEmpty then some names else none

/-- Asks one query after the other. Each takes the next answer; where there is none, it has no
rows. -/
def ask (names : List String) (catalog : Catalog) : List Query → List (List Row) → Inspection
  | [], _ => { catalog }
  | query :: queries, answers =>
    let loading := query.load catalog (answers.headD [])
    let parameter := query.parameter names
    match loading.fault with
    | some fault =>
      { catalog := loading.catalog, parameters := [parameter], log := loading.log, fault := some fault }
    | none =>
      let rest := ask names loading.catalog queries answers.tail
      { rest with parameters := parameter :: rest.parameters, log := loading.log ++ rest.log }

/-- Asks a whole database, or only some of its schemas. -/
def Inspection.ofDatabase (names : List String) (answers : List (List Row)) : Inspection :=
  let inspection := ask names {} Query.all answers
  match inspection.fault with
  | some _ => inspection
  | none =>
    let count := Text.writeNatural inspection.catalog.schemas.size
    { inspection with log := inspection.log ++ [⟨.info, "Inspected " ++ count ++ " schemas"⟩] }

def Inspection.logged (inspection : Inspection) : Logged Catalog :=
  match inspection.fault with
  | some fault => ⟨inspection.log, .error fault⟩
  | none => ⟨inspection.log, .ok inspection.catalog⟩

end SchemaScript.Inspect
