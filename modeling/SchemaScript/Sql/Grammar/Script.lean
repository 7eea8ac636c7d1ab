import SchemaScript.Sql.Grammar.Other

/-!
# Reading statements and scripts

The top of the grammar.
-/

/-!
## Reading statements

A statement shows by its first words what it is.
-/

namespace SchemaScript.Sql.Reader

/-- What can be created in place of an older one, in a statement that begins at `at?`. -/
def createOrReplace (r : Rules) (at? : Option Nat) : Reader Statement := do
  let persistence ← persistence
  if let some statement ← viewCreation r then return statement
  if persistence.isSome then refuse
  if let some statement ← triggerCreation r (some at?) then return statement
  match ← acceptAny ["function", "procedure", "aggregate"] with
  | some "function" => createRoutine r false
  | some "procedure" => createRoutine r true
  | some _ => createAggregate r
  | none =>
    let creation ← entry (replaceableObjects r)
    creation

/-- A relation that can be temporary or unlogged, if one is in front. -/
def relationCreation (r : Rules) : Reader (Option Statement) := do
  let isUnlogged ← atWord "unlogged"
  let persistence ← persistence
  if isUnlogged || persistence.isNone then
    if ← acceptPhrase ["materialized", "view"] then return some (← createMaterializedView r)
  if let some statement ← viewCreation r then return some statement
  match ← acceptAny ["table", "sequence"] with
  | some "table" => return some (← createTable r (persistence == some true) false)
  | some _ => return some (← createSequence r)
  | none => if persistence.isSome then refuse else return none

/-- What is created, after the first word of a statement that begins at `at?`. -/
def creation (r : Rules) (at? : Option Nat) : Reader Statement := do
  if ← acceptPhrase ["or", "replace"] then return ← createOrReplace r at?
  if let some statement ← relationCreation r then return statement
  if let some statement ← triggerCreation r none then return statement
  match ← acceptAny ["index", "unique", "type", "domain", "schema", "extension", "function",
    "procedure", "aggregate", "policy"] with
  | some "index" => createIndex r false
  | some "unique" =>
    word "index"
    createIndex r true
  | some "type" => createType r
  | some "domain" => createDomain r
  | some "schema" => createSchema r
  | some "extension" => createExtension
  | some "function" => createRoutine r false
  | some "procedure" => createRoutine r true
  | some "aggregate" => createAggregate r
  | some _ => createPolicy r
  | none => otherCreation r at?

def change (r : Rules) : Reader Statement := do
  match ← acceptAny ["table", "index", "view", "sequence", "type"] with
  | some "table" => alterTable r
  | some "index" => alterIndex r
  | some "view" => alterView r
  | some "sequence" => alterSequence r
  | some _ => alterType r
  | none =>
    if ← acceptPhrase ["materialized", "view"] then return ← alterMaterializedView r
    if ← acceptWords ["foreign", "table"] then return ← alterForeignTable r
    otherChange r

/-- A query or a change to rows is in front. -/
def atRowStatement : Reader Bool := do
  match ← front with
  | some (.symbol s) => return s == "("
  | some (.word "values") | some (.word "insert") | some (.word "update") | some (.word "delete")
  | some (.word "merge") => return true
  | some token => return token.opensQuery
  | none => return false

def statement (r : Rules) : Reader Statement := do
  if ← atRowStatement then return .other (← r.rowStatement).label
  let at? ← place
  match ← acceptAny ["create", "alter", "drop", "comment"] with
  | some "create" => creation r at?
  | some "alter" => change r
  | some "drop" => dropped r
  | some _ =>
    word "on"
    commentStatement r
  | none => otherStatement r

/-- A statement that is not inside another one. -/
def outerStatement (r : Rules) : Reader Statement := do
  match ← acceptAny ["begin", "end"] with
  | some w => transaction w
  | none => statement r

/-!
## The levels of the grammar

The recursive rules, each level made of the one below it.
-/

/-- Rules that may be nested so many levels deep. -/
def rulesTo : Nat → Rules
  | 0 => .empty
  | depth + 1 =>
    let r := rulesTo depth
    { operand := operandWith r
      primary := primaryWith r
      group := groupWith r
      array := arrayWith r
      query := queryWith r
      rowStatement := rowStatementWith r
      statement := discard (statement r)
      queryAfter := queryAfterWith r
      sourceGroup := sourceGroupWith r
      joinAfter := joinWith r
      groupings := groupingsWith r }

/-- Rules for a text of so many lexemes. No lexeme leads more than three levels down. -/
def rulesFor (lexemes : List Lexeme) : Rules :=
  rulesTo (3 * lexemes.length + 10)

end SchemaScript.Sql.Reader

/-!
## Reading scripts

A script is a list of statements with semicolons between them; there may be more semicolons.
-/

namespace SchemaScript.Sql
namespace Reader

/-- One more statement, with the semicolons before it. -/
def nextStatement (r : Rules) (found : List Statement) : Reader (Option (List Statement)) := do
  if ← acceptSymbol ";" then return some found
  match ← front with
  | none => return none
  | some _ =>
    let s ← outerStatement r
    match ← front with
    | none => return some (s :: found)
    | some _ =>
      symbol ";"
      return some (s :: found)

def script (r : Rules) : Reader (List Statement) := do
  return (← repeated (nextStatement r) []).reverse

end Reader

/-- The statements of a script. The whole text is read before any of them counts. -/
def statements (sql : String) : Except Flaw (List Statement) :=
  let lexemes := scan sql
  return (← (Reader.script (Reader.rulesFor lexemes)).run lexemes).1

end SchemaScript.Sql
