import SchemaScript.Sql.Grammar.Definition
import SchemaScript.Sql.Grammar.Query

/-!
# Reading changes to rows

Insertions, updates, deletions and merges. They can stand where a query stands if another query uses
their rows by name.
-/

namespace SchemaScript.Sql.Reader

/-! ## Targets -/

/-- The relation that is changed, with another name for it; that is never a bare `SET`. -/
def changeTarget (r : Rules) : Reader String := do
  let (isOnly, path) ← openPath r
  let relation := (Source.ofTable isOnly path).text
  if ← acceptWord "as" then return relation ++ " AS " ++ phraseName (← columnName)
  if !(← atWord "set") && (← isColumnNameAhead 0) then
    return relation ++ " AS " ++ phraseName (← columnName)
  return relation

/-- A column, or a part of its value. -/
def columnTarget (r : Rules) : Reader String := do
  return phraseName (← columnName) ++ String.join ((← checkedParts r).map (·.text))

/-- Columns between parentheses. -/
def columnTargets (r : Rules) : Reader String := do
  return commaList (← parenthesized (list (columnTarget r)))

def assignment (r : Rules) : Reader String := do
  let target ← if ← atSymbol "(" then pure ("( " ++ (← columnTargets r) ++ ")") else columnTarget r
  symbol "="
  return target ++ " = " ++ (← r.expression).text

def assignments (r : Rules) : Reader String := do
  word "set"
  return "SET " ++ commaList (← list (assignment r))

/-! ## Endings -/

def whereClause (r : Rules) : Reader (List String) := do
  return (← clause "where" "WHERE " do return (← r.expression).text).toList

/-- The rows to change: those of a condition, or the one where a cursor is. -/
def rowChoice (r : Rules) : Reader (List String) := do
  if ← acceptWords ["where", "current", "of"] then
    return ["WHERE CURRENT OF " ++ phraseName (← columnName)]
  whereClause r

/-- What is known of the changed rows afterwards. -/
def returningClause (r : Rules) : Reader (List String) := do
  unless ← acceptWord "returning" do return []
  let names ←
    if ← acceptWord "with" then
      let names ← parenthesized <| list do
        let w ← oneOf ["old", "new"]
        word "as"
        return Text.upper w ++ " AS " ++ phraseName (← columnName)
      pure ("WITH " ++ enclosed (commaList names) ++ " ")
    else pure ""
  return ["RETURNING " ++ names ++ commaList (← list (selectItem r))]

/-! ## Insertion -/

/-- Whose values the columns get that are generated otherwise. -/
def overriding : Reader (List String) := do
  unless ← acceptWord "overriding" do return []
  let who ← oneOf ["user", "system"]
  word "value"
  return ["OVERRIDING " ++ Text.upper who ++ " VALUE"]

/-- The rows to insert. -/
def insertedRows (r : Rules) : Reader (List String) := do
  if ← acceptPhrase ["default", "values"] then return ["DEFAULT VALUES"]
  let isQuery :=
    match ← ahead 1, ← ahead 2 with
    | some (.symbol s), _ => s == "("
    | some (.word "values"), next => next == some (.symbol "(")
    | some token, _ => token.opensQuery
    | none, _ => false
  let columns ←
    if (← atSymbol "(") && !isQuery then pure [enclosed (← columnTargets r)] else pure []
  let values ← overriding
  return columns ++ values ++ [(← r.query).text]

/-- The rows that are there already. -/
def conflictTarget (r : Rules) : Reader (List String) := do
  if ← acceptPhrase ["on", "constraint"] then return ["ON CONSTRAINT " ++ phraseName (← columnName)]
  unless ← atSymbol "(" do return []
  let keys ← parenthesized (list (indexElement r))
  return enclosed (commaList (keys.map (·.key))) :: (← whereClause r)

/-- What to do where a row is there already. -/
def conflictClause (r : Rules) : Reader (List String) := do
  unless ← acceptWord "on" do return []
  word "conflict"
  let target ← conflictTarget r
  word "do"
  let action ←
    if ← acceptWord "nothing" then pure ["NOTHING"]
    else
      word "update"
      let values ← assignments r
      pure ("UPDATE" :: values :: (← whereClause r))
  return ["ON CONFLICT"] ++ target ++ ["DO"] ++ action

def insertion (r : Rules) : Reader (List String) := do
  word "into"
  let path ← relationPath r
  let name ← if ← acceptWord "as" then pure ["AS " ++ phraseName (← columnName)] else pure []
  let rows ← insertedRows r
  let conflict ← conflictClause r
  return ["INSERT INTO", phrasePath path] ++ name ++ rows ++ conflict ++ (← returningClause r)

/-! ## Other changes -/

def sourceList (r : Rules) : Reader String := do
  return commaList ((← list (source r)).map (·.text))

def update (r : Rules) : Reader (List String) := do
  let target ← changeTarget r
  let values ← assignments r
  let sources ← clause "from" "FROM " (sourceList r)
  let rows ← rowChoice r
  return ["UPDATE", target, values] ++ sources.toList ++ rows ++ (← returningClause r)

def deletion (r : Rules) : Reader (List String) := do
  word "from"
  let target ← changeTarget r
  let sources ← clause "using" "USING " (sourceList r)
  let rows ← rowChoice r
  return ["DELETE FROM", target] ++ sources.toList ++ rows ++ (← returningClause r)

/-- A row that a merge inserts. -/
def mergedRow (r : Rules) : Reader (List String) := do
  if ← acceptPhrase ["default", "values"] then return ["DEFAULT VALUES"]
  let columns ← if ← atSymbol "(" then pure [enclosed (← columnTargets r)] else pure []
  let values ← overriding
  word "values"
  let row ← parenthesized (plainExpressions r)
  return columns ++ values ++ ["VALUES " ++ enclosed (commaList row)]

/-- What a merge does with a row of one kind. -/
def mergeBranch (r : Rules) : Reader (Option String) := do
  unless ← acceptWord "when" do return none
  let isNegated ← acceptWord "not"
  word "matched"
  let side ←
    if ← both isNegated (acceptWord "by") then oneOf ["source", "target"] else pure "target"
  let isInsertion := isNegated && side == "target"
  let front := if isNegated then "NOT MATCHED BY " ++ Text.upper side else "MATCHED"
  let condition ← clause "and" "AND " do return (← r.expression).text
  word "then"
  let action ← do
    if ← acceptWord "do" then
      word "nothing"
      pure ["DO NOTHING"]
    else if isInsertion then
      word "insert"
      pure ("INSERT" :: (← mergedRow r))
    else if ← acceptWord "delete" then pure ["DELETE"]
    else
      word "update"
      pure ["UPDATE", ← assignments r]
  return some (" ".intercalate (["WHEN", front] ++ condition.toList ++ ["THEN"] ++ action))

def merge (r : Rules) : Reader (List String) := do
  word "into"
  let target ← changeTarget r
  word "using"
  let source ← source r
  word "on"
  let condition ← r.expression
  let branches ← many (mergeBranch r)
  if branches.isEmpty then refuse
  return ["MERGE INTO", target, "USING", source.text, "ON", condition.text] ++ branches ++
    (← returningClause r)

/-! ## Queries and changes -/

def rowStatementWith (r : Rules) : Reader RowStatement := do
  let at? ← place
  let context ← contextClause r
  let change (label : String) (parts : Reader (List String)) : Reader RowStatement := do
    return { label, text := " ".intercalate (context.toList ++ (← parts)) }
  match ← acceptAny ["insert", "update", "delete", "merge"] with
  | some "insert" => change "InsertStmt" (insertion r)
  | some "update" => change "UpdateStmt" (update r)
  | some "delete" => change "DeleteStmt" (deletion r)
  | some _ => change "MergeStmt" (merge r)
  | none => return .ofQuery (← queryIn r context at?)

end SchemaScript.Sql.Reader
