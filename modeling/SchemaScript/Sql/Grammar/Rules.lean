import SchemaScript.Sql.Query
import SchemaScript.Sql.Reader

/-!
# Rules and names

The rules that contain each other, and the names with parts that most of them read.
-/

/-!
## The recursive rules

Expressions and queries contain each other. Each reader for them is a function of the rules that it
uses for what stands inside; the rules themselves are then built level by level.
-/

namespace SchemaScript.Sql

/-- What stands between a pair of parentheses: a query, or one expression or more. -/
inductive Group
  | query (q : Query)
  | items (phrases : List Phrase)

/-- What stands between parentheses among the sources of a query. -/
inductive SourceGroup
  | query (q : Query)
  | join (s : Source)

/-- How far an expression goes. -/
inductive Extent
  | full
  /-- To a word that would be an operator if the item of a selection did not end behind it. -/
  | labeled
  /-- To the word `SIMILAR`, if that begins no operator. -/
  | beforeSimilar
  /-- It has hardly any operators that are words. -/
  | restricted
  deriving DecidableEq

/-- How far the operands of such an expression go. -/
def Extent.ofOperands : Extent → Extent
  | restricted => .restricted
  | _ => .full

/-- Readers for the rules of the grammar that lead back to themselves. -/
structure Rules where
  /-- An expression whose outer operators are at least as tight as a rank. -/
  operand : Extent → Nat → Reader Phrase
  /-- An expression without operators around it. -/
  primary : Reader Phrase
  /-- From an opening parenthesis to its closing one. -/
  group : Reader Group
  /-- The elements of an array, from bracket to bracket. -/
  array : Reader Phrase
  query : Reader Query
  /-- A query or a change to rows. -/
  rowStatement : Reader RowStatement
  /-- Any statement that can stand inside another one. -/
  statement : Reader Unit
  /-- The rest of a query that begins with one between parentheses. -/
  queryAfter : Query → Reader Query
  sourceGroup : Reader SourceGroup
  /-- A join whose left part is read already. -/
  joinAfter : Source → Reader Source
  /-- The items of a grouping. -/
  groupings : Reader (List String)

namespace Rules

/-- Rules that refuse everything. -/
def empty : Rules where
  operand _ _ := Reader.refuse
  primary := Reader.refuse
  group := Reader.refuse
  array := Reader.refuse
  query := Reader.refuse
  rowStatement := Reader.refuse
  statement := Reader.refuse
  queryAfter _ := Reader.refuse
  sourceGroup := Reader.refuse
  joinAfter _ := Reader.refuse
  groupings := Reader.refuse

/-- Any expression. -/
def expression (r : Rules) : Reader Phrase :=
  r.operand .full 0

/-- An expression that can stand before words of a clause. -/
def restrictedExpression (r : Rules) : Reader Phrase :=
  r.operand .restricted 0

/-- A query between parentheses. -/
def enclosedQuery (r : Rules) : Reader Query := do
  match ← r.group with
  | .query q => return q
  | .items _ => Reader.refuse

end Rules
end SchemaScript.Sql

/-!
## Reading names with parts

Behind a name there can be fields and elements of what it names. Where a relation or a routine is
meant they have to be plain names, which is seen only when all of them are read.
-/

namespace SchemaScript.Sql.Reader

/-- What can stand behind a name. -/
inductive Part
  | field (name : String)
  | all
  /-- An element or a range of elements, as it is written. -/
  | element (text : String)
  deriving DecidableEq

def Part.text : Part → String
  | field name => "." ++ phraseName name
  | all => ".*"
  | element text => "[" ++ text ++ "]"

def Part.field? : Part → Option String
  | field name => some name
  | _ => none

/-- A pair of brackets with an element or a range of elements. -/
def subscript (r : Rules) : Reader Part := do
  symbol "["
  let bound : Reader String := do
    if (← atSymbol ":") || (← atSymbol "]") then return "" else return (← r.expression).text
  let low ← bound
  if ← acceptSymbol ":" then
    let high ← bound
    symbol "]"
    return .element (low ++ ":" ++ high)
  if low == "" then refuse
  symbol "]"
  return .element low

def parts (r : Rules) : Reader (List Part) :=
  many do
    if ← atSymbol "[" then return some (← subscript r)
    unless ← acceptSymbol "." do return none
    if ← acceptSymbol "*" then return some .all
    return some (.field (← label))

/-- All fields can only be meant at the end. -/
def checkedParts (r : Rules) : Reader (List Part) := do
  let found ← parts r
  if found.dropLast.contains .all then breachHere "improper use of \"*\""
  return found

/-- The names among the parts; there must be nothing else. -/
def fieldsOnly (found : List Part) : Reader (List String) := do
  match found.mapM Part.field? with
  | some names => return names
  | none => refuse

/-- The name of a relation with the names that lead to it, at most three in all. -/
def relationPath (r : Rules) : Reader (List String) := do
  let at? ← place
  let first ← columnName
  let path := first :: (← fieldsOnly (← parts r))
  if path.length > 3 then
    lateBreach ("improper qualified name (too many dotted names): " ++ ".".intercalate path) at?
  return path

/-- A relation by its path, and whether its descendants are left out. -/
def openPath (r : Rules) : Reader (Bool × List String) := do
  if ← acceptWord "only" then
    if ← atSymbol "(" then return (true, ← parenthesized (relationPath r))
    return (true, ← relationPath r)
  let path ← relationPath r
  let _ ← acceptSymbol "*"
  return (false, path)

/-- The name of a routine with the names that lead to it. Alone, the name of a column is none if its
arguments follow. -/
def routinePath (r : Rules) : Reader (List String) := do
  let isColumn ← isColumnNameAhead 0
  unless isColumn do return [← functionName]
  let isFunction := (nameOf? isFunctionName (← front)).isSome
  let first ← columnName
  let path := first :: (← fieldsOnly (← parts r))
  if path.length == 1 && !isFunction && (← atSymbol "(") then refuse
  return path

end SchemaScript.Sql.Reader
