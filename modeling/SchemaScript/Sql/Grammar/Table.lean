import SchemaScript.Sql.Grammar.Column

/-!
# Reading tables
-/

namespace SchemaScript.Sql.Reader

/-! ## Elements -/

/-- A reference to another table's columns; it is passed over. -/
def likeElement (r : Rules) : Reader TableElement := do
  word "like"
  let _ ← relationPath r
  let _ ← many do
    match ← acceptAny ["including", "excluding"] with
    | some _ =>
      return some (← oneOf ["comments", "compression", "constraints", "defaults", "identity",
        "generated", "indexes", "statistics", "storage", "all"])
    | none => return none
  return .other "TableLikeClause"

def tableElement (r : Rules) : Reader TableElement := do
  if ← atConstraint then return .constraint (← tableConstraint r)
  if ← atWord "like" then return ← likeElement r
  return .column (← columnDefinition r)

/-- A column of a table whose columns have their types from elsewhere. -/
def typedElement (r : Rules) : Reader TableElement := do
  if ← atConstraint then return .constraint (← tableConstraint r)
  let name ← columnName
  let _ ← acceptPhrase ["with", "options"]
  return .column { name, type := { path := [] }, rules := ← columnRules r name }

def typedElements (r : Rules) : Reader (List TableElement) := do
  return (← maybeParenthesized (list (typedElement r))).getD []

/-- The elements of a table, which may have none. -/
def tableElements (r : Rules) : Reader (List TableElement) :=
  parenthesized do
    if ← atSymbol ")" then return []
    list (tableElement r)

/-- The tables that a table takes columns from. -/
def parentList (r : Rules) : Reader (List RelationName) := do
  if ← acceptWord "inherits" then parenthesized (list (relationName r)) else return []

/-! ## Partitions -/

def partitionKey (r : Rules) : Reader String := do
  let (key, isExpression) ← indexKey r
  if ← acceptWord "collate" then
    let _ ← anyName
  if ← isColumnNameAhead 0 then
    let _ ← anyName
  return if isExpression then enclosed key else key

def strategy? (name : String) : Option PartitionStrategy :=
  match Text.lower name with
  | "range" => some .range
  | "list" => some .list
  | "hash" => some .hash
  | _ => none

def partitioning (r : Rules) : Reader (Option Partitioning) := do
  unless ← acceptWord "partition" do return none
  word "by"
  let at? ← place
  let name ← columnName
  let keys ← parenthesized (list (partitionKey r))
  match strategy? name with
  | some strategy => return some { strategy, keys }
  | none => breach ("unrecognized partitioning strategy \"" ++ name ++ "\"") at?

/-- An entry of a bound on hashes, with its place. -/
def hashEntry : Reader (String × Nat × Option Nat) := do
  let at? ← place
  let name ← plainName
  return (name, ← integer, at?)

/-- How many parts the hashes are divided into, and which of them the rows have. -/
structure HashBound where
  modulus : Option Nat := none
  remainder : Option Nat := none

def HashBound.add (bound : HashBound) : String × Nat × Option Nat → Reader HashBound
  | ("modulus", n, at?) => do
    if bound.modulus.isSome then
      breach "modulus for hash partition provided more than once" at?
    return { bound with modulus := some n }
  | ("remainder", n, at?) => do
    if bound.remainder.isSome then
      breach "remainder for hash partition provided more than once" at?
    return { bound with remainder := some n }
  | (name, _, at?) =>
    breach ("unrecognized hash partition bound specification \"" ++ name ++ "\"") at?

/-- A bound on hashes after its first word, which is at `at?`. -/
def hashBound (at? : Option Nat) : Reader String := do
  let entries ← parenthesized (list hashEntry)
  let bound ← entries.foldlM HashBound.add {}
  let some modulus := bound.modulus | breach "modulus for hash partition must be specified" at?
  let some remainder := bound.remainder
    | breach "remainder for hash partition must be specified" at?
  return "FOR VALUES WITH " ++ enclosed (commaList
    ["MODULUS " ++ Text.writeNatural modulus, "REMAINDER " ++ Text.writeNatural remainder])

def boundValues (r : Rules) : Reader String := do
  return enclosed (commaList (← parenthesized (plainExpressions r)))

/-- The rows that a partition takes from its parent. -/
def partitionBound (r : Rules) : Reader String := do
  if ← acceptWord "default" then return "DEFAULT"
  word "for"
  word "values"
  if ← acceptWord "in" then return "FOR VALUES IN " ++ (← boundValues r)
  if ← acceptWord "from" then
    let low ← boundValues r
    word "to"
    return "FOR VALUES FROM " ++ low ++ " TO " ++ (← boundValues r)
  let at? ← place
  word "with"
  hashBound at?

/-! ## Creation -/

/-- Whether a relation is temporary, where that can be said. -/
def persistence : Reader (Option Bool) := do
  if (← acceptAny ["local", "global"]).isSome then
    let _ ← oneOf ["temporary", "temp"]
    return some true
  return (← acceptAny ["temporary", "temp", "unlogged"]).map (· != "unlogged")

/-- How and where a table is stored. -/
def tableStorage (r : Rules) : Reader Unit := do
  if ← acceptWord "using" then
    let _ ← columnName
  if ← acceptWord "without" then word "oids" else storageOptions r
  if ← acceptWord "on" then
    word "commit"
    unless (← oneOf ["drop", "delete", "preserve"]) == "drop" do word "rows"
  tablespace

/-- The end of a table's definition. -/
def tableEnd (r : Rules) : Reader (Option Partitioning) := do
  let partitioning ← partitioning r
  tableStorage r
  return partitioning

/-- Whether the rows are copied as well. -/
def withData : Reader Unit := do
  if ← acceptWord "with" then
    let _ ← acceptWord "no"
    word "data"

/-- The query that a table takes its rows from. -/
def tableQuery (r : Rules) : Reader Query := do
  word "as"
  let q ← r.query
  withData
  return q

/-- The use of a prepared query, after the word `EXECUTE`. -/
def execution (r : Rules) : Reader Unit := do
  let _ ← columnName
  let _ ← maybeParenthesized (expressions r)

def tableAs (r : Rules) : Reader Statement := do
  tableStorage r
  if ← atWords ["as", "execute"] then
    words ["as", "execute"]
    execution r
    withData
  else
    let _ ← tableQuery r
  return .createTableAs

/-- A plain list of names follows, which only a table made from a query can have. -/
def atNameList : Reader Bool := do
  let next ← ahead 2
  return (← isColumnNameAhead 1) && (next == some (.symbol ",") || next == some (.symbol ")"))

/-- The rest of a statement that creates a table, after the word `TABLE`. Inside the definition of a
schema a table cannot be made from a query. -/
def createTable (r : Rules) (isTemporary isInside : Bool) : Reader Statement := do
  let _ ← ifNotExists
  let relation ← relationName r
  let table : TableDefinition := { relation, isTemporary }
  if ← acceptWord "of" then
    let _ ← anyName
    let elements ← typedElements r
    return .createTable { table with elements, partitioning := ← tableEnd r }
  if ← acceptWord "partition" then
    word "of"
    let parent ← relationName r
    let elements ← typedElements r
    let bound ← partitionBound r
    return .createTable
      { table with elements, parents := [parent], bound := some bound, partitioning := ← tableEnd r }
  if isInside && !(← atSymbol "(") then refuse
  if !isInside && (← atSymbol "(") && (← atNameList) then
    let _ ← parenthesized (list columnName)
    return ← tableAs r
  if ← atSymbol "(" then
    let elements ← tableElements r
    let parents ← parentList r
    return .createTable { table with elements, parents, partitioning := ← tableEnd r }
  tableAs r

end SchemaScript.Sql.Reader
