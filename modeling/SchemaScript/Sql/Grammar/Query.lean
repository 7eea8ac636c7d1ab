import SchemaScript.Sql.Grammar.Source

/-!
# Reading queries

Intersections bind tighter than unions and differences. What stands behind a query between
parentheses belongs to that query.
-/

namespace SchemaScript.Sql.Reader

/-! ## Parts of a selection -/

/-- A value of a selection with its label, which needs no `AS` unless it could go on the value. -/
def selectItem (r : Rules) : Reader String := do
  if ← acceptSymbol "*" then return "*"
  let value ← r.operand .labeled 0
  if ← acceptWord "as" then return value.text ++ " AS " ++ phraseName (← label)
  match nameOf? (fun w => !boundLabels.contains w) (← front) with
  | some name =>
    skip
    return value.text ++ " AS " ++ phraseName name
  | none => return value.text

/-- A selection has no values at all. -/
def atNoItems : Reader Bool := do
  match ← front with
  | none => return true
  | some token => return token != .symbol "," && token.endsItems

def groupingsWith (r : Rules) : Reader (List String) :=
  list do
    if (← atSymbol "(") && (← ahead 1) == some (.symbol ")") then
      skip
      skip
      return "()"
    if (← ahead 1) == some (.symbol "(") then
      if ← acceptWord "cube" then
        return "CUBE " ++ enclosed (commaList (← parenthesized (plainExpressions r)))
      if ← acceptWord "rollup" then
        return "ROLLUP " ++ enclosed (commaList (← parenthesized (plainExpressions r)))
    if ← acceptWords ["grouping", "sets"] then
      return "GROUPING SETS " ++ enclosed (commaList (← parenthesized r.groupings))
    return (← r.expression).text

def groupClause (r : Rules) : Reader (Option String) := do
  unless ← acceptWord "group" do return none
  word "by"
  let mode ← if ← acceptWord "distinct" then pure "DISTINCT "
    else
      let _ ← acceptWord "all"
      pure ""
  return some ("GROUP BY " ++ mode ++ commaList (← groupingsWith r))

def windowDefinition (r : Rules) : Reader String := do
  let name ← columnName
  word "as"
  return phraseName name ++ " AS " ++ (← windowClause r)

def distinctClause (r : Rules) : Reader (Option String) := do
  if ← acceptWord "all" then return none
  unless ← acceptWord "distinct" do return none
  if ← acceptWord "on" then
    return some ("DISTINCT ON " ++ enclosed (commaList (← parenthesized (plainExpressions r))))
  return some "DISTINCT"

/-- The words before the name of a new table that say how long it lasts. -/
def intoPersistence : Reader String := do
  let isNamed (n : Nat) : Reader Bool :=
    return (← isColumnNameAhead n) || (← ahead n) == some (.word "table")
  let isScoped := (← ahead 1) == some (.word "temporary") || (← ahead 1) == some (.word "temp")
  if isScoped then
    if (← acceptAny ["local", "global"]).isSome then
      skip
      return "TEMPORARY "
  if ← isNamed 1 then
    if (← acceptAny ["temporary", "temp"]).isSome then return "TEMPORARY "
    if ← acceptWord "unlogged" then return "UNLOGGED "
  return ""

/-- The table that a selection creates. -/
def intoClause (r : Rules) : Reader (Option String) := do
  unless ← acceptWord "into" do return none
  let persistence ← intoPersistence
  let _ ← acceptWord "table"
  return some ("INTO " ++ persistence ++ phrasePath (← relationPath r))

def clause (w front : String) (inner : Reader String) : Reader (Option String) := do
  return (← afterWord w inner).map (front ++ ·)

def selection (r : Rules) : Reader Query := do
  word "select"
  let distinct ← distinctClause r
  let items ←
    if distinct.isNone && (← atNoItems) then pure []
    else pure [commaList (← list (selectItem r))]
  let into ← intoClause r
  let sources ← clause "from" "FROM " do return commaList ((← list (source r)).map (·.text))
  let condition ← clause "where" "WHERE " do return (← r.expression).text
  let groups ← groupClause r
  let having ← clause "having" "HAVING " do return (← r.expression).text
  let windows ← clause "window" "WINDOW " do return commaList (← list (windowDefinition r))
  return { body := " ".intercalate (["SELECT"] ++ distinct.toList ++ items ++ into.toList ++
    sources.toList ++ condition.toList ++ groups.toList ++ having.toList ++ windows.toList) }

/-- One query, without what combines it with others. -/
def simpleQuery (r : Rules) : Reader Query := do
  if ← atSymbol "(" then return ← parenthesized r.query
  if ← acceptWord "values" then
    let rows ← list do return enclosed (commaList (← parenthesized (plainExpressions r)))
    return .ofRows rows
  if ← acceptWord "table" then
    let (isOnly, path) ← openPath r
    return { body := "SELECT * FROM " ++ (Source.ofTable isOnly path).text }
  selection r

/-! ## Combinations and endings -/

/-- Whether equal rows count more than once. -/
def combinationWords (w : String) : Reader String := do
  if ← acceptWord "all" then return Text.upper w ++ " ALL"
  let _ ← acceptWord "distinct"
  return Text.upper w

def intersections (r : Rules) (q : Query) : Reader Query :=
  repeated (fun q => do
    unless ← acceptWord "intersect" do return none
    let words ← combinationWords "intersect"
    return some (.combined words q (← simpleQuery r))) q

def combinations (r : Rules) (q : Query) : Reader Query := do
  repeated (fun q => do
    let some w ← acceptAny ["union", "except"] | return none
    let words ← combinationWords w
    return some (.combined words q (← intersections r (← simpleQuery r)))) (← intersections r q)

/-- What is said behind a query about the order and number of its rows, and where. -/
structure Ending where
  order : Option String := none
  orderAt : Option Nat := none
  limit : Option RowLimit := none
  limitAt : Option Nat := none
  tiesAt : Option Nat := none
  offset : Option String := none
  offsetAt : Option Nat := none
  locks : List RowLock := []

/-- Where an expression in front begins. Parentheses around it do not count, those of a query do. -/
def expressionPlace : List Lexeme → Option Nat
  | [] => none
  | [l] => some l.offset
  | l :: next :: rest =>
    let opensQuery :=
      next.token == .word "values" || next.token.opensQuery
    if l.token == .symbol "(" && !opensQuery then expressionPlace (next :: rest) else some l.offset

def rowWord : Reader Unit := do
  let _ ← oneOf ["row", "rows"]

/-- The word in front follows the number of rows, and is no number itself. -/
def atRowWord : Reader Bool := do
  unless (← atWord "row") || (← atWord "rows") do return false
  return (← ahead 1) == some (.word "only") || (← ahead 1) == some (.word "with")

/-- A number with a sign is in front. -/
def atSignedNumber : Reader Bool := do
  let isNumber :=
    match ← ahead 1 with
    | some (.integer _) | some (.number _) => true
    | _ => false
  return isNumber && ((← atSymbol "+") || (← atSymbol "-"))

/-- A number of rows as it stands before the word for them. -/
def fetchCount (r : Rules) : Reader Phrase := do
  if ← atSignedNumber then return ← r.operand .full Binding.sign.rank
  if (← acceptSymbol "-") || (← acceptSymbol "+") then refuse
  r.primary

/-- How many rows to fetch; one, if that is left out. -/
def fetchClause (r : Rules) (e : Ending) : Reader Ending := do
  let _ ← oneOf ["first", "next"]
  let count ← if ← atRowWord then pure "1" else pure (← fetchCount r).countText
  rowWord
  if ← acceptWord "only" then return { e with limit := some (.atMost count) }
  let tiesAt ← place
  words ["with", "ties"]
  return { e with limit := some (.withTies count), tiesAt }

def limitClause (r : Rules) (e : Ending) : Reader Ending := do
  let limitAt ← place
  if ← acceptWord "fetch" then return ← fetchClause r { e with limitAt }
  unless ← acceptWord "limit" do return e
  let count ← if ← acceptWord "all" then pure "ALL" else pure (← r.expression).countText
  if ← atSymbol "," then
    skip
    let _ ← r.expression
    lateBreach "LIMIT #,# syntax is not supported" limitAt
  return { e with limit := some (.atMost count), limitAt }

/-- How many rows to leave out. Only a simple value can have the word for rows behind it. -/
def offsetClause (r : Rules) (e : Ending) : Reader Ending := do
  let offsetAt ← place
  unless ← acceptWord "offset" do return e
  let isOperator :=
    match ← front with
    | some (.symbol s) => isOperatorSymbol s
    | some (.word w) | some (.joined w) => ["not", "default", "unique", "operator"].contains w
    | _ => false
  let count ←
    if isOperator then
      let isSigned ← atSignedNumber
      let isRows := (← ahead 2) == some (.word "row") || (← ahead 2) == some (.word "rows")
      let count ← r.expression
      if isSigned && isRows then rowWord
      pure count
    else
      let valueAt ← place
      let value ← r.primary
      if (← acceptAny ["row", "rows"]).isSome then pure value
      else operations r .full 0 (← overlap r valueAt value)
  return { e with offset := some count.text, offsetAt }

def lockClause (r : Rules) : Reader RowLock := do
  let strength ← do
    if ← acceptWord "update" then pure "UPDATE"
    else if ← acceptWord "share" then pure "SHARE"
    else if ← acceptPhrase ["no", "key", "update"] then pure "NO KEY UPDATE"
    else
      words ["key", "share"]
      pure "KEY SHARE"
  let tables ←
    if ← acceptWord "of" then
      pure (" OF " ++ commaList ((← list (relationPath r)).map phrasePath))
    else pure ""
  if ← acceptWord "nowait" then return { text := strength ++ tables ++ " NOWAIT" }
  if ← acceptPhrase ["skip", "locked"] then
    return { text := strength ++ tables ++ " SKIP LOCKED", skipsLocked := true }
  return { text := strength ++ tables }

/-- Locks one after another; that rows are only read needs none. -/
def lockClauses (r : Rules) (e : Ending) : Reader Ending := do
  unless ← atWord "for" do return e
  if ← acceptWords ["for", "read"] then
    word "only"
    return e
  let locks ← many do
    if ← acceptWord "for" then return some (← lockClause r) else return none
  return { e with locks }

/-- The limits, in either order. -/
def limitClauses (r : Rules) (e : Ending) : Reader Ending := do
  if ← atWord "offset" then limitClause r (← offsetClause r e)
  else offsetClause r (← limitClause r e)

def ending (r : Rules) : Reader Ending := do
  let orderAt ← fun rest => .ok (expressionPlace (rest.drop 2), rest)
  let order ← sortKeys r
  let e : Ending := { order, orderAt }
  if ← atWord "for" then limitClauses r (← lockClauses r e)
  else lockClauses r (← limitClauses r e)

/-- What is wrong with an ending behind a query that may have one already, and where. -/
def Ending.fault? (e : Ending) (q : Query) : Option (String × Option Nat) :=
  let hasTies (limit : Option RowLimit) : Bool :=
    match limit with
    | some (.withTies _) => true
    | _ => false
  if e.order.isSome && q.order.isSome then
    some ("multiple ORDER BY clauses not allowed", e.orderAt)
  else if e.offset.isSome && q.offset.isSome then
    some ("multiple OFFSET clauses not allowed", e.offsetAt)
  else if e.limit.isSome && q.limit.isSome then
    some ("multiple LIMIT clauses not allowed", e.limitAt)
  else if (e.limit.isSome || e.offset.isSome) && hasTies q.limit then
    some ("multiple limit options not allowed", e.tiesAt)
  else if hasTies e.limit && e.order.isNone && q.order.isNone then
    some ("WITH TIES cannot be specified without ORDER BY clause", e.tiesAt)
  else if hasTies e.limit && (q.locks ++ e.locks).any (·.skipsLocked) then
    some ("SKIP LOCKED and WITH TIES options cannot be used together", e.tiesAt)
  else none

def queryAfterWith (r : Rules) (q : Query) : Reader Query := do
  let q ← combinations r q
  let e ← ending r
  if let some (text, at?) := e.fault? q then lateBreach text at?
  return { q with
    order := e.order.orElse fun _ => q.order
    limit := e.limit.orElse fun _ => q.limit
    offset := e.offset.orElse fun _ => q.offset
    locks := q.locks ++ e.locks }

/-! ## Queries by name -/

/-- In which order a recursive query finds its rows. -/
def searchClause : Reader String := do
  unless ← acceptWord "search" do return ""
  let order := Text.upper (← oneOf ["breadth", "depth"])
  words ["first", "by"]
  let columns ← list columnName
  word "set"
  let mark ← columnName
  return " SEARCH " ++ order ++ " FIRST BY " ++ commaList (columns.map phraseName) ++ " SET " ++
    phraseName mark

/-- How a recursive query tells that it goes round in a circle. -/
def cycleClause (r : Rules) : Reader String := do
  unless ← acceptWord "cycle" do return ""
  let columns ← list columnName
  word "set"
  let mark ← columnName
  let (found, missed) ←
    if ← acceptWord "to" then
      let found ← constant r
      word "default"
      pure (found.text, (← constant r).text)
    else pure ("TRUE", "FALSE")
  word "using"
  return " CYCLE " ++ commaList (columns.map phraseName) ++ " SET " ++ phraseName mark ++ " TO " ++
    found ++ " DEFAULT " ++ missed ++ " USING " ++ phraseName (← columnName)

def namedStatement (r : Rules) : Reader String := do
  let name ← columnName
  let columns ← maybeParenthesized (list columnName)
  word "as"
  let words ← do
    if ← acceptWord "materialized" then pure "MATERIALIZED "
    else if ← acceptPhrase ["not", "materialized"] then pure "NOT MATERIALIZED "
    else pure ""
  let s ← parenthesized r.rowStatement
  let columns := (columns.map fun names => enclosed (commaList (names.map phraseName))).getD ""
  return phraseName name ++ columns ++ " AS " ++ words ++ enclosed s.text ++ (← searchClause) ++
    (← cycleClause r)

def contextClause (r : Rules) : Reader (Option String) := do
  unless ← acceptWith do return none
  let front ← if ← acceptWord "recursive" then pure "WITH RECURSIVE " else pure "WITH "
  return some (front ++ commaList (← list (namedStatement r)))

/-- A query after the queries that it uses by name, which are said to be at `at?`. -/
def queryIn (r : Rules) (context : Option String) (at? : Option Nat) : Reader Query := do
  let q ← queryAfterWith r (← simpleQuery r)
  match context with
  | none => return q
  | some context =>
    if q.context.isSome then lateBreach "multiple WITH clauses not allowed" at?
    return { q with context := some context }

def queryWith (r : Rules) : Reader Query := do
  let at? ← place
  queryIn r (← contextClause r) at?

end SchemaScript.Sql.Reader
