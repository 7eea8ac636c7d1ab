import SchemaScript.Sql.Grammar.Rules
import SchemaScript.Sql.Grammar.Type

/-!
# Reading calls

Functions, aggregates and windows; some functions have a grammar of their own.
-/

namespace SchemaScript.Sql.Reader

def expressions (r : Rules) : Reader (List Phrase) :=
  list r.expression

def plainExpressions (r : Rules) : Reader (List String) := do
  return (← expressions r).map (·.text)

/-! ## Operators -/

def isOperatorSymbol (s : String) : Bool :=
  s != "=>" && s != "" && s.toList.all isOperatorChar

/-- The characters of an operator, after the schemas that lead to it. -/
def operatorPath : Reader (List String × String) := do
  let schemas ← many do
    match nameOf? isColumnName (← front) with
    | some schema =>
      skip
      symbol "."
      return some schema
    | none => return none
  match ← front with
  | some (.symbol s) =>
    unless isOperatorSymbol s do refuse
    skip
    return (schemas, s)
  | _ => refuse

/-- An operator as an expression writes it; without a schema it is a plain one. -/
def operatorText : List String × String → String
  | ([], s) => s
  | (schemas, s) =>
    "OPERATOR" ++ enclosed (String.join (schemas.map fun name => phraseName name ++ ".") ++ s)

/-- An operator that may have a schema, after the word `OPERATOR`. -/
def explicitOperator : Reader (List String × String) :=
  parenthesized operatorPath

/-- An operator, possibly after the word `OPERATOR`. -/
def anyOperator : Reader (List String × String) := do
  if ← acceptWord "operator" then explicitOperator
  else
    match ← front with
    | some (.symbol s) =>
      unless isOperatorSymbol s do refuse
      skip
      return ([], s)
    | _ => refuse

/-! ## Sorting and windows -/

def sortKey (r : Rules) : Reader String := do
  let key ← r.expression
  let direction ← do
    if ← acceptWord "asc" then pure " ASC"
    else if ← acceptWord "desc" then pure " DESC"
    else if ← acceptWord "using" then pure (" USING " ++ operatorText (← anyOperator))
    else pure ""
  let nulls ← do
    if ← acceptJoined "nulls" then pure (" NULLS " ++ Text.upper (← oneOf ["first", "last"]))
    else pure ""
  return key.text ++ direction ++ nulls

/-- The keys that rows are sorted by, if they are given. -/
def sortKeys (r : Rules) : Reader (Option String) := do
  unless ← acceptPhrase ["order", "by"] do return none
  return some (commaList (← list (sortKey r)))

/-- Where a window's frame begins or ends, counted from the current row. -/
inductive FrameBound
  | unboundedPreceding
  | preceding (distance : String)
  | currentRow
  | following (distance : String)
  | unboundedFollowing
  deriving DecidableEq

namespace FrameBound

def text : FrameBound → String
  | unboundedPreceding => "UNBOUNDED PRECEDING"
  | preceding distance => distance ++ " PRECEDING"
  | currentRow => "CURRENT ROW"
  | following distance => distance ++ " FOLLOWING"
  | unboundedFollowing => "UNBOUNDED FOLLOWING"

/-- What is wrong with a frame that begins here. -/
def startFault? : FrameBound → Option String
  | unboundedFollowing => some "frame start cannot be UNBOUNDED FOLLOWING"
  | _ => none

/-- What is wrong with a frame that ends in the current row. -/
def loneFault? : FrameBound → Option String
  | following _ => some "frame starting from following row cannot end with current row"
  | bound => bound.startFault?

/-- What is wrong with the end of a frame. -/
def endFault? (first last : FrameBound) : Option String :=
  match first, last with
  | _, unboundedPreceding => some "frame end cannot be UNBOUNDED PRECEDING"
  | currentRow, preceding _ => some "frame starting from current row cannot have preceding rows"
  | following _, preceding _ | following _, currentRow =>
    some "frame starting from following row cannot have preceding rows"
  | _, _ => none

end FrameBound

def frameBound (r : Rules) : Reader FrameBound := do
  let next ← ahead 1
  if ← both (next == some (.word "preceding")) (acceptWord "unbounded") then
    skip
    return .unboundedPreceding
  if ← both (next == some (.word "following")) (acceptWord "unbounded") then
    skip
    return .unboundedFollowing
  if ← acceptWords ["current", "row"] then return .currentRow
  let distance ← r.expression
  match ← oneOf ["preceding", "following"] with
  | "preceding" => return .preceding distance.text
  | _ => return .following distance.text

def frameExclusion : Reader String := do
  unless ← acceptWord "exclude" do return ""
  match ← oneOf ["current", "group", "ties", "no"] with
  | "current" =>
    word "row"
    return " EXCLUDE CURRENT ROW"
  | "group" => return " EXCLUDE GROUP"
  | "ties" => return " EXCLUDE TIES"
  | _ =>
    word "others"
    return ""

/-- Stops if there is a fault, which is said to be at `at?`. -/
def check (fault? : Option String) (at? : Option Nat) : Reader Unit := do
  if let some text := fault? then breach text at?

def frameClause (r : Rules) : Reader (Option String) := do
  let some unit ← acceptAny ["range", "rows", "groups"] | return none
  let isRange ← acceptWord "between"
  let at? ← place
  let first ← frameBound r
  let extent ←
    if isRange then
      word "and"
      let endAt? ← place
      let last ← frameBound r
      check first.startFault? at?
      check (first.endFault? last) endAt?
      pure (softly "BETWEEN" (first.text ++ " " ++ softly "AND" last.text))
    else
      check first.loneFault? at?
      pure first.text
  return some (softly (Text.upper unit) extent ++ (← frameExclusion))

def windowStart (w : String) : Bool :=
  ["partition", "range", "rows", "groups"].contains w

/-- A window between its parentheses. -/
def windowClause (r : Rules) : Reader String := do
  symbol "("
  let base ←
    match ← front with
    | some (.word w) => if windowStart w || !isColumnName w then pure none else some <$> columnName
    | some (.quotedName _) => some <$> columnName
    | _ => pure none
  let partition ←
    if ← acceptPhrase ["partition", "by"] then
      pure (some ("PARTITION BY " ++ commaList (← plainExpressions r)))
    else pure none
  let order := (← sortKeys r).map ("ORDER BY " ++ ·)
  let frame ← frameClause r
  symbol ")"
  return enclosed (" ".intercalate
    ((base.map phraseName).toList ++ partition.toList ++ order.toList ++ frame.toList))

/-! ## Arguments -/

structure Argument where
  text : String
  /-- Where it begins, if it has a name. -/
  namedAt : Option Nat := none
  isVariadic : Bool := false

/-- An argument, which may have a name. -/
def argument (r : Rules) : Reader Argument := do
  let next ← ahead 1
  if next == some (.symbol "=>") || next == some (.symbol ":=") then
    if (nameOf? isFunctionName (← front)).isSome then
      let namedAt ← place
      let name ← functionName
      skip
      return { text := phraseName name ++ " => " ++ (← r.expression).text, namedAt }
  return { text := (← r.expression).text }

def arguments (r : Rules) : Reader (List Argument) :=
  list (argument r)

/-- Arguments of which the last one may stand for a list. -/
def variadicArguments (r : Rules) : Reader (List Argument) := do
  let one : Reader Argument := do
    if ← acceptWord "variadic" then
      let a ← argument r
      return { a with text := "VARIADIC " ++ a.text, isVariadic := true }
    argument r
  let first ← one
  let all ← repeated (fun (found : List Argument) => do
    if (found.head?.map (·.isVariadic)).getD false then return none
    if ← acceptSymbol "," then return some ((← one) :: found) else return none) [first]
  return all.reverse

/-- What stands between the parentheses of a call. -/
structure Given where
  arguments : List Argument := []
  isAll : Bool := false
  isDistinct : Bool := false
  /-- The keys by which the rows of an aggregate are sorted, and where they stand. -/
  order : Option String := none
  orderAt : Option Nat := none
  /-- All columns take the place of arguments. -/
  isStar : Bool := false

namespace Given

def isVariadic (g : Given) : Bool :=
  g.arguments.any (·.isVariadic)

/-- The arguments could also be the modifiers of a type. -/
def isModifiers (g : Given) : Bool :=
  !g.arguments.isEmpty && !g.isAll && !g.isDistinct && !g.isVariadic

def text (g : Given) : String :=
  let items := commaList (g.arguments.map (·.text))
  enclosed <|
    if g.isStar then "*"
    else (if g.isDistinct then softly "DISTINCT" items else items) ++
      (g.order.map (" " ++ softly "ORDER BY" ·)).getD ""

end Given

/-- The arguments of a call, from parenthesis to parenthesis. -/
def callArguments (r : Rules) : Reader Given :=
  parenthesized do
    if ← atSymbol ")" then return {}
    if ← acceptSymbol "*" then return { isStar := true }
    let isDistinct ← acceptWord "distinct"
    let isAll ← if isDistinct then pure false else acceptWord "all"
    let arguments ← if isDistinct || isAll then arguments r else variadicArguments r
    let orderAt ← place
    return { arguments, isAll, isDistinct, order := ← sortKeys r, orderAt }

/-! ## What follows a call -/

def filterClause (r : Rules) : Reader String := do
  unless ← acceptWord "filter" do return ""
  let condition ← parenthesized do
    word "where"
    r.expression
  return " FILTER " ++ enclosed (softly "WHERE" condition.text)

def overClause (r : Rules) : Reader String := do
  unless ← acceptWord "over" do return ""
  if ← atSymbol "(" then return " OVER " ++ (← windowClause r)
  return " OVER " ++ phraseName (← columnName)

/-- An order within groups is the only one, and does not go with some kinds of arguments. -/
def withinFault? (g : Given) : Option String :=
  if g.order.isSome then some "cannot use multiple ORDER BY clauses with WITHIN GROUP"
  else if g.isDistinct then some "cannot use DISTINCT with WITHIN GROUP"
  else if g.isVariadic then some "cannot use VARIADIC with WITHIN GROUP"
  else none

/-- What can follow a call: an order within groups, a filter and a window. -/
def callEnding (r : Rules) (g : Given) : Reader String := do
  let at? ← place
  let within ←
    if ← acceptPhrase ["within", "group"] then
      let order ← parenthesized do
        match ← sortKeys r with
        | some order => pure order
        | none => refuse
      pure (some (" WITHIN GROUP " ++ enclosed (softly "ORDER BY" order)))
    else pure none
  let filter ← filterClause r
  let window ← overClause r
  if within.isSome then
    if let some text := withinFault? g then lateBreach text at?
  return within.getD "" ++ filter ++ window

/-- A constant whose type has modifiers, which look like the arguments of a function. -/
def modifiedConstant (path : List String) (g : Given) : Reader Phrase := do
  let value ← text
  if let some a := g.arguments.find? (·.namedAt.isSome) then
    breach "type modifier cannot have parameter name" a.namedAt
  if g.order.isSome then breach "type modifier cannot have ORDER BY" g.orderAt
  return (Phrase.ofText value).castTo { path, modifiers := g.arguments.map (·.text) }

/-- The call of a function, after its name; it may turn out to be the type of a constant. -/
def callOf (r : Rules) (path : List String) : Reader Phrase := do
  let g ← callArguments r
  match ← front with
  | some (.text _) =>
    unless g.isModifiers do refuse
    modifiedConstant path g
  | _ => return { text := phrasePath path ++ g.text ++ (← callEnding r g), form := .call }

/-! ## Functions with a grammar of their own -/

/-- `f(a, b)` where the function's name is a keyword. -/
def keywordCall (r : Rules) (name : String) : Reader Phrase := do
  return .ofKeyword name (← parenthesized (plainExpressions r))

/-- A function that is called like any other, although its name is a keyword. -/
def plainCall (r : Rules) (name : String) : Reader Phrase := do
  let given ← if ← atSymbol ")" then pure [] else arguments r
  return .ofCall name (given.map (·.text))

def extractField : Reader String := do
  match ← front with
  | some (.text field) =>
    skip
    return field
  | some (.word w) =>
    if ["year", "month", "day", "hour", "minute", "second"].contains w then
      skip
      return w
    ownWord
  | _ => ownWord

def extractCall (r : Rules) : Reader Phrase :=
  parenthesized do
    let field ← extractField
    word "from"
    return {
      text := "EXTRACT" ++ enclosed (Text.upper field ++ " FROM " ++ (← r.expression).text)
      form := .call }

def positionCall (r : Rules) : Reader Phrase :=
  parenthesized do
    let part ← r.restrictedExpression
    word "in"
    let whole ← r.restrictedExpression
    return {
      text := "position" ++ enclosed (part.restricted ++ " IN " ++ whole.restricted)
      form := .call }

/-- The name in front is that of an argument. -/
def atNamedArgument : Reader Bool := do
  let next ← ahead 1
  return (nameOf? isFunctionName (← front)).isSome &&
    (next == some (.symbol "=>") || next == some (.symbol ":="))

/-- A call whose first argument is read already. -/
def callAfter (r : Rules) (name : String) (first : Phrase) : Reader Phrase := do
  let rest ← if ← acceptSymbol "," then arguments r else pure []
  return .ofCall name (first.text :: rest.map (·.text))

def overlayCall (r : Rules) : Reader Phrase :=
  parenthesized do
    if (← atSymbol ")") || (← atNamedArgument) then return ← plainCall r "overlay"
    let first ← r.expression
    unless ← acceptWord "placing" do return ← callAfter r "overlay" first
    let replacement ← r.expression
    word "from"
    let start ← r.expression
    let count ← afterWord "for" r.expression
    return .ofSystemCall "overlay" ([first, replacement, start] ++ count.toList)

def substringCall (r : Rules) : Reader Phrase :=
  parenthesized do
    if (← atSymbol ")") || (← atNamedArgument) then return ← plainCall r "substring"
    let first ← r.operand .beforeSimilar 0
    match ← acceptAny ["from", "for", "similar"] with
    | some "from" =>
      let start ← r.expression
      let count ← afterWord "for" r.expression
      return .ofSystemCall "substring" ([first, start] ++ count.toList)
    | some "for" =>
      let count ← r.expression
      if ← acceptWord "from" then
        let start ← r.expression
        return .ofSystemCall "substring" [first, start, count]
      return .ofSystemCall "substring"
        [first, .ofNumber (.integer 1), count.castTo (.ofKeyword "int4")]
    | some _ =>
      let pattern ← r.expression
      word "escape"
      return .ofSystemCall "substring" [first, pattern, ← r.expression]
    | none => callAfter r "substring" first

def trimCall (r : Rules) : Reader Phrase :=
  parenthesized do
    let name :=
      match ← acceptAny ["both", "leading", "trailing"] with
      | some "leading" => "ltrim"
      | some "trailing" => "rtrim"
      | _ => "btrim"
    if ← acceptWord "from" then return .ofSystemCall name (← expressions r)
    let first ← r.expression
    if ← acceptWord "from" then return .ofSystemCall name ((← expressions r) ++ [first])
    let rest ← if ← acceptSymbol "," then expressions r else pure []
    return .ofSystemCall name (first :: rest)

/-- The forms in which equal characters are written alike. -/
def normalForms : List String :=
  ["nfc", "nfd", "nfkc", "nfkd"]

def normalizeCall (r : Rules) : Reader Phrase :=
  parenthesized do
    let value ← r.expression
    if ← acceptSymbol "," then
      return .ofSystemCall "normalize" [value, .ofText (Text.upper (← oneOf normalForms))]
    return .ofSystemCall "normalize" [value]

def treatCall (r : Rules) : Reader Phrase :=
  parenthesized do
    let value ← r.expression
    word "as"
    let type ← type r
    return .ofSystemCall (phraseName (type.path.getLastD "")) [value]

def castCall (r : Rules) : Reader Phrase :=
  parenthesized do
    let value ← r.expression
    word "as"
    return value.castTo (← type r)

def nullifCall (r : Rules) : Reader Phrase :=
  parenthesized do
    let first ← r.expression
    symbol ","
    let p := Phrase.ofKeyword "NULLIF" [first.text, (← r.expression).text]
    return { p with isOperation := true }

def caseBranch (r : Rules) : Reader (Option String) := do
  unless ← acceptWord "when" do return none
  let condition ← r.expression
  word "then"
  return some ("WHEN " ++ condition.text ++ " THEN " ++ (← r.expression).text)

def caseExpression (r : Rules) : Reader Phrase := do
  let subject ← if ← atWord "when" then pure none else some <$> r.expression
  let branches ← many (caseBranch r)
  if branches.isEmpty then refuse
  let otherwise ← afterWord "else" r.expression
  word "end"
  let front := (subject.map fun p => softly "CASE" p.text).getD "CASE"
  return { text := " ".intercalate ([front] ++ branches ++
    (otherwise.map ("ELSE " ++ ·.text)).toList ++ ["END"]) }

end SchemaScript.Sql.Reader
