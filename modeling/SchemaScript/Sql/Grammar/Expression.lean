import SchemaScript.Sql.Grammar.Value

/-!
# Reading expressions

Operators are read by binding: an operand ends in front of an operator that is looser than the one it
belongs to. Operators that cannot stand beside each other are refused at the second one.
-/

namespace SchemaScript.Sql.Reader

/-! ## Operators -/

/-- The word in front is the label of an item, since that ends behind it. -/
def atLabel (extent : Extent) : Reader Bool := do
  return extent == .labeled && ((← ahead 1).map Token.endsItems).getD true

/-- The binding of the operator in front, if there is one. A restricted expression knows no words but
those of distinctness and of documents. -/
def operatorAhead (extent : Extent) : Reader (Option Binding) := do
  match ← front with
  | some (.symbol "::") => return some .atom
  | some (.symbol s) => return if isOperatorSymbol s then some (.ofOperator s) else none
  | some (.word "isnull") | some (.word "notnull") =>
    return if extent == .restricted then none else some .is
  | some (.word w) =>
    if ← atLabel extent then return none
    if w == "operator" then return some .operator
    if extent == .restricted then return if w == "is" then some .is else none
    match w with
    | "or" => return some .or
    | "and" => return some .and
    | "is" => return some .is
    | "in" | "between" | "like" | "ilike" => return some .membership
    | "similar" =>
      let isOperator := extent != .beforeSimilar || (← ahead 1) == some (.word "to")
      return if isOperator then some .membership else none
    | "at" => return some .zone
    | "collate" => return some .collation
    | _ => return none
  | some (.joined "not") => return if extent == .restricted then none else some .membership
  | _ => return none

/-- The expression so far, and the binding of its last operator if that takes no equal beside it. -/
structure Operation where
  phrase : Phrase
  closed : Option Binding := none

/-- The right operand of an operator. -/
def rightOperand (r : Rules) (extent : Extent) (binding : Binding) : Reader Phrase :=
  r.operand extent.ofOperands (binding.rank + 1)

def closing (binding : Binding) (p : Phrase) : Operation :=
  { phrase := p, closed := if binding.standsAlone then some binding else none }

/-- Comparison with some or all members of a collection, after the operator. -/
def quantifiedBy (r : Rules) (symbol : String) (binding : Binding) (left : Phrase) :
    Reader (Option Phrase) := do
  let some quantifier ← acceptAny ["any", "some", "all"] | return none
  let quantifier := if quantifier == "all" then "ALL" else "ANY"
  match ← r.group with
  | .query q =>
    return some (left.quantified symbol binding (quantifier ++ " " ++ enclosed q.text) true)
  | .items [p] => return some (left.quantified symbol binding (quantifier ++ enclosed p.text) false)
  | .items _ => refuse

/-- What follows an infix operator. It is read with one binding and written with another: an operator
after the word `OPERATOR` loses its own place among the others only for the reader. -/
def infixBy (r : Rules) (extent : Extent) (symbol : String) (readAs writtenAs : Binding)
    (left : Phrase) : Reader Operation := do
  unless extent == .restricted do
    if let some p ← quantifiedBy r symbol writtenAs left then return { phrase := p }
  return closing readAs (left.infixed symbol writtenAs (← rightOperand r extent readAs))

/-- The binding with which an operator is written. -/
def writtenBinding : List String × String → Binding
  | ([], s) => .ofOperator s
  | _ => .operator

/-- A test for JSON, after the word `JSON`. -/
def jsonTest (isNegated : Bool) (left : Phrase) : Reader Operation := do
  let kind ← acceptAny ["value", "array", "object", "scalar"]
  let kind := if kind == some "value" then "" else Text.upper (kind.getD "")
  let keys ← jsonKeys
  let p := left.tested ("IS JSON" ++ spaced [kind, keys])
  return { phrase := if isNegated then p.negation else p }

/-- A test of how characters are written, after the word `IS`. -/
def normalTest (form : Option String) (isNegated : Bool) (left : Phrase) : Reader Operation := do
  word "normalized"
  let form := form.map fun w => Phrase.ofText (Text.upper w)
  let p := Phrase.ofSystemCall "is_normalized" (left :: form.toList)
  return { phrase := if isNegated then p.negation else p }

/-- A test after the word `IS`. -/
def isTest (r : Rules) (extent : Extent) (left : Phrase) : Reader Operation := do
  let isNegated ← acceptWord "not"
  let front := if isNegated then "IS NOT " else "IS "
  if ← acceptPhrase ["distinct", "from"] then
    let right ← rightOperand r extent .is
    return closing .is (left.infixed (front ++ "DISTINCT FROM") .is right)
  if ← acceptWord "document" then
    return { phrase := if isNegated then left.isDocument.negation else left.isDocument }
  if extent == .restricted then refuse
  if let some w ← acceptAny ["null", "true", "false", "unknown"] then
    return { phrase := left.tested (front ++ Text.upper w) }
  if ← acceptWord "json" then return ← jsonTest isNegated left
  normalTest (← acceptAny normalForms) isNegated left

/-- Likeness to a pattern; the last two arguments name the operator that stands behind the words. -/
def likeness (r : Rules) (words operator : String) (left : Phrase) : Reader Operation := do
  if let some p ← quantifiedBy r operator .operator left then return { phrase := p }
  let pattern ← rightOperand r .full .membership
  let pattern ←
    if ← acceptWord "escape" then
      pure (.ofSystemCall "like_escape" [pattern, ← rightOperand r .full .membership])
    else pure pattern
  return closing .membership (left.infixed words .membership pattern).unrestricted

def similarity (r : Rules) (words : String) (left : Phrase) : Reader Operation := do
  word "to"
  let pattern ← rightOperand r .full .membership
  let p := (left.infixed words .membership pattern).unrestricted
  if ← acceptWord "escape" then
    let escape ← rightOperand r .full .membership
    let p := { p with text := p.text ++ " ESCAPE " ++ escape.text }
    return closing .membership p.unrestricted
  return closing .membership p

def rangeTest (r : Rules) (words : String) (left : Phrase) : Reader Operation := do
  let words ←
    if ← acceptWord "symmetric" then pure (words ++ " SYMMETRIC")
    else
      let _ ← acceptWord "asymmetric"
      pure words
  let low ← r.restrictedExpression
  word "and"
  return closing .membership (left.between words low (← rightOperand r .full .membership))

def listTest (r : Rules) (isNegated : Bool) (left : Phrase) : Reader Operation := do
  match ← r.group with
  | .query q =>
    let p := left.among "IN" (enclosed q.text) true
    return { phrase := if isNegated then p.negation else p }
  | .items items =>
    let members := enclosed (commaList (items.map (·.text)))
    return { phrase := left.among (if isNegated then "NOT IN" else "IN") members false }

/-- The rest of a test that can be negated, after its first word. -/
def wordTest (r : Rules) (isNegated : Bool) (w : String) (left : Phrase) : Reader Operation := do
  let front := if isNegated then "NOT " else ""
  let mark := if isNegated then "!" else ""
  match w with
  | "in" => listTest r isNegated left
  | "between" => rangeTest r (front ++ "BETWEEN") left
  | "like" => likeness r (front ++ "LIKE") (mark ++ "~~") left
  | "ilike" => likeness r (front ++ "ILIKE") (mark ++ "~~*") left
  | "similar" => similarity r (front ++ "SIMILAR TO") left
  | _ => refuse

/-- The rest of an operation whose operator is a word. -/
def wordOperation (r : Rules) (extent : Extent) (w : String) (left : Phrase) :
    Reader Operation := do
  match w with
  | "or" => return { phrase := .join .or left (← rightOperand r .full .or) }
  | "and" => return { phrase := .join .and left (← rightOperand r .full .and) }
  | "is" => isTest r extent left
  | "isnull" => return { phrase := left.tested "IS NULL" }
  | "notnull" => return { phrase := left.tested "IS NOT NULL" }
  | "collate" => return { phrase := left.collated (← anyName) }
  | "at" =>
    if ← acceptWord "local" then return { phrase := .ofSystemCall "timezone" [left] }
    words ["time", "zone"]
    return { phrase := .ofSystemCall "timezone" [← rightOperand r .full .zone, left] }
  | "operator" =>
    let operator ← explicitOperator
    infixBy r extent (operatorText operator) .operator (writtenBinding operator) left
  | _ => wordTest r false w left

/-- Takes one more operator, unless it is looser than `rank`. -/
def operation (r : Rules) (extent : Extent) (rank : Nat) (left : Operation) :
    Reader (Option Operation) := do
  let some binding ← operatorAhead extent | return none
  if binding.rank < rank then return none
  if left.closed == some binding then refuse
  match ← front with
  | some (.symbol "::") =>
    skip
    return some { phrase := left.phrase.castTo (← type r) }
  | some (.symbol s) =>
    skip
    return some (← infixBy r extent s binding binding left.phrase)
  | some (.word w) =>
    skip
    return some (← wordOperation r extent w left.phrase)
  | some (.joined _) =>
    skip
    return some (← wordTest r true (← label) left.phrase)
  | _ => refuse

/-- A row of at least two values, or one that is written with its keyword. -/
def rowOperand (r : Rules) : Reader Phrase := do
  if ← atWord "row" then return ← explicitRow r
  symbol "("
  let items ← plainExpressions r
  if items.length == 1 then refuse
  symbol ")"
  return .ofRow false items

/-- Two periods overlap if they have a moment in common. -/
def overlap (r : Rules) (at? : Option Nat) (left : Phrase) : Reader Phrase := do
  let .row first := left.form | return left
  unless ← acceptWord "overlaps" do return left
  let rightAt? ← place
  let .row second := (← rowOperand r).form | refuse
  if first.length != 2 then
    breach "wrong number of parameters on left side of OVERLAPS expression" at?
  if second.length != 2 then
    breach "wrong number of parameters on right side of OVERLAPS expression" rightAt?
  return .ofCall "pg_catalog.overlaps" (first ++ second)

/-- An operator that stands before its operand. -/
def prefixedBy (symbol : String) (binding : Binding) (p : Phrase) : Phrase :=
  if symbol == "+" || symbol == "-" then p.prefixed symbol .sign .left
  else p.prefixed symbol binding .right

/-- An expression up to its first infix operator. -/
def prefixOperation (r : Rules) (extent : Extent) : Reader Phrase := do
  let at? ← place
  match ← front with
  | some (.word "not") | some (.joined "not") =>
    if extent == .restricted then refuse
    skip
    return (← r.operand .full Binding.not.rank).negation
  | some (.word "default") =>
    if extent == .restricted then refuse
    skip
    return { text := "DEFAULT" }
  | some (.word "unique") =>
    if extent == .restricted then refuse
    skip
    if ← acceptWord "nulls" then
      let _ ← acceptWord "not"
      word "distinct"
    let _ ← r.enclosedQuery
    breach "UNIQUE predicate is not yet implemented" at?
  | some (.word "operator") =>
    if (← ahead 1) == some (.symbol "(") then
      skip
      let operator ← explicitOperator
      let p ← rightOperand r extent .operator
      return prefixedBy (operatorText operator) .operator p
    overlap r at? (← primaryWith r)
  | some (.symbol s) =>
    if s == "+" || s == "-" then
      skip
      return (← r.operand extent.ofOperands Binding.sign.rank).signed s
    if isOperatorSymbol s && Binding.ofOperator s == .operator then
      skip
      return prefixedBy s .operator (← rightOperand r extent .operator)
    overlap r at? (← primaryWith r)
  | _ => overlap r at? (← primaryWith r)

/-- Goes on from an expression as long as there are operators at least as tight as `rank`. -/
def operations (r : Rules) (extent : Extent) (rank : Nat) (left : Phrase) : Reader Phrase := do
  return (← repeated (operation r extent rank) { phrase := left }).phrase

def operandWith (r : Rules) (extent : Extent) (rank : Nat) : Reader Phrase := do
  operations r extent rank (← prefixOperation r extent)

/-! ## Parentheses and brackets -/

/-- The items of a list that begins with `first`, up to its closing parenthesis. -/
def itemsAfter (r : Rules) (first : Phrase) : Reader Group := do
  let rest ← many do
    if ← acceptSymbol "," then return some (← r.expression) else return none
  symbol ")"
  return .items (first :: rest)

def groupWith (r : Rules) : Reader Group := do
  symbol "("
  if ← atQuery then
    let q ← r.query
    symbol ")"
    return .query q
  let at? ← place
  if ← atSymbol "(" then
    let inner ← r.group
    if let .query q := inner then
      if ← acceptSymbol ")" then return .query q
      if (← front).any Token.extendsQuery then
        let q ← r.queryAfter q
        symbol ")"
        return .query q
    let first ← overlap r at? (← groupValue r inner)
    itemsAfter r (← operations r .full 0 first)
  else
    itemsAfter r (← r.expression)

def arrayWith (r : Rules) : Reader Phrase := do
  symbol "["
  let items ← do
    if ← atSymbol "]" then pure []
    else if ← atSymbol "[" then list r.array
    else expressions r
  symbol "]"
  return { text := "ARRAY[" ++ commaList (items.map (·.text)) ++ "]" }

end SchemaScript.Sql.Reader
