import SchemaScript.Sql.Keyword
import SchemaScript.Sql.Name
import SchemaScript.Text.Integer

/-!
# Phrases

A phrase is an expression as it is written, together with what decides how it stands inside a larger
one. Parentheses of the source are not kept: each constructor below puts those back that are needed.
-/

namespace SchemaScript.Sql

/-- How tightly the parts of an expression hold together, loosest first. -/
inductive Binding
  | or
  | and
  | not
  | is
  | comparison
  | membership
  | operator
  | sum
  | product
  | power
  | zone
  | collation
  | sign
  | atom
  deriving DecidableEq, Repr, Inhabited

namespace Binding

def rank : Binding → Nat
  | or => 1
  | and => 2
  | not => 3
  | is => 4
  | comparison => 5
  | membership => 6
  | operator => 7
  | sum => 8
  | product => 9
  | power => 10
  | zone => 11
  | collation => 12
  | sign => 13
  | atom => 14

/-- Two operators of this binding cannot stand beside each other without parentheses. -/
def standsAlone : Binding → Bool
  | is | comparison | membership => true
  | _ => false

/-- The binding of an infix operator. -/
def ofOperator (symbol : String) : Binding :=
  if ["<", ">", "=", "<=", ">=", "<>"].contains symbol then comparison
  else if symbol == "+" || symbol == "-" then sum
  else if ["*", "/", "%"].contains symbol then product
  else if symbol == "^" then power
  else operator

/-- The looser one of two. -/
def looser (a b : Binding) : Binding :=
  if b.rank < a.rank then b else a

end Binding

/-- A number with its sign. -/
inductive Number
  | integer (value : Int)
  /-- A number that is no small integer, as it was written. -/
  | decimal (written : String)
  deriving DecidableEq, Repr, Inhabited

namespace Number

def text : Number → String
  | integer value => Text.writeInteger value
  | decimal written => written

def negate : Number → Number
  | integer value => .integer (-value)
  | decimal written =>
    match Text.after? ['-'] written.toList with
    | some rest => .decimal (String.ofList rest)
    | none => .decimal ("-" ++ written)

end Number

inductive Junction
  | and
  | or
  deriving DecidableEq, Repr, Inhabited

namespace Junction

def word : Junction → String
  | and => "AND"
  | or => "OR"

def binding : Junction → Binding
  | and => .and
  | or => .or

end Junction

/-- What else is to be known of a phrase than its text. -/
inductive Form
  | column
  | number (value : Number)
  /-- Any other constant. -/
  | constant
  /-- A cast of a constant, and how such a value is written as a default. -/
  | castConstant (spelled : String)
  | parameter
  | junction (kind : Junction)
  /-- A test against a list or against the rows of a query. -/
  | member
  | row (items : List String)
  | call
  | query
  | other
  deriving DecidableEq, Repr, Inhabited

structure Phrase where
  text : String
  /-- The same where only a restricted expression can stand: what goes beyond one is set apart. -/
  restricted : String := text
  binding : Binding := .atom
  form : Form := .other
  /-- It is an operator with its operands. -/
  isOperation : Bool := false
  deriving DecidableEq, Repr, Inhabited

/-- Small letters, digits and underscores; a final newline is passed over. -/
def allPlain : List Char → Bool
  | [] => true
  | ['\n'] => true
  | c :: r => (isBareStart c || c.isDigit) && allPlain r

/-- A name inside an expression. -/
def phraseName (name : String) : String :=
  match name.toList with
  | c :: r =>
    if isBareStart c && allPlain r && !isReservedKeyword name && !isFunctionKeyword name then name
    else quoted name
  | [] => quoted name

/-- A name with the names that lead to it. -/
def phrasePath (path : List String) : String :=
  ".".intercalate (path.map phraseName)

def enclosed (text : String) : String :=
  "(" ++ text ++ ")"

def commaList (items : List String) : String :=
  ", ".intercalate items

/-- Some words are set off by a blank only from a character that could go on a word or an operator. -/
def needsGap (c : Char) : Bool :=
  c.isAlphanum || "_*+/-\"'=<>$@".toList.contains c

/-- A word and what follows it, with a blank between them where it has to be. -/
def softly (word text : String) : String :=
  if (text.toList.head?.map needsGap).getD false then word ++ " " ++ text else word ++ text

namespace Phrase

def isJunction (p : Phrase) : Bool :=
  match p.form with
  | .junction _ => true
  | _ => false

/-- A phrase that goes beyond a restricted expression. -/
def unrestricted (p : Phrase) : Phrase :=
  { p with restricted := enclosed p.text }

/-! ## Atoms -/

def ofNumber (value : Number) : Phrase :=
  { text := value.text, form := .number value }

def ofText (value : String) : Phrase :=
  { text := literal value, form := .constant }

def ofConstant (text : String) : Phrase :=
  { text := text, form := .constant }

/-- A column by its path. -/
def ofColumn (path : List String) : Phrase :=
  { text := phrasePath path, form := .column }

/-- All columns, or those of one source. -/
def ofAllColumns (path : List String) : Phrase :=
  { text := String.join (path.map fun name => phraseName name ++ ".") ++ "*", form := .column }

def ofParameter (number : Nat) : Phrase :=
  { text := "$" ++ Text.writeNatural number, form := .parameter }

def isConstant (p : Phrase) : Bool :=
  match p.form with
  | .number _ | .constant => true
  | _ => false

/-- A cast, where `spelled` is the type as a default names it. -/
def cast (p : Phrase) (type spelled : String) : Phrase :=
  { text := "CAST(" ++ p.text ++ " AS " ++ type ++ ")"
    form := if p.isConstant then .castConstant (p.text ++ "::" ++ spelled) else .other }

/-- The expression by itself, where no blanks stand around it. -/
def wholeText (p : Phrase) : String :=
  Text.strip p.text

/-- A default keeps the short form of a cast constant. -/
def defaultText (p : Phrase) : String :=
  match p.form with
  | .castConstant spelled => spelled
  | _ => p.wholeText

/-- A function applied to arguments that are written already. -/
def ofCall (name : String) (arguments : List String) : Phrase :=
  { text := name ++ enclosed (commaList arguments), form := .call }

/-- A function of the system itself. -/
def ofSystemCall (name : String) (arguments : List Phrase) : Phrase :=
  ofCall ("pg_catalog." ++ name) (arguments.map (·.text))

/-- A function of the language, which is written in capitals. -/
def ofKeyword (name : String) (arguments : List String) : Phrase :=
  { text := name ++ enclosed (commaList arguments) }

def ofRow (isExplicit : Bool) (items : List String) : Phrase :=
  { text := (if isExplicit then "ROW" else "") ++ enclosed (commaList items), form := .row items }

/-- Parts of a value: fields with a leading point, elements between brackets. -/
def select (p : Phrase) (parts : List String) : Phrase :=
  let isField := (parts.head?.map fun part => part.toList.head? == some '.').getD false
  let base :=
    match p.form with
    | .parameter | .query => p.text
    | .call => enclosed (enclosed p.text)
    | .column => enclosed (if isField then enclosed p.text else p.text)
    | _ => enclosed p.text
  { text := base ++ String.join parts }

/-! ## Operators -/

inductive Side
  | left
  | right
  deriving DecidableEq

/-- An operand needs parentheses if it is looser than its operator. Between equals it depends: some
operators never stand side by side, the others group to the left. -/
def needsParentheses (outer : Binding) (side : Side) (p : Phrase) : Bool :=
  if p.binding.rank < outer.rank then true
  else if outer.rank < p.binding.rank then false
  else if outer.standsAlone then !(side == .left && p.form == .member)
  else side == .right

/-- What an operator makes of its operands, which are written in the two ways of a phrase. -/
def operand (outer : Binding) (side : Side) (p : Phrase) : Phrase :=
  if needsParentheses outer side p then { text := enclosed p.text }
  else { text := p.text, restricted := p.restricted }

/-- An operator between its operands. -/
def infixed (symbol : String) (binding : Binding) (left right : Phrase) : Phrase :=
  let left := operand binding .left left
  let right := operand binding .right right
  { text := left.text ++ " " ++ symbol ++ " " ++ right.text
    restricted := left.restricted ++ " " ++ symbol ++ " " ++ right.restricted
    binding
    isOperation := true }

/-- An operator before its operand. -/
def prefixed (symbol : String) (binding : Binding) (side : Side) (p : Phrase) : Phrase :=
  let p := operand binding side p
  { text := symbol ++ " " ++ p.text
    restricted := symbol ++ " " ++ p.restricted
    binding
    isOperation := true }

/-- A sign before its operand; a minus becomes part of a number. -/
def signed (symbol : String) (p : Phrase) : Phrase :=
  match p.form with
  | .number value =>
    if symbol == "-" then ofNumber value.negate else prefixed symbol .sign .left p
  | _ => prefixed symbol .sign .left p

def junctionItem (p : Phrase) : String :=
  if p.isJunction then enclosed p.text else p.text

/-- Joins two conditions. A left one of the same kind takes the right one into its list. -/
def join (kind : Junction) (left right : Phrase) : Phrase :=
  let front := if left.form == .junction kind then left.text else left.junctionItem
  let p : Phrase := {
    text := front ++ " " ++ kind.word ++ " " ++ right.junctionItem
    binding := kind.binding
    form := .junction kind }
  p.unrestricted

def negation (p : Phrase) : Phrase :=
  let text := softly "NOT" (if p.isJunction then enclosed p.text else p.text)
  { text, restricted := enclosed text, binding := .not }

/-- A test whose words stand behind its operand. -/
def tested (p : Phrase) (words : String) : Phrase :=
  let text := (operand .is .left p).text ++ " " ++ words
  { text, restricted := enclosed text, binding := .is }

/-- The value is a whole document. -/
def isDocument (p : Phrase) : Phrase :=
  let p := operand .is .left p
  { text := p.text ++ " IS DOCUMENT", restricted := p.restricted ++ " IS DOCUMENT", binding := .is }

def collated (p : Phrase) (collation : List String) : Phrase :=
  let text := (operand .collation .left p).text ++ " COLLATE " ++ phrasePath collation
  { text, restricted := enclosed text, binding := .collation }

/-- Membership in a list or in the rows of a query, which is written already. -/
def among (p : Phrase) (words members : String) (isQuery : Bool) : Phrase :=
  let text := (operand .membership .left p).text ++ " " ++ words ++ " " ++ members
  { text
    restricted := enclosed text
    binding := .membership
    form := .member
    isOperation := !isQuery }

/-- The words for an operator that compares with a pattern, if it is one. -/
def patternWords? (symbol : String) : Option String :=
  [("~~", "LIKE"), ("!~~", "NOT LIKE"), ("~~*", "ILIKE"), ("!~~*", "NOT ILIKE")].lookup symbol

/-- Comparison with some or all members of a collection, which is written already. -/
def quantified (p : Phrase) (symbol : String) (binding : Binding) (members : String)
    (isQuery : Bool) : Phrase :=
  let binding := binding.looser .operator
  let words := (patternWords? symbol).getD symbol
  let text := (operand binding .left p).text ++ " " ++ words ++ " " ++ members
  { text
    restricted := enclosed text
    binding
    form := .member
    isOperation := !isQuery }

/-- A range; its words may differ from plain `BETWEEN`. The lower bound is restricted. -/
def between (p : Phrase) (words : String) (low high : Phrase) : Phrase :=
  let text := p.text ++ " " ++ words ++ " " ++ low.restricted ++ " AND " ++
    (operand .membership .right high).text
  { text, restricted := enclosed text, binding := .membership, isOperation := true }

/-- A number of rows; an operation is set apart there, and no value is the word for all. -/
def countText (p : Phrase) : String :=
  if p == ofConstant "NULL" then "ALL"
  else if p.isOperation then enclosed p.text
  else p.text

end Phrase
end SchemaScript.Sql
