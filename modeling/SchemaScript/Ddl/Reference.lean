import SchemaScript.Catalog.Field
import SchemaScript.Sql.Name
import SchemaScript.Sql.TypeName
import SchemaScript.Text.Case
import SchemaScript.Text.Integer
import SchemaScript.Text.Search

/-!
# References and expressions

What a statement takes over from the fields of an object.
-/

/-!
## Parts that many statements have

References to objects, and comments on them.
-/

namespace SchemaScript.Ddl

/-- A name as it stands inside a statement. -/
def nameText (name : Field String) : String :=
  Sql.nameText name.text?

/-- A reference to an object as seen from the schema `target`. -/
def reference (schema name : Field String) (target : Option String) : String :=
  Sql.qualified schema.given name.text? target

/-- A reference is made from texts. -/
def needReference (schema name : Field String) : Except Fault Unit := do
  schema.needText
  name.needText

/-- The statement that gives `subject` a comment. -/
def commentStatement (subject comment : String) : String :=
  "COMMENT ON " ++ subject ++ " IS " ++ Sql.literal comment ++ ";"

/-- The comment set apart by a blank line, or nothing where there is none. -/
def commentAfter (subject : String) (comment : Field String) : String :=
  match comment.given with
  | some c => "\n\n" ++ commentStatement subject c
  | none => ""

/-!
## Stored expressions

Expressions are stored as text. These rules put them into the form that a statement needs without
parsing them.
-/

/-- A closing parenthesis before the end brings the depth back to zero; `depth` counts the open ones. -/
def closesEarly : Int → List Char → Bool
  | _, [] => false
  | _, [_] => false
  | depth, c :: r =>
    if c == '(' then closesEarly (depth + 1) r
    else if c == ')' then depth - 1 == 0 || closesEarly (depth - 1) r
    else closesEarly depth r

/-- One pair of parentheses already encloses the whole text. -/
def isWrapped (s : List Char) : Bool :=
  s.head? == some '(' && s.getLast? == some ')' && !closesEarly 0 s

/-- Puts an expression between parentheses unless it already stands between a pair. -/
def wrapped (expression : String) : String :=
  let inner := Text.strip expression
  if isWrapped inner.toList then inner else "(" ++ inner ++ ")"

/-- A check clause with the word `CHECK` in front. -/
def checkText (clause : String) : String :=
  let inner := Text.strip clause
  if Text.startsWith (Text.upper inner) "CHECK" then inner else "CHECK " ++ wrapped inner

/-- A default without its final cast; `nextval` names a sequence of the target schema without it. -/
def defaultText (default : String) (target : Option String) : String :=
  match target with
  | some t =>
    if t == "" then Sql.dropCast default
    else Sql.dropCast (Text.replaceAll default ("nextval('" ++ t ++ ".") "nextval('")
  | none => Sql.dropCast default

/-- The text is an expression rather than the name of a column. -/
def looksLikeExpression (s : String) : Bool :=
  Text.contains s "(" || Text.contains s "::" || Text.contains s "->"

/-- Drops casts to text and the blanks around field access operators. -/
def indexExpression (expression : String) : String :=
  Text.replaceAll
    (Text.replaceAll (Text.replaceAll expression "::text" "") " ->> " "->>") " -> " "->"

end SchemaScript.Ddl
