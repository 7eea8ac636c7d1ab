import SchemaScript.Catalog.Table
import SchemaScript.Ddl.Reference
import SchemaScript.Text.Case

/-!
# Indexes as statements

A stored definition is taken over with a few words left out; without one the statement is built from
the columns. `StoredIndex.read?` takes apart the definition of an index on an expression.
-/

namespace SchemaScript

/-- The parts of a stored index definition. -/
structure StoredIndex where
  isUnique : Bool
  name : List Char
  schema : Option (List Char)
  table : List Char
  method : List Char
  expression : List Char
  predicate : Option (List Char)

namespace StoredIndex

/-- At least one blank. -/
def blanks? (s : List Char) : Option (List Char) :=
  match s with
  | c :: r => if Text.isBlank c then some (r.dropWhile Text.isBlank) else none
  | [] => none

/-- A run of word characters that is not empty. -/
def word? (s : List Char) : Option (List Char × List Char) :=
  match s.takeWhile Text.isWordChar with
  | [] => none
  | w => some (w, s.dropWhile Text.isWordChar)

/-- A word with at least one blank after it. -/
def keyword? (word : String) (s : List Char) : Option (List Char) :=
  (Text.after? word.toList s).bind blanks?

/-- A table with or without a schema. -/
def reference? (s : List Char) : Option (Option (List Char) × List Char × List Char) := do
  let (first, r) ← word? s
  match r with
  | '.' :: t =>
    let (second, u) ← word? t
    return (some first, second, u)
  | _ => return (none, first, r)

/-- The text up to the end, where a final line end does not count; no other line end occurs. -/
def lastLine? (s : List Char) : Option (List Char) :=
  let line := s.takeWhile (· != '\n')
  match s.dropWhile (· != '\n') with
  | [] => some line
  | ['\n'] => some line
  | _ => none

/-- The last of at least two blanks, where a final line end does not count. -/
def lastBlank? (s : List Char) : Option (List Char) :=
  let line := match s.reverse with | '\n' :: r => r | r => r
  match line with
  | c :: _ :: _ => if c == '\n' then none else some [c]
  | _ => none

/-- A predicate after the word `WHERE`, up to the end. -/
def predicate? (s : List Char) : Option (List Char) := do
  let r ← Text.after? "WHERE".toList (← blanks? s)
  let condition ← blanks? r
  match ← lastLine? condition with
  | [] => lastBlank? r
  | line => return line

/-- Splits the text after the opening parenthesis: the shortest expression after which only a closing
parenthesis and an optional predicate stand. `before` holds what was passed, last first. -/
def expression? (before : List Char) :
    List Char → Option (List Char × Option (List Char))
  | [] => none
  | c :: r =>
    let here :=
      if c == ')' && !before.isEmpty then
        match predicate? r with
        | some p => some (before.reverse, some p)
        | none => if lastLine? r == some [] then some (before.reverse, none) else none
      else none
    match here with
    | some found => some found
    | none => if c == '\n' then none else expression? (c :: before) r

def read? (definition : List Char) : Option StoredIndex := do
  let r ← keyword? "CREATE" definition
  let (isUnique, r) :=
    match keyword? "UNIQUE" r with
    | some t => (true, t)
    | none => (false, r)
  let r ← keyword? "INDEX" r
  let (name, r) ← word? r
  let r ← keyword? "ON" (← blanks? r)
  let (schema, table, r) ← reference? r
  let r ← keyword? "USING" (← blanks? r)
  let (method, r) ← word? r
  let r ← Text.after? ['('] (← blanks? r)
  let (expression, predicate) ← expression? [] r
  return { isUnique, name, schema, table, method, expression, predicate }

/-- The statement, with its expression in short form. -/
def text (d : StoredIndex) : String :=
  let table := String.ofList d.table
  "CREATE " ++ (if d.isUnique then "UNIQUE " else "") ++ "INDEX " ++ String.ofList d.name ++ " ON " ++
    (match d.schema with | some s => String.ofList s ++ "." ++ table | none => table) ++
    (if d.method == "btree".toList then "" else " USING " ++ String.ofList d.method) ++
    " (" ++ Ddl.indexExpression (String.ofList d.expression) ++ ")" ++
    (match d.predicate with | some p => " WHERE " ++ String.ofList p | none => "")

/-- The definition without blanks at its ends and without final semicolons. -/
def bare (definition : String) : List Char :=
  ((Text.trim definition.toList).reverse.dropWhile (· == ';')).reverse

/-- The short form of a definition on an expression; any other definition stays as it is. -/
def simplified (definition : String) : String :=
  match read? (bare definition) with
  | some d =>
    if Ddl.looksLikeExpression (String.ofList d.expression) then d.text else definition
  | none => definition

/-- Leaves out the next `skip` characters, and later each `lead` that no word character or point
precedes; `last` is the character before. -/
def dropQualifier (lead : List Char) : Nat → Option Char → List Char → List Char
  | _, _, [] => []
  | skip + 1, _, c :: r => dropQualifier lead skip (some c) r
  | 0, last, c :: r =>
    if (match last with | some l => !(Text.isWordChar l || l == '.') | none => true) &&
        lead.isPrefixOf (c :: r) then
      dropQualifier lead (lead.length - 1) (some c) r
    else c :: dropQualifier lead 0 (some c) r

end StoredIndex

namespace Index

/-- The stored definition without the target schema and the usual method. -/
def fromDefinition (index : Index) (definition : String) (target : Option String) : String :=
  let text := StoredIndex.simplified (Text.strip definition)
  let text :=
    match index.schema.given with
    | some s =>
      if some s == target then
        String.ofList (StoredIndex.dropQualifier (s ++ ".").toList 0 none text.toList)
      else text
    | none => text
  Text.replaceAll text " USING btree" ""

def columnText (c : IndexColumn) : String :=
  (if Ddl.looksLikeExpression c.name.spelled then c.name.spelled else Ddl.nameText c.name) ++
    (match c.operatorClass.given with | some o => " " ++ o | none => "") ++
    (if Text.upper (c.direction.givenOr "") == "DESC" then " DESC" else "")

def hasColumns (index : Index) : Bool :=
  !index.columns.isEmpty && index.columns.all (·.name.isGiven)

/-- The statement built from the columns, of which each needs a name. -/
def fromColumns? (index : Index) (target : Option String) : Option String :=
  if !index.hasColumns then none
  else
    some ("CREATE " ++ (if index.isUnique.isGiven then "UNIQUE " else "") ++ "INDEX " ++
      (if index.isConcurrent.isGiven then "CONCURRENTLY " else "") ++ Ddl.nameText index.name ++
      " ON " ++ Ddl.reference index.schema index.table target ++
      (match index.method.given with
        | some m => if m == "btree" then "" else " USING " ++ m
        | none => "") ++
      " (" ++ ", ".intercalate (index.sortedColumns.map columnText) ++ ")" ++
      (match index.isPartial.isGiven, index.predicate.given with
        | true, some p => " WHERE " ++ p
        | _, _ => ""))

def ddl (index : Index) (target : Option String) : String :=
  if !index.name.isGiven then ""
  else
    let text? :=
      match index.definition.given with
      | some d => some (index.fromDefinition d target)
      | none => index.fromColumns? target
    match text? with
    | none => ""
    | some text =>
      text ++ (if Text.endsWith text ";" then "" else ";") ++
        Ddl.commentAfter ("INDEX " ++ Ddl.reference index.schema index.name target) index.comment

/-- A name is searched for signs of an expression, which only a text or a list can hold. -/
def checkColumn (c : IndexColumn) : Except Fault Unit := do
  if c.name.isGiven && c.name.stored.items?.isNone then throw .wrongForm
  c.name.needText
  c.direction.needText

def checkColumns (index : Index) : Except Fault Unit := do
  needOrder (·.position) index.columns
  index.sortedColumns.forM checkColumn
  index.name.needText
  Ddl.needReference index.schema index.table

/-- Refuses an index whose statement cannot be written. -/
def check (index : Index) : Except Fault Unit := do
  if !index.name.isGiven then return
  if index.definition.isGiven then index.definition.needText
  else if index.hasColumns then index.checkColumns
  else return
  if index.comment.isGiven then
    Ddl.needReference index.schema index.name
    index.comment.needText

end Index
end SchemaScript
