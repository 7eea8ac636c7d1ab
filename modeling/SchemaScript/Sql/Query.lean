import SchemaScript.Sql.Phrase

/-!
# Queries

A query as it is written, in parts: the order of its rows and their number can still be given when
the query itself is complete.
-/

namespace SchemaScript.Sql

/-- Which rows of a query count. -/
inductive RowLimit
  | atMost (count : String)
  /-- Rows that are equal to the last one count as well. -/
  | withTies (count : String)
  deriving DecidableEq, Repr, Inhabited

/-- The latter form ends with a blank. -/
def RowLimit.text : RowLimit → String
  | atMost count => "LIMIT " ++ count
  | withTies count => "FETCH FIRST " ++ count ++ " ROWS WITH TIES "

/-- Rows that nobody else can change meanwhile. -/
structure RowLock where
  text : String
  /-- Rows that others have locked are left out. -/
  skipsLocked : Bool := false
  deriving DecidableEq, Repr, Inhabited

structure Query where
  /-- The queries that it uses by name. -/
  context : Option String := none
  body : String
  /-- It is made of two queries. -/
  isCombined : Bool := false
  /-- It lists its rows. -/
  isRows : Bool := false
  /-- The keys that its rows are sorted by. -/
  order : Option String := none
  limit : Option RowLimit := none
  offset : Option String := none
  locks : List RowLock := []
  deriving DecidableEq, Repr, Inhabited

namespace Query

/-- A clause behind what is written so far, which may end with a blank already. -/
def before (text clause : String) : String :=
  if text.toList.getLast? == some ' ' then text ++ clause else text ++ " " ++ clause

def text (q : Query) : String :=
  let lock := if q.locks.isEmpty then none else some ("FOR " ++ commaList (q.locks.map (·.text)))
  let endings := [q.order.map ("ORDER BY " ++ ·), q.limit.map RowLimit.text,
    q.offset.map ("OFFSET " ++ ·), lock]
  let text := (endings.filterMap id).foldl before q.body
  match q.context with
  | some context => softly context text
  | none => text

/-- The query by itself, where no blanks stand around it. -/
def wholeText (q : Query) : String :=
  Text.strip q.text

/-- The query as an operand of a union, an intersection or a difference. -/
def operandText (q : Query) : String :=
  if q.isCombined || q.context.isSome || q.order.isSome || q.limit.isSome || q.offset.isSome ||
      !q.locks.isEmpty
  then enclosed q.text
  else q.text

def combined (words : String) (left right : Query) : Query :=
  { body := left.operandText ++ " " ++ softly words right.operandText, isCombined := true }

def ofRows (rows : List String) : Query :=
  { body := "VALUES " ++ commaList rows, isRows := true }

/-- The query as a value. -/
def phrase (q : Query) : Phrase :=
  { text := enclosed q.text, form := .query }

def existence (q : Query) : Phrase :=
  { text := "EXISTS " ++ enclosed q.text }

def array (q : Query) : Phrase :=
  { text := "ARRAY" ++ enclosed q.text }

/-- The query as a source: a list of rows needs parentheses of its own. -/
def sourceText (q : Query) : String :=
  enclosed (if q.isRows then { q with body := enclosed q.body }.text else q.text)

end Query

/-- A query or a change to rows, with the label of such a statement. -/
structure RowStatement where
  label : String
  text : String
  deriving DecidableEq, Repr, Inhabited

def RowStatement.ofQuery (q : Query) : RowStatement :=
  { label := "SelectStmt", text := q.text }

/-- What a query takes its rows from. -/
structure Source where
  text : String
  isJoin : Bool := false
  deriving DecidableEq, Repr, Inhabited

namespace Source

def lateralWord (isLateral : Bool) : String :=
  if isLateral then "LATERAL " else ""

def ofTable (isOnly : Bool) (path : List String) : Source :=
  { text := (if isOnly then "ONLY " else "") ++ phrasePath path }

def ofQuery (isLateral : Bool) (q : Query) : Source :=
  { text := lateralWord isLateral ++ q.sourceText }

/-- Sets the right part of a join apart if it is a join itself. -/
def rightText (s : Source) : String :=
  if s.isJoin then enclosed s.text else s.text

/-- Two sources; `condition` says which rows belong together. -/
def join (words : String) (left right : Source) (condition : String) : Source :=
  { text := left.text ++ " " ++ words ++ " " ++ right.rightText ++ condition, isJoin := true }

end Source
end SchemaScript.Sql
