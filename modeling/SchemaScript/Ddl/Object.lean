import SchemaScript.Catalog.Basic
import SchemaScript.Ddl.Reference
import SchemaScript.Sql.TypeName
import SchemaScript.Text.Integer

/-!
# Schemas, extensions, types, sequences and views as statements

An object that lacks a name or a part its statement needs renders as the empty text.
-/

namespace SchemaScript

/-- Every database has a schema `public`, so that one is not created. -/
def Schema.ddl (s : Schema) : String :=
  match s.name.given with
  | none => ""
  | some name => if name == "public" then "" else "CREATE SCHEMA " ++ Sql.quoteName name ++ ";"

def Schema.check (s : Schema) : Except Fault Unit :=
  s.name.needText

namespace Extension

def ddl (e : Extension) : String :=
  match e.name.given with
  | none => ""
  | some name =>
    "CREATE EXTENSION IF NOT EXISTS " ++ Sql.quoteName name ++
      (match e.schema.given with
        | some s => " WITH SCHEMA " ++ Sql.quoteName s
        | none => "") ++
      ";" ++ Ddl.commentAfter ("EXTENSION " ++ Sql.quoteName name) e.comment

def check (e : Extension) : Except Fault Unit := do
  if e.name.isGiven then
    e.name.needText
    e.schema.needText
    e.comment.needText

end Extension

/-- A type as it is written in a script for the schema `target`. -/
def Ddl.typeText (type : Field String) (target : Option String) : String :=
  Text.spelled (Sql.dropSchema (type.text?.map Sql.canonicalType) target)

/-- A domain constraint on a line of its own. -/
def DomainConstraint.ddl (c : DomainConstraint) : String :=
  "\n    " ++
    (match c.name.given with
      | some name => "CONSTRAINT " ++ Sql.quoteName name ++ " "
      | none => "") ++
    c.definition.spelled

def Member.ddl (target : Option String) (m : Member) : String :=
  "    " ++ Ddl.nameText m.name ++ " " ++ Ddl.typeText m.dataType target

def Member.check (m : Member) : Except Fault Unit := do
  m.name.needText
  m.dataType.needText

namespace UserType

/-- The labels one per line. -/
def enumBody (labels : List String) : String :=
  if labels.isEmpty then " AS ENUM ();"
  else
    " AS ENUM (\n" ++ ",\n".intercalate (labels.map fun label => "    " ++ Sql.literal label) ++
      "\n);"

/-- The members one per line, in the order of their positions. -/
def compositeBody (target : Option String) (members : List Member) : String :=
  " AS (\n" ++ ",\n".intercalate ((byPosition (·.position) members).map (Member.ddl target)) ++ "\n);"

def domainBody (target : Option String) (t : UserType) : String :=
  " AS " ++ Ddl.typeText t.base target ++
    (match t.default.given with | some d => " DEFAULT " ++ d | none => "") ++
    (if t.notNull.isGiven then " NOT NULL" else "") ++
    String.join (t.constraints.map DomainConstraint.ddl) ++ ";"

def isComplete (t : UserType) : Bool :=
  t.name.isGiven &&
    match t.kind with
    | .enum => true
    | .composite => !t.members.isEmpty
    | .domain => t.base.isGiven

def ddl (t : UserType) (target : Option String) : String :=
  if !t.isComplete then ""
  else
    let name := Ddl.reference t.schema t.name target
    match t.kind with
    | .enum =>
      "CREATE TYPE " ++ name ++ enumBody t.labels.texts ++ Ddl.commentAfter ("TYPE " ++ name) t.comment
    | .composite =>
      "CREATE TYPE " ++ name ++ compositeBody target t.members ++
        Ddl.commentAfter ("TYPE " ++ name) t.comment
    | .domain =>
      "CREATE DOMAIN " ++ name ++ domainBody target t ++
        Ddl.commentAfter ("DOMAIN " ++ name) t.comment

def checkBody (t : UserType) : Except Fault Unit := do
  match t.kind with
  | .enum => t.labels.needTexts .notAText
  | .composite =>
    needOrder (·.position) t.members
    t.members.forM Member.check
  | .domain =>
    t.base.needText
    t.constraints.forM (·.name.needText)

/-- Refuses a type whose statement cannot be written. -/
def check (t : UserType) : Except Fault Unit := do
  if t.name.isGiven then Ddl.needReference t.schema t.name
  if t.isComplete then
    t.checkBody
    t.comment.needText

end UserType

namespace Sequence

/-- A bound is always written, one that is not set as its absence. -/
def boundText (word : String) (bound : Field Int) : String :=
  match bound.text? with
  | some n => word ++ " " ++ n
  | none => "NO " ++ word

/-- A number that is written unless it is one. -/
def unlessOne (words : String) (number : Field Int) : List String :=
  match number.text? with
  | some n => if number.stored.isNumber 1 then [] else [words ++ " " ++ n]
  | none => []

def ddl (s : Sequence) (target : Option String) : String :=
  if !s.name.isGiven then ""
  else
    let name := Ddl.reference s.schema s.name target
    let dataType := Sql.canonicalType (s.dataType.givenOr "bigint")
    let words :=
      ["CREATE SEQUENCE " ++ name] ++ (if dataType == "bigint" then [] else ["AS " ++ dataType]) ++
        unlessOne "START WITH" s.start ++ unlessOne "INCREMENT BY" s.increment ++
        [boundText "MINVALUE" s.minimum, boundText "MAXVALUE" s.maximum] ++
        (if s.cycle.isGiven then ["CYCLE"] else [])
    " ".intercalate words ++ ";" ++ Ddl.commentAfter ("SEQUENCE " ++ name) s.comment

/-- Refuses a sequence whose statement cannot be written. -/
def check (s : Sequence) : Except Fault Unit := do
  if s.name.isGiven then
    Ddl.needReference s.schema s.name
    s.dataType.needText
    s.comment.needText

end Sequence

namespace View

def keyword (v : View) : String :=
  if v.materialized.isGiven then "MATERIALIZED VIEW" else "VIEW"

/-- The query without blanks around it; it is written as it is stored. -/
def query (v : View) : String :=
  Text.strip (v.definition.givenOr "")

def ddl (v : View) (target : Option String) : String :=
  if !v.name.isGiven || v.query == "" then ""
  else
    let name := Ddl.reference v.schema v.name target
    "CREATE " ++ v.keyword ++ " " ++ name ++ " AS\n" ++ v.query ++
      (if Text.endsWith v.query ";" then "" else ";") ++
      Ddl.commentAfter (v.keyword ++ " " ++ name) v.comment

/-- Refuses a view whose statement cannot be written. -/
def check (v : View) : Except Fault Unit := do
  v.definition.needText
  if v.name.isGiven && v.query != "" then
    Ddl.needReference v.schema v.name
    v.comment.needText

end View
end SchemaScript
