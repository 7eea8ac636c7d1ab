import SchemaScript.Catalog.Basic
import SchemaScript.Catalog.Table
import SchemaScript.Ddl.Reference
import SchemaScript.Sql.Name
import SchemaScript.Text.Integer

/-!
# Columns, constraints and tables as statements

The columns and the constraints of a table, and the statements they are written in.
-/

/-!
## Column definitions

The part of `CREATE TABLE` that one column takes, with the keys that cover this column alone.
-/

namespace SchemaScript

namespace Column

/-- A whole number column whose default draws from a sequence. -/
def isSerial (c : Column) : Bool :=
  match c.default.given with
  | some d => Text.contains d "nextval(" && (Sql.serialKeyword? (c.dataType.givenOr "")).isSome
  | none => false

/-- The type that counts: its own name for a type that a user defined. -/
def declaredType (c : Column) : Option String :=
  if c.dataType.text? == some "USER-DEFINED" && c.userType.isGiven then c.userType.text?
  else c.dataType.text?

/-- The type with its length or precision; absent only if the column has none. -/
def typeText? (c : Column) (target : Option String) : Option String :=
  if c.isSerial then some (Sql.serialKeyword (c.dataType.givenOr ""))
  else
    let base := c.declaredType.map Sql.canonicalType
    match base, c.maxLength.text?, c.precision.text? with
    | some "character varying", some n, _ => some ("varchar(" ++ n ++ ")")
    | some "character", some n, _ => some ("character(" ++ n ++ ")")
    | some "numeric", _, some p =>
      match c.scale.text? with
      | some s => some ("numeric(" ++ p ++ "," ++ s ++ ")")
      | none => some ("numeric(" ++ p ++ ")")
    | _, _, _ => Sql.dropSchema base target

/-- A default is searched for a call, which takes a text or a list. -/
def checkDefault (c : Column) : Except Fault Unit :=
  match c.default.stored with
  | .list _ | .object _ => .ok ()
  | _ => if c.default.isGiven && !c.default.stored.isText then .error .wrongForm else .ok ()

/-- Refuses a column whose type cannot be written. -/
def checkType (c : Column) : Except Fault Unit := do
  c.checkDefault
  if !c.isSerial && c.dataType.text? == some "USER-DEFINED" then c.userType.needText
  else c.dataType.needText

end Column

namespace Table

/-- The name under which the first constraint of a kind on this column alone is kept. -/
def soleConstraint? (t : Table) (column : Field String) (kind : ConstraintKind) : Option String :=
  (t.constraints.sorted.find? fun entry =>
    entry.2.kind == kind && entry.2.columns.map (·.name) == [column]).map (·.1)

/-- The columns of the primary key. -/
def primaryKeyColumns (t : Table) : List (Field String) :=
  match t.primaryKey? with
  | some key => key.columns.map (·.name)
  | none => []

/-- What follows the type: keys, generation or default, and the bar on nulls. -/
def columnOptions (t : Table) (target : Option String) (c : Column) : List String :=
  (if (t.soleConstraint? c.name .primaryKey).isSome then ["PRIMARY KEY"] else []) ++
    (if c.identity.enabled.isGiven then
      ["GENERATED " ++ c.identity.generation.givenOr "BY DEFAULT" ++ " AS IDENTITY"]
    else
      match c.default.text? with
      | some d => if c.isSerial then [] else ["DEFAULT " ++ Ddl.defaultText d target]
      | none => []) ++
    (if !c.nullable.isGiven && !t.primaryKeyColumns.contains c.name then ["NOT NULL"] else []) ++
    (if (t.soleConstraint? c.name .unique).isSome then ["UNIQUE"] else [])

/-- The definition of a column, which needs a name and a type. -/
def columnText? (t : Table) (target : Option String) (c : Column) : Option String :=
  match c.name.text?, c.typeText? target with
  | some name, some type =>
    some (" ".intercalate ([Sql.quoteName name, type] ++ t.columnOptions target c))
  | _, _ => none

end Table

/-- With a target schema the letters of a default are gone through. -/
def Column.checkDefaultText (target : Option String) (c : Column) : Except Fault Unit :=
  if c.identity.enabled.isGiven || c.isSerial || c.default.stored = .null then .ok ()
  else if Text.isGiven target then
    if c.default.stored.isText then .ok () else .error .notAText
  else if c.default.isGiven && !c.default.stored.isText then .error .wrongForm
  else .ok ()

/-- Refuses a column whose definition cannot be written: it needs a name and a type. -/
def Column.check (target : Option String) (c : Column) : Except Fault Unit := do
  c.name.needText
  c.checkType
  c.checkDefaultText target
  if c.name.stored.isText && c.dataType.stored.isText then .ok () else .error .incompleteColumn

end SchemaScript

/-!
## Constraints as statements

A key on a single column and a check become part of `CREATE TABLE`; any other constraint has a
statement of its own.
-/

namespace SchemaScript

namespace Constraint

/-- The names between parentheses, or nothing if one of them is missing. -/
def columnList? (columns : List KeyColumn) : Option String :=
  if columns.all (·.name.isGiven) then
    some ("(" ++ ", ".intercalate (columns.map fun c => Ddl.nameText c.name) ++ ")")
  else none

/-- A rule for changes of the referenced row; `NO ACTION` is what holds without one. -/
def ruleText (words : String) (rule : Field String) : String :=
  match rule.given with
  | some r => if r == "NO ACTION" then "" else " " ++ words ++ " " ++ r
  | none => ""

def deferralText (c : Constraint) : String :=
  if c.deferrable.isGiven then
    " DEFERRABLE" ++ (if c.initiallyDeferred.isGiven then " INITIALLY DEFERRED" else "")
  else ""

/-- A foreign key refers to the table's own schema where it names none. -/
def foreignSchema (c : Constraint) : Field String :=
  if c.referencedSchema.isGiven then c.referencedSchema else c.schema

def foreignKeyClause (c : Constraint) (target : Option String) (columns referenced : String) :
    String :=
  if c.columns.isEmpty || !c.referencedTable.isGiven then ""
  else
    "FOREIGN KEY " ++ columns ++ " REFERENCES " ++
      Ddl.reference c.foreignSchema c.referencedTable target ++
      (if c.referencedColumns.isEmpty then "" else " " ++ referenced) ++
      ruleText "ON UPDATE" c.onUpdate ++ ruleText "ON DELETE" c.onDelete ++ c.deferralText

/-- The constraint without its name; empty if it has no form or lacks a part. -/
def clause (c : Constraint) (target : Option String) : String :=
  match columnList? c.sortedColumns, columnList? c.sortedReferencedColumns with
  | some columns, some referenced =>
    match c.kind with
    | .primaryKey => if c.columns.isEmpty then "" else "PRIMARY KEY " ++ columns
    | .unique => if c.columns.isEmpty then "" else "UNIQUE " ++ columns
    | .foreignKey => c.foreignKeyClause target columns referenced
    | .check =>
      match c.condition.given with
      | some check => Ddl.checkText check
      | none => ""
    | .exclusion => ""
  | _, _ => ""

def ddl (c : Constraint) (target : Option String) : String :=
  let clause := c.clause target
  if clause == "" || !c.table.isGiven then ""
  else
    match c.name.given with
    | some name =>
      let table := Ddl.reference c.schema c.table target
      let name := Sql.quoteName name
      "ALTER TABLE " ++ table ++ " ADD CONSTRAINT " ++ name ++ " " ++ clause ++ ";" ++
        Ddl.commentAfter ("CONSTRAINT " ++ name ++ " ON " ++ table) c.comment
    | none => ""

/-- Columns are listed in order and by texts. -/
def needColumns (columns : List KeyColumn) : Except Fault Unit := do
  needOrder (·.position) columns
  columns.forM (·.name.needText)

/-- Refuses a constraint whose clause cannot be written. -/
def checkClause (c : Constraint) : Except Fault Unit := do
  if !(c.columns ++ c.referencedColumns).all (·.name.isGiven) then return
  match c.kind with
  | .primaryKey | .unique => needColumns c.columns
  | .foreignKey =>
    if !c.columns.isEmpty && c.referencedTable.isGiven then
      Ddl.needReference c.foreignSchema c.referencedTable
      needColumns c.columns
      needColumns c.referencedColumns
  | .check => c.condition.needText
  | .exclusion => return

/-- Refuses a constraint whose statement cannot be written. -/
def check (c : Constraint) (target : Option String) : Except Fault Unit := do
  c.checkClause
  if c.clause target != "" && c.name.isGiven && c.table.isGiven then
    Ddl.needReference c.schema c.table
    c.name.needText
    c.comment.needText

end Constraint

/-- The constraint kept under `key` is rendered inside `CREATE TABLE`. -/
def Table.isInline (t : Table) (key : String) (c : Constraint) : Bool :=
  match c.kind with
  | .check => c.condition.isGiven
  | .primaryKey | .unique =>
    match c.columns with
    | [column] => t.soleConstraint? column.name c.kind == some key
    | _ => false
  | _ => false

end SchemaScript

/-!
## Tables as statements
-/

namespace SchemaScript.Table

/-- The line of a check constraint. -/
def checkLine? (c : Constraint) : Option String :=
  match c.kind, c.condition.given with
  | .check, some check =>
    match c.name.given with
    | some name => some ("CONSTRAINT " ++ Sql.quoteName name ++ " " ++ Ddl.checkText check)
    | none => some (Ddl.checkText check)
  | _, _ => none

/-- The columns in the order of their positions, then the checks in the order of their names. -/
def lines (t : Table) (target : Option String) : List String :=
  t.sortedColumns.filterMap (t.columnText? target) ++ t.constraints.sortedValues.filterMap checkLine?

def body (lines : List String) : String :=
  if lines.isEmpty then " ()" else " (\n" ++ ",\n".intercalate (lines.map ("    " ++ ·)) ++ "\n)"

def partitionClause (t : Table) : String :=
  match t.isPartitioned.isGiven, t.partitionStrategy.given, t.partitionKey.given with
  | true, some strategy, some key => "\nPARTITION BY " ++ Text.upper strategy ++ " (" ++ key ++ ")"
  | _, _, _ => ""

/-- The comments on the table and on its columns. -/
def comments (t : Table) (name : String) : List String :=
  (match t.comment.given with
    | some c => [Ddl.commentStatement ("TABLE " ++ name) c]
    | none => []) ++
  t.sortedColumns.filterMap fun column =>
    column.comment.given.map fun c =>
      Ddl.commentStatement ("COLUMN " ++ name ++ "." ++ Ddl.nameText column.name) c

def isComplete (t : Table) : Bool :=
  t.name.isGiven && t.columns.all fun c => c.name.isGiven && c.dataType.isGiven

/-- The table and its comments; empty if a name or a type is missing. -/
def ddl (t : Table) (target : Option String) : String :=
  if !t.isComplete then ""
  else
    let name := Ddl.reference t.schema t.name target
    "\n\n".intercalate
      (("CREATE TABLE " ++ name ++ body (t.lines target) ++ t.partitionClause ++ ";") ::
        t.comments name)

/-- A check that has a line needs texts for it. -/
def checkLine (c : Constraint) : Except Fault Unit := do
  if c.kind == .check && c.condition.isGiven then
    c.condition.needText
    c.name.needText

/-- Refuses a table whose statement cannot be written. -/
def check (t : Table) (target : Option String) : Except Fault Unit := do
  if !t.isComplete then return
  Ddl.needReference t.schema t.name
  needOrder (·.position) t.columns
  t.sortedColumns.forM (Column.check target)
  t.constraints.sortedValues.forM checkLine
  if t.isPartitioned.isGiven && t.partitionStrategy.isGiven && t.partitionKey.isGiven then
    t.partitionStrategy.needText
  t.comment.needText
  t.sortedColumns.forM (·.comment.needText)

def rowSecurityDdl (t : Table) (target : Option String) : String :=
  if t.rowSecurity.isGiven then
    "ALTER TABLE " ++ Ddl.reference t.schema t.name target ++ " ENABLE ROW LEVEL SECURITY;"
  else ""

def checkRowSecurity (t : Table) : Except Fault Unit := do
  if t.rowSecurity.isGiven then Ddl.needReference t.schema t.name

end SchemaScript.Table

namespace SchemaScript.IndexAttachment

def ddl (a : IndexAttachment) (target : Option String) : String :=
  "ALTER INDEX " ++ Ddl.reference a.parentSchema a.parentIndex target ++ " ATTACH PARTITION " ++
    Ddl.reference a.childSchema a.childIndex target ++ ";"

/-- Refuses an attachment whose statement cannot be written. -/
def check (a : IndexAttachment) : Except Fault Unit := do
  Ddl.needReference a.parentSchema a.parentIndex
  Ddl.needReference a.childSchema a.childIndex

end SchemaScript.IndexAttachment

namespace SchemaScript.Ddl

/-- Makes `child` a partition of `parent`; nothing without a bound. -/
def attachPartition (parent child : Option String) (bound : Option String) : String :=
  match Text.given bound with
  | some b =>
    "ALTER TABLE " ++ Text.spelled parent ++ " ATTACH PARTITION " ++ Text.spelled child ++ " " ++ b ++
      ";"
  | none => ""

end SchemaScript.Ddl
