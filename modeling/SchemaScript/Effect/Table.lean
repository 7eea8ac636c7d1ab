import SchemaScript.Catalog.Basic
import SchemaScript.Effect.Object

/-!
# The effect on tables

Constraints, and the tables that statements create with their columns.
-/

/-!
## Constraints of tables

A constraint without a name gets one made from the table, its columns and its kind; if that name is
taken, the smallest number that makes it free is put behind it.
-/

namespace SchemaScript.Effect

open Sql Logged

/-- The base with the first number from `counter` on that makes it free, tried `limit` times. -/
def freeFrom (taken : String → Bool) (base : String) : Nat → Nat → String
  | 0, counter => base ++ Text.writeNatural counter
  | limit + 1, counter =>
    let candidate := base ++ Text.writeNatural counter
    if taken candidate then freeFrom taken base limit (counter + 1) else candidate

/-- A name that is free; `limit` is the number of taken ones. -/
def freeName (taken : String → Bool) (base : String) (limit : Nat) : String :=
  if taken base then freeFrom taken base limit 1 else base

/-- The name of a constraint, given or made. -/
def constraintName (table : Table) (given : Option String) (columns : List String)
    (kind : String) : String :=
  match Text.given given with
  | some name => name
  | none =>
    let base := "_".intercalate (table.name.spelled :: columns ++ [kind])
    freeName table.constraints.contains base table.constraints.size

/-- Columns in their order, from position one on. -/
def keyColumns (names : List String) : List KeyColumn :=
  names.mapIdx fun i name => { name := (name : String), position := Int.ofNat (i + 1) }

/-- The constraint that a clause adds to a table; none, if a catalog does not keep its kind. -/
def constraintOf (default : String) (table : Table) (clause : ConstraintClause) :
    Option Constraint :=
  let named (kind : ConstraintKind) (columns : List String) (suffix : String) : Constraint :=
    { schema := table.schema
      table := table.name
      name := constraintName table clause.name columns suffix
      kind
      columns := keyColumns clause.columns }
  match clause.rule with
  | .primaryKey => some (named .primaryKey [] "pkey")
  | .unique => some (named .unique clause.columns "key")
  | .check condition =>
    let own := named .check clause.column.toList "check"
    some { own with columns := [], condition }
  | .exclusion => some { named .exclusion [] "excl" with columns := [] }
  | .references reference deferrable initiallyDeferred =>
    some { named .foreignKey (clause.columns.take 1) "fkey" with
      referencedSchema := schemaOf default reference.table
      referencedTable := reference.table.name
      referencedColumns := keyColumns reference.columns
      onUpdate := reference.onUpdate.text
      onDelete := reference.onDelete.text
      deferrable
      initiallyDeferred }
  | .other _ => none

/-- The columns of a primary key hold no nulls. -/
def withoutNulls (table : Table) (columns : List String) : Table :=
  columns.foldl (fun t name => t.modifyColumn name fun c => { c with nullable := false }) table

/-- Puts a constraint under its name; one of that name is replaced. -/
def putConstraint (table : Table) (c : Constraint) : Table :=
  { table with constraints := table.constraints.put c.name.spelled c }

def addConstraint (default : String) (table : Table) (clause : ConstraintClause) :
    Logged Table := do
  match constraintOf default table clause with
  | none =>
    let label := match clause.rule with | .other label => label | _ => ""
    debug ("Skipping constraint type " ++ label ++ " on " ++ table.qualifiedName)
    return table
  | some c =>
    let table := putConstraint table c
    return if c.kind == .primaryKey then withoutNulls table clause.columns else table

/-!
## Tables that statements create

A column of a serial type gets a sequence of its own.
-/

open Sql Logged

/-- A table that is being put together, and the sequences that its columns own. -/
structure Draft where
  table : Table
  sequences : List Sequence := []

/-! ### Columns -/

/-- The sequence behind a serial column. -/
def serialSequence (table : Table) (column base : String) : Sequence :=
  { schema := table.schema
    name := table.name.spelled ++ "_" ++ column ++ "_seq"
    dataType := base
    ownerTable := table.name
    ownerColumn := column }

/-- The default of a serial column; the sequence is named as seen from the default schema. -/
def serialDefault (default : String) (s : Sequence) : String :=
  let name := s.name.spelled
  let reference := if s.schema.spelled == default then name else s.schema.spelled ++ "." ++ name
  "nextval('" ++ reference ++ "'::regclass)"

/-- A column of a type, before its rules. -/
def typedColumn (table : Table) (name : String) (position : Int) (type : WrittenType) :
    Except Fault Column := do
  let base := type.base
  let column : Column := { name, position, dataType := base }
  if type.isArray then return { column with dataType := type.text }
  match type.storedModifiers with
  | [] =>
    if isBuiltinType base then return column
    return { column with
      dataType := "USER-DEFINED", userType := dropSchema (some base) table.schema.given }
  | first :: rest =>
    if base == "character varying" || base == "character" then
      return { column with maxLength := ← wholeModifier first }
    if base == "numeric" then
      let precision ← wholeModifier first
      match rest with
      | [] => return { column with precision }
      | scale :: _ =>
        return { column with precision, scale := ← wholeModifier scale }
    return { column with dataType := base ++ enclosed (",".intercalate (first :: rest)) }

/-- Adds a column, with its sequence if its type asks for one. -/
def addColumn (default : String) (draft : Draft) (definition : ColumnDefinition) :
    Except Fault Draft := do
  let table := draft.table
  let position := Int.ofNat table.columns.length + 1
  let type := definition.type
  match if type.isArray then none else serialBase? type.base with
  | some base =>
    let sequence := serialSequence table definition.name base
    let column : Column := {
      name := definition.name
      position
      dataType := base
      default := serialDefault default sequence
      nullable := false }
    return {
      table := { table with columns := table.columns ++ [column] }
      sequences := draft.sequences ++ [sequence] }
  | none =>
    let column ← typedColumn table definition.name position type
    return { draft with table := { table with columns := table.columns ++ [column] } }

/-- Takes over the options of an identity column. -/
def identityOption (identity : Identity) : SequenceOption → Except Fault Identity
  | .start n => do return { identity with start := ← wholeNumber n }
  | .increment n => do return { identity with increment := ← wholeNumber n }
  | .maximum n => do return { identity with maximum := ← maybeWholeNumber n }
  | .minimum n => do return { identity with minimum := ← maybeWholeNumber n }
  | .cycle enabled => return { identity with cycle := enabled }
  | _ => return identity

def identityOf (always : Bool) (options : List SequenceOption) : Except Fault Identity :=
  options.foldlM identityOption
    { enabled := true, generation := if always then "ALWAYS" else "BY DEFAULT" }

/-- Changes the column that was added last. -/
def changeLast (table : Table) (f : Column → Column) : Table :=
  let last := table.columns.length - 1
  { table with columns := table.columns.modify last f }

def applyRule (default : String) (table : Table) : ColumnRule → Logged Table
  | .notNull => return changeLast table fun c => { c with nullable := false }
  | .null => return changeLast table fun c => { c with nullable := true }
  | .default value => return changeLast table fun c => { c with default := value.defaultText }
  | .identity always options => do
    let identity ← .ofResult (identityOf always options)
    return changeLast table fun c => { c with identity, nullable := false }
  | .constraint clause => addConstraint default table clause

/-! ### Creation -/

def addElement (default : String) (draft : Draft) : TableElement → Logged Draft
  | .column definition => do
    let draft ← .ofResult (addColumn default draft definition)
    return { draft with table := ← definition.rules.foldlM (applyRule default) draft.table }
  | .constraint clause => do
    return { draft with table := ← addConstraint default draft.table clause }
  | .other label => do
    debug ("Skipping table element " ++ label ++ " in " ++ draft.table.qualifiedName)
    return draft

/-- The table that a definition describes, and the sequences that it brings along. -/
def draftOf (default : String) (definition : TableDefinition) : Logged Draft := do
  let table : Table := {
    schema := schemaOf default definition.relation
    name := definition.relation.name
    kind := if definition.isTemporary then .temporary else .base }
  let draft ← definition.elements.foldlM (addElement default) { table }
  match definition.partitioning with
  | none => return draft
  | some partitioning =>
    return { draft with
      table := { draft.table with
        isPartitioned := true
        partitionStrategy := partitioning.strategy.text
        partitionKey := commaList partitioning.keys } }

/-- How a table hangs on its parent. -/
def attachmentOf (default : String) (definition : TableDefinition) : Option PartitionAttachment :=
  match definition.bound, definition.parents with
  | some bound, parent :: _ =>
    some {
      parentSchema := schemaOf default parent
      parentTable := parent.name
      childSchema := schemaOf default definition.relation
      childTable := definition.relation.name
      bound }
  | _, _ => none

def putSequences (sequences : List Sequence) (s : Schema) : Schema :=
  { s with sequences := sequences.foldl (fun all q => all.put q.name.spelled q) s.sequences }

def createTable (default : String) (catalog : Catalog) (definition : TableDefinition) :
    Logged Catalog := do
  let draft ← draftOf default definition
  let attachment := attachmentOf default definition
  if attachment.isNone && !definition.parents.isEmpty then
    debug ("Ignoring INHERITS clause on " ++ draft.table.qualifiedName)
  let schema := schemaOf default definition.relation
  let catalog := catalog.updateSchema schema fun s =>
    let s := putSequences draft.sequences s
    { s with tables := s.tables.put definition.relation.name draft.table }
  return { catalog with partitions := catalog.partitions ++ attachment.toList }

end SchemaScript.Effect
