import SchemaScript.Ddl.Reference
import SchemaScript.Effect.Table
import SchemaScript.Text.Case

/-!
# What statements add to tables

Indexes, triggers, policies and changes. What is said about a table that is not there is passed over.
-/

namespace SchemaScript.Effect

open Sql Logged

/-- Changes the table of that name, if the catalog has it. -/
def withTable (default : String) (catalog : Catalog) (relation : RelationName)
    (f : Table → Logged Table) : Logged Catalog := do
  let schema := schemaOf default relation
  match catalog.findTable? schema relation.name with
  | none =>
    debug ("Table " ++ schema ++ "." ++ relation.name ++ " not found, skipping dependent statement")
    return catalog
  | some table =>
    let table ← f table
    return catalog.modifyTable schema relation.name fun _ => table

/-! ## Indexes -/

def indexColumn (index : Nat) (element : IndexElement) : IndexColumn :=
  { name :=
      if element.isExpression then enclosed (Ddl.indexExpression element.key) else element.key
    position := Int.ofNat (index + 1)
    direction := if element.isDescending then "DESC" else .absent
    operatorClass :=
      if element.operatorClass.isEmpty then .absent else ".".intercalate element.operatorClass }

/-- A name made from the table and those columns that look like names. -/
def indexName (table : Table) (columns : List IndexColumn) : String :=
  let names := (columns.map (·.name.spelled)).filter Text.isName
  "_".intercalate (table.name.spelled :: names ++ ["idx"])

def addIndex (table : Table) (definition : IndexDefinition) : Table :=
  let columns := definition.elements.mapIdx indexColumn
  let name := Text.givenOr definition.name (indexName table columns)
  let index : Index := {
    schema := table.schema
    table := table.name
    name
    kind := if definition.isUnique then .unique else .regular
    method := definition.method
    columns
    isUnique := definition.isUnique
    isPartial := definition.predicate.isSome
    isConcurrent := definition.isConcurrent
    predicate := definition.predicate }
  { table with indexes := table.indexes.put name index }

/-! ## Triggers and policies -/

def addTrigger (table : Table) (definition : TriggerDefinition) : Table :=
  let arguments :=
    if definition.arguments.isEmpty then ""
    else enclosed (commaList (definition.arguments.map literal))
  let trigger : Trigger := {
    schema := table.schema
    table := table.name
    name := definition.name
    timing := definition.timing
    events := definition.events
    granularity := definition.granularity
    function := ".".intercalate definition.function ++ arguments
    condition := definition.condition }
  { table with triggers := table.triggers.put definition.name trigger }

def addPolicy (table : Table) (definition : PolicyDefinition) : Table :=
  let policy : Policy := {
    schema := table.schema
    table := table.name
    name := definition.name
    command := definition.command
    permissive := definition.permissive
    roles := definition.namedRoles
    visible := definition.visible
    allowed := definition.allowed }
  { table with policies := table.policies.put definition.name policy }

/-! ## Changes -/

/-- A table that is being changed, with the partitions that it gains. -/
structure Change where
  table : Table
  partitions : List PartitionAttachment := []

def applyCommand (default : String) (change : Change) : AlterCommand → Logged Change
  | .addConstraint clause => do
    return { change with table := ← addConstraint default change.table clause }
  | .rowSecurity enabled =>
    return { change with table := { change.table with rowSecurity := enabled } }
  | .attachPartition child bound =>
    let attachment : PartitionAttachment := {
      parentSchema := change.table.schema
      parentTable := change.table.name
      childSchema := schemaOf default child
      childTable := child.name
      bound }
    return { change with partitions := change.partitions ++ [attachment] }
  | .other label => do
    debug ("Skipping ALTER TABLE " ++ label ++ " on " ++ change.table.qualifiedName)
    return change

def alterTable (default : String) (catalog : Catalog) (relation : RelationName)
    (commands : List AlterCommand) : Logged Catalog := do
  let schema := schemaOf default relation
  match catalog.findTable? schema relation.name with
  | none => withTable default catalog relation pure
  | some table =>
    let change ← commands.foldlM (applyCommand default) { table }
    let catalog := catalog.modifyTable schema relation.name fun _ => change.table
    return { catalog with partitions := catalog.partitions ++ change.partitions }

def indexCommand (default : String) (relation : RelationName) (found : List IndexAttachment) :
    AlterCommand → Logged (List IndexAttachment)
  | .attachPartition child _ =>
    let attachment : IndexAttachment := {
      parentSchema := schemaOf default relation
      parentIndex := relation.name
      childSchema := schemaOf default child
      childIndex := child.name }
    return found ++ [attachment]
  | command => do
    debug ("Skipping ALTER INDEX " ++ command.label ++ " on " ++ schemaOf default relation ++ "." ++
      relation.name)
    return found

def alterIndex (default : String) (catalog : Catalog) (relation : RelationName)
    (commands : List AlterCommand) : Logged Catalog := do
  let found ← commands.foldlM (indexCommand default relation) []
  return { catalog with indexPartitions := catalog.indexPartitions ++ found }

end SchemaScript.Effect
