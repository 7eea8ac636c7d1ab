import SchemaScript.Catalog.Basic
import SchemaScript.Catalog.Decode
import SchemaScript.Json.Value

/-!
# Catalogs as they are stored

A catalog as JSON, and the text in which it is saved.
-/

/-!
## Catalogs as JSON values

Every field of an object is written, also one that is absent, under the name it has in stored
catalogs.
-/

namespace SchemaScript

/-- Entries as an object, each under its name. -/
def Entries.toJson {α : Type} (encode : α → Json) (entries : Entries α) : Json :=
  .object (entries.pairs.map fun pair => (pair.1, encode pair.2))

def Column.toJson (c : Column) : Json :=
  .object
    [("name", c.name.stored), ("position", c.position.stored), ("data_type", c.dataType.stored),
     ("udt_name", c.userType.stored), ("is_nullable", c.nullable.stored),
     ("default", c.default.stored), ("max_length", c.maxLength.stored),
     ("precision", c.precision.stored), ("scale", c.scale.stored),
     ("comment", c.comment.stored), ("is_identity", c.identity.enabled.stored),
     ("identity_generation", c.identity.generation.stored),
     ("identity_start", c.identity.start.stored),
     ("identity_increment", c.identity.increment.stored),
     ("identity_maximum", c.identity.maximum.stored),
     ("identity_minimum", c.identity.minimum.stored),
     ("identity_cycle", c.identity.cycle.stored)]

def KeyColumn.toJson (c : KeyColumn) : Json :=
  .object [("name", c.name.stored), ("position", c.position.stored)]

def Constraint.toJson (c : Constraint) : Json :=
  .object
    [("schema", c.schema.stored), ("table", c.table.stored), ("name", c.name.stored),
     ("type", .text c.kind.text), ("columns", .list (c.columns.map KeyColumn.toJson)),
     ("referenced_schema", c.referencedSchema.stored),
     ("referenced_table", c.referencedTable.stored),
     ("referenced_columns", .list (c.referencedColumns.map KeyColumn.toJson)),
     ("check_clause", c.condition.stored), ("update_rule", c.onUpdate.stored),
     ("delete_rule", c.onDelete.stored), ("deferrable", c.deferrable.stored),
     ("initially_deferred", c.initiallyDeferred.stored), ("comment", c.comment.stored)]

def IndexColumn.toJson (c : IndexColumn) : Json :=
  .object
    [("name", c.name.stored), ("position", c.position.stored),
     ("direction", c.direction.stored), ("operator", c.operatorClass.stored)]

def Index.toJson (index : Index) : Json :=
  .object
    [("schema", index.schema.stored), ("table", index.table.stored), ("name", index.name.stored),
     ("type", .text index.kind.text), ("method", index.method.stored),
     ("columns", .list (index.columns.map IndexColumn.toJson)), ("is_unique", index.isUnique.stored),
     ("is_primary", index.isPrimary.stored), ("is_partial", index.isPartial.stored),
     ("is_concurrent", index.isConcurrent.stored), ("where", index.predicate.stored),
     ("definition", index.definition.stored), ("comment", index.comment.stored)]

def Trigger.toJson (t : Trigger) : Json :=
  .object
    [("schema", t.schema.stored), ("table", t.table.stored), ("name", t.name.stored),
     ("timing", .text t.timing.text), ("events", Json.ofTexts (t.events.map Event.text)),
     ("level", .text t.granularity.text), ("function", t.function.stored),
     ("condition", t.condition.stored), ("comment", t.comment.stored)]

def Policy.toJson (p : Policy) : Json :=
  .object
    [("schema", p.schema.stored), ("table", p.table.stored), ("name", p.name.stored),
     ("command", .text p.command.text), ("permissive", p.permissive.stored),
     ("roles", p.roles.stored), ("using", p.visible.stored), ("with_check", p.allowed.stored)]

def Table.toJson (t : Table) : Json :=
  .object
    [("schema", t.schema.stored), ("name", t.name.stored), ("type", .text t.kind.text),
     ("columns", .list (t.columns.map Column.toJson)),
     ("constraints", t.constraints.toJson Constraint.toJson),
     ("indexes", t.indexes.toJson Index.toJson), ("triggers", t.triggers.toJson Trigger.toJson),
     ("policies", t.policies.toJson Policy.toJson), ("rls_enabled", t.rowSecurity.stored),
     ("dependencies", t.dependencies.stored), ("comment", t.comment.stored),
     ("is_partitioned", t.isPartitioned.stored),
     ("partition_strategy", t.partitionStrategy.stored),
     ("partition_key", t.partitionKey.stored)]

def View.toJson (v : View) : Json :=
  .object
    [("schema", v.schema.stored), ("name", v.name.stored), ("definition", v.definition.stored),
     ("materialized", v.materialized.stored), ("dependencies", v.dependencies.stored),
     ("comment", v.comment.stored)]

def Sequence.toJson (s : Sequence) : Json :=
  .object
    [("schema", s.schema.stored), ("name", s.name.stored), ("data_type", s.dataType.stored),
     ("start_value", s.start.stored), ("increment", s.increment.stored),
     ("min_value", s.minimum.stored), ("max_value", s.maximum.stored),
     ("cycle", s.cycle.stored), ("owned_by_table", s.ownerTable.stored),
     ("owned_by_column", s.ownerColumn.stored), ("comment", s.comment.stored)]

def Member.toJson (m : Member) : Json :=
  .object
    [("name", m.name.stored), ("data_type", m.dataType.stored), ("position", m.position.stored)]

def DomainConstraint.toJson (c : DomainConstraint) : Json :=
  .object [("definition", c.definition.stored), ("name", c.name.stored)]

def UserType.toJson (t : UserType) : Json :=
  .object
    [("schema", t.schema.stored), ("name", t.name.stored), ("kind", .text t.kind.text),
     ("enum_values", t.labels.stored), ("columns", .list (t.members.map Member.toJson)),
     ("base_type", t.base.stored), ("not_null", t.notNull.stored), ("default", t.default.stored),
     ("constraints", .list (t.constraints.map DomainConstraint.toJson)),
     ("comment", t.comment.stored)]

def Extension.toJson (e : Extension) : Json :=
  .object
    [("name", e.name.stored), ("schema", e.schema.stored), ("version", e.version.stored),
     ("comment", e.comment.stored)]

def Metadata.toJson (m : Metadata) : Json :=
  .object
    [("database_version", m.databaseVersion.stored), ("dump_version", m.dumpVersion.stored),
     ("dumped_at", m.dumpedAt.stored), ("source", m.source.stored)]

def Parameter.toJson (p : Parameter) : Json :=
  .object
    [("name", p.name.stored), ("data_type", p.dataType.stored), ("mode", p.mode.stored),
     ("default_value", p.default.stored), ("position", p.position.stored)]

def StoredFunction.toJson (f : StoredFunction) : Json :=
  .object
    [("schema", f.schema.stored), ("name", f.name.stored), ("definition", f.definition.stored),
     ("language", f.language.stored), ("arguments", f.arguments.stored),
     ("signature", f.signature.stored), ("return_type", f.returnType.stored),
     ("parameters", .list (f.parameters.map Parameter.toJson)),
     ("volatility", f.volatility.stored), ("is_strict", f.isStrict.stored),
     ("is_security_definer", f.isSecurityDefiner.stored), ("comment", f.comment.stored)]

def Procedure.toJson (p : Procedure) : Json :=
  .object
    [("schema", p.schema.stored), ("name", p.name.stored), ("definition", p.definition.stored),
     ("language", p.language.stored), ("arguments", p.arguments.stored),
     ("signature", p.signature.stored), ("comment", p.comment.stored)]

def Aggregate.toJson (a : Aggregate) : Json :=
  .object
    [("schema", a.schema.stored), ("name", a.name.stored), ("arguments", a.arguments.stored),
     ("signature", a.signature.stored), ("return_type", a.returnType.stored),
     ("transition_function", a.transition.stored),
     ("transition_function_schema", a.transitionSchema.stored),
     ("state_type", a.stateType.stored), ("initial_condition", a.initialCondition.stored),
     ("final_function", a.final.stored), ("final_function_schema", a.finalSchema.stored),
     ("comment", a.comment.stored)]

def PartitionAttachment.toJson (a : PartitionAttachment) : Json :=
  .object
    [("parent_schema", a.parentSchema.stored), ("parent_table", a.parentTable.stored),
     ("child_schema", a.childSchema.stored), ("child_table", a.childTable.stored),
     ("partition_bound", a.bound.stored)]

def IndexAttachment.toJson (a : IndexAttachment) : Json :=
  .object
    [("parent_schema", a.parentSchema.stored), ("parent_index", a.parentIndex.stored),
     ("child_schema", a.childSchema.stored), ("child_index", a.childIndex.stored)]

def Schema.toJson (s : Schema) : Json :=
  .object
    [("name", s.name.stored), ("owner", s.owner.stored), ("tables", s.tables.toJson Table.toJson),
     ("views", s.views.toJson View.toJson),
     ("functions", s.functions.toJson StoredFunction.toJson),
     ("procedures", s.procedures.toJson Procedure.toJson),
     ("aggregates", s.aggregates.toJson Aggregate.toJson),
     ("sequences", s.sequences.toJson Sequence.toJson),
     ("policies", s.policies.toJson Policy.toJson), ("types", s.types.toJson UserType.toJson)]

def Catalog.toJson (catalog : Catalog) : Json :=
  .object
    [("metadata", catalog.metadata.toJson), ("schemas", catalog.schemas.toJson Schema.toJson),
     ("extensions", catalog.extensions.toJson Extension.toJson),
     ("partition_attachments", .list (catalog.partitions.map PartitionAttachment.toJson)),
     ("index_attachments", .list (catalog.indexPartitions.map IndexAttachment.toJson))]

end SchemaScript

/-!
## Stored catalogs

The text in which a catalog is saved, and its reading. Two catalogs are the same when they are
stored alike: the order in which entries came in does not count, that of lists does.
-/

namespace SchemaScript.Catalog

def store (layout : Json.Layout) (catalog : Catalog) : String :=
  catalog.toJson.write layout

def load (text : String) : Except Fault Catalog :=
  match Json.read text with
  | .error flaw => .error (.json flaw)
  | .ok value => ofJson value

def same (a b : Catalog) : Bool :=
  a.store .line == b.store .line

end SchemaScript.Catalog
