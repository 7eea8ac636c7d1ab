import SchemaScript.Catalog.Basic
import SchemaScript.Proofs.Catalog.Reordering
import SchemaScript.Proofs.Json.Normal

/-!
# Catalogs as values

A catalog is the same value whichever way its entries came in, while lists count with their order. Each
value has one normal form, with all entries in the order of their names, so two catalogs are the same
value if their normal forms are equal (`Catalog.SameValue`). For entries this says that each name has the
same value in both of them, or in neither (`Entries.normal_eq_iff`). Values of two kinds are never the same,
so a flag is told apart from the number that it counts as.
-/

namespace SchemaScript

/-! ## Fields and entries -/

def Field.normal {α : Type} (f : Field α) : Field α :=
  ⟨f.stored.normal⟩

namespace Entries

variable {α : Type} {f : α → α} {a b : Entries α}

/-- The values in normal form, in the order of their names. -/
def normal (f : α → α) (entries : Entries α) : Entries α where
  pairs := (entries.map f).sorted
  nodup := ((Order.sort_perm _ _).map _).nodup_iff.mpr (entries.map f).nodup

theorem get?_map (f : α → α) (entries : Entries α) (name : String) :
    (entries.map f).get? name = (entries.get? name).map f := by
  simp [get?, lookup, map, List.find?_map, Function.comp_def]

theorem get?_normal (f : α → α) (entries : Entries α) (name : String) :
    (entries.normal f).get? name = (entries.get? name).map f := by
  rw [← get?_map]
  ext value
  rw [get?_eq_some_iff, get?_eq_some_iff]
  exact mem_sorted

theorem normal_eq_iff :
    a.normal f = b.normal f ↔ ∀ name, (a.get? name).map f = (b.get? name).map f := by
  constructor
  · intro h name
    rw [← get?_normal, h, get?_normal]
  · intro h
    have halike : (a.map f).Alike Eq (b.map f) := fun name => by
      rw [get?_map, get?_map, h]
      cases (b.get? name).map f <;> constructor
      rfl
    exact eq_of_pairs halike.sorted_eq

end Entries

/-! ## Tables -/

def Column.normal (c : Column) : Column where
  name := c.name.normal
  position := c.position.normal
  dataType := c.dataType.normal
  userType := c.userType.normal
  nullable := c.nullable.normal
  default := c.default.normal
  maxLength := c.maxLength.normal
  precision := c.precision.normal
  scale := c.scale.normal
  comment := c.comment.normal
  identity := {
    enabled := c.identity.enabled.normal
    generation := c.identity.generation.normal
    start := c.identity.start.normal
    increment := c.identity.increment.normal
    maximum := c.identity.maximum.normal
    minimum := c.identity.minimum.normal
    cycle := c.identity.cycle.normal }

def KeyColumn.normal (c : KeyColumn) : KeyColumn where
  name := c.name.normal
  position := c.position.normal

def Constraint.normal (c : Constraint) : Constraint where
  schema := c.schema.normal
  table := c.table.normal
  name := c.name.normal
  kind := c.kind
  columns := c.columns.map KeyColumn.normal
  referencedSchema := c.referencedSchema.normal
  referencedTable := c.referencedTable.normal
  referencedColumns := c.referencedColumns.map KeyColumn.normal
  condition := c.condition.normal
  onUpdate := c.onUpdate.normal
  onDelete := c.onDelete.normal
  deferrable := c.deferrable.normal
  initiallyDeferred := c.initiallyDeferred.normal
  comment := c.comment.normal

def IndexColumn.normal (c : IndexColumn) : IndexColumn where
  name := c.name.normal
  position := c.position.normal
  direction := c.direction.normal
  operatorClass := c.operatorClass.normal

def Index.normal (index : Index) : Index where
  schema := index.schema.normal
  table := index.table.normal
  name := index.name.normal
  kind := index.kind
  method := index.method.normal
  columns := index.columns.map IndexColumn.normal
  isUnique := index.isUnique.normal
  isPrimary := index.isPrimary.normal
  isPartial := index.isPartial.normal
  isConcurrent := index.isConcurrent.normal
  predicate := index.predicate.normal
  definition := index.definition.normal
  comment := index.comment.normal

def Trigger.normal (t : Trigger) : Trigger where
  schema := t.schema.normal
  table := t.table.normal
  name := t.name.normal
  timing := t.timing
  events := t.events
  granularity := t.granularity
  function := t.function.normal
  condition := t.condition.normal
  comment := t.comment.normal

def Policy.normal (p : Policy) : Policy where
  schema := p.schema.normal
  table := p.table.normal
  name := p.name.normal
  command := p.command
  permissive := p.permissive.normal
  roles := p.roles.normal
  visible := p.visible.normal
  allowed := p.allowed.normal

def Table.normal (t : Table) : Table where
  schema := t.schema.normal
  name := t.name.normal
  kind := t.kind
  columns := t.columns.map Column.normal
  constraints := t.constraints.normal Constraint.normal
  indexes := t.indexes.normal Index.normal
  triggers := t.triggers.normal Trigger.normal
  policies := t.policies.normal Policy.normal
  rowSecurity := t.rowSecurity.normal
  dependencies := t.dependencies.normal
  comment := t.comment.normal
  isPartitioned := t.isPartitioned.normal
  partitionStrategy := t.partitionStrategy.normal
  partitionKey := t.partitionKey.normal

/-! ## Other objects -/

def View.normal (v : View) : View where
  schema := v.schema.normal
  name := v.name.normal
  definition := v.definition.normal
  materialized := v.materialized.normal
  dependencies := v.dependencies.normal
  comment := v.comment.normal

def Sequence.normal (s : Sequence) : Sequence where
  schema := s.schema.normal
  name := s.name.normal
  dataType := s.dataType.normal
  start := s.start.normal
  increment := s.increment.normal
  minimum := s.minimum.normal
  maximum := s.maximum.normal
  cycle := s.cycle.normal
  ownerTable := s.ownerTable.normal
  ownerColumn := s.ownerColumn.normal
  comment := s.comment.normal

def Member.normal (m : Member) : Member where
  name := m.name.normal
  dataType := m.dataType.normal
  position := m.position.normal

def DomainConstraint.normal (c : DomainConstraint) : DomainConstraint where
  definition := c.definition.normal
  name := c.name.normal

def UserType.normal (t : UserType) : UserType where
  schema := t.schema.normal
  name := t.name.normal
  kind := t.kind
  labels := t.labels.normal
  members := t.members.map Member.normal
  base := t.base.normal
  notNull := t.notNull.normal
  default := t.default.normal
  constraints := t.constraints.map DomainConstraint.normal
  comment := t.comment.normal

def Extension.normal (e : Extension) : Extension where
  name := e.name.normal
  schema := e.schema.normal
  version := e.version.normal
  comment := e.comment.normal

def Metadata.normal (m : Metadata) : Metadata where
  databaseVersion := m.databaseVersion.normal
  dumpVersion := m.dumpVersion.normal
  dumpedAt := m.dumpedAt.normal
  source := m.source.normal

/-! ## Routines -/

def Parameter.normal (p : Parameter) : Parameter where
  name := p.name.normal
  dataType := p.dataType.normal
  mode := p.mode.normal
  default := p.default.normal
  position := p.position.normal

def StoredFunction.normal (f : StoredFunction) : StoredFunction where
  schema := f.schema.normal
  name := f.name.normal
  definition := f.definition.normal
  language := f.language.normal
  arguments := f.arguments.normal
  signature := f.signature.normal
  returnType := f.returnType.normal
  parameters := f.parameters.map Parameter.normal
  volatility := f.volatility.normal
  isStrict := f.isStrict.normal
  isSecurityDefiner := f.isSecurityDefiner.normal
  comment := f.comment.normal

def Procedure.normal (p : Procedure) : Procedure where
  schema := p.schema.normal
  name := p.name.normal
  definition := p.definition.normal
  language := p.language.normal
  arguments := p.arguments.normal
  signature := p.signature.normal
  comment := p.comment.normal

def Aggregate.normal (a : Aggregate) : Aggregate where
  schema := a.schema.normal
  name := a.name.normal
  arguments := a.arguments.normal
  signature := a.signature.normal
  returnType := a.returnType.normal
  transition := a.transition.normal
  transitionSchema := a.transitionSchema.normal
  stateType := a.stateType.normal
  initialCondition := a.initialCondition.normal
  final := a.final.normal
  finalSchema := a.finalSchema.normal
  comment := a.comment.normal

/-! ## Catalogs -/

def PartitionAttachment.normal (a : PartitionAttachment) : PartitionAttachment where
  parentSchema := a.parentSchema.normal
  parentTable := a.parentTable.normal
  childSchema := a.childSchema.normal
  childTable := a.childTable.normal
  bound := a.bound.normal

def IndexAttachment.normal (a : IndexAttachment) : IndexAttachment where
  parentSchema := a.parentSchema.normal
  parentIndex := a.parentIndex.normal
  childSchema := a.childSchema.normal
  childIndex := a.childIndex.normal

def Schema.normal (s : Schema) : Schema where
  name := s.name.normal
  owner := s.owner.normal
  tables := s.tables.normal Table.normal
  views := s.views.normal View.normal
  functions := s.functions.normal StoredFunction.normal
  procedures := s.procedures.normal Procedure.normal
  aggregates := s.aggregates.normal Aggregate.normal
  sequences := s.sequences.normal Sequence.normal
  policies := s.policies.normal Policy.normal
  types := s.types.normal UserType.normal

namespace Catalog

def normal (catalog : Catalog) : Catalog where
  metadata := catalog.metadata.normal
  schemas := catalog.schemas.normal Schema.normal
  extensions := catalog.extensions.normal Extension.normal
  partitions := catalog.partitions.map PartitionAttachment.normal
  indexPartitions := catalog.indexPartitions.map IndexAttachment.normal

/-- The same value, whatever the order in which entries came in. -/
def SameValue (a b : Catalog) : Prop :=
  a.normal = b.normal

instance (a b : Catalog) : Decidable (a.SameValue b) :=
  inferInstanceAs (Decidable (a.normal = b.normal))

end Catalog
end SchemaScript
