import SchemaScript.Proofs.Catalog.Normal
import Mathlib.Logic.Embedding.Basic

/-!
# Schemas under other names

Renaming the schemas of a catalog changes the names under which it keeps them and every field that places an
object, and nothing else (`Catalog.rename`). What is looked up or changed under a new name is what stands under
the old one (`Catalog.findTable?_rename`, `Catalog.updateSchema_rename`). Texts that may begin with a schema,
such as the type of a column, stay as they are.
-/

namespace SchemaScript

variable {α : Type}

/-! ## Entries -/

namespace Entries

section

variable {g : α → α} {entries : Entries α} {name : String} {value : α}

theorem putPair_map (g : α → α) (name : String) (value : α) (pairs : List (String × α)) :
    putPair name (g value) (pairs.map fun pair => (pair.1, g pair.2)) =
      (putPair name value pairs).map fun pair => (pair.1, g pair.2) := by
  induction pairs with
  | nil => rfl
  | cons pair pairs ih =>
    obtain ⟨n, v⟩ := pair
    rw [List.map_cons, putPair, putPair]
    split
    · rw [List.map_cons]
    · rw [List.map_cons, ih]

theorem put_map (g : α → α) (entries : Entries α) (name : String) (value : α) :
    (entries.map g).put name (g value) = (entries.put name value).map g :=
  eq_of_pairs (putPair_map g name value entries.pairs)

theorem modify_map {h h' : α → α} (hcommute : ∀ x, h' (g x) = g (h x)) (entries : Entries α) (name : String) :
    (entries.map g).modify name h' = (entries.modify name h).map g := by
  unfold modify
  rw [get?_map]
  cases entries.get? name with
  | none => rfl
  | some value => simp only [Option.map_some, hcommute, put_map]

@[simp] theorem contains_map (g : α → α) (entries : Entries α) (name : String) :
    (entries.map g).contains name = entries.contains name := by
  rw [contains, contains, get?_map, Option.isSome_map]

@[simp] theorem size_map (g : α → α) (entries : Entries α) : (entries.map g).size = entries.size := by
  simp [size, map]

theorem sorted_map (g : α → α) (entries : Entries α) :
    (entries.map g).sorted = entries.sorted.map fun pair => (pair.1, g pair.2) :=
  (Order.map_sort (fun pair : String × α => (pair.1, g pair.2)) (fun _ _ => rfl) entries.pairs).symm

@[simp] theorem names_map (g : α → α) (entries : Entries α) : (entries.map g).names = entries.names := by
  simp [names, map]

theorem sortedNames_map (g : α → α) (entries : Entries α) :
    (entries.map g).sortedNames = entries.sortedNames := by
  simp only [sortedNames, sorted_map, List.map_map, Function.comp_def]

theorem sortedValues_map (g : α → α) (entries : Entries α) :
    (entries.map g).sortedValues = entries.sortedValues.map g := by
  simp only [sortedValues, sorted_map, List.map_map, Function.comp_def]

end

/-- The same entries under other names. -/
def rename (f : String ↪ String) (entries : Entries α) : Entries α where
  pairs := entries.pairs.map fun pair => (f pair.1, pair.2)
  nodup := by
    have hnames := entries.nodup.map f.injective
    simpa only [List.map_map, Function.comp_def] using hnames

section

variable (f : String ↪ String) (entries : Entries α) (name : String)

@[simp] theorem get?_rename : (entries.rename f).get? (f name) = entries.get? name := by
  simp [get?, lookup, rename, List.find?_map, Function.comp_def, f.injective.beq_eq]

theorem put_rename (value : α) :
    (entries.rename f).put (f name) value = (entries.put name value).rename f := by
  refine eq_of_pairs ?_
  show putPair (f name) value (entries.pairs.map fun pair => (f pair.1, pair.2)) = _
  show _ = (putPair name value entries.pairs).map _
  induction entries.pairs with
  | nil => rfl
  | cons pair pairs ih =>
    obtain ⟨n, v⟩ := pair
    rw [List.map_cons, putPair, putPair]
    by_cases hn : n = name
    · rw [if_pos hn, if_pos (congrArg f hn), List.map_cons]
    · rw [if_neg hn, if_neg fun h => hn (f.injective h), ih, List.map_cons]

theorem modify_rename (h : α → α) :
    (entries.rename f).modify (f name) h = (entries.modify name h).rename f := by
  unfold modify
  rw [get?_rename]
  cases entries.get? name with
  | none => rfl
  | some value => exact put_rename f entries name (h value)

end
end Entries

/-! ## Objects -/

section

variable (f : String → String)

/-- The field names a schema, which goes by another name. -/
def Field.rename (name : Field String) : Field String :=
  match name.stored with
  | .text s => (f s : String)
  | _ => name

@[simp] theorem Field.rename_text (s : String) : Field.rename f (s : Field String) = (f s : String) := rfl

def Constraint.rename (c : Constraint) : Constraint :=
  { c with schema := c.schema.rename f, referencedSchema := c.referencedSchema.rename f }

def Index.rename (i : Index) : Index :=
  { i with schema := i.schema.rename f }

def Trigger.rename (t : Trigger) : Trigger :=
  { t with schema := t.schema.rename f }

def Policy.rename (p : Policy) : Policy :=
  { p with schema := p.schema.rename f }

def Table.rename (t : Table) : Table :=
  { t with
    schema := t.schema.rename f
    constraints := t.constraints.map (Constraint.rename f)
    indexes := t.indexes.map (Index.rename f)
    triggers := t.triggers.map (Trigger.rename f)
    policies := t.policies.map (Policy.rename f) }

def View.rename (v : View) : View :=
  { v with schema := v.schema.rename f }

def StoredFunction.rename (r : StoredFunction) : StoredFunction :=
  { r with schema := r.schema.rename f }

def Procedure.rename (r : Procedure) : Procedure :=
  { r with schema := r.schema.rename f }

def Aggregate.rename (a : Aggregate) : Aggregate :=
  { a with schema := a.schema.rename f }

def Sequence.rename (q : Sequence) : Sequence :=
  { q with schema := q.schema.rename f }

def UserType.rename (t : UserType) : UserType :=
  { t with schema := t.schema.rename f }

def Schema.rename (s : Schema) : Schema where
  name := s.name.rename f
  owner := s.owner
  tables := s.tables.map (Table.rename f)
  views := s.views.map (View.rename f)
  functions := s.functions.map (StoredFunction.rename f)
  procedures := s.procedures.map (Procedure.rename f)
  aggregates := s.aggregates.map (Aggregate.rename f)
  sequences := s.sequences.map (Sequence.rename f)
  policies := s.policies.map (Policy.rename f)
  types := s.types.map (UserType.rename f)

def PartitionAttachment.rename (a : PartitionAttachment) : PartitionAttachment :=
  { a with parentSchema := a.parentSchema.rename f, childSchema := a.childSchema.rename f }

def IndexAttachment.rename (a : IndexAttachment) : IndexAttachment :=
  { a with parentSchema := a.parentSchema.rename f, childSchema := a.childSchema.rename f }

end

/-- A new name is the same as another exactly if the old ones are. -/
theorem Field.rename_injective (f : String ↪ String) : Function.Injective (Field.rename f) := by
  rintro ⟨x⟩ ⟨y⟩ h
  cases x <;> cases y <;> simp_all [Field.rename]

/-! ## Catalogs -/

namespace Catalog

variable (f : String ↪ String) (c : Catalog)

def rename : Catalog :=
  { c with
    schemas := (c.schemas.map (Schema.rename f)).rename f
    partitions := c.partitions.map (PartitionAttachment.rename f)
    indexPartitions := c.indexPartitions.map (IndexAttachment.rename f) }

@[simp] theorem get?_schemas_rename (name : String) :
    (c.rename f).schemas.get? (f name) = (c.schemas.get? name).map (Schema.rename f) :=
  (Entries.get?_rename f _ name).trans (Entries.get?_map ..)

theorem put_schemas_rename (name : String) (s : Schema) :
    (c.rename f).schemas.put (f name) (s.rename f) =
      ((c.schemas.put name s).map (Schema.rename f)).rename f := by
  rw [← Entries.put_map, ← Entries.put_rename]
  rfl

theorem schemaOrNew_rename (name : String) :
    (c.rename f).schemaOrNew (f name) = (c.schemaOrNew name).rename f := by
  unfold schemaOrNew
  rw [get?_schemas_rename]
  cases c.schemas.get? name <;> rfl

theorem updateSchema_rename {change change' : Schema → Schema}
    (h : ∀ s, change' (s.rename f) = (change s).rename f) (name : String) :
    (c.rename f).updateSchema (f name) change' = (c.updateSchema name change).rename f := by
  unfold updateSchema
  rw [schemaOrNew_rename, h, put_schemas_rename]
  rfl

@[simp] theorem findTable?_rename (schema table : String) :
    (c.rename f).findTable? (f schema) table = (c.findTable? schema table).map (Table.rename f) := by
  unfold findTable?
  rw [get?_schemas_rename]
  cases c.schemas.get? schema with
  | none => rfl
  | some s => exact Entries.get?_map ..

theorem modifyTable_rename {change change' : Table → Table}
    (h : ∀ t, change' (t.rename f) = (change t).rename f) (schema table : String) :
    (c.rename f).modifyTable (f schema) table change' = (c.modifyTable schema table change).rename f := by
  let inSchema (change : Table → Table) (s : Schema) : Schema :=
    { s with tables := s.tables.modify table change }
  have hschema (s : Schema) : inSchema change' (s.rename f) = (inSchema change s).rename f := by
    show { s.rename f with tables := (s.tables.map (Table.rename f)).modify table change' } = _
    rw [Entries.modify_map h]
    rfl
  have hschemas : (c.rename f).schemas.modify (f schema) (inSchema change') =
      ((c.schemas.modify schema (inSchema change)).map (Schema.rename f)).rename f := by
    rw [← Entries.modify_map hschema, ← Entries.modify_rename]
    rfl
  rw [modifyTable, hschemas]
  rfl

theorem setTable_rename (schema table : String) (t : Table) :
    ((c.rename f).modifyTable (f schema) table fun _ => t.rename f) =
      (c.modifyTable schema table fun _ => t).rename f := by
  have h (u : Table) : (fun _ => t.rename f) (u.rename f) = ((fun _ => t) u).rename f := rfl
  exact c.modifyTable_rename f h schema table

end Catalog
end SchemaScript
