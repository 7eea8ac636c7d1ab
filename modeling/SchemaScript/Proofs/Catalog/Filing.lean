import SchemaScript.Catalog.Basic
import SchemaScript.Proofs.Catalog.Entries
import SchemaScript.Proofs.Order.Sorting

/-!
# Where a catalog keeps its objects

In a catalog that is filed properly (`Catalog.Filed`) an object stands under its own name and names the schema
that holds it, what a table owns names the table, lists that have positions are numbered from one on, and a
type holds only what belongs to its kind.
-/

namespace SchemaScript

variable {α : Type}

/-! ## Entries that fit their names -/

/-- What is kept under a name fits that name. -/
def Entries.Each (Fits : String → α → Prop) (entries : Entries α) : Prop :=
  ∀ name value, entries.get? name = some value → Fits name value

namespace Entries

variable {Fits : String → α → Prop} {entries : Entries α} {name : String} {value : α}

theorem each_empty : (empty : Entries α).Each Fits := by
  intro name value h
  contradiction

theorem Each.put (h : entries.Each Fits) (hvalue : Fits name value) : (entries.put name value).Each Fits := by
  intro n v hv
  rw [get?_put] at hv
  split at hv
  · next hn =>
    obtain rfl := Option.some.inj hv
    exact hn ▸ hvalue
  · exact h n v hv

theorem Each.modify (h : entries.Each Fits) {f : α → α} (hf : ∀ v, Fits name v → Fits name (f v)) :
    (entries.modify name f).Each Fits := by
  unfold Entries.modify
  split
  · next v hv => exact h.put (hf v (h name v hv))
  · exact h

theorem Each.imp {Fits' : String → α → Prop} (h : entries.Each Fits)
    (himp : ∀ n v, Fits n v → Fits' n v) : entries.Each Fits' :=
  fun n v hv => himp n v (h n v hv)

theorem get?_modify (entries : Entries α) (name n : String) (f : α → α) :
    (entries.modify name f).get? n = if n = name then (entries.get? n).map f else entries.get? n := by
  unfold Entries.modify
  split
  · next v hv =>
    rw [get?_put]
    split
    · next hn => rw [hn, hv, Option.map_some]
    · rfl
  · next hnone =>
    split
    · next hn => rw [hn, hnone, Option.map_none]
    · rfl

end Entries

/-! ## Numbered lists -/

/-- The positions are one, two, three and so on, in the order of the list. -/
def Numbered (position : α → Field Int) (items : List α) : Prop :=
  ∀ i item, items[i]? = some item → position item = (Int.ofNat (i + 1) : Field Int)

section

variable {position : α → Field Int} {items items' : List α}

theorem numbered_nil : Numbered position [] := by
  intro i item h
  simp at h

theorem numbered_mapIdx {β : Type} {f : Nat → β → α} (sources : List β)
    (hf : ∀ i x, position (f i x) = (Int.ofNat (i + 1) : Field Int)) :
    Numbered position (sources.mapIdx f) := by
  intro i item h
  rw [List.getElem?_mapIdx] at h
  obtain ⟨x, -, rfl⟩ := Option.map_eq_some_iff.mp h
  exact hf i x

/-- Numbered items are in order already. -/
theorem Numbered.byPosition_eq (h : Numbered position items) : byPosition position items = items := by
  refine Order.sort_eq_self (List.pairwise_iff_getElem.mpr fun i j hi hj hij => ?_)
  rw [h i _ (List.getElem?_eq_getElem hi), h j _ (List.getElem?_eq_getElem hj)]
  have hle : mkRat (Int.ofNat (i + 1)) 1 ≤ mkRat (Int.ofNat (j + 1)) 1 := by
    rw [Rat.mkRat_one, Rat.mkRat_one, Rat.intCast_le_intCast]
    exact Int.ofNat_le.mpr (by omega)
  simp [Json.precedes, Json.place, Json.letters?, Json.fraction?, Json.Place.le] at hle ⊢
  exact hle

/-- The next number goes to the item at the end. -/
theorem Numbered.append_one (h : Numbered position items) {item : α}
    (hitem : position item = (Int.ofNat items.length + 1 : Int)) : Numbered position (items ++ [item]) := by
  intro i x hx
  rcases Nat.lt_trichotomy i items.length with hi | rfl | hi
  · rw [List.getElem?_append_left hi] at hx
    exact h i x hx
  · rw [List.getElem?_append_right (Nat.le_refl _), Nat.sub_self] at hx
    obtain rfl := Option.some.inj hx
    exact hitem
  · rw [List.getElem?_eq_none (by simp; omega)] at hx
    contradiction

/-- Only the positions count. -/
theorem Numbered.of_map_eq (h : Numbered position items) (heq : items'.map position = items.map position) :
    Numbered position items' := by
  intro i item hitem
  have hget : (items.map position)[i]? = some (position item) := by
    rw [← heq, List.getElem?_map, hitem, Option.map_some]
  rw [List.getElem?_map] at hget
  obtain ⟨x, hx, hposition⟩ := Option.map_eq_some_iff.mp hget
  rw [← hposition, h i x hx]

end

/-! ## What a table owns -/

/-- The constraint stands under its own name and names its table. -/
structure Constraint.Filed (schema table : Field String) (key : String) (c : Constraint) : Prop where
  name : c.name = key
  schema : c.schema = schema
  table : c.table = table
  columns : Numbered (·.position) c.columns
  referencedColumns : Numbered (·.position) c.referencedColumns

/-- The index stands under its own name, names its table and lists columns instead of a stored definition. -/
structure Index.Filed (schema table : Field String) (key : String) (i : Index) : Prop where
  name : i.name = key
  schema : i.schema = schema
  table : i.table = table
  columns : Numbered (·.position) i.columns
  definition : i.definition = .absent

structure Trigger.Filed (schema table : Field String) (key : String) (t : Trigger) : Prop where
  name : t.name = key
  schema : t.schema = schema
  table : t.table = table

structure Policy.Filed (schema table : Field String) (key : String) (p : Policy) : Prop where
  name : p.name = key
  schema : p.schema = schema
  table : p.table = table

/-- All that the table owns names the table, and the columns are numbered. -/
structure Table.Orderly (t : Table) : Prop where
  columns : Numbered (·.position) t.columns
  constraints : t.constraints.Each (Constraint.Filed t.schema t.name)
  indexes : t.indexes.Each (Index.Filed t.schema t.name)
  triggers : t.triggers.Each (Trigger.Filed t.schema t.name)
  policies : t.policies.Each (Policy.Filed t.schema t.name)

structure Table.Filed (schema key : String) (t : Table) : Prop where
  name : t.name = key
  schema : t.schema = schema
  orderly : t.Orderly

/-! ## Objects of a schema -/

/-- A type has only what its kind calls for: labels, members, or what a domain is made of. -/
structure UserType.OfItsKind (t : UserType) : Prop where
  labels : t.kind = .enum ∨ t.labels = ([] : List String)
  members : t.kind = .composite ∨ t.members = []
  domain : t.kind = .domain ∨
    t.base = .absent ∧ t.notNull = false ∧ t.default = .absent ∧ t.constraints = []

structure UserType.Filed (schema key : String) (t : UserType) : Prop where
  name : t.name = key
  schema : t.schema = schema
  kind : t.OfItsKind
  members : Numbered (·.position) t.members

/-- The object stands under its own name and names the schema that holds it. -/
structure FiledUnder (name schema : α → Field String) (holder key : String) (x : α) : Prop where
  name : name x = key
  schema : schema x = holder

structure Schema.Filed (key : String) (s : Schema) : Prop where
  name : s.name = key
  tables : s.tables.Each (Table.Filed key)
  views : s.views.Each (FiledUnder (·.name) (·.schema) key)
  functions : s.functions.Each (FiledUnder (·.name) (·.schema) key)
  procedures : s.procedures.Each (FiledUnder (·.name) (·.schema) key)
  aggregates : s.aggregates.Each (FiledUnder (·.name) (·.schema) key)
  sequences : s.sequences.Each (FiledUnder (·.name) (·.schema) key)
  types : s.types.Each (UserType.Filed key)
  /-- A policy belongs to a table. -/
  policies : s.policies = .empty

/-- The tables are known by their names. -/
def PartitionAttachment.Named (a : PartitionAttachment) : Prop :=
  ∃ parentSchema parentTable childSchema childTable : String, a.parentSchema = parentSchema ∧
    a.parentTable = parentTable ∧ a.childSchema = childSchema ∧ a.childTable = childTable

/-- Every object of the catalog stands where its name and its schema say. -/
structure Catalog.Filed (c : Catalog) : Prop where
  schemas : c.schemas.Each Schema.Filed
  extensions : c.extensions.Each fun key e => e.name = (key : Field String)
  partitions : ∀ a ∈ c.partitions, a.Named

theorem Schema.filed_new (name : String) : Schema.Filed name { name := (name : Field String) } where
  name := rfl
  tables := Entries.each_empty
  views := Entries.each_empty
  functions := Entries.each_empty
  procedures := Entries.each_empty
  aggregates := Entries.each_empty
  sequences := Entries.each_empty
  types := Entries.each_empty
  policies := rfl

namespace Catalog

variable {c : Catalog}

theorem Filed.schemaOrNew (h : c.Filed) (name : String) : (c.schemaOrNew name).Filed name := by
  unfold Catalog.schemaOrNew
  rcases hs : c.schemas.get? name with _ | s
  · exact Schema.filed_new name
  · exact h.schemas name s hs

theorem Filed.updateSchema (h : c.Filed) {name : String} {f : Schema → Schema}
    (hf : ∀ s, s.Filed name → (f s).Filed name) : (c.updateSchema name f).Filed :=
  { h with schemas := h.schemas.put (hf _ (h.schemaOrNew name)) }

theorem Filed.findTable? (h : c.Filed) {schema name : String} {t : Table}
    (ht : c.findTable? schema name = some t) : t.Filed schema name := by
  obtain ⟨s, hs, ht⟩ := Option.bind_eq_some_iff.mp ht
  exact (h.schemas schema s hs).tables name t ht

theorem Filed.modifyTable (h : c.Filed) {schema name : String} {f : Table → Table}
    (hf : ∀ t, t.Filed schema name → (f t).Filed schema name) : (c.modifyTable schema name f).Filed :=
  { h with
    schemas := h.schemas.modify fun _ hs => { hs with tables := hs.tables.modify hf } }

end Catalog
end SchemaScript
