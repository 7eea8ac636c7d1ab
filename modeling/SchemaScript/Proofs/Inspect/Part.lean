import SchemaScript.Inspect.Query
import SchemaScript.Proofs.Catalog.Contents
import SchemaScript.Proofs.Catalog.Normal

/-!
# Parts of a catalog

What a database is asked falls into parts (`Part`): extensions, partitions, six parts of each schema and five
of each table. A part is looked at and put back through a `Lens`. Catalogs that agree in every part and in
what is below the parts (`Ground`) are the same up to the order of their schemas (`Ground.rearranged`).
-/

namespace SchemaScript.Inspect

variable {σ α : Type}

/-! ## Lenses -/

/-- A part of a thing that can be replaced without a change to the rest. -/
structure Lens (σ α : Type) where
  get : σ → α
  set : α → σ → σ
  get_set : ∀ a s, get (set a s) = a
  set_get : ∀ s, set (get s) s = s
  set_set : ∀ a b s, set b (set a s) = set b s

attribute [simp] Lens.get_set Lens.set_get Lens.set_set

namespace Lens

variable {β : Type}

protected def id : Lens α α :=
  ⟨fun a => a, fun a _ => a, fun _ _ => rfl, fun _ => rfl, fun _ _ _ => rfl⟩

def fst : Lens (α × β) α :=
  ⟨Prod.fst, fun a pair => (a, pair.2), fun _ _ => rfl, fun _ => rfl, fun _ _ _ => rfl⟩

def snd : Lens (α × β) β :=
  ⟨Prod.snd, fun b pair => (pair.1, b), fun _ _ => rfl, fun _ => rfl, fun _ _ _ => rfl⟩

end Lens

/-! ## Parts of tables and of schemas -/

inductive TablePart
  | columns
  | constraints
  | indexes
  | triggers
  | policies
  deriving DecidableEq, Repr

def TablePart.Content : TablePart → Type
  | columns => List Column
  | constraints => Entries Constraint
  | indexes => Entries Index
  | triggers => Entries Trigger
  | policies => Entries Policy

def TablePart.lens : (p : TablePart) → Lens Table p.Content
  | columns => ⟨Table.columns, fun a t => { t with columns := a }, fun _ _ => rfl, fun _ => rfl, fun _ _ _ => rfl⟩
  | constraints =>
    ⟨Table.constraints, fun a t => { t with constraints := a }, fun _ _ => rfl, fun _ => rfl, fun _ _ _ => rfl⟩
  | indexes => ⟨Table.indexes, fun a t => { t with indexes := a }, fun _ _ => rfl, fun _ => rfl, fun _ _ _ => rfl⟩
  | triggers =>
    ⟨Table.triggers, fun a t => { t with triggers := a }, fun _ _ => rfl, fun _ => rfl, fun _ _ _ => rfl⟩
  | policies =>
    ⟨Table.policies, fun a t => { t with policies := a }, fun _ _ => rfl, fun _ => rfl, fun _ _ _ => rfl⟩

/-- The table without its parts. -/
def bareTable (t : Table) : Table :=
  { t with columns := [], constraints := .empty, indexes := .empty, triggers := .empty, policies := .empty }

namespace TablePart

variable {p q : TablePart}

theorem get_set_of_ne (h : p ≠ q) (a : q.Content) (t : Table) : p.lens.get (q.lens.set a t) = p.lens.get t := by
  cases p <;> cases q <;> first | rfl | contradiction

@[simp] theorem bareTable_set (a : p.Content) (t : Table) : bareTable (p.lens.set a t) = bareTable t := by
  cases p <;> rfl

theorem table_eq {t u : Table} (hbare : bareTable t = bareTable u)
    (h : ∀ p : TablePart, p.lens.get t = p.lens.get u) : t = u := by
  have hcolumns : t.columns = u.columns := h .columns
  have hconstraints : t.constraints = u.constraints := h .constraints
  have hindexes : t.indexes = u.indexes := h .indexes
  have htriggers : t.triggers = u.triggers := h .triggers
  have hpolicies : t.policies = u.policies := h .policies
  cases t
  cases u
  simp_all [bareTable]

end TablePart

inductive SchemaPart
  | owner
  | sequences
  | views
  | routines
  | aggregates
  | types
  deriving DecidableEq, Repr

def SchemaPart.Content : SchemaPart → Type
  | owner => Field String
  | sequences => Entries Sequence
  | views => Entries View
  | routines => Entries StoredFunction × Entries Procedure
  | aggregates => Entries Aggregate
  | types => Entries UserType

def SchemaPart.lens : (p : SchemaPart) → Lens Schema p.Content
  | owner => ⟨Schema.owner, fun a s => { s with owner := a }, fun _ _ => rfl, fun _ => rfl, fun _ _ _ => rfl⟩
  | sequences =>
    ⟨Schema.sequences, fun a s => { s with sequences := a }, fun _ _ => rfl, fun _ => rfl, fun _ _ _ => rfl⟩
  | views => ⟨Schema.views, fun a s => { s with views := a }, fun _ _ => rfl, fun _ => rfl, fun _ _ _ => rfl⟩
  | routines =>
    ⟨fun s => (s.functions, s.procedures), fun a s => { s with functions := a.1, procedures := a.2 },
      fun _ _ => rfl, fun _ => rfl, fun _ _ _ => rfl⟩
  | aggregates =>
    ⟨Schema.aggregates, fun a s => { s with aggregates := a }, fun _ _ => rfl, fun _ => rfl, fun _ _ _ => rfl⟩
  | types => ⟨Schema.types, fun a s => { s with types := a }, fun _ _ => rfl, fun _ => rfl, fun _ _ _ => rfl⟩

/-- The schema without its parts and those of its tables. -/
def bareSchema (s : Schema) : Schema :=
  { name := s.name, policies := s.policies, tables := s.tables.map bareTable }

namespace SchemaPart

variable {p q : SchemaPart}

theorem get_set_of_ne (h : p ≠ q) (a : q.Content) (s : Schema) :
    p.lens.get (q.lens.set a s) = p.lens.get s := by
  cases p <;> cases q <;> first | rfl | contradiction

@[simp] theorem bareSchema_set (a : p.Content) (s : Schema) : bareSchema (p.lens.set a s) = bareSchema s := by
  cases p <;> rfl

@[simp] theorem tables_set (a : p.Content) (s : Schema) : (p.lens.set a s).tables = s.tables := by
  cases p <;> rfl

theorem schema_eq {s u : Schema} (hname : s.name = u.name) (hpolicies : s.policies = u.policies)
    (htables : s.tables = u.tables) (h : ∀ p : SchemaPart, p.lens.get s = p.lens.get u) : s = u := by
  have howner : s.owner = u.owner := h .owner
  have hsequences : s.sequences = u.sequences := h .sequences
  have hviews : s.views = u.views := h .views
  have hroutines : (s.functions, s.procedures) = (u.functions, u.procedures) := h .routines
  have haggregates : s.aggregates = u.aggregates := h .aggregates
  have htypes : s.types = u.types := h .types
  cases s
  cases u
  simp_all

end SchemaPart

/-! ## Parts of catalogs -/

/-- What one loader fills in; the part with the owners is the schemas' own. -/
inductive Part
  | extensions
  | partitions
  | inSchema (p : SchemaPart)
  | inTable (p : TablePart)
  deriving DecidableEq, Repr

def Part.IsOfTable (part : Part) : Prop :=
  ∃ p, part = inTable p

/-- What the database is asked for a part, in order. -/
def Part.queries : Part → List Query
  | extensions => [.extensions]
  | partitions => [.partitions]
  | inSchema .owner => [.schemas]
  | inSchema .sequences => [.sequences]
  | inSchema .views => [.views]
  | inSchema .routines => [.routines]
  | inSchema .aggregates => [.aggregates]
  | inSchema .types => [.types, .members, .domainConstraints]
  | inTable .columns => [.columns]
  | inTable .constraints => [.constraints]
  | inTable .indexes => [.indexes]
  | inTable .triggers => [.triggers]
  | inTable .policies => [.policies]

/-- All parts in the order in which a whole database is asked for them. -/
def Part.all : List Part :=
  [.inSchema .owner, .extensions, .inTable .columns, .inTable .constraints, .inTable .indexes,
    .inSchema .sequences, .inSchema .views, .inSchema .routines, .inSchema .aggregates, .inSchema .types,
    .inTable .triggers, .inTable .policies, .partitions]

theorem Part.mem_all (p : Part) : p ∈ Part.all := by
  rcases p with _ | _ | p | p
  · decide
  · decide
  · cases p <;> decide
  · cases p <;> decide

theorem Part.nodup_all : Part.all.Nodup := by decide

/-- Besides the version and the tables there is nothing else to ask for. -/
theorem Part.perm_all : (.version :: .tables :: Part.all.flatMap Part.queries).Perm Query.all := by decide

variable {c d e : Catalog}

/-- The catalogs have the same in a part; a missing schema counts as an empty one. -/
def Part.AgreeOn : Part → Catalog → Catalog → Prop
  | extensions, c, d => c.extensions = d.extensions
  | partitions, c, d => c.partitions = d.partitions ∧ c.indexPartitions = d.indexPartitions
  | inSchema p, c, d => ∀ name, p.lens.get (c.schemaOrNew name) = p.lens.get (d.schemaOrNew name)
  | inTable p, c, d =>
    ∀ schema name, (c.findTable? schema name).map p.lens.get = (d.findTable? schema name).map p.lens.get

namespace Part.AgreeOn

variable {p : Part}

theorem refl (p : Part) (c : Catalog) : p.AgreeOn c c := by
  cases p <;> simp [AgreeOn]

theorem symm (h : p.AgreeOn c d) : p.AgreeOn d c := by
  cases p with
  | extensions => exact Eq.symm h
  | partitions => exact h.imp Eq.symm Eq.symm
  | inSchema p => exact fun name => (h name).symm
  | inTable p => exact fun schema name => (h schema name).symm

theorem trans (h : p.AgreeOn c d) (h' : p.AgreeOn d e) : p.AgreeOn c e := by
  cases p with
  | extensions => exact Eq.trans h h'
  | partitions => exact ⟨h.1.trans h'.1, h.2.trans h'.2⟩
  | inSchema p => exact fun name => (h name).trans (h' name)
  | inTable p => exact fun schema name => (h schema name).trans (h' schema name)

end Part.AgreeOn

/-- The same below all parts: the tables that are there, with what only their own rows say of them. -/
structure Ground (c d : Catalog) : Prop where
  metadata : c.metadata = d.metadata
  schemas : ∀ name, bareSchema (c.schemaOrNew name) = bareSchema (d.schemaOrNew name)

namespace Ground

theorem refl (c : Catalog) : Ground c c :=
  ⟨rfl, fun _ => rfl⟩

theorem symm (h : Ground c d) : Ground d c :=
  ⟨h.metadata.symm, fun name => (h.schemas name).symm⟩

theorem trans (h : Ground c d) (h' : Ground d e) : Ground c e :=
  ⟨h.metadata.trans h'.metadata, fun name => (h.schemas name).trans (h'.schemas name)⟩

end Ground

theorem findTable?_eq (c : Catalog) (schema name : String) :
    c.findTable? schema name = (c.schemaOrNew schema).tables.get? name := by
  unfold Catalog.findTable? Catalog.schemaOrNew
  cases c.schemas.get? schema <;> rfl

theorem Ground.findTable?_map (h : Ground c d) (schema name : String) :
    (c.findTable? schema name).map bareTable = (d.findTable? schema name).map bareTable := by
  have htables := congrArg (fun s => s.tables.get? name) (h.schemas schema)
  simpa only [bareSchema, Entries.get?_map, ← findTable?_eq] using htables

/-! ## Equal up to the order of schemas -/

/-- Equal but for the order in which the schemas came in. -/
structure Rearranged (c d : Catalog) : Prop where
  metadata : c.metadata = d.metadata
  schemas : ∀ name, c.schemas.get? name = d.schemas.get? name
  extensions : c.extensions = d.extensions
  partitions : c.partitions = d.partitions
  indexPartitions : c.indexPartitions = d.indexPartitions

/-- Entries are known by their names and what stands under them. -/
theorem entries_eq {a b : Entries α} (hnames : a.names = b.names) (h : ∀ name, a.get? name = b.get? name) :
    a = b := by
  have hpairs (e : Entries α) : e.pairs = e.names.filterMap fun name => (e.get? name).map (name, ·) := by
    have hpair : ∀ pair ∈ e.pairs, (e.get? pair.1).map (pair.1, ·) = some pair := fun pair hpair => by
      rw [Entries.get?_eq_some_iff.mpr hpair, Option.map_some]
    rw [Entries.names, List.filterMap_map]
    exact ((List.filterMap_congr hpair).trans (List.filterMap_some ..)).symm
  refine Entries.eq_of_pairs ?_
  rw [hpairs a, hpairs b, hnames]
  simp only [h]

theorem get?_eq_ite (c : Catalog) (name : String) :
    c.schemas.get? name = if name ∈ c.schemas.names then some (c.schemaOrNew name) else none := by
  have hmem : c.schemas.contains name ↔ name ∈ c.schemas.names := Entries.contains_iff_mem_names
  unfold Catalog.schemaOrNew
  unfold Entries.contains at hmem
  cases hget : c.schemas.get? name <;> simp_all

theorem Ground.schemaOrNew_eq (h : Ground c d) (hparts : ∀ p : Part, p.AgreeOn c d) (name : String) :
    c.schemaOrNew name = d.schemaOrNew name := by
  have hbare := h.schemas name
  simp only [bareSchema, Schema.mk.injEq, true_and, and_true] at hbare
  obtain ⟨hname, htables, hpolicies⟩ := hbare
  refine SchemaPart.schema_eq hname hpolicies (entries_eq ?_ fun table => ?_) fun p => hparts (.inSchema p) name
  · have hnames := congrArg Entries.names htables
    simpa [Entries.names, Entries.map, Function.comp_def] using hnames
  · have hfound := h.findTable?_map name table
    have hpart (p : TablePart) :
        (c.findTable? name table).map p.lens.get = (d.findTable? name table).map p.lens.get :=
      hparts (.inTable p) name table
    rw [← findTable?_eq, ← findTable?_eq]
    generalize c.findTable? name table = t at hfound hpart
    generalize d.findTable? name table = u at hfound hpart
    cases t <;> cases u <;> simp only [Option.map_none, Option.map_some, reduceCtorEq] at hfound
    · rfl
    · exact congrArg some (TablePart.table_eq (Option.some.inj hfound) fun p => Option.some.inj (hpart p))

/-- In catalogs with the same schemas nothing is left out by the parts and what is below them. -/
theorem Ground.rearranged (h : Ground c d) (hparts : ∀ p : Part, p.AgreeOn c d)
    (hnames : ∀ name, name ∈ c.schemas.names ↔ name ∈ d.schemas.names) : Rearranged c d where
  metadata := h.metadata
  schemas name := by
    rw [get?_eq_ite, get?_eq_ite, h.schemaOrNew_eq hparts]
    simp only [hnames]
  extensions := hparts .extensions
  partitions := (hparts .partitions).1
  indexPartitions := (hparts .partitions).2

end SchemaScript.Inspect
