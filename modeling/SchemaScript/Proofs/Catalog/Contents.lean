import SchemaScript.Proofs.Catalog.Filing
import SchemaScript.Proofs.Catalog.Reordering
import SchemaScript.Script.Piece
import Mathlib.Data.List.Induction

/-!
# What a catalog keeps under a tag

Seen by tags a catalog is a partial function (`Catalog.at?`), and what is put into it or changed in it shows
under one tag and no other. Catalogs with the same contents under all tags are the same up to the order of
their entries (`Catalog.Agrees.reordered`).
-/

namespace SchemaScript

/-- An object with its kind; of a schema only the owner. -/
inductive Content
  | schema (owner : Field String)
  | extension (e : Extension)
  | type (t : UserType)
  | sequence (s : Sequence)
  | table (t : Table)
  | view (v : View)
  | function (f : StoredFunction)
  | aggregate (a : Aggregate)
  | procedure (p : Procedure)

/-- The kind of an object that a schema keeps. -/
def Content.kind? : Content → Option ObjectKind
  | .schema _ | .extension _ => none
  | .type _ => some .type
  | .sequence _ => some .sequence
  | .table _ => some .table
  | .view _ => some .view
  | .function _ => some .function
  | .aggregate _ => some .aggregate
  | .procedure _ => some .procedure

namespace Schema

def at? (s : Schema) (kind : ObjectKind) (key : String) : Option Content :=
  match kind with
  | .type => (s.types.get? key).map .type
  | .sequence => (s.sequences.get? key).map .sequence
  | .table => (s.tables.get? key).map .table
  | .view => (s.views.get? key).map .view
  | .function => (s.functions.get? key).map .function
  | .aggregate => (s.aggregates.get? key).map .aggregate
  | .procedure => (s.procedures.get? key).map .procedure

/-- The schema with an object put under a name. -/
def put (s : Schema) (key : String) (x : Content) : Schema :=
  match x with
  | .schema _ | .extension _ => s
  | .type t => { s with types := s.types.put key t }
  | .sequence q => { s with sequences := s.sequences.put key q }
  | .table t => { s with tables := s.tables.put key t }
  | .view v => { s with views := s.views.put key v }
  | .function f => { s with functions := s.functions.put key f }
  | .aggregate a => { s with aggregates := s.aggregates.put key a }
  | .procedure p => { s with procedures := s.procedures.put key p }

theorem at?_put (s : Schema) (key : String) (x : Content) (kind : ObjectKind) (name : String) :
    (s.put key x).at? kind name =
      if x.kind? = some kind ∧ name = key then some x else s.at? kind name := by
  by_cases hname : name = key
  · cases x <;> cases kind <;> simp [put, at?, Content.kind?, Entries.get?_put, hname]
  · cases x <;> cases kind <;> simp [put, at?, Entries.get?_put, hname]

@[simp] theorem owner_put (s : Schema) (key : String) (x : Content) : (s.put key x).owner = s.owner := by
  cases x <;> rfl

/-- The schema with objects put under names, one after another. -/
def putAll (s : Schema) (objects : List (String × Content)) : Schema :=
  objects.foldl (fun s o => s.put o.1 o.2) s

/-- Of what is put under a name last. -/
def written (objects : List (String × Content)) (kind : ObjectKind) (name : String) : Option Content :=
  (objects.reverse.find? fun o => o.2.kind? = some kind ∧ o.1 = name).map (·.2)

theorem at?_putAll (s : Schema) (objects : List (String × Content)) (kind : ObjectKind) (name : String) :
    (s.putAll objects).at? kind name = (written objects kind name).or (s.at? kind name) := by
  induction objects using List.reverseRecOn generalizing s with
  | nil => rfl
  | append_singleton objects o ih =>
    unfold putAll at ih ⊢
    unfold written at ih ⊢
    rw [List.foldl_append, List.foldl_cons, List.foldl_nil, at?_put, ih, List.reverse_append,
      List.reverse_singleton, List.singleton_append, List.find?_cons]
    by_cases ho : o.2.kind? = some kind ∧ o.1 = name
    · simp [ho]
    · rw [if_neg (by simpa [eq_comm] using ho)]
      simp [ho]

@[simp] theorem owner_putAll (s : Schema) (objects : List (String × Content)) :
    (s.putAll objects).owner = s.owner := by
  unfold putAll
  induction objects generalizing s with
  | nil => rfl
  | cons o objects ih => rw [List.foldl_cons, ih, owner_put]

end Schema

namespace Catalog

variable {c c' : Catalog}

/-- What is kept under a tag. -/
def at? (c : Catalog) : Tag → Option Content
  | .extension key => (c.extensions.get? key).map .extension
  | .schema key => (c.schemas.get? key).map fun s => .schema s.owner
  | .object schema kind key => (c.schemas.get? schema).bind fun s => s.at? kind key

theorem at?_table (c : Catalog) (schema name : String) :
    c.at? (.object schema .table name) = (c.findTable? schema name).map .table := by
  unfold at? findTable? Schema.at?
  rw [Option.map_bind]
  rfl

theorem at?_extension (c : Catalog) (key : String) :
    c.at? (.extension key) = (c.extensions.get? key).map .extension := rfl

theorem at?_schema (c : Catalog) (key : String) :
    c.at? (.schema key) = (c.schemas.get? key).map fun s => .schema s.owner := rfl

theorem at?_object (c : Catalog) (schema : String) (kind : ObjectKind) (key : String) :
    c.at? (.object schema kind key) = (c.schemas.get? schema).bind fun s => s.at? kind key := rfl

/-- The owner of a schema that is there or is created. -/
theorem at?_schemaOrNew (c : Catalog) (name : String) :
    some (Content.schema (c.schemaOrNew name).owner) = (c.at? (.schema name)).or (some (.schema .absent)) := by
  unfold schemaOrNew
  rw [at?_schema]
  cases c.schemas.get? name <;> rfl

theorem at?_schemaOrNew_object (c : Catalog) (name : String) (kind : ObjectKind) (key : String) :
    (c.schemaOrNew name).at? kind key = c.at? (.object name kind key) := by
  unfold schemaOrNew
  rw [at?_object]
  cases c.schemas.get? name with
  | none => cases kind <;> rfl
  | some s => rfl

theorem at?_updateSchema (c : Catalog) (name : String) (f : Schema → Schema) (tag : Tag) :
    (c.updateSchema name f).at? tag =
      match tag with
      | .extension key => c.at? (.extension key)
      | .schema key => if key = name then some (.schema (f (c.schemaOrNew name)).owner) else c.at? (.schema key)
      | .object schema kind key =>
        if schema = name then (f (c.schemaOrNew name)).at? kind key else c.at? (.object schema kind key) := by
  unfold updateSchema
  cases tag with
  | extension key => rfl
  | schema key =>
    by_cases hkey : key = name <;> simp [at?, Entries.get?_put, hkey]
  | object schema kind key =>
    by_cases hschema : schema = name <;> simp [at?, Entries.get?_put, hschema]

/-- A changed table is all that shows. -/
theorem at?_modifyTable (c : Catalog) (schema name : String) (f : Table → Table) (tag : Tag) :
    (c.modifyTable schema name f).at? tag =
      if tag = .object schema .table name then (c.findTable? schema name).map fun t => .table (f t)
      else c.at? tag := by
  have hfound (s : Schema) (kind : ObjectKind) (key : String) :
      ({ s with tables := s.tables.modify name f } : Schema).at? kind key =
        if kind = .table ∧ key = name then (s.tables.get? name).map fun t => .table (f t)
        else s.at? kind key := by
    by_cases hkey : key = name
    · cases kind <;> simp [Schema.at?, Entries.get?_modify, hkey, Function.comp_def]
    · cases kind <;> simp [Schema.at?, Entries.get?_modify, hkey]
  unfold modifyTable
  cases tag with
  | extension key => rfl
  | schema key =>
    rw [if_neg (by simp)]
    by_cases hkey : key = schema
    · cases hs : c.schemas.get? schema <;> simp [at?, Entries.get?_modify, hkey, hs]
    · simp [at?, Entries.get?_modify, hkey]
  | object holder kind key =>
    by_cases hholder : holder = schema
    · subst hholder
      unfold findTable?
      rw [at?_object, at?_object, Entries.get?_modify, if_pos rfl]
      cases c.schemas.get? holder with
      | none => simp
      | some s => simp [hfound, and_comm]
    · simp [at?, Entries.get?_modify, hholder]

theorem findTable?_modifyTable (c : Catalog) (schema name : String) (f : Table → Table) (s n : String) :
    (c.modifyTable schema name f).findTable? s n =
      if s = schema ∧ n = name then (c.findTable? schema name).map f else c.findTable? s n := by
  have hcontents := at?_modifyTable c schema name f (.object s .table n)
  refine Option.map_injective (fun _ _ => Content.table.inj) ?_
  rw [← at?_table, hcontents]
  by_cases h : s = schema ∧ n = name
  · simp [h, Function.comp_def]
  · rw [if_neg h, if_neg (by simpa using h), at?_table]

/-! ## The same contents -/

/-- The same is kept under every tag, and the same is attached. -/
structure Agrees (c c' : Catalog) : Prop where
  metadata : c.metadata = c'.metadata
  contents : ∀ tag, c.at? tag = c'.at? tag
  partitions : c.partitions.Perm c'.partitions
  indexPartitions : c.indexPartitions = c'.indexPartitions

theorem Agrees.refl (c : Catalog) : c.Agrees c :=
  ⟨rfl, fun _ => rfl, List.Perm.refl _, rfl⟩

theorem Agrees.trans {c'' : Catalog} (h : c.Agrees c') (h' : c'.Agrees c'') : c.Agrees c'' :=
  ⟨h.metadata.trans h'.metadata, fun tag => (h.contents tag).trans (h'.contents tag),
    h.partitions.trans h'.partitions, h.indexPartitions.trans h'.indexPartitions⟩

theorem Agrees.findTable?_eq (h : c.Agrees c') (schema name : String) :
    c.findTable? schema name = c'.findTable? schema name := by
  have hcontents := h.contents (.object schema .table name)
  rw [at?_table, at?_table] at hcontents
  exact Option.map_injective (fun _ _ ht => Content.table.inj ht) hcontents

end Catalog

/-! ## Up to the order of entries -/

/-- The same objects under the same names, in whatever order they came in. -/
structure Schema.Reordered (s s' : Schema) : Prop where
  name : s.name = s'.name
  owner : s.owner = s'.owner
  tables : s.tables.Alike Eq s'.tables
  views : s.views.Alike Eq s'.views
  functions : s.functions.Alike Eq s'.functions
  procedures : s.procedures.Alike Eq s'.procedures
  aggregates : s.aggregates.Alike Eq s'.aggregates
  sequences : s.sequences.Alike Eq s'.sequences
  policies : s.policies.Alike Eq s'.policies
  types : s.types.Alike Eq s'.types

/-- Equal but for the order in which entries came in and partitions were attached. -/
structure Catalog.Reordered (c c' : Catalog) : Prop where
  metadata : c.metadata = c'.metadata
  schemas : c.schemas.Alike Schema.Reordered c'.schemas
  extensions : c.extensions.Alike Eq c'.extensions
  partitions : c.partitions.Perm c'.partitions
  indexPartitions : c.indexPartitions = c'.indexPartitions

theorem Entries.Alike.modify {α β : Type} {r : α → β → Prop} {a : Entries α} {b : Entries β}
    (h : a.Alike r b) (name : String) {f : α → α} {g : β → β} (hfg : ∀ x y, r x y → r (f x) (g y)) :
    (a.modify name f).Alike r (b.modify name g) := by
  intro n
  rw [get?_modify, get?_modify]
  have hrel := h n
  generalize a.get? n = x at hrel ⊢
  generalize b.get? n = y at hrel ⊢
  split
  · cases hrel with
    | none => exact .none
    | some hxy => exact .some (hfg _ _ hxy)
  · exact hrel

theorem Entries.Alike.imp {α : Type} {r r' : α → α → Prop} {a b : Entries α} (h : a.Alike r b)
    (himp : ∀ x y, r x y → r' x y) : a.Alike r' b := by
  intro name
  have hrel := h name
  generalize a.get? name = x at hrel ⊢
  generalize b.get? name = y at hrel ⊢
  cases hrel with
  | none => exact .none
  | some hxy => exact .some (himp _ _ hxy)

theorem Entries.Alike.refl {α : Type} {r : α → α → Prop} (hr : ∀ x, r x x) (a : Entries α) : a.Alike r a := by
  intro name
  cases a.get? name with
  | none => exact .none
  | some x => exact .some (hr x)

theorem Entries.alike_eq_iff {α : Type} {a b : Entries α} :
    a.Alike Eq b ↔ ∀ name, a.get? name = b.get? name := by
  refine ⟨fun h => h.get?_eq, fun h name => ?_⟩
  rw [h name]
  exact Alike.refl (fun _ => rfl) b name

theorem Table.alike_refl (t : Table) : t.Alike t := by
  refine .reorder (.inl rfl) (.refl (fun c => ?_) _) (.refl (fun i => ?_) _) (.refl (fun g => ?_) _)
    (.refl (fun _ => rfl) _)
  · exact .reorder (.inl rfl) (.inl rfl)
  · exact .reorder (.inl rfl)
  · exact .reorder fun _ => Iff.rfl

namespace Schema.Reordered

variable {s s' : Schema}

theorem at?_eq (h : s.Reordered s') (kind : ObjectKind) (key : String) :
    s.at? kind key = s'.at? kind key := by
  cases kind with
  | type => exact congrArg (Option.map Content.type) (h.types.get?_eq key)
  | sequence => exact congrArg (Option.map Content.sequence) (h.sequences.get?_eq key)
  | table => exact congrArg (Option.map Content.table) (h.tables.get?_eq key)
  | view => exact congrArg (Option.map Content.view) (h.views.get?_eq key)
  | function => exact congrArg (Option.map Content.function) (h.functions.get?_eq key)
  | aggregate => exact congrArg (Option.map Content.aggregate) (h.aggregates.get?_eq key)
  | procedure => exact congrArg (Option.map Content.procedure) (h.procedures.get?_eq key)

theorem of_at?_eq (hname : s.name = s'.name) (howner : s.owner = s'.owner)
    (hpolicies : s.policies = s'.policies) (h : ∀ kind key, s.at? kind key = s'.at? kind key) :
    s.Reordered s' := by
  have hentries {α : Type} {a b : Entries α} {f : α → Content} (hf : Function.Injective f)
      (heq : ∀ key, (a.get? key).map f = (b.get? key).map f) : a.Alike Eq b :=
    Entries.alike_eq_iff.mpr fun key => Option.map_injective hf (heq key)
  exact
    { name := hname
      owner := howner
      tables := hentries (fun _ _ => Content.table.inj) (h .table)
      views := hentries (fun _ _ => Content.view.inj) (h .view)
      functions := hentries (fun _ _ => Content.function.inj) (h .function)
      procedures := hentries (fun _ _ => Content.procedure.inj) (h .procedure)
      aggregates := hentries (fun _ _ => Content.aggregate.inj) (h .aggregate)
      sequences := hentries (fun _ _ => Content.sequence.inj) (h .sequence)
      policies := Entries.alike_eq_iff.mpr fun _ => by rw [hpolicies]
      types := hentries (fun _ _ => Content.type.inj) (h .type) }

end Schema.Reordered

namespace Catalog

variable {c c' : Catalog}

theorem Reordered.agrees (h : c.Reordered c') : c.Agrees c' where
  metadata := h.metadata
  partitions := h.partitions
  indexPartitions := h.indexPartitions
  contents tag := by
    cases tag with
    | extension key => exact congrArg (Option.map Content.extension) (h.extensions.get?_eq key)
    | schema key =>
      have hkey := h.schemas key
      rw [at?_schema, at?_schema]
      generalize c.schemas.get? key = x at hkey ⊢
      generalize c'.schemas.get? key = y at hkey ⊢
      cases hkey with
      | none => rfl
      | some hs => exact congrArg (some ∘ Content.schema) hs.owner
    | object schema kind key =>
      have hschema := h.schemas schema
      rw [at?_object, at?_object]
      generalize c.schemas.get? schema = x at hschema ⊢
      generalize c'.schemas.get? schema = y at hschema ⊢
      cases hschema with
      | none => rfl
      | some hs => exact hs.at?_eq kind key

/-- In filed catalogs the tags leave nothing out. -/
theorem Agrees.reordered (h : c.Agrees c') (hfiled : c.Filed) (hfiled' : c'.Filed) : c.Reordered c' where
  metadata := h.metadata
  partitions := h.partitions
  indexPartitions := h.indexPartitions
  extensions := Entries.alike_eq_iff.mpr fun key =>
    Option.map_injective (fun _ _ => Content.extension.inj) (h.contents (.extension key))
  schemas := by
    intro key
    have howner := h.contents (.schema key)
    have hobjects (kind : ObjectKind) (name : String) := h.contents (.object key kind name)
    simp only [at?_schema, at?_object] at howner hobjects
    cases hs : c.schemas.get? key with
    | none =>
      cases hs' : c'.schemas.get? key with
      | none => exact .none
      | some s' => simp [hs, hs'] at howner
    | some s =>
      cases hs' : c'.schemas.get? key with
      | none => simp [hs, hs'] at howner
      | some s' =>
        have hfiled := hfiled.schemas key s hs
        have hfiled' := hfiled'.schemas key s' hs'
        rw [hs, hs'] at howner hobjects
        refine .some (.of_at?_eq (hfiled.name.trans hfiled'.name.symm) ?_
          (hfiled.policies.trans hfiled'.policies.symm) hobjects)
        exact Content.schema.inj (Option.some.inj howner)

/-! ## What is written -/

/-- Where each partition is attached once, no script shows the order. -/
theorem Reordered.alike (h : c.Reordered c') (honce : (c.partitions.map PartitionAttachment.child).Nodup) :
    c.Alike c' where
  metadata := h.metadata
  extensions := h.extensions
  partitions := .inr ⟨h.partitions, List.pairwise_map.mp honce⟩
  indexPartitions := .inl h.indexPartitions
  schemas := h.schemas.imp fun _ _ hs =>
    { hs with
      tables := hs.tables.imp fun t _ ht => ht ▸ t.alike_refl
      types := hs.types.imp fun _ _ ht => ht ▸ .reorder (.inl rfl) }

theorem Reordered.findTable?_eq (h : c.Reordered c') (schema name : String) :
    c.findTable? schema name = c'.findTable? schema name :=
  h.agrees.findTable?_eq schema name

theorem Reordered.modifyTable (h : c.Reordered c') (schema name : String) (f : Table → Table) :
    (c.modifyTable schema name f).Reordered (c'.modifyTable schema name f) :=
  { h with
    schemas := h.schemas.modify schema fun _ _ hs =>
      { hs with tables := hs.tables.modify name fun _ _ ht => by rw [ht] } }

theorem Reordered.put (h : c.Reordered c') (schema : String) {s s' : Schema} (hs : s.Reordered s') :
    { c with schemas := c.schemas.put schema s }.Reordered { c' with schemas := c'.schemas.put schema s' } :=
  { h with schemas := h.schemas.put schema hs }

end Catalog
end SchemaScript
