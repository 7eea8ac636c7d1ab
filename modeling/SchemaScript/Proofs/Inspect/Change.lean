import SchemaScript.Proofs.Inspect.Part

/-!
# What a row changes

Every row comes down to a change of one part (`Change`), which is worked out from what that part holds and from
which tables there are, and from nothing else. So a change keeps all other parts (`Change.keeps`), and in
catalogs that agree on its part and on the tables it does the same (`Change.agrees`).
-/

namespace SchemaScript.Inspect

/-- A change of a part. In a schema there may be nothing to change, and then the schema is not created. -/
inductive Change : Part → Type
  | fault {p : Part} (fault : Fault) : Change p
  | extensions (f : Entries Extension → Entries Extension) : Change .extensions
  | partitions (f : List PartitionAttachment → List PartitionAttachment)
    (g : List IndexAttachment → List IndexAttachment) : Change .partitions
  | inSchema {p : SchemaPart} (name : String) (f : p.Content → Except Fault (Option p.Content)) :
    Change (.inSchema p)
  | inTable {p : TablePart} (schema name : String) (f : p.Content → Except Fault p.Content) :
    Change (.inTable p)

namespace Change

variable {p q : Part} {c c' d d' : Catalog}

def run : Change p → Catalog → Except Fault Catalog
  | .fault e, _ => .error e
  | .extensions f, c => .ok { c with extensions := f c.extensions }
  | .partitions f g, c => .ok { c with partitions := f c.partitions, indexPartitions := g c.indexPartitions }
  | .inSchema (p := p) name f, c =>
    match f (p.lens.get (c.schemaOrNew name)) with
    | .error e => .error e
    | .ok none => .ok c
    | .ok (some a) => .ok (c.updateSchema name (p.lens.set a))
  | .inTable (p := p) schema name f, c =>
    match c.findTable? schema name with
    | none => .ok c
    | some t =>
      match f (p.lens.get t) with
      | .error e => .error e
      | .ok a => .ok (c.modifyTable schema name (p.lens.set a))

/-! ## Schemas and tables after a change -/

@[simp] theorem schemaOrNew_updateSchema (c : Catalog) (name n : String) (f : Schema → Schema) :
    (c.updateSchema name f).schemaOrNew n = if n = name then f (c.schemaOrNew name) else c.schemaOrNew n := by
  rw [Catalog.schemaOrNew, Catalog.updateSchema, Entries.get?_put]
  split <;> rfl

@[simp] theorem schemaOrNew_modifyTable (c : Catalog) (schema name n : String) (f : Table → Table) :
    (c.modifyTable schema name f).schemaOrNew n =
      if n = schema then { c.schemaOrNew n with tables := (c.schemaOrNew n).tables.modify name f }
      else c.schemaOrNew n := by
  unfold Catalog.schemaOrNew Catalog.modifyTable
  dsimp only
  rw [Entries.get?_modify]
  split
  · cases c.schemas.get? n <;> rfl
  · rfl

theorem map_putPair {α β : Type} {g : α → β} {name : String} {value found : α} {pairs : List (String × α)}
    (hfound : Entries.lookup name pairs = some found) (hg : g value = g found) :
    (Entries.putPair name value pairs).map (fun pair => (pair.1, g pair.2)) =
      pairs.map fun pair => (pair.1, g pair.2) := by
  induction pairs with
  | nil => contradiction
  | cons pair pairs ih =>
    obtain ⟨n, v⟩ := pair
    by_cases hn : n = name
    · obtain rfl : v = found := by simpa [Entries.lookup, hn] using hfound
      simp [Entries.putPair, hn, hg]
    · have hrest : Entries.lookup name pairs = some found := by simpa [Entries.lookup, hn] using hfound
      simp [Entries.putPair, hn, ih hrest]

/-- A map that does not see a change does not see it in any entry. -/
theorem map_modify_eq {α β : Type} {g : α → β} {f : α → α} (hf : ∀ x, g (f x) = g x) (entries : Entries α)
    (name : String) : (entries.modify name f).map g = entries.map g := by
  unfold Entries.modify
  split
  · next found hfound =>
    simp only [Entries.map, Entries.put, map_putPair hfound (hf found)]
  · rfl

theorem names_modify {α : Type} (entries : Entries α) (name : String) (f : α → α) :
    (entries.modify name f).names = entries.names := by
  have hmap := congrArg Entries.names (map_modify_eq (g := fun _ => ()) (f := f) (fun _ => rfl) entries name)
  simpa [Entries.names, Entries.map, Function.comp_def] using hmap

/-- Of a table that is there, the change may as well be given as its outcome. -/
theorem modifyTable_const {c : Catalog} {schema name : String} {t : Table}
    (ht : c.findTable? schema name = some t) (f : Table → Table) :
    (c.modifyTable schema name fun _ => f t) = c.modifyTable schema name f := by
  obtain ⟨s, hs, hst⟩ := Option.bind_eq_some_iff.mp ht
  simp only [Catalog.modifyTable, Entries.modify, hs, hst]

@[simp] theorem names_modifyTable (c : Catalog) (schema name : String) (f : Table → Table) :
    (c.modifyTable schema name f).schemas.names = c.schemas.names :=
  names_modify ..

theorem mem_names_updateSchema {c : Catalog} {name n : String} {f : Schema → Schema} :
    n ∈ (c.updateSchema name f).schemas.names ↔ n ∈ c.schemas.names ∨ name = n := by
  rw [Catalog.updateSchema, Entries.mem_names_put, or_comm, eq_comm]

theorem findTable?_updateSchema {p : SchemaPart} (c : Catalog) (name : String) (a : p.Content) (s t : String) :
    (c.updateSchema name (p.lens.set a)).findTable? s t = c.findTable? s t := by
  rw [findTable?_eq, findTable?_eq, schemaOrNew_updateSchema]
  split
  · next h => rw [SchemaPart.tables_set, h]
  · rfl

theorem ground_updateSchema {p : SchemaPart} (c : Catalog) (name : String) (a : p.Content) :
    Ground c (c.updateSchema name (p.lens.set a)) where
  metadata := rfl
  schemas n := by
    rw [schemaOrNew_updateSchema]
    split
    · next h => rw [SchemaPart.bareSchema_set, h]
    · rfl

theorem ground_modifyTable {p : TablePart} (c : Catalog) (schema name : String) (a : p.Content) :
    Ground c (c.modifyTable schema name (p.lens.set a)) where
  metadata := rfl
  schemas n := by
    rw [schemaOrNew_modifyTable]
    split
    · simp only [bareSchema, map_modify_eq (g := bareTable) (TablePart.bareTable_set a)]
    · rfl

/-! ## One change -/

/-- A change keeps all other parts and what is below them. -/
theorem keeps {change : Change p} (h : change.run c = .ok c') :
    Ground c c' ∧ ∀ q, q ≠ p → q.AgreeOn c c' := by
  cases change with
  | fault e => contradiction
  | extensions f =>
    obtain rfl := Except.ok.inj h
    refine ⟨⟨rfl, fun _ => rfl⟩, fun q hq => ?_⟩
    cases q with
    | extensions => contradiction
    | partitions => exact ⟨rfl, rfl⟩
    | inSchema q => exact fun _ => rfl
    | inTable q => exact fun _ _ => rfl
  | partitions f g =>
    obtain rfl := Except.ok.inj h
    refine ⟨⟨rfl, fun _ => rfl⟩, fun q hq => ?_⟩
    cases q with
    | extensions => rfl
    | partitions => contradiction
    | inSchema q => exact fun _ => rfl
    | inTable q => exact fun _ _ => rfl
  | @inSchema p name f =>
    rw [run] at h
    split at h
    · contradiction
    · obtain rfl := Except.ok.inj h
      exact ⟨.refl c, fun q _ => .refl q c⟩
    · next a _ =>
      obtain rfl := Except.ok.inj h
      refine ⟨ground_updateSchema c name a, fun q hq => ?_⟩
      cases q with
      | extensions => rfl
      | partitions => exact ⟨rfl, rfl⟩
      | inSchema q =>
        intro n
        rw [schemaOrNew_updateSchema]
        split
        · next hn => rw [SchemaPart.get_set_of_ne (fun heq => hq (congrArg Part.inSchema heq)), hn]
        · rfl
      | inTable q => exact fun s t => by rw [findTable?_updateSchema]
  | @inTable p schema name f =>
    rw [run] at h
    split at h
    · obtain rfl := Except.ok.inj h
      exact ⟨.refl c, fun q _ => .refl q c⟩
    · next t ht =>
      split at h
      · contradiction
      · next a _ =>
        obtain rfl := Except.ok.inj h
        refine ⟨ground_modifyTable c schema name a, fun q hq => ?_⟩
        cases q with
        | extensions => rfl
        | partitions => exact ⟨rfl, rfl⟩
        | inSchema q =>
          intro n
          rw [schemaOrNew_modifyTable]
          split
          · cases q <;> rfl
          · rfl
        | inTable q =>
          intro s n
          rw [Catalog.findTable?_modifyTable]
          split
          · next hn =>
            rw [hn.1, hn.2, ht]
            exact congrArg some (TablePart.get_set_of_ne (fun heq => hq (congrArg Part.inTable heq)) a t).symm
          · rfl

/-- In catalogs that agree on the part, and for a part of tables on which tables there are, a change does the
same. -/
theorem agrees {change : Change p} (h : change.run c = .ok c') (hground : p.IsOfTable → Ground c d)
    (hp : p.AgreeOn c d) :
    ∃ d', change.run d = .ok d' ∧ p.AgreeOn c' d' := by
  cases change with
  | fault e => contradiction
  | extensions f =>
    obtain rfl := Except.ok.inj h
    exact ⟨_, rfl, congrArg f hp⟩
  | partitions f g =>
    obtain rfl := Except.ok.inj h
    exact ⟨_, rfl, congrArg f hp.1, congrArg g hp.2⟩
  | @inSchema p name f =>
    have hname := hp name
    rw [run] at h ⊢
    rw [← hname]
    split at h
    · contradiction
    · obtain rfl := Except.ok.inj h
      exact ⟨d, rfl, hp⟩
    · next a _ =>
      obtain rfl := Except.ok.inj h
      refine ⟨_, rfl, fun n => ?_⟩
      rw [schemaOrNew_updateSchema, schemaOrNew_updateSchema]
      split
      · rw [Lens.get_set, Lens.get_set]
      · exact hp n
  | @inTable p schema name f =>
    have hfound := (hground ⟨p, rfl⟩).findTable?_map schema name
    have hpart := hp schema name
    rw [run] at h ⊢
    cases ht : c.findTable? schema name with
    | none =>
      have hu : d.findTable? schema name = none := Option.map_eq_none_iff.mp (hfound.symm.trans (congrArg _ ht))
      rw [ht] at h
      obtain rfl := Except.ok.inj h
      rw [hu]
      exact ⟨d, rfl, hp⟩
    | some t =>
      obtain ⟨u, hu, -⟩ := Option.map_eq_some_iff.mp (hfound.symm.trans (congrArg _ ht))
      have hget : p.lens.get t = p.lens.get u := by simpa [ht, hu] using hpart
      rw [ht] at h
      rw [hu]
      dsimp only at h ⊢
      rw [← hget]
      split at h
      · contradiction
      · next a _ =>
        obtain rfl := Except.ok.inj h
        refine ⟨_, rfl, fun s n => ?_⟩
        rw [Catalog.findTable?_modifyTable, Catalog.findTable?_modifyTable]
        split
        · simp [ht, hu]
        · exact hp s n

end Change
end SchemaScript.Inspect
