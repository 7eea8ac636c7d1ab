import SchemaScript.Order.Dependencies
import SchemaScript.Proofs.Catalog.Entries
import SchemaScript.Proofs.Order.Topological

/-!
# Edges between tables and between views, and the sorted names

The sorted names are those of the tables or views (`mem_sortTables`, `mem_sortViews`). One table has to
come ahead of another exactly if the other refers to it with a foreign key (`mem_tableEdges_iff`), one view
exactly if the other's query mentions it (`mem_viewEdges_iff`). A circle is reported together with all names that
have to wait for it (`circle_reported`).
-/

namespace SchemaScript.Schema

variable {s : Schema} {names : List String} {name : String}

theorem result_sortTables (s : Schema) :
    s.sortTables.result = .ok (Order.topological s.tables.names s.tableEdges).names := rfl

theorem mem_sortTables (h : s.sortTables.result = .ok names) :
    name ∈ names ↔ s.tables.contains name := by
  obtain rfl : _ = names := by simpa [result_sortTables] using h
  rw [Order.mem_topological, Entries.contains_iff_mem_names]

theorem mem_sortViews (h : s.sortViews.result = .ok names) :
    name ∈ names ↔ s.views.contains name := by
  obtain ⟨-, h⟩ := Logged.result_check_bind_eq_ok.mp h
  obtain rfl : (Order.topological s.views.names s.viewEdges).names = names := by
    simpa [Order.sortLogged] using h
  rw [Order.mem_topological, Entries.contains_iff_mem_names]

/-- A foreign key of the table `name` refers to another table of the schema. -/
def Refers (s : Schema) (name referenced : String) : Prop :=
  referenced ≠ name ∧ s.tables.contains referenced ∧
    ∃ t, s.tables.get? name = some t ∧ ∃ key c, t.constraints.get? key = some c ∧
      c.kind = .foreignKey ∧ c.referencedTable.isGiven ∧
      c.referencedTable = (referenced : Field String) ∧
      (c.referencedSchema.isGiven → c.referencedSchema = s.name)

theorem keyEffect_eq_edge_iff {key : Constraint} {referenced : String} :
    s.keyEffect name key = .edge referenced ↔
      referenced ≠ name ∧ s.tables.contains referenced ∧ key.referencedTable.isGiven ∧
        key.referencedTable = (referenced : Field String) ∧
        (key.referencedSchema.isGiven → key.referencedSchema = s.name) := by
  unfold keyEffect
  dsimp only
  split
  · next h =>
    simp only [Bool.or_eq_true, Bool.not_eq_true', beq_iff_eq] at h
    simp only [reduceCtorEq, false_iff]
    rintro ⟨hne, -, hgiven, hnamed, -⟩
    rcases h with h | h
    · simp [hgiven] at h
    · rw [hnamed, Field.mk.injEq, Json.text.injEq] at h
      exact hne h
  · next h =>
    simp only [Bool.or_eq_true, Bool.not_eq_true', beq_iff_eq, not_or, Bool.not_eq_false] at h
    obtain ⟨hgiven, hother⟩ := h
    split
    · next h =>
      simp only [Bool.and_eq_true, bne_iff_ne] at h
      simp only [reduceCtorEq, false_iff]
      exact fun ⟨_, _, _, _, hschema⟩ => h.2 (hschema h.1)
    · next hschema =>
      simp only [Bool.and_eq_true, bne_iff_ne, not_and, not_not] at hschema
      split
      · next target htarget =>
        have hnamed := Field.stored_eq_text_iff.mp (Json.string?_eq_some_iff.mp htarget)
        simp only [hnamed, Field.mk.injEq, Json.text.injEq] at hgiven hother ⊢
        split
        · next hcontains =>
          simp only [KeyEffect.edge.injEq]
          constructor
          · rintro rfl
            exact ⟨hother, hcontains, hgiven, rfl, hschema⟩
          · exact fun ⟨_, _, _, heq, _⟩ => heq
        · next hmissing =>
          simp only [reduceCtorEq, false_iff]
          rintro ⟨-, hcontains, -, rfl, -⟩
          exact hmissing hcontains
      · next htarget =>
        simp only [reduceCtorEq, false_iff]
        rintro ⟨-, -, -, hnamed, -⟩
        simp [hnamed, Json.string?] at htarget

theorem mem_foreignKeys_iff {key : Constraint} :
    (name, key) ∈ s.foreignKeys ↔
      ∃ t, s.tables.get? name = some t ∧ ∃ label, t.constraints.get? label = some key ∧
        key.kind = .foreignKey := by
  simp only [foreignKeys, List.mem_flatMap, List.mem_map, Prod.mk.injEq, Prod.exists,
    Table.foreignKeys, List.mem_filter, beq_iff_eq, Entries.sortedValues, Entries.mem_sorted,
    Entries.get?_eq_some_iff]
  constructor
  · rintro ⟨_, t, ht, _, ⟨⟨label, _, hkey, rfl⟩, hkind⟩, rfl, rfl⟩
    exact ⟨t, ht, label, hkey, hkind⟩
  · rintro ⟨t, ht, label, hkey, hkind⟩
    exact ⟨name, t, ht, key, ⟨⟨label, key, hkey, rfl⟩, hkind⟩, rfl, rfl⟩

theorem mem_tableEdges_iff {referenced : String} :
    ⟨referenced, name⟩ ∈ s.tableEdges ↔ s.Refers name referenced := by
  simp only [tableEdges, List.mem_filterMap, Prod.exists]
  constructor
  · rintro ⟨other, key, hkey, hedge⟩
    split at hedge
    · next target heffect =>
      simp only [Option.some.injEq, Order.Edge.mk.injEq] at hedge
      obtain ⟨rfl, rfl⟩ := hedge
      obtain ⟨hne, hcontains, hgiven, hnamed, hschema⟩ := keyEffect_eq_edge_iff.mp heffect
      obtain ⟨t, ht, label, hlabel, hkind⟩ := mem_foreignKeys_iff.mp hkey
      exact ⟨hne, hcontains, t, ht, label, key, hlabel, hkind, hgiven, hnamed, hschema⟩
    · simp at hedge
  · rintro ⟨hne, hcontains, t, ht, label, key, hlabel, hkind, hgiven, hnamed, hschema⟩
    refine ⟨name, key, mem_foreignKeys_iff.mpr ⟨t, ht, label, hlabel, hkind⟩, ?_⟩
    rw [keyEffect_eq_edge_iff.mpr ⟨hne, hcontains, hgiven, hnamed, hschema⟩]

/-- The name of another view of the schema occurs in the query of the view `name`, in any letter case. -/
def Mentions (s : Schema) (name other : String) : Prop :=
  other ≠ name ∧ s.views.contains other ∧ ∃ v, s.views.get? name = some v ∧
    (Text.lower other).toList <:+: (Text.lower (v.definition.givenOr "")).toList

theorem mem_viewEdges_iff {other : String} :
    ⟨other, name⟩ ∈ s.viewEdges ↔ s.Mentions name other := by
  have hnames {n : String} : n ∈ s.views.sortedNames ↔ s.views.contains n := by
    rw [Entries.sortedNames, Entries.contains_iff_mem_names, Entries.names]
    exact ((Order.sort_perm _ _).map _).mem_iff
  simp only [viewEdges, View.references, List.mem_flatMap, List.mem_map, List.mem_filter,
    Entries.mem_sorted_iff_get?, hnames, Order.Edge.mk.injEq, Bool.and_eq_true, bne_iff_ne, ne_eq,
    Option.some.injEq, Text.contains, Text.occursIn_iff, Prod.exists]
  constructor
  · rintro ⟨_, v, hv, _, ⟨hcontains, hne, hmentioned⟩, rfl, rfl⟩
    exact ⟨hne, hcontains, v, hv, hmentioned⟩
  · rintro ⟨hne, hcontains, v, hv, hmentioned⟩
    exact ⟨name, v, hv, other, ⟨hcontains, hne, hmentioned⟩, rfl, rfl⟩

end SchemaScript.Schema

/-!
## Names that a circle holds up

A circle of edges is reported, and with it every name that has to wait for one on the circle (`circle_reported`).
Such a name always waits for another one of them, so none of them is ever ready (`mem_rest_of_held`). The other names
lead back to one that waits for nothing, so none of those is left (`held_of_mem_rest`).
-/

namespace SchemaScript.Order

variable {edges : List Edge} {nodes names waiting : List String} {steps : Nat} {a b : String}

/-- The name lies on a circle, or waits for one that does, directly or through others. -/
def Held (nodes : List String) (edges : List Edge) (a : String) : Prop :=
  ∃ b, Relation.TransGen (Effective nodes edges) b b ∧ Relation.ReflTransGen (Effective nodes edges) b a

theorem held_of_circle (h : Relation.TransGen (Effective nodes edges) a a) : Held nodes edges a :=
  ⟨a, h, .refl⟩

theorem Held.step (h : Held nodes edges a) (hab : Effective nodes edges a b) : Held nodes edges b := by
  obtain ⟨c, hcircle, hpath⟩ := h
  exact ⟨c, hcircle, hpath.tail hab⟩

/-- On the way from the circle, and on the circle itself, there is always a name before. -/
theorem Held.exists_before (h : Held nodes edges b) : ∃ a, Held nodes edges a ∧ Effective nodes edges a b := by
  obtain ⟨c, hcircle, hpath⟩ := h
  rcases hpath.cases_tail with rfl | ⟨a, hfront, hab⟩
  · obtain ⟨a, hfront, hab⟩ := Relation.TransGen.tail'_iff.mp hcircle
    exact ⟨a, ⟨b, hcircle, hfront⟩, hab⟩
  · exact ⟨a, ⟨c, hcircle, hfront⟩, hab⟩

theorem Held.mem_nodes (h : Held nodes edges b) : b ∈ nodes := by
  obtain ⟨a, -, -, hb, -⟩ := h.exists_before
  exact hb

theorem acyclic_iff_not_held : Acyclic nodes edges ↔ ∀ a, ¬ Held nodes edges a := by
  constructor
  · rintro h a ⟨b, hcircle, -⟩
    exact h b hcircle
  · intro h a hcircle
    exact h a (held_of_circle hcircle)

/-! ## What is left -/

theorem not_held_of_isReady (hwaiting : ∀ a, Held nodes edges a → a ∈ waiting)
    (h : isReady edges waiting b) : ¬ Held nodes edges b := by
  intro hheld
  obtain ⟨a, ha, -, -, hne, hedge⟩ := hheld.exists_before
  exact isReady_iff.mp h a (hwaiting a ha) hne hedge

/-- No name that a circle holds up is taken. -/
theorem mem_rest_of_held (hwaiting : ∀ a, Held nodes edges a → a ∈ waiting) (h : Held nodes edges b) :
    b ∈ (takeReady edges steps waiting).2 := by
  induction steps generalizing waiting with
  | zero => exact hwaiting b h
  | succ steps ih =>
    rw [takeReady]
    rcases hfind : waiting.find? (isReady edges waiting) with _ | name
    · exact hwaiting b h
    · have hready := not_held_of_isReady hwaiting (List.find?_some hfind)
      apply ih
      intro a ha
      have hne : a ≠ name := by
        rintro rfl
        exact hready ha
      exact (List.mem_erase_of_ne hne).mpr (hwaiting a ha)

/-- Every name that is left is one that a circle holds up. -/
theorem held_of_mem_rest (hnodes : ∀ a ∈ waiting, a ∈ nodes) (hsteps : waiting.length ≤ steps)
    (h : b ∈ (takeReady edges steps waiting).2) : Held nodes edges b := by
  by_contra hfree
  -- the names that no circle holds up are ordered by the edges, so one of those left comes first
  have hacyclic : ∀ a, ¬ Relation.TransGen
      (fun a b => Effective nodes edges a b ∧ ¬ Held nodes edges b) a a := by
    intro a hcircle
    obtain ⟨_, -, -, hfree⟩ := Relation.TransGen.tail'_iff.mp hcircle
    exact hfree (held_of_circle (hcircle.lift id fun _ _ hab => hab.1))
  have hwf := wellFounded_of_acyclic (takeReady edges steps waiting).2 hacyclic
  obtain ⟨first, hfirst, hmin⟩ := hwf.has_min {a | ¬ Held nodes edges a.1} ⟨⟨b, h⟩, hfree⟩
  obtain ⟨a, ha, hne, hedge⟩ := exists_edge_of_mem_rest hsteps first.2
  have hrest (a : String) (ha : a ∈ (takeReady edges steps waiting).2) : a ∈ nodes :=
    hnodes a ((takeReady_perm edges steps waiting).mem_iff.mp (List.mem_append_right _ ha))
  have hbefore : Effective nodes edges a first := ⟨hrest a ha, hrest first first.2, hne, hedge⟩
  refine hmin ⟨a, ha⟩ ?_ (.single ⟨hbefore, hfirst⟩)
  intro hheld
  exact hfirst (hheld.step hbefore)

theorem rest_sublist (edges : List Edge) (steps : Nat) (waiting : List String) :
    (takeReady edges steps waiting).2.Sublist waiting := by
  induction steps generalizing waiting with
  | zero => exact List.Sublist.refl waiting
  | succ steps ih =>
    rw [takeReady]
    rcases waiting.find? (isReady edges waiting) with _ | name
    · exact List.Sublist.refl waiting
    · exact (ih (waiting.erase name)).trans List.erase_sublist

/-! ## The report -/

/-- These are the names with the property, each once, by code point. -/
structure Lists (names : List String) (p : String → Prop) : Prop where
  ascending : names.Pairwise (· < ·)
  mem_iff : ∀ a, a ∈ names ↔ p a

theorem lists_sortedSet (nodes : List String) : Lists (sortedSet nodes) (· ∈ nodes) where
  ascending := pairwise_lt_sortedSet nodes
  mem_iff := fun _ => mem_sortedSet

theorem lists_rest (nodes : List String) (edges : List Edge) :
    Lists (takeReady edges (sortedSet nodes).length (sortedSet nodes)).2 (Held nodes edges) where
  ascending := (pairwise_lt_sortedSet nodes).sublist (rest_sublist ..)
  mem_iff := by
    intro a
    constructor
    · exact held_of_mem_rest (fun _ => mem_sortedSet.mp) le_rfl
    · exact mem_rest_of_held fun _ ha => mem_sortedSet.mpr ha.mem_nodes

theorem cyclic_topological (nodes : List String) (edges : List Edge) :
    (topological nodes edges).cyclic = (takeReady edges (sortedSet nodes).length (sortedSet nodes)).2 := by
  unfold topological
  dsimp only
  split
  · next h => rw [h]
  · next h => rw [h]

theorem cyclic_eq_nil_iff : (topological nodes edges).cyclic = [] ↔ Acyclic nodes edges := by
  have hheld := (lists_rest nodes edges).mem_iff
  rw [cyclic_topological, List.eq_nil_iff_forall_not_mem, acyclic_iff_not_held]
  constructor
  · exact fun h a ha => h a ((hheld a).mpr ha)
  · exact fun h a ha => h a ((hheld a).mp ha)

/-- The name behind the circle is reported with it, the one beside it is not. -/
example : (topological ["hen", "egg", "omelette", "toast"]
    [⟨"hen", "egg"⟩, ⟨"egg", "hen"⟩, ⟨"egg", "omelette"⟩]).cyclic = ["egg", "hen", "omelette"] := by
  cbv

end SchemaScript.Order
