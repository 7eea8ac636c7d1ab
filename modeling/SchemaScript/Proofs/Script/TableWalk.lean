import SchemaScript.Proofs.Catalog.Entries
import SchemaScript.Proofs.Order.Dependencies
import SchemaScript.Proofs.Script.Emission

/-!
# The walk through the tables of a schema

What one visit does (`tableTree_cases`), the law that whatever every visit preserves holds after the
walk (`walkTables_induct`), and which tables are visited: those that attachments lead to from a
table that is no partition (`mem_handled_iff`).
-/

namespace SchemaScript

namespace Diff

variable {p : Pair} {new : Catalog} {ps : Partitions} {depth : Nat} {parent : Option String}
  {walk walk' : Walk} {name : String}

/-! ## Attachments -/

/-- The table `child` is attached to `parent`. -/
def Partitions.Attached (ps : Partitions) (parent child : String) : Prop :=
  ∃ a ∈ ps.attachments,
    a.parentTable = (parent : Field String) ∧ a.childTable = (child : Field String)

theorem Partitions.mem_children_iff {parent child : String} {names : List String}
    (h : (ps.children parent).result = .ok names) :
    child ∈ names ↔ ps.Attached parent child := by
  unfold children at h
  dsimp only at h
  split at h
  · obtain rfl : _ = names := by simpa using h
    simp only [Order.mem_sort, List.mem_filterMap, List.mem_filter, beq_iff_eq,
      Json.string?_eq_some_iff, Field.stored_eq_text_iff, Attached, and_assoc]
  · simp at h

/-! ## One visit -/

/-- Nothing is written for a table that the older state keeps, or that is kept as a view. -/
theorem tablePieces_of_kept {t : Table} (h : isCreated p name t = false) :
    tablePieces p new ps name t parent = pure [] := by
  rw [tablePieces, h]
  rfl

/-- The walk after a visit to `name` that wrote `own`. -/
def Walk.visit (walk : Walk) (name : String) (own : List Piece) : Walk :=
  { handled := walk.handled ++ [name], pieces := walk.pieces ++ own }

@[simp] theorem Walk.handled_visit (walk : Walk) (name : String) (own : List Piece) :
    (walk.visit name own).handled = walk.handled ++ [name] := rfl

@[simp] theorem Walk.pieces_visit (walk : Walk) (name : String) (own : List Piece) :
    (walk.visit name own).pieces = walk.pieces ++ own := rfl

/-- A name that is no table, or a table that was handled, changes nothing. -/
theorem tableTree_of_done (h : p.schema.tables.contains name → name ∈ walk.handled) :
    tableTree p new ps (depth + 1) parent walk name = pure walk := by
  unfold tableTree
  rcases ht : p.schema.tables.get? name with _ | t
  · rfl
  · simp [h (Entries.contains_of_get? ht)]

/-- Any other table is visited, and its partitions after it. -/
theorem tableTree_of_new {t : Table} (ht : p.schema.tables.get? name = some t)
    (h : name ∉ walk.handled) :
    tableTree p new ps (depth + 1) parent walk name = (do
      let own ← tablePieces p new ps name t parent
      let names ← ps.children name
      names.foldlM (tableTree p new ps depth (some name)) (walk.visit name own)) := by
  rw [tableTree]
  simp [ht, h, Walk.visit]

theorem tableTree_cases
    (h : (tableTree p new ps (depth + 1) parent walk name).result = .ok walk') :
    ((p.schema.tables.contains name → name ∈ walk.handled) ∧ walk' = walk) ∨
      ∃ t own names, p.schema.tables.get? name = some t ∧ name ∉ walk.handled ∧
        (tablePieces p new ps name t parent).result = .ok own ∧
        (ps.children name).result = .ok names ∧
        (names.foldlM (tableTree p new ps depth (some name)) (walk.visit name own)).result =
          .ok walk' := by
  by_cases hdone : p.schema.tables.contains name → name ∈ walk.handled
  · rw [tableTree_of_done hdone] at h
    exact .inl ⟨hdone, by simpa [eq_comm] using h⟩
  · simp only [Classical.not_imp] at hdone
    obtain ⟨hcontains, hnew⟩ := hdone
    obtain ⟨t, ht⟩ := Option.isSome_iff_exists.mp hcontains
    rw [tableTree_of_new ht hnew] at h
    obtain ⟨own, hown, h⟩ := Logged.result_bind_eq_ok.mp h
    obtain ⟨names, hnames, h⟩ := Logged.result_bind_eq_ok.mp h
    exact .inr ⟨t, own, names, ht, hnew, hown, hnames, h⟩

/-! ## The whole walk -/

/-- A law for steps from one name after another: `I` speaks of the names that were gone through. -/
theorem foldlM_induct (I : List String → Walk → Prop) {step : Walk → String → Logged Walk}
    {names : List String} (h : (names.foldlM step walk).result = .ok walk')
    (hstep : ∀ past name w w', name ∈ names → (step w name).result = .ok w' → I past w →
      I (past ++ [name]) w')
    (hI : I [] walk) : I names walk' := by
  suffices hall : ∀ (rest past : List String) (w : Walk), (∀ n ∈ rest, n ∈ names) →
      (rest.foldlM step w).result = .ok walk' → I past w → I (past ++ rest) walk' by
    simpa using hall names [] walk (fun _ hn => hn) h hI
  intro rest
  induction rest with
  | nil =>
    intro past w _ hw hI
    obtain rfl : w = walk' := by simpa using hw
    simpa using hI
  | cons name rest ih =>
    intro past w hsub hw hI
    rw [List.foldlM_cons] at hw
    obtain ⟨next, hnext, hw⟩ := Logged.result_bind_eq_ok.mp hw
    have hfirst := hstep past name w next (hsub name (by simp)) hnext hI
    have hrest : ∀ n ∈ rest, n ∈ names := fun n hn => hsub n (List.mem_cons_of_mem name hn)
    simpa using ih (past ++ [name]) next hrest hw hfirst

theorem handled_grows
    (h : (tableTree p new ps depth parent walk name).result = .ok walk') :
    walk.handled <+: walk'.handled := by
  induction depth generalizing parent walk walk' name with
  | zero =>
    obtain rfl : walk = walk' := by simpa [tableTree] using h
    exact List.prefix_rfl
  | succ depth ih =>
    rcases tableTree_cases h with ⟨-, rfl⟩ | ⟨t, own, names, -, -, -, -, h⟩
    · exact List.prefix_rfl
    · refine foldlM_induct (fun _ w => walk.handled <+: w.handled) h ?_ (List.prefix_append _ _)
      exact fun _ _ w w' _ hw hprefix => hprefix.trans (ih hw)

/-- How the walk comes to a table: as the first of a tree, or from a handled table to which it is
attached. -/
def Enters (p : Pair) (ps : Partitions) (walk : Walk) : Option String → String → Prop
  | none, name => ps.isPartition p.schema.tables name = false
  | some parent, name => parent ∈ walk.handled ∧ ps.Attached parent name

/-- Every visit to a table that was not handled yet preserves the property. -/
def Preserved (p : Pair) (new : Catalog) (ps : Partitions) (I : Walk → Prop) : Prop :=
  ∀ ⦃walk parent name t own⦄, p.schema.tables.get? name = some t → name ∉ walk.handled →
    Enters p ps walk parent name → (tablePieces p new ps name t parent).result = .ok own →
    I walk → I (walk.visit name own)

theorem tableTree_induct {I : Walk → Prop} (hI : Preserved p new ps I)
    (h : (tableTree p new ps depth parent walk name).result = .ok walk')
    (henters : Enters p ps walk parent name) (hwalk : I walk) : I walk' := by
  induction depth generalizing parent walk walk' name with
  | zero =>
    obtain rfl : walk = walk' := by simpa [tableTree] using h
    exact hwalk
  | succ depth ih =>
    rcases tableTree_cases h with ⟨-, rfl⟩ | ⟨t, own, names, ht, hnew, hown, hnames, h⟩
    · exact hwalk
    · -- the table stays handled while its partitions are gone through
      have hstay : I walk' ∧ name ∈ walk'.handled := by
        refine foldlM_induct (fun _ w => I w ∧ name ∈ w.handled) h ?_
          ⟨hI ht hnew henters hown hwalk, by simp⟩
        rintro - child w w' hchild hw ⟨hIw, hmem⟩
        exact ⟨ih hw ⟨hmem, (Partitions.mem_children_iff hnames).mp hchild⟩ hIw,
          (handled_grows hw).mem hmem⟩
      exact hstay.1

/-- The tables that are no partition, each after the tables it refers to. -/
def rootTables (new : Catalog) (p : Pair) : List String :=
  (Order.topological p.schema.tables.names p.schema.tableEdges).names.filter fun name =>
    !(Partitions.inSchema new p.schema.name).isPartition p.schema.tables name

theorem mem_rootTables :
    name ∈ rootTables new p ↔ p.schema.tables.contains name ∧
      (Partitions.inSchema new p.schema.name).isPartition p.schema.tables name = false := by
  simp [rootTables, Order.mem_topological, Entries.contains_iff_mem_names]

theorem result_walkTables (new : Catalog) (p : Pair) :
    (walkTables new p).result =
      ((rootTables new p).foldlM
        (tableTree p new (.inSchema new p.schema.name) (p.schema.tables.size + 1) none) {}).result := by
  rw [walkTables, Logged.bind_of_ok (Schema.result_sortTables p.schema)]
  rfl

/-- What every visit preserves holds after the walk, if it holds before the first visit. -/
theorem walkTables_induct {I : Walk → Prop}
    (hI : Preserved p new (.inSchema new p.schema.name) I)
    (h : (walkTables new p).result = .ok walk) (hwalk : I {}) : I walk := by
  rw [result_walkTables] at h
  refine foldlM_induct (fun _ w => I w) h (fun _ name w w' hname hw hIw => ?_) hwalk
  exact tableTree_induct hI hw (mem_rootTables.mp hname).2 hIw

/-! ## Which tables are visited -/

/-- Attachments lead to the table from one that is no partition. -/
inductive Reached (p : Pair) (ps : Partitions) : String → Prop
  | root {name : String} (table : p.schema.tables.contains name)
      (root : ps.isPartition p.schema.tables name = false) : Reached p ps name
  | child {parent name : String} (reached : Reached p ps parent) (attached : ps.Attached parent name)
      (table : p.schema.tables.contains name) : Reached p ps name

/-- Only tables are handled, each once. -/
structure Walk.Sane (p : Pair) (ps : Partitions) (walk : Walk) : Prop where
  nodup : walk.handled.Nodup
  reached : ∀ name ∈ walk.handled, Reached p ps name

theorem Reached.contains (h : Reached p ps name) : p.schema.tables.contains name := by
  cases h <;> assumption

theorem preserved_sane : Preserved p new ps (Walk.Sane p ps) := by
  intro walk parent name t own ht hnew henters _ hsane
  have hcontains := Entries.contains_of_get? ht
  have hreached : Reached p ps name := by
    rcases parent with _ | parent
    · exact .root hcontains henters
    · exact .child (hsane.reached parent henters.1) henters.2 hcontains
  constructor
  · exact hsane.nodup.append (List.nodup_singleton name) (by simpa using hnew)
  · intro n hn
    rcases List.mem_append.mp hn with hn | hn
    · exact hsane.reached n hn
    · obtain rfl := List.mem_singleton.mp hn
      exact hreached

theorem Walk.Sane.length_le (h : walk.Sane p ps) : walk.handled.length ≤ p.schema.tables.size := by
  have hsub : walk.handled ⊆ p.schema.tables.names := fun n hn =>
    Entries.contains_iff_mem_names.mp (h.reached n hn).contains
  simpa [Entries.names, Entries.size] using (h.nodup.subperm hsub).length_le

/-- The partitions of every table handled since `before` are handled. -/
def Walk.CompleteSince (p : Pair) (ps : Partitions) (before walk : Walk) : Prop :=
  ∀ parent ∈ walk.handled, parent ∉ before.handled → ∀ child, ps.Attached parent child →
    p.schema.tables.contains child → child ∈ walk.handled

/-- From `walk` to `walk'` every one of the names was visited that is a table, and then what is
attached to it, and so on. -/
structure Completed (p : Pair) (ps : Partitions) (names : List String) (walk walk' : Walk) :
    Prop where
  sane : walk'.Sane p ps
  grows : walk.handled <+: walk'.handled
  since : walk.CompleteSince p ps walk'
  done : ∀ name ∈ names, p.schema.tables.contains name → name ∈ walk'.handled

theorem Completed.refl (h : walk.Sane p ps) : Completed p ps [] walk walk :=
  ⟨h, List.prefix_rfl, fun _ hn hbefore => absurd hn hbefore, by simp⟩

theorem Completed.trans {past next : List String} {middle : Walk}
    (h : Completed p ps past walk middle) (h' : Completed p ps next middle walk') :
    Completed p ps (past ++ next) walk walk' := by
  refine ⟨h'.sane, h.grows.trans h'.grows, fun n hn hbefore c hc hcontains => ?_,
    fun n hn hcontains => ?_⟩
  · by_cases hold : n ∈ middle.handled
    · exact h'.grows.mem (h.since n hold hbefore c hc hcontains)
    · exact h'.since n hn hold c hc hcontains
  · rcases List.mem_append.mp hn with hn | hn
    · exact h'.grows.mem (h.done n hn hcontains)
    · exact h'.done n hn hcontains

theorem foldlM_completed {step : Walk → String → Logged Walk} {names : List String}
    (h : (names.foldlM step walk).result = .ok walk') (hsane : walk.Sane p ps)
    (hstep : ∀ name ∈ names, ∀ w w', (step w name).result = .ok w' → w.Sane p ps →
      walk.handled <+: w.handled → Completed p ps [name] w w') :
    Completed p ps names walk walk' := by
  refine foldlM_induct (fun past w => Completed p ps past walk w) h ?_ (.refl hsane)
  exact fun past name w w' hname hw hpast =>
    hpast.trans (hstep name hname w w' hw hpast.sane hpast.grows)

theorem tableTree_completed
    (h : (tableTree p new ps depth parent walk name).result = .ok walk')
    (henters : Enters p ps walk parent name) (hsane : walk.Sane p ps)
    (hdepth : p.schema.tables.size < depth + walk.handled.length) :
    Completed p ps [name] walk walk' := by
  induction depth generalizing parent walk walk' name with
  | zero =>
    have := hsane.length_le
    omega
  | succ depth ih =>
    rcases tableTree_cases h with ⟨hdone, rfl⟩ | ⟨t, own, names, ht, hnew, hown, hnames, h⟩
    · refine { Completed.refl hsane with done := fun n hn => ?_ }
      obtain rfl := List.mem_singleton.mp hn
      exact hdone
    · have hvisit : (walk.visit name own).Sane p ps := preserved_sane ht hnew henters hown hsane
      have hrest : Completed p ps names (walk.visit name own) walk' := by
        refine foldlM_completed h hvisit fun child hchild w w' hw hs hgrows => ?_
        have hlength := hgrows.length_le
        simp only [Walk.handled_visit, List.length_append, List.length_singleton] at hlength
        exact ih hw ⟨hgrows.mem (by simp), (Partitions.mem_children_iff hnames).mp hchild⟩ hs
          (by omega)
      refine ⟨hrest.sane, (List.prefix_append _ _).trans hrest.grows,
        fun n hn hbefore c hc hcontains => ?_, fun n hn _ => ?_⟩
      · by_cases hself : n = name
        · subst hself
          exact hrest.done c ((Partitions.mem_children_iff hnames).mpr hc) hcontains
        · exact hrest.since n hn (by simp [hbefore, hself]) c hc hcontains
      · obtain rfl := List.mem_singleton.mp hn
        exact hrest.grows.mem (by simp)

theorem walkTables_completed (h : (walkTables new p).result = .ok walk) :
    Completed p (.inSchema new p.schema.name) (rootTables new p) {} walk := by
  rw [result_walkTables] at h
  refine foldlM_completed h ⟨List.nodup_nil, by simp⟩ fun name hname w w' hw hs _ => ?_
  exact tableTree_completed hw (mem_rootTables.mp hname).2 hs (by omega)

/-- Exactly the tables are visited to which attachments lead. -/
theorem mem_handled_iff (h : (walkTables new p).result = .ok walk) :
    name ∈ walk.handled ↔ Reached p (.inSchema new p.schema.name) name := by
  have hwalk := walkTables_completed h
  refine ⟨hwalk.sane.reached name, fun hreached => ?_⟩
  induction hreached with
  | root table root => exact hwalk.done _ (mem_rootTables.mpr ⟨table, root⟩) table
  | child _ attached table ih => exact hwalk.since _ ih (by simp) _ attached table

end Diff
end SchemaScript
