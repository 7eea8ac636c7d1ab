import SchemaScript.Proofs.Script.Partition

/-!
# The order in which tables are handled

A table comes ahead of the partitions below it, partitions of one table come by name, and trees come in
the order in which their first tables are sorted (`Ahead`). A walk handles tables in this order
(`handled_pairwise`), and no table comes both ahead of another and after it if no table is attached
twice and attachments go in no circle (`Ahead.asymm`).
-/

namespace SchemaScript.Diff

variable {p : Pair} {new : Catalog} {ps : Partitions} {depth : Nat} {parent : Option String}
  {walk walk' : Walk} {name a b c q : String} {names : List String}

/-! ## Tables in trees -/

/-- `name` is attached to `parent`, a table of the schema. -/
def Nested (p : Pair) (ps : Partitions) (parent name : String) : Prop :=
  p.schema.tables.contains parent ∧ ps.Attached parent name

/-- `name` is `top` or below it. -/
abbrev Under (p : Pair) (ps : Partitions) (top name : String) : Prop :=
  Relation.ReflTransGen (Nested p ps) top name

/-- Where a table comes ahead of another. -/
inductive Ahead (p : Pair) (ps : Partitions) : String → String → Prop
  /-- The second is below the first. -/
  | nested {a b : String} (below : Relation.TransGen (Nested p ps) a b) : Ahead p ps a b
  /-- Both are at or below partitions of one table, of which the first has the smaller name. -/
  | siblings {q first second a b : String} (nestedFirst : Nested p ps q first)
      (nestedSecond : Nested p ps q second) (smaller : first < second)
      (underFirst : Under p ps first a) (underSecond : Under p ps second b) : Ahead p ps a b
  /-- Both are at or below tables that are no partitions, of which the first is sorted ahead. -/
  | trees {first second a b : String} (rootFirst : ps.isPartition p.schema.tables first = false)
      (rootSecond : ps.isPartition p.schema.tables second = false)
      (sorted : [first, second].Sublist
        (Order.topological p.schema.tables.names p.schema.tableEdges).names)
      (underFirst : Under p ps first a) (underSecond : Under p ps second b) : Ahead p ps a b

/-! ## What a walk appends -/

/-- The walk goes on to handle tables in order, all of them under one of the names. -/
def Appends (p : Pair) (ps : Partitions) (names : List String) (walk walk' : Walk) : Prop :=
  ∃ added, walk'.handled = walk.handled ++ added ∧
    (∀ n ∈ added, ∃ top ∈ names, Under p ps top n) ∧ added.Pairwise (Ahead p ps)

theorem foldlM_appends {step : Walk → String → Logged Walk} {before : String → String → Prop}
    (h : (names.foldlM step walk).result = .ok walk') (hnames : names.Pairwise before)
    (hstep : ∀ name ∈ names, ∀ w w', (step w name).result = .ok w' → Appends p ps [name] w w')
    (hacross : ∀ first ∈ names, ∀ second ∈ names, before first second → ∀ a b,
      Under p ps first a → Under p ps second b → Ahead p ps a b) :
    Appends p ps names walk walk' := by
  induction names generalizing walk with
  | nil =>
    obtain rfl : walk = walk' := by simpa using h
    exact ⟨[], by simp, by simp, List.Pairwise.nil⟩
  | cons top names ih =>
    rw [List.foldlM_cons] at h
    obtain ⟨next, hnext, h⟩ := Logged.result_bind_eq_ok.mp h
    obtain ⟨htop, hrest⟩ := List.pairwise_cons.mp hnames
    obtain ⟨own, hown, hunder, hpairs⟩ := hstep top (by simp) walk next hnext
    obtain ⟨added, hadded, hunders, hothers⟩ := ih h hrest
      (fun n hn => hstep n (List.mem_cons_of_mem top hn))
      (fun first hf second hs => hacross first (List.mem_cons_of_mem top hf) second
        (List.mem_cons_of_mem top hs))
    refine ⟨own ++ added, by rw [hadded, hown, List.append_assoc], fun n hn => ?_,
      List.pairwise_append.mpr ⟨hpairs, hothers, fun x hx y hy => ?_⟩⟩
    · rcases List.mem_append.mp hn with hn | hn
      · obtain ⟨t, ht, hn⟩ := hunder n hn
        exact ⟨t, by simpa using .inl (List.mem_singleton.mp ht), hn⟩
      · obtain ⟨t, ht, hn⟩ := hunders n hn
        exact ⟨t, List.mem_cons_of_mem top ht, hn⟩
    · obtain ⟨t, ht, hx⟩ := hunder x hx
      obtain rfl := List.mem_singleton.mp ht
      obtain ⟨u, hu, hy⟩ := hunders y hy
      exact hacross t (by simp) u (List.mem_cons_of_mem t hu) (htop u hu) x y hx hy

/-- Where no table is attached twice, the partitions of a table come by name, each once. -/
theorem Partitions.pairwise_children (hsingle : (ps.attachments.map (·.childTable)).Nodup)
    (h : (ps.children name).result = .ok names) : names.Pairwise (· < ·) := by
  unfold children at h
  dsimp only at h
  split at h
  · obtain rfl : _ = names := Except.ok.inj h
    have hfields : ((ps.attachments.filter fun a =>
        a.parentTable == (name : Field String)).map (·.childTable)).Nodup :=
      hsingle.sublist (List.filter_sublist.map _)
    have hstored : ((ps.attachments.filter fun a =>
        a.parentTable == (name : Field String)).map (·.childTable.stored)).Nodup := by
      have hinj : Function.Injective (Field.stored : Field String → Json) :=
        fun ⟨_⟩ ⟨_⟩ => congrArg Field.mk
      simpa [List.map_map, Function.comp_def] using hfields.map hinj
    have hnodup := hstored.filterMap fun v w s hv hw =>
      (Json.string?_eq_some_iff.mp hv).trans (Json.string?_eq_some_iff.mp hw).symm
    exact ((Order.pairwise_le_sort _).and
      ((Order.sort_perm _ _).nodup_iff.mpr hnodup)).imp fun hab => lt_of_le_of_ne hab.1 hab.2
  · simp at h

theorem tableTree_appends (hsingle : (ps.attachments.map (·.childTable)).Nodup)
    (h : (tableTree p new ps depth parent walk name).result = .ok walk') :
    Appends p ps [name] walk walk' := by
  induction depth generalizing parent walk walk' name with
  | zero =>
    obtain rfl : walk = walk' := by simpa [tableTree] using h
    exact ⟨[], by simp, by simp, List.Pairwise.nil⟩
  | succ depth ih =>
    rcases tableTree_cases h with ⟨-, rfl⟩ | ⟨t, own, names, ht, -, -, hnames, h⟩
    · exact ⟨[], by simp, by simp, List.Pairwise.nil⟩
    · have hnested {child : String} (hc : child ∈ names) : Nested p ps name child :=
        ⟨Entries.contains_of_get? ht, (Partitions.mem_children_iff hnames).mp hc⟩
      have hrest : Appends p ps names (walk.visit name own) walk' := by
        refine foldlM_appends h (Partitions.pairwise_children hsingle hnames)
          (fun child _ w w' hw => ih hw) fun first hf second hs hlt a b ha hb => ?_
        exact .siblings (hnested hf) (hnested hs) hlt ha hb
      obtain ⟨added, hadded, hunder, hpairs⟩ := hrest
      have hbelow {n : String} (hn : n ∈ added) : Relation.TransGen (Nested p ps) name n := by
        obtain ⟨top, htop, hn⟩ := hunder n hn
        exact .head' (hnested htop) hn
      refine ⟨name :: added, by simp [hadded], fun n hn => ?_,
        List.pairwise_cons.mpr ⟨fun n hn => .nested (hbelow hn), hpairs⟩⟩
      rcases List.mem_cons.mp hn with rfl | hn
      · exact ⟨n, by simp, .refl⟩
      · exact ⟨name, by simp, (hbelow hn).to_reflTransGen⟩

/-- A walk handles no table after one that it comes ahead of. -/
theorem handled_pairwise
    (hsingle : ((Partitions.inSchema new p.schema.name).attachments.map (·.childTable)).Nodup)
    (h : (walkTables new p).result = .ok walk) :
    walk.handled.Pairwise (Ahead p (.inSchema new p.schema.name)) := by
  rw [result_walkTables] at h
  have hroots : (rootTables new p).Pairwise fun a b => [a, b].Sublist (rootTables new p) :=
    List.pairwise_iff_forall_sublist.mpr fun h => h
  obtain ⟨added, hadded, -, hpairs⟩ := foldlM_appends h hroots
    (fun top _ w w' hw => tableTree_appends hsingle hw)
    fun first hf second hs hsub a b ha hb =>
      .trees (mem_rootTables.mp hf).2 (mem_rootTables.mp hs).2 (hsub.trans List.filter_sublist) ha hb
  rw [show walk.handled = added by simpa using hadded]
  exact hpairs

/-! ## One order -/

section

variable (hsingle : (ps.attachments.map (·.childTable)).Nodup)

include hsingle

theorem Partitions.Attached.unique {q' : String} (h : ps.Attached q name)
    (h' : ps.Attached q' name) : q = q' := by
  obtain ⟨x, hx, hparent, hchild⟩ := h
  obtain ⟨y, hy, hparent', hchild'⟩ := h'
  obtain rfl := List.inj_on_of_nodup_map hsingle hx hy (hchild.trans hchild'.symm)
  simpa using hparent.symm.trans hparent'

/-- Of two tables above a third one is above the other. -/
theorem Under.linear (ha : Under p ps a c) (hb : Under p ps b c) :
    Under p ps a b ∨ Under p ps b a := by
  induction ha with
  | refl => exact .inr hb
  | tail hax hxy ih =>
    rcases Relation.ReflTransGen.cases_tail hb with rfl | ⟨z, hbz, hzy⟩
    · exact .inl (hax.tail hxy)
    · obtain rfl := Partitions.Attached.unique hsingle hxy.2 hzy.2
      exact ih hbz

theorem isPartition_of_nested (h : Nested p ps q name) :
    ps.isPartition p.schema.tables name = true := by
  obtain ⟨hq, x, hx, hparent, hchild⟩ := h
  rw [Partitions.isPartition, Partitions.last?_eq_of_mem hsingle hx hchild]
  simp [hparent, Json.string?, hq]

/-- A table that is no partition is below none. -/
theorem eq_of_under_root (hroot : ps.isPartition p.schema.tables b = false)
    (h : Under p ps a b) : a = b := by
  rcases Relation.ReflTransGen.cases_tail h with rfl | ⟨q, -, hq⟩
  · rfl
  · simp [isPartition_of_nested hsingle hq] at hroot

/-- Two tables that are no partitions have nothing below them in common. -/
theorem roots_eq (ha : ps.isPartition p.schema.tables a = false)
    (hb : ps.isPartition p.schema.tables b = false) (hac : Under p ps a c) (hbc : Under p ps b c) :
    a = b := by
  rcases Under.linear hsingle hac hbc with h | h
  · exact eq_of_under_root hsingle hb h
  · exact (eq_of_under_root hsingle ha h).symm

variable (hacyclic : ∀ name, ¬ Relation.TransGen ps.Attached name name)

include hacyclic

omit hsingle in
theorem not_below_self (name : String) : ¬ Relation.TransGen (Nested p ps) name name :=
  fun h => hacyclic name (h.lift id fun _ _ hn => hn.2)

/-- Two partitions of one table have nothing below them in common. -/
theorem siblings_eq (ha : Nested p ps q a) (hb : Nested p ps q b) (hac : Under p ps a c)
    (hbc : Under p ps b c) : a = b := by
  have hself {x y : String} (hx : Nested p ps q x) (hy : Nested p ps q y) (h : Under p ps x y) :
      x = y := by
    rcases Relation.ReflTransGen.cases_tail h with rfl | ⟨z, hxz, hzy⟩
    · rfl
    · obtain rfl := Partitions.Attached.unique hsingle hzy.2 hy.2
      exact absurd (Relation.TransGen.head' hx hxz) (not_below_self hacyclic z)
  rcases Under.linear hsingle hac hbc with h | h
  · exact hself ha hb h
  · exact (hself hb ha h).symm

omit hacyclic in
/-- Two tables below one table are in one tree. -/
theorem roots_eq_of_common {first second : String}
    (hfirst : ps.isPartition p.schema.tables first = false)
    (hsecond : ps.isPartition p.schema.tables second = false)
    (ha : Under p ps first a) (hb : Under p ps second b)
    (hqa : Under p ps q a) (hqb : Under p ps q b) : first = second := by
  have habove {r x : String} (hr : ps.isPartition p.schema.tables r = false)
      (hrx : Under p ps r x) (hqx : Under p ps q x) : Under p ps r q := by
    rcases Under.linear hsingle hrx hqx with h | h
    · exact h
    · rw [eq_of_under_root hsingle hr h]
  exact roots_eq hsingle hfirst hsecond (habove hfirst ha hqa) (habove hsecond hb hqb)

/-- Tables below different partitions of `q` are not both below one table that is below `q`. -/
theorem siblings_eq_of_common {first second top : String} (hfirst : Nested p ps q first)
    (hsecond : Nested p ps q second) (ha : Under p ps first a) (hb : Under p ps second b)
    (hq : Relation.TransGen (Nested p ps) q top) (htopa : Under p ps top a)
    (htopb : Under p ps top b) : first = second := by
  obtain ⟨child, hchild, htop⟩ := Relation.TransGen.head'_iff.mp hq
  exact (siblings_eq hsingle hacyclic hfirst hchild ha (htop.trans htopa)).trans
    (siblings_eq hsingle hacyclic hchild hsecond (htop.trans htopb) hb)

theorem not_siblings_siblings {q' first second first' second' : String}
    (hfirst : Nested p ps q first) (hsecond : Nested p ps q second) (hlt : first < second)
    (ha : Under p ps first a) (hb : Under p ps second b)
    (hfirst' : Nested p ps q' first') (hsecond' : Nested p ps q' second') (hlt' : first' < second')
    (hb' : Under p ps first' b) (ha' : Under p ps second' a) : False := by
  have hqa : Under p ps q a := .head hfirst ha
  have hqb : Under p ps q b := .head hsecond hb
  have hqa' : Under p ps q' a := .head hsecond' ha'
  have hqb' : Under p ps q' b := .head hfirst' hb'
  by_cases heq : q = q'
  · subst heq
    have h := siblings_eq hsingle hacyclic hfirst hsecond' ha ha'
    have h' := siblings_eq hsingle hacyclic hsecond hfirst' hb hb'
    subst h h'
    exact lt_asymm hlt hlt'
  · rcases Under.linear hsingle hqa hqa' with h | h
    · have hq := (Relation.reflTransGen_iff_eq_or_transGen.mp h).resolve_left (Ne.symm heq)
      exact hlt.ne (siblings_eq_of_common hsingle hacyclic hfirst hsecond ha hb hq hqa' hqb')
    · have hq := (Relation.reflTransGen_iff_eq_or_transGen.mp h).resolve_left heq
      exact hlt'.ne (siblings_eq_of_common hsingle hacyclic hfirst' hsecond' hb' ha' hq hqb hqa)

omit hsingle hacyclic in
theorem ne_of_sublist_sorted {first second : String}
    (h : [first, second].Sublist
      (Order.topological p.schema.tables.names p.schema.tableEdges).names) : first ≠ second := by
  have hnodup := (Order.topological_perm p.schema.tables.names p.schema.tableEdges).nodup_iff.mpr
    (Order.nodup_sortedSet _)
  simpa using hnodup.sublist h

omit hsingle hacyclic in
/-- In a list without repetitions no two elements stand in both orders. -/
theorem not_swapped {l : List String} (hl : l.Nodup) (h : [a, b].Sublist l) :
    ¬ [b, a].Sublist l := by
  induction l with
  | nil => simp at h
  | cons x l ih =>
    obtain ⟨hx, hl⟩ := List.nodup_cons.mp hl
    intro h'
    rcases List.sublist_cons_iff.mp h with htail | ⟨_, hab, hb⟩ <;>
      rcases List.sublist_cons_iff.mp h' with htail' | ⟨_, hba, ha⟩
    · exact ih hl htail htail'
    · obtain ⟨rfl, rfl⟩ := List.cons.inj hba
      exact hx (htail.subset (by simp))
    · obtain ⟨rfl, rfl⟩ := List.cons.inj hab
      exact hx (htail'.subset (by simp))
    · obtain ⟨rfl, rfl⟩ := List.cons.inj hab
      obtain ⟨rfl, rfl⟩ := List.cons.inj hba
      exact hx (by simpa using hb)

/-- No table comes both ahead of another and after it. -/
theorem Ahead.asymm (h : Ahead p ps a b) : ¬ Ahead p ps b a := by
  intro h'
  cases h with
  | nested hab =>
    have hunder := hab.to_reflTransGen
    cases h' with
    | nested hba => exact not_below_self hacyclic a (hab.trans hba)
    | siblings hf hs hlt hfb hsa =>
      exact hlt.ne (siblings_eq hsingle hacyclic hf hs hfb (hsa.trans hunder))
    | trees hf hs hsorted hfb hsa =>
      exact ne_of_sublist_sorted hsorted (roots_eq hsingle hf hs hfb (hsa.trans hunder))
  | siblings hf hs hlt hfa hsb =>
    cases h' with
    | nested hba =>
      exact hlt.ne (siblings_eq hsingle hacyclic hf hs hfa (hsb.trans hba.to_reflTransGen))
    | siblings hf' hs' hlt' hfb' hsa' =>
      exact not_siblings_siblings hsingle hacyclic hf hs hlt hfa hsb hf' hs' hlt' hfb' hsa'
    | trees hf' hs' hsorted hfb' hsa' =>
      exact ne_of_sublist_sorted hsorted
        (roots_eq_of_common hsingle hf' hs' hfb' hsa' (.head hs hsb) (.head hf hfa))
  | trees hf hs hsorted hfa hsb =>
    cases h' with
    | nested hba =>
      exact ne_of_sublist_sorted hsorted (roots_eq hsingle hf hs hfa (hsb.trans hba.to_reflTransGen))
    | siblings hf' hs' hlt' hfb' hsa' =>
      exact ne_of_sublist_sorted hsorted
        (roots_eq_of_common hsingle hf hs hfa hsb (.head hs' hsa') (.head hf' hfb'))
    | trees hf' hs' hsorted' hfb' hsa' =>
      have heq := roots_eq hsingle hf hs' hfa hsa'
      have heq' := roots_eq hsingle hs hf' hsb hfb'
      subst heq heq'
      have hnodup := (Order.topological_perm p.schema.tables.names
        p.schema.tableEdges).nodup_iff.mpr (Order.nodup_sortedSet _)
      exact not_swapped hnodup hsorted hsorted'

end

end SchemaScript.Diff
