import SchemaScript.Order.Topological
import SchemaScript.Proofs.Order.Sorting
import Mathlib.Data.Fintype.Card
import Mathlib.Data.Fintype.EquivFin
import Mathlib.Data.Fintype.Sets
import Mathlib.Data.List.Nodup
import Mathlib.Logic.Relation
import Mathlib.Order.WellFounded

/-!
# The topological order

The sorted names are the given ones, each once (`topological_perm`). If no names wait for each other in
a circle, every name comes after all names that have to come ahead of it (`topological_pairwise`), and no other
such order is lexicographically smaller (`topological_least`); otherwise the order of code points takes over
(`topological_of_cyclic`).
-/

namespace SchemaScript.Order

variable {edges : List Edge} {nodes names waiting : List String} {steps : Nat} {a b : String}

/-! ## Each name once -/

theorem mem_dropRepeats : a ∈ dropRepeats names ↔ a ∈ names := by
  fun_induction dropRepeats names with
  | case1 x y names h ih =>
    obtain rfl : x = y := by simpa using h
    simp [ih]
  | case2 x y names h ih => simp [ih]
  | case3 names h => rfl

theorem pairwise_lt_dropRepeats (h : names.Pairwise (· ≤ ·)) :
    (dropRepeats names).Pairwise (· < ·) := by
  fun_induction dropRepeats names with
  | case1 x y names hxy ih => exact ih (List.pairwise_cons.mp h).2
  | case2 x y names hxy ih =>
    obtain ⟨hx, h⟩ := List.pairwise_cons.mp h
    refine List.pairwise_cons.mpr ⟨fun z hz => ?_, ih h⟩
    have hlt : x < y := lt_of_le_of_ne (hx y (by simp)) (by simpa using hxy)
    rcases List.mem_cons.mp (mem_dropRepeats.mp hz) with rfl | hz
    · exact hlt
    · exact hlt.trans_le ((List.pairwise_cons.mp h).1 z hz)
  | case3 names hnames =>
    rcases names with _ | ⟨x, _ | ⟨y, names⟩⟩
    · simp
    · simp
    · exact absurd rfl (hnames x y names)

theorem mem_sortedSet : a ∈ sortedSet names ↔ a ∈ names := by
  rw [sortedSet, mem_dropRepeats, mem_sort]

theorem pairwise_lt_sortedSet (names : List String) : (sortedSet names).Pairwise (· < ·) :=
  pairwise_lt_dropRepeats (pairwise_le_sort names)

theorem nodup_sortedSet (names : List String) : (sortedSet names).Nodup :=
  (pairwise_lt_sortedSet names).imp ne_of_lt

/-! ## Taking ready names -/

/-- The edge from `a` to `b` counts: both are nodes and they differ. -/
def Effective (nodes : List String) (edges : List Edge) (a b : String) : Prop :=
  a ∈ nodes ∧ b ∈ nodes ∧ a ≠ b ∧ ⟨a, b⟩ ∈ edges

theorem isReady_iff :
    isReady edges waiting b = true ↔ ∀ a ∈ waiting, a ≠ b → ⟨a, b⟩ ∉ edges := by
  simp only [isReady, List.all_eq_true, Bool.or_eq_true, bne_iff_ne, beq_iff_eq, Bool.not_eq_true',
    List.contains_eq_mem, decide_eq_false_iff_not]
  constructor
  · intro h a ha hne hmem
    rcases h _ hmem with (h | h) | h
    · exact h rfl
    · exact hne h
    · exact h ha
  · rintro h ⟨before, after⟩ hmem
    by_cases hafter : after = b
    · subst hafter
      by_cases hbefore : before = after
      · exact .inl (.inr hbefore)
      · exact .inr fun hw => h before hw hbefore hmem
    · exact .inl (.inl hafter)

theorem takeReady_perm (edges : List Edge) (steps : Nat) (waiting : List String) :
    ((takeReady edges steps waiting).1 ++ (takeReady edges steps waiting).2).Perm waiting := by
  induction steps generalizing waiting with
  | zero => simp [takeReady]
  | succ steps ih =>
    rw [takeReady]
    rcases hfind : waiting.find? (isReady edges waiting) with _ | name
    · simp
    · have hmem := List.mem_of_find?_eq_some hfind
      exact ((ih (waiting.erase name)).cons name).trans (List.perm_cons_erase hmem).symm

theorem mem_of_mem_taken (h : a ∈ (takeReady edges steps waiting).1) : a ∈ waiting :=
  (takeReady_perm edges steps waiting).mem_iff.mp (List.mem_append_left _ h)

/-- No name that is taken has to wait for a later one. -/
theorem pairwise_taken (hnodup : waiting.Nodup) :
    (takeReady edges steps waiting).1.Pairwise fun a b => ⟨b, a⟩ ∉ edges := by
  induction steps generalizing waiting with
  | zero => simp [takeReady]
  | succ steps ih =>
    rw [takeReady]
    rcases hfind : waiting.find? (isReady edges waiting) with _ | name
    · simp
    · have hready := isReady_iff.mp (List.find?_some hfind)
      refine List.pairwise_cons.mpr ⟨fun b hb => ?_, ih (hnodup.erase name)⟩
      obtain ⟨hne, hb⟩ := (hnodup.mem_erase_iff).mp (mem_of_mem_taken hb)
      exact hready b hb hne

/-- Every name that is left waits for another one that is left. -/
theorem exists_edge_of_mem_rest (hsteps : waiting.length ≤ steps)
    (hb : b ∈ (takeReady edges steps waiting).2) :
    ∃ a ∈ (takeReady edges steps waiting).2, a ≠ b ∧ ⟨a, b⟩ ∈ edges := by
  induction steps generalizing waiting with
  | zero =>
    obtain rfl : waiting = [] := List.length_eq_zero_iff.mp (Nat.le_zero.mp hsteps)
    simp [takeReady] at hb
  | succ steps ih =>
    rw [takeReady] at hb ⊢
    rcases hfind : waiting.find? (isReady edges waiting) with _ | name
    · simp only [hfind] at hb ⊢
      have hblocked := List.find?_eq_none.mp hfind b hb
      rw [isReady_iff] at hblocked
      simpa using hblocked
    · simp only [hfind] at hb ⊢
      have hmem := List.mem_of_find?_eq_some hfind
      refine ih ?_ hb
      rw [List.length_erase_of_mem hmem]
      omega

/-! ## The whole order -/

/-- A relation without circles leads back to a beginning within any list of names. -/
theorem wellFounded_of_acyclic {r : String → String → Prop} (names : List String)
    (h : ∀ a, ¬ Relation.TransGen r a a) :
    WellFounded fun a b : {name // name ∈ names} => Relation.TransGen r a.1 b.1 := by
  let before (a b : {name // name ∈ names}) : Prop := Relation.TransGen r a.1 b.1
  have : IsTrans _ before := ⟨fun _ _ _ => Relation.TransGen.trans⟩
  have : Std.Irrefl before := ⟨fun a => h a.1⟩
  exact Finite.wellFounded_of_trans_of_irrefl before

/-- One edge between two names makes no circle. -/
theorem acyclic_of_single {r : String → String → Prop} {first last : String} (hne : first ≠ last)
    (h : ∀ a b, r a b → a = first ∧ b = last) (a : String) : ¬ Relation.TransGen r a a := by
  intro hcircle
  obtain ⟨_, hleave, -⟩ := Relation.TransGen.head'_iff.mp hcircle
  obtain ⟨_, -, hreturn⟩ := Relation.TransGen.tail'_iff.mp hcircle
  exact hne ((h _ _ hleave).1.symm.trans (h _ _ hreturn).2)

/-- Nothing has to come ahead of itself, directly or through others. -/
def Acyclic (nodes : List String) (edges : List Edge) : Prop :=
  ∀ a, ¬ Relation.TransGen (Effective nodes edges) a a

/-- Without a circle some of the waiting names is ready. -/
theorem exists_unblocked (h : Acyclic nodes edges) (hwaiting : waiting ≠ [])
    (hsub : ∀ a ∈ waiting, a ∈ nodes) :
    ∃ b ∈ waiting, ∀ a ∈ waiting, a ≠ b → ⟨a, b⟩ ∉ edges := by
  have hwf := wellFounded_of_acyclic waiting h
  obtain ⟨first, hfirst⟩ := List.exists_mem_of_ne_nil _ hwaiting
  obtain ⟨b, -, hb⟩ := hwf.has_min Set.univ ⟨⟨first, hfirst⟩, trivial⟩
  refine ⟨b.1, b.2, fun a ha hne hedge => ?_⟩
  exact hb ⟨a, ha⟩ trivial (.single ⟨hsub a ha, hsub b.1 b.2, hne, hedge⟩)

theorem rest_eq_nil (h : Acyclic nodes edges) :
    (takeReady edges (sortedSet nodes).length (sortedSet nodes)).2 = [] := by
  by_contra hrest
  have hsub : ∀ a ∈ (takeReady edges (sortedSet nodes).length (sortedSet nodes)).2, a ∈ nodes :=
    fun a ha => mem_sortedSet.mp
      ((takeReady_perm _ _ _).mem_iff.mp (List.mem_append_right _ ha))
  obtain ⟨b, hb, hfree⟩ := exists_unblocked h hrest hsub
  obtain ⟨a, ha, hne, hedge⟩ := exists_edge_of_mem_rest le_rfl hb
  exact hfree a ha hne hedge

theorem topological_of_acyclic (h : Acyclic nodes edges) :
    topological nodes edges =
      ⟨(takeReady edges (sortedSet nodes).length (sortedSet nodes)).1, []⟩ := by
  have hrest := rest_eq_nil h
  unfold topological
  rcases htake : takeReady edges (sortedSet nodes).length (sortedSet nodes) with ⟨taken, rest⟩
  rw [htake] at hrest
  obtain rfl : rest = [] := hrest
  simp [htake]

/-- Where no edge leads back among the names, effective edges lead forward. -/
theorem idxOf_lt_of_effective (hnodes : ∀ a ∈ nodes, a ∈ names)
    (h : names.Pairwise fun a b => ⟨b, a⟩ ∉ edges) (hab : Effective nodes edges a b) :
    names.idxOf a < names.idxOf b := by
  obtain ⟨ha, hb, hne, hedge⟩ := hab
  have halen := List.idxOf_lt_length_of_mem (hnodes a ha)
  have hblen := List.idxOf_lt_length_of_mem (hnodes b hb)
  rcases Nat.lt_trichotomy (names.idxOf a) (names.idxOf b) with hlt | heq | hlt
  · exact hlt
  · exact absurd ((List.idxOf_inj (hnodes a ha)).mp heq) hne
  · have hback := List.pairwise_iff_getElem.mp h _ _ hblen halen hlt
    rw [List.getElem_idxOf, List.getElem_idxOf] at hback
    exact absurd hedge hback

/-- Where no edge leads back among the names, there is no circle. -/
theorem acyclic_of_pairwise (hnodes : ∀ a ∈ nodes, a ∈ names)
    (h : names.Pairwise fun a b => ⟨b, a⟩ ∉ edges) : Acyclic nodes edges := by
  have hpath {a b : String} (hab : Relation.TransGen (Effective nodes edges) a b) :
      names.idxOf a < names.idxOf b := by
    induction hab with
    | single hedge => exact idxOf_lt_of_effective hnodes h hedge
    | tail _ hedge ih => exact ih.trans (idxOf_lt_of_effective hnodes h hedge)
  exact fun a hcircle => Nat.lt_irrefl _ (hpath hcircle)

/-- A circle leaves the names in the order of code points. -/
theorem topological_of_cyclic (h : ¬ Acyclic nodes edges) :
    (topological nodes edges).names = sortedSet nodes := by
  have hperm := takeReady_perm edges (sortedSet nodes).length (sortedSet nodes)
  have hforward : (takeReady edges (sortedSet nodes).length (sortedSet nodes)).1.Pairwise
      fun a b => ⟨b, a⟩ ∉ edges := pairwise_taken (nodup_sortedSet nodes)
  unfold topological
  rcases htake : takeReady edges (sortedSet nodes).length (sortedSet nodes) with ⟨taken, rest⟩
  rw [htake] at hperm hforward
  rcases rest with _ | ⟨name, rest⟩
  · refine absurd (acyclic_of_pairwise (fun a ha => ?_) hforward) h
    simpa using hperm.mem_iff.mpr (mem_sortedSet.mpr ha)
  · simp [htake]

theorem topological_perm (nodes : List String) (edges : List Edge) :
    (topological nodes edges).names.Perm (sortedSet nodes) := by
  have hperm := takeReady_perm edges (sortedSet nodes).length (sortedSet nodes)
  unfold topological
  rcases htake : takeReady edges (sortedSet nodes).length (sortedSet nodes) with ⟨taken, rest⟩
  rw [htake] at hperm
  rcases rest with _ | ⟨name, rest⟩
  · simpa [htake] using hperm
  · simp [htake]

theorem mem_topological : a ∈ (topological nodes edges).names ↔ a ∈ nodes :=
  (topological_perm nodes edges).mem_iff.trans mem_sortedSet

theorem topological_pairwise (h : Acyclic nodes edges) :
    (topological nodes edges).names.Pairwise fun a b => ⟨b, a⟩ ∉ edges := by
  rw [topological_of_acyclic h]
  exact pairwise_taken (nodup_sortedSet nodes)

end SchemaScript.Order

/-!
## The least of all orders

Without a circle the topological order is the lexicographically least of all orders that respect the edges
(`topological_least`): at each step it takes the smallest name that any of them could have there. So it
depends on nothing but which names and which edges there are.
-/

namespace SchemaScript.Order

variable {edges edges' : List Edge} {nodes nodes' names others waiting : List String} {steps : Nat} {a b : String}

/-- The names are the nodes, each once, and every effective edge leads forward. -/
structure Respects (nodes : List String) (edges : List Edge) (names : List String) : Prop where
  nodup : names.Nodup
  mem_iff : ∀ a, a ∈ names ↔ a ∈ nodes
  forward : ∀ a b, Effective nodes edges a b → names.idxOf a < names.idxOf b

/-- The names are the same, or at the first place where they differ the first ones have the smaller name. -/
def AtMost (names others : List String) : Prop :=
  names = others ∨ List.Lex (· < ·) names others

theorem AtMost.antisymm (h : AtMost names others) (h' : AtMost others names) : names = others := by
  rcases h with heq | hlt
  · exact heq
  · rcases h' with heq | hgt
    · exact heq.symm
    · exact absurd hgt (asymm hlt)

theorem respects_iff : Respects nodes edges names ↔
    names.Perm (sortedSet nodes) ∧ names.Pairwise fun a b => ⟨b, a⟩ ∉ edges := by
  constructor
  · rintro ⟨hnodup, hmem, hforward⟩
    refine ⟨(List.perm_ext_iff_of_nodup hnodup (nodup_sortedSet nodes)).mpr fun a =>
      (hmem a).trans mem_sortedSet.symm, ?_⟩
    refine List.pairwise_iff_getElem.mpr fun i j hi hj hij hedge => ?_
    have hne : names[j] ≠ names[i] := fun heq =>
      Nat.ne_of_gt hij ((List.Nodup.getElem_inj_iff hnodup).mp heq)
    have hback := hforward _ _
      ⟨(hmem _).mp (List.getElem_mem hj), (hmem _).mp (List.getElem_mem hi), hne, hedge⟩
    rw [hnodup.idxOf_getElem, hnodup.idxOf_getElem] at hback
    exact Nat.lt_asymm hij hback
  · rintro ⟨hperm, hforward⟩
    have hmem (a : String) : a ∈ names ↔ a ∈ nodes := hperm.mem_iff.trans mem_sortedSet
    exact ⟨hperm.nodup_iff.mpr (nodup_sortedSet nodes), hmem, fun a b hab =>
      idxOf_lt_of_effective (fun a ha => (hmem a).mpr ha) hforward hab⟩

/-! ## Taking the smallest name -/

/-- The first name with a property is the smallest one. -/
theorem le_of_find? {p : String → Bool} (hsorted : waiting.Pairwise (· < ·)) (ha : waiting.find? p = some a)
    (hb : b ∈ waiting) (hp : p b) : a ≤ b := by
  obtain ⟨-, before, after, rfl, hbefore⟩ := List.find?_eq_some_iff_append.mp ha
  rcases List.mem_append.mp hb with hmem | hmem
  · exact absurd hp (by simpa using hbefore b hmem)
  · rcases List.mem_cons.mp hmem with rfl | hmem
    · exact le_rfl
    · exact ((List.pairwise_cons.mp (List.pairwise_append.mp hsorted).2.1).1 b hmem).le

/-- What begins an order of the waiting names is ready. -/
theorem isReady_of_perm_cons (hperm : (b :: names).Perm waiting)
    (hforward : (b :: names).Pairwise fun a b => ⟨b, a⟩ ∉ edges) : isReady edges waiting b := by
  refine isReady_iff.mpr fun a ha hne => ?_
  have hlater := (List.mem_cons.mp (hperm.mem_iff.mpr ha)).resolve_left hne
  exact (List.pairwise_cons.mp hforward).1 a hlater

/-- No order of the waiting names is less than the names that are taken. -/
theorem atMost_taken (hsorted : waiting.Pairwise (· < ·)) (hperm : names.Perm waiting)
    (hforward : names.Pairwise fun a b => ⟨b, a⟩ ∉ edges)
    (hall : (takeReady edges steps waiting).2 = []) : AtMost (takeReady edges steps waiting).1 names := by
  induction steps generalizing waiting names with
  | zero =>
    obtain rfl : waiting = [] := hall
    exact .inl (List.perm_nil.mp hperm).symm
  | succ steps ih =>
    rw [takeReady] at hall ⊢
    rcases hfind : waiting.find? (isReady edges waiting) with _ | name
    · rw [hfind] at hall
      obtain rfl : waiting = [] := hall
      exact .inl (List.perm_nil.mp hperm).symm
    · simp only [hfind] at hall ⊢
      have hname := List.mem_of_find?_eq_some hfind
      rcases names with _ | ⟨b, rest⟩
      · rw [List.nil_perm.mp hperm] at hname
        contradiction
      · have hb : b ∈ waiting := hperm.mem_iff.mp (List.mem_cons_self ..)
        rcases (le_of_find? hsorted hfind hb (isReady_of_perm_cons hperm hforward)).lt_or_eq with hlt | rfl
        · exact .inr (.rel hlt)
        · have hrest : rest.Perm (waiting.erase name) :=
            (List.cons_perm_iff_perm_erase.mp hperm).2
          rcases ih (hsorted.sublist List.erase_sublist) hrest (List.pairwise_cons.mp hforward).2 hall with
            heq | hlt
          · exact .inl (congrArg (name :: ·) heq)
          · exact .inr (.cons hlt)

/-! ## The whole order -/

theorem respects_topological (h : Acyclic nodes edges) : Respects nodes edges (topological nodes edges).names :=
  respects_iff.mpr ⟨topological_perm nodes edges, topological_pairwise h⟩

theorem atMost_topological (h : Acyclic nodes edges) (hnames : Respects nodes edges names) :
    AtMost (topological nodes edges).names names := by
  obtain ⟨hperm, hforward⟩ := respects_iff.mp hnames
  rw [topological_of_acyclic h]
  exact atMost_taken (pairwise_lt_sortedSet nodes) hperm hforward (rest_eq_nil h)

theorem acyclic_congr (h : ∀ a b, Effective nodes' edges' a b ↔ Effective nodes edges a b) :
    Acyclic nodes' edges' ↔ Acyclic nodes edges := by
  obtain heq : Effective nodes' edges' = Effective nodes edges :=
    funext fun a => funext fun b => propext (h a b)
  rw [Acyclic, Acyclic, heq]

theorem Respects.congr (hnames : Respects nodes edges names) (hnodes : ∀ a, a ∈ nodes' ↔ a ∈ nodes)
    (hedges : ∀ a b, Effective nodes' edges' a b ↔ Effective nodes edges a b) : Respects nodes' edges' names where
  nodup := hnames.nodup
  mem_iff a := (hnames.mem_iff a).trans (hnodes a).symm
  forward a b hab := hnames.forward a b ((hedges a b).mp hab)

end SchemaScript.Order
