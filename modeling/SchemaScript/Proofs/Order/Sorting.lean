import SchemaScript.Order.Topological
import Mathlib.Data.List.Forall2
import Mathlib.Data.String.Basic

/-!
# Stable sorting

Sorting for a total preorder puts a list in order (`pairwise_sort`), keeps the order of elements of which
neither comes first (`pairwise_sort_stable`), and commutes with leaving out elements (`filter_sort`).
-/

namespace SchemaScript.Order

variable {α : Type} {le : α → α → Bool} {a : α} {l : List α}

theorem insertSorted_of_le (h : ∀ b ∈ l, le a b) : insertSorted le a l = a :: l := by
  rcases l with _ | ⟨b, l⟩
  · rfl
  · rw [insertSorted, if_pos (h b (by simp))]

section

variable (trans : ∀ a b c, le a b → le b c → le a c) (total : ∀ a b, le a b || le b a)

include trans total

/-- What is put in before all elements that came after it stays before those of which neither comes
first. -/
theorem pairwise_insertSorted {r : α → α → Prop} (h : l.Pairwise fun a b => le a b ∧ (le b a → r a b))
    (ha : ∀ b ∈ l, r a b) :
    (insertSorted le a l).Pairwise fun a b => le a b ∧ (le b a → r a b) := by
  induction l with
  | nil => simp [insertSorted]
  | cons b l ih =>
    obtain ⟨hb, hl⟩ := List.pairwise_cons.mp h
    by_cases hab : le a b
    · rw [insertSorted, if_pos hab]
      refine List.pairwise_cons.mpr ⟨fun c hc => ⟨?_, fun _ => ha c hc⟩, h⟩
      rcases List.mem_cons.mp hc with rfl | hc
      · exact hab
      · exact trans a b c hab (hb c hc).1
    · rw [insertSorted, if_neg hab]
      refine List.pairwise_cons.mpr ⟨fun c hc => ?_, ih hl fun c hc => ha c (List.mem_cons_of_mem b hc)⟩
      rcases List.mem_cons.mp ((insertSorted_perm le a l).mem_iff.mp hc) with rfl | hc
      · exact ⟨by simpa [hab] using total c b, fun hcb => absurd hcb hab⟩
      · exact hb c hc

/-- Elements of which neither comes first keep the order `r` in which they came. -/
theorem pairwise_sort_stable {r : α → α → Prop} (h : l.Pairwise r) :
    (sort le l).Pairwise fun a b => le a b ∧ (le b a → r a b) := by
  induction l with
  | nil => exact List.Pairwise.nil
  | cons a l ih =>
    obtain ⟨ha, hl⟩ := List.pairwise_cons.mp h
    exact pairwise_insertSorted trans total (ih hl) fun b hb => ha b (mem_sort.mp hb)

theorem pairwise_sort (l : List α) : (sort le l).Pairwise fun a b => le a b :=
  (pairwise_sort_stable trans total (r := fun _ _ => True) (List.pairwise_of_forall fun _ _ => trivial)).imp
    And.left

omit total in
/-- In a sorted list an element that stays finds the same place among those that stay. -/
theorem filter_insertSorted {p : α → Bool} (ha : p a) (h : l.Pairwise fun a b => le a b) :
    (insertSorted le a l).filter p = insertSorted le a (l.filter p) := by
  induction l with
  | nil => simp [insertSorted, ha]
  | cons b l ih =>
    obtain ⟨hb, hl⟩ := List.pairwise_cons.mp h
    by_cases hab : le a b
    · have hall : ∀ c ∈ (b :: l).filter p, le a c := fun c hc => by
        rcases List.mem_cons.mp (List.mem_filter.mp hc).1 with rfl | hc
        · exact hab
        · exact trans a b c hab (hb c hc)
      rw [insertSorted, if_pos hab, List.filter_cons_of_pos ha, insertSorted_of_le hall]
    · rw [insertSorted, if_neg hab]
      by_cases hpb : p b
      · rw [List.filter_cons_of_pos hpb, List.filter_cons_of_pos hpb, ih hl, insertSorted,
          if_neg hab]
      · rw [List.filter_cons_of_neg hpb, List.filter_cons_of_neg hpb, ih hl]

omit trans total in
theorem filter_insertSorted_of_neg {p : α → Bool} (ha : ¬ p a) :
    (insertSorted le a l).filter p = l.filter p := by
  induction l with
  | nil => simp [insertSorted, ha]
  | cons b l ih =>
    rw [insertSorted]
    split
    · rw [List.filter_cons_of_neg ha]
    · rw [List.filter_cons, List.filter_cons, ih]

theorem filter_sort (p : α → Bool) (l : List α) : (sort le l).filter p = sort le (l.filter p) := by
  induction l with
  | nil => rfl
  | cons a l ih =>
    by_cases ha : p a
    · rw [sort, filter_insertSorted trans ha (pairwise_sort trans total l), ih,
        List.filter_cons_of_pos ha, sort]
    · rw [sort, filter_insertSorted_of_neg ha, ih, List.filter_cons_of_neg ha]

omit trans total in
/-- What is in order stays as it is. -/
theorem sort_eq_self (h : l.Pairwise fun a b => le a b) : sort le l = l := by
  induction l with
  | nil => rfl
  | cons a l ih =>
    obtain ⟨ha, hl⟩ := List.pairwise_cons.mp h
    rw [sort, ih hl, insertSorted_of_le ha]

theorem sort_eq_of_perm {l' : List α} (h : l.Perm l')
    (hanti : ∀ a ∈ l, ∀ b ∈ l, le a b → le b a → a = b) : sort le l = sort le l' := by
  refine List.Perm.eq_of_pairwise ?_ (pairwise_sort trans total l) (pairwise_sort trans total l')
    ((sort_perm le l).trans (h.trans (sort_perm le l').symm))
  intro a b ha hb hab hba
  exact hanti a (mem_sort.mp ha) b (h.mem_iff.mpr (mem_sort.mp hb)) hab hba

end

theorem le_name_trans (key : α → String) (a b c : α) (hab : decide (key a ≤ key b))
    (hbc : decide (key b ≤ key c)) : decide (key a ≤ key c) := by
  simpa using le_trans (by simpa using hab) (by simpa using hbc)

theorem le_name_total (key : α → String) (a b : α) :
    decide (key a ≤ key b) || decide (key b ≤ key a) := by
  simpa using le_total (key a) (key b)

/-- What is sorted by a name comes in the order of code points. -/
theorem pairwise_sort_by (key : α → String) (l : List α) :
    (sort (fun a b => key a ≤ key b) l).Pairwise fun a b => key a ≤ key b := by
  simpa using pairwise_sort (le_name_trans key) (le_name_total key) l

theorem pairwise_le_sort (names : List String) :
    (sort (fun a b => a ≤ b) names).Pairwise (· ≤ ·) :=
  pairwise_sort_by id names

theorem map_sort {β : Type} {le' : β → β → Bool} (f : α → β)
    (hle : ∀ a b, le a b = le' (f a) (f b)) (l : List α) :
    (sort le l).map f = sort le' (l.map f) := by
  have hinsert (a : α) (l : List α) :
      (insertSorted le a l).map f = insertSorted le' (f a) (l.map f) := by
    induction l with
    | nil => rfl
    | cons b l ih =>
      rw [insertSorted, List.map_cons, insertSorted, hle]
      split
      · rw [List.map_cons, List.map_cons]
      · rw [List.map_cons, ih]
  induction l with
  | nil => rfl
  | cons a l ih => rw [sort, List.map_cons, sort, hinsert, ih]

/-- The order in which names came in does not matter once they are sorted. -/
theorem sort_names_eq_of_perm {names names' : List String} (h : names.Perm names') :
    sort (fun a b => a ≤ b) names = sort (fun a b => a ≤ b) names' := by
  refine sort_eq_of_perm (le_name_trans id) (le_name_total id) h fun a _ b _ hab hba => ?_
  exact le_antisymm (of_decide_eq_true hab) (of_decide_eq_true hba)

/-- Sorting alike by what is alike keeps elements of the two lists together. -/
theorem forall₂_sort {β : Type} {r : α → β → Prop} {le' : β → β → Bool} {l' : List β}
    (hle : ∀ a b a' b', r a a' → r b b' → le a b = le' a' b') (h : List.Forall₂ r l l') :
    List.Forall₂ r (sort le l) (sort le' l') := by
  induction h with
  | nil => exact List.Forall₂.nil
  | cons hab _ ih =>
    rw [sort, sort]
    generalize sort le _ = s at ih ⊢
    generalize sort le' _ = s' at ih ⊢
    induction ih with
    | nil => exact List.Forall₂.cons hab List.Forall₂.nil
    | cons hcd hrest ihs =>
      rw [insertSorted, insertSorted, hle _ _ _ _ hab hcd]
      split
      · exact List.Forall₂.cons hab (List.Forall₂.cons hcd hrest)
      · exact List.Forall₂.cons hcd ihs

end SchemaScript.Order
