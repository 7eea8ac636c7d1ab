import Mathlib.Data.List.Perm.Subperm
import SchemaScript.Effect.Table
import SchemaScript.Proofs.Catalog.Entries
import SchemaScript.Proofs.Json.NumberText

/-!
# Names that are made for constraints

A name that is taken gets the smallest number behind it that makes it free; there is one, since the numbered names
outnumber those that are taken (`not_taken_freeName`).
-/

namespace SchemaScript.Effect

/-! ## The numbers behind a name -/

theorem writeNatural_injective : Function.Injective Text.writeNatural := by
  intro m n h
  have hdigits : Text.digits m = Text.digits n := String.ofList_injective h
  rw [← Json.digitsValue_digits m, hdigits, Json.digitsValue_digits]

section

variable {taken : String → Bool} {base : String} {limit : Nat} {names : List String}

/-- The name with a number behind it. -/
def numbered (base : String) (n : Nat) : String :=
  base ++ Text.writeNatural n

theorem numbered_injective (base : String) : Function.Injective (numbered base) := by
  intro m n h
  have hlists := congrArg String.toList h
  simp only [numbered, String.toList_append] at hlists
  exact writeNatural_injective (String.toList_injective (List.append_cancel_left hlists))

theorem numbered_ne (base : String) (n : Nat) : numbered base n ≠ base := by
  intro h
  have hlists := congrArg String.toList h
  rw [numbered, String.toList_append, Text.writeNatural, String.toList_ofList] at hlists
  exact absurd (List.append_right_eq_self.mp hlists) Nat.toDigits_ne_nil

/-- The names in the order in which they are tried: the base, then the base with the numbers from one on. -/
def candidate (base : String) : Nat → String
  | 0 => base
  | n + 1 => numbered base (n + 1)

theorem candidate_injective (base : String) : Function.Injective (candidate base) := by
  intro m n h
  cases m with
  | zero =>
    cases n with
    | zero => rfl
    | succ n => exact absurd h.symm (numbered_ne base (n + 1))
  | succ m =>
    cases n with
    | zero => exact absurd h (numbered_ne base (m + 1))
    | succ n => exact numbered_injective base h

/-- Candidates that are all taken are no more than the names. -/
theorem le_length_of_candidates {n : Nat} (h : ∀ m < n, candidate base m ∈ names) : n ≤ names.length := by
  have hdistinct : ((List.range n).map (candidate base)).Nodup := List.nodup_range.map (candidate_injective base)
  have hmem : (List.range n).map (candidate base) ⊆ names := by
    intro name hname
    obtain ⟨m, hm, rfl⟩ := List.mem_map.mp hname
    exact h m (List.mem_range.mp hm)
  simpa using (hdistinct.subperm hmem).length_le

/-- A name and its numbers that are taken are the candidates that are. -/
theorem taken_candidate {m n : Nat} (hbase : taken base) (hbefore : ∀ j, 1 ≤ j → j < n → taken (numbered base j))
    (hm : m < n) : taken (candidate base m) := by
  cases m with
  | zero => exact hbase
  | succ m => exact hbefore (m + 1) (Nat.le_add_left 1 m) hm

/-- Either one of the numbers makes the name free, the first of them is taken, or none does. -/
theorem freeFrom_cases (taken : String → Bool) (base : String) (limit counter : Nat) :
    (∃ i, counter ≤ i ∧ freeFrom taken base limit counter = numbered base i ∧ taken (numbered base i) = false ∧
      ∀ j, counter ≤ j → j < i → taken (numbered base j)) ∨
    ∀ j, counter ≤ j → j < counter + limit → taken (numbered base j) := by
  induction limit generalizing counter with
  | zero => exact .inr fun j hj hlast => absurd hlast (Nat.not_lt.mpr hj)
  | succ limit ih =>
    unfold freeFrom
    dsimp only
    split
    · next htaken =>
      have hsplit {j : Nat} (hj : counter ≤ j) : j = counter ∨ counter + 1 ≤ j := by omega
      rcases ih (counter + 1) with ⟨i, hi, hfound, hfree, hbefore⟩ | hall
      · refine .inl ⟨i, by omega, hfound, hfree, fun j hj hlast => ?_⟩
        rcases hsplit hj with rfl | hj
        · exact htaken
        · exact hbefore j hj hlast
      · refine .inr fun j hj hlast => ?_
        rcases hsplit hj with rfl | hj
        · exact htaken
        · exact hall j hj (by omega)
    · next hfree =>
      exact .inl ⟨counter, Nat.le_refl _, rfl, Bool.eq_false_of_not_eq_true hfree,
        fun j hj hlast => absurd hlast (Nat.not_lt.mpr hj)⟩

/-- More names than are taken cannot all be taken. -/
theorem not_all_taken (hnames : ∀ s, taken s → s ∈ names) (hlength : names.length ≤ limit) (hbase : taken base) :
    ¬ ∀ j, 1 ≤ j → j < 1 + limit → taken (numbered base j) := by
  intro hall
  have hle : 1 + limit ≤ names.length :=
    le_length_of_candidates fun m hm => hnames _ (taken_candidate hbase hall hm)
  omega

/-- A name is kept if it is free; otherwise it gets the smallest number that makes it free. -/
theorem freeName_cases (base : String) (hnames : ∀ s, taken s → s ∈ names) (hlength : names.length ≤ limit) :
    (freeName taken base limit = base ∧ taken base = false) ∨
    ∃ i, 1 ≤ i ∧ freeName taken base limit = numbered base i ∧ taken (numbered base i) = false ∧ taken base ∧
      ∀ j, 1 ≤ j → j < i → taken (numbered base j) := by
  unfold freeName
  split
  · next hbase =>
    rcases freeFrom_cases taken base limit 1 with ⟨i, hi, hfound, hfree, hbefore⟩ | hall
    · exact .inr ⟨i, hi, hfound, hfree, hbase, hbefore⟩
    · exact absurd hall (not_all_taken hnames hlength hbase)
  · next hbase => exact .inl ⟨rfl, Bool.eq_false_of_not_eq_true hbase⟩

theorem not_taken_freeName (base : String) (hnames : ∀ s, taken s → s ∈ names) (hlength : names.length ≤ limit) :
    taken (freeName taken base limit) = false := by
  rcases freeName_cases base hnames hlength with ⟨hname, hfree⟩ | ⟨i, -, hname, hfree, -⟩
  · rw [hname, hfree]
  · rw [hname, hfree]

end

/-! ## Constraints -/

/-- A name that is made for a constraint is not the name of one that is there. -/
theorem not_contains_constraintName {t : Table} {given : Option String} (hgiven : Text.given given = none)
    (columns : List String) (kind : String) : t.constraints.contains (constraintName t given columns kind) = false := by
  unfold constraintName
  rw [hgiven]
  exact not_taken_freeName _ (fun _ => Entries.contains_iff_mem_names.mp) (Nat.le_of_eq (List.length_map _))

end SchemaScript.Effect
