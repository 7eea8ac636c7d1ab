import SchemaScript.Text.Case
import SchemaScript.Text.Integer
import SchemaScript.Text.Search
import Mathlib.Data.List.Infix
import Mathlib.Data.List.TakeWhile

/-!
# Texts

What is cut off a text at its ends, the case of its letters, and what is written for a part of it.
-/

/-!
## Blanks and letter case

What is cut off a text at its ends is blank (`exists_trim`), and what is left is not cut again (`trim_trim`). The
word `CHECK` begins the upper case of a text only if the text itself begins with these letters, small or capital
(`startsWith_upper_iff`).
-/

namespace SchemaScript.Text

variable {s : List Char}

theorem trim_eq_self (hbegins : ∀ c ∈ s.head?, isBlank c = false)
    (hends : ∀ c ∈ s.getLast?, isBlank c = false) : trim s = s := by
  have hstart {s : List Char} (h : ∀ c ∈ s.head?, isBlank c = false) : trimStart s = s := by
    cases s with
    | nil => rfl
    | cons c r => exact trimStart_cons_of_not_blank (h c rfl) r
  have hend : trimEnd s = s := by
    unfold trimEnd
    rw [← trimStart, hstart (by rwa [List.head?_reverse]), List.reverse_reverse]
  rw [trim, hstart hbegins, hend]

theorem exists_trim (s : List Char) : ∃ front back, s = front ++ (trim s ++ back) ∧
    (∀ c ∈ front, isBlank c) ∧ ∀ c ∈ back, isBlank c := by
  refine ⟨s.takeWhile isBlank, ((trimStart s).reverse.takeWhile isBlank).reverse, ?_,
    fun c hc => List.mem_takeWhile_imp hc, fun c hc => List.mem_takeWhile_imp (List.mem_reverse.mp hc)⟩
  have hend : trim s ++ ((trimStart s).reverse.takeWhile isBlank).reverse = trimStart s := by
    rw [trim, trimEnd, ← List.reverse_append, List.takeWhile_append_dropWhile, List.reverse_reverse]
  rw [hend, trimStart, List.takeWhile_append_dropWhile]

theorem not_blank_head?_dropWhile (s : List Char) : ∀ c ∈ (s.dropWhile isBlank).head?, isBlank c = false := by
  intro c hc
  have hstop := List.head?_dropWhile_not isBlank s
  rwa [Option.mem_def.mp hc] at hstop

theorem trimEnd_prefix (s : List Char) : trimEnd s <+: s := by
  rw [trimEnd, ← List.reverse_suffix, List.reverse_reverse]
  exact List.dropWhile_suffix _

theorem trimEnd_append_cons {c : Char} (hc : isBlank c = false) (front s : List Char) :
    trimEnd (front ++ c :: s) = front ++ c :: trimEnd s := by
  have hstop : (c :: front.reverse).dropWhile isBlank = c :: front.reverse :=
    List.dropWhile_cons_of_neg (by simp [hc])
  have hletters : (front ++ c :: s).reverse = s.reverse ++ c :: front.reverse := by simp
  rw [trimEnd, trimEnd, hletters, List.dropWhile_append, hstop]
  split
  · next hempty => simp [List.isEmpty_iff.mp hempty]
  · simp

/-- What is no blank once the end is cut off begins the text, too. -/
theorem trim_eq_trimEnd (h : ∀ c ∈ (trimEnd s).head?, isBlank c = false) : trim s = trimEnd s := by
  cases s with
  | nil => rfl
  | cons c r =>
    cases hc : isBlank c with
    | false => rw [trim, trimStart_cons_of_not_blank hc]
    | true =>
      have hnothing : trimEnd (c :: r) = [] := by
        obtain ⟨back, hback⟩ := trimEnd_prefix (c :: r)
        rcases hend : trimEnd (c :: r) with _ | ⟨d, t⟩
        · rfl
        · rw [hend] at hback h
          obtain rfl := (List.cons.inj hback).1
          exact absurd (h d rfl) (by simp [hc])
      have hblank : ∀ d ∈ c :: r, isBlank d := by
        rw [trimEnd, List.reverse_eq_nil_iff, List.dropWhile_eq_nil_iff] at hnothing
        exact fun d hd => hnothing d (List.mem_reverse.mpr hd)
      have hstart : trimStart (c :: r) = [] := List.dropWhile_eq_nil_iff.mpr hblank
      rw [trim, hstart, hnothing]
      rfl

theorem not_blank_head?_trim (s : List Char) : ∀ c ∈ (trim s).head?, isBlank c = false := by
  intro c hc
  obtain ⟨back, hback⟩ := trimEnd_prefix (trimStart s)
  refine not_blank_head?_dropWhile s c ?_
  rw [← trimStart, ← hback, ← trim, List.head?_append, Option.mem_def.mp hc]
  rfl

theorem not_blank_getLast?_trim (s : List Char) : ∀ c ∈ (trim s).getLast?, isBlank c = false := by
  intro c hc
  rw [trim, trimEnd, List.getLast?_reverse] at hc
  exact not_blank_head?_dropWhile _ c hc

theorem trim_trim (s : List Char) : trim (trim s) = trim s :=
  trim_eq_self (not_blank_head?_trim s) (not_blank_getLast?_trim s)

theorem strip_strip (s : String) : strip (strip s) = strip s := by
  rw [strip, strip, String.toList_ofList, trim_trim]

end SchemaScript.Text

/-!
### Letter case of names and words

A text of small letters is its own lower case (`lower_eq_self`). The word `CHECK` begins the upper case of a text
only if the text itself begins with these letters, small or capital (`startsWith_upper_iff`): beyond ASCII no letter
has an upper case that could stand in the word.
-/

namespace SchemaScript.Text

/-! ### Lower case -/

/-- Without a capital sigma every character has one lower case, wherever it stands. -/
theorem toList_lower {s : String} (h : 'Σ' ∉ s.toList) :
    (lower s).toList = s.toList.flatMap lowerChar := by
  have hafter (l before : List Char) (hl : 'Σ' ∉ l) : lowerAfter before l = l.flatMap lowerChar := by
    induction l generalizing before with
    | nil => rfl
    | cons c l ih =>
      rw [List.mem_cons, not_or] at hl
      obtain ⟨hc, hl⟩ := hl
      rw [lowerAfter, ih (c :: before) hl, List.flatMap_cons, if_neg (by simpa using Ne.symm hc)]
  rw [lower, String.toList_ofList, hafter _ _ h]

theorem lower_eq_self {s : String} (h : ∀ c ∈ s.toList, c.toNat < 128 ∧ c.toLower = c) : lower s = s := by
  have hsigma : 'Σ' ∉ s.toList := fun hmem => absurd (h _ hmem).1 (by decide)
  have hchar : ∀ c ∈ s.toList, lowerChar c = [c] := fun c hc => by
    rw [lowerChar, if_pos (h c hc).1, (h c hc).2]
  rw [← String.toList_inj, toList_lower hsigma, List.flatMap_congr hchar, List.flatMap_singleton']

/-! ### Upper case -/

section

variable {c : Char} {w : List Char}

/-- Only the zero character stands in for numbers that are none of a character. -/
theorem eq_toNat_of_ofNat {n : Nat} (h : Char.ofNat n = c) (hc : c ≠ '\x00') : n = c.toNat := by
  by_cases hn : n.isValidChar
  · rw [← h, Char.ofNat, dif_pos hn]
    rfl
  · rw [Char.ofNat, dif_neg hn] at h
    exact absurd h.symm hc

theorem toUpper_eq_self (h : ¬ c.toNat < 128) : c.toUpper = c := by
  refine dif_neg fun hrange => h ?_
  exact Nat.lt_of_le_of_lt (UInt32.le_iff_toNat_le.mp hrange.2) (by decide)

theorem letter_of_check (hw : w <:+ "CHECK".toList) : ∀ c ∈ w, c ≠ '\x00' ∧ 0 < c.toNat ∧ c.toNat < 128 := by
  -- a proposition about all characters would be decided by going through every one of them
  have hall : "CHECK".toList.all fun c => c != '\x00' && decide (0 < c.toNat ∧ c.toNat < 128) := by decide
  exact fun c hc => by simpa using List.all_eq_true.mp hall c (hw.subset hc)

/-- Beyond ASCII, the upper case of a character neither goes on with the rest of the word nor begins with it. -/
theorem upperChar_apart (hc : ¬ c.toNat < 128) (hw : w <:+ "CHECK".toList) (hne : w ≠ []) :
    ¬ upperChar c <+: w ∧ ¬ w <+: upperChar c := by
  have hexpansions : ∀ e ∈ upperExpansions, ∀ w ∈ "CHECK".toList.tails, w ≠ [] →
      ¬ e.2.map Char.ofNat <+: w ∧ ¬ w <+: e.2.map Char.ofNat := by decide +kernel
  have hshifts : upperShifts.all fun s => "CHECK".toList.all fun c =>
      !decide (128 ≤ c.toNat - s.offset ∧ s.first ≤ c.toNat - s.offset ∧ c.toNat - s.offset ≤ s.last) := by
    decide +kernel
  rw [upperChar, if_neg hc, mapped]
  split
  · next e he => exact hexpansions e (List.mem_of_find?_eq_some he) w ((List.mem_tails _ _).mpr hw) hne
  · obtain ⟨l, w, rfl⟩ := List.exists_cons_of_ne_nil hne
    obtain ⟨hzero, hpositive, hsmall⟩ := letter_of_check hw l List.mem_cons_self
    -- the number in the table would have to be that of a letter of the word
    have hmoved : Char.ofNat (shifted upperShifts c.toNat) ≠ l := by
      intro heq
      have hnumber := eq_toNat_of_ofNat heq hzero
      rw [shifted] at hnumber
      split at hnumber
      · next s hs =>
        have hrange := List.find?_some hs
        simp only [Bool.and_eq_true, decide_eq_true_eq] at hrange
        have hletters := List.all_eq_true.mp hshifts s (List.mem_of_find?_eq_some hs)
        have happart := List.all_eq_true.mp hletters l (hw.subset List.mem_cons_self)
        rw [Bool.not_eq_true', decide_eq_false_iff_not] at happart
        rw [Int.ofNat_eq_natCast] at hnumber
        omega
      · omega
    exact ⟨fun h => hmoved (List.cons_prefix_cons.mp h).1, fun h => hmoved (List.cons_prefix_cons.mp h).1.symm⟩

/-- In upper case a text begins with the rest of the word only if it begins with these letters itself. -/
theorem prefix_upper_iff (hw : w <:+ "CHECK".toList) (s : List Char) :
    w <+: s.flatMap upperChar ↔ (s.take w.length).map Char.toUpper = w := by
  induction w generalizing s with
  | nil => simp
  | cons l w ih =>
    rcases s with _ | ⟨c, s⟩
    · simp
    · rw [List.flatMap_cons, List.length_cons, List.take_succ_cons, List.map_cons, List.cons.injEq]
      by_cases hc : c.toNat < 128
      · rw [upperChar, if_pos hc, List.singleton_append, List.cons_prefix_cons,
          ih ((List.suffix_cons l w).trans hw), eq_comm]
      · obtain ⟨hshort, hlong⟩ := upperChar_apart hc hw (List.cons_ne_nil l w)
        constructor
        · intro h
          rcases List.prefix_or_prefix_of_prefix h (List.prefix_append (upperChar c) _) with h | h
          · exact absurd h hlong
          · exact absurd h hshort
        · rintro ⟨hl, -⟩
          rw [toUpper_eq_self hc] at hl
          exact absurd (letter_of_check hw l List.mem_cons_self).2.2 (hl ▸ hc)

end

theorem startsWith_upper_iff (s : String) :
    startsWith (upper s) "CHECK" ↔ (s.toList.take 5).map Char.toUpper = "CHECK".toList := by
  rw [startsWith, List.isPrefixOf_iff_prefix, upper, String.toList_ofList (l := s.toList.flatMap upperChar)]
  exact prefix_upper_iff List.suffix_rfl s.toList

end SchemaScript.Text

/-!
## Rewriting parts of a text

Writing one text for another, leftmost first and only where the character before allows it (`rewrite`). If the new text
is shorter than the old one, just the texts in which the old one does not occur stay as they are
(`rewrite_eq_self_iff`), and all others get shorter (`rewrite_shrinks`). A character that the old text does not hold
parts what is rewritten before it from what is rewritten behind it (`rewrite_append_cons`).
-/

namespace SchemaScript.Text

/-- Leaves out the next `skip` characters and writes `new` for each later `old`, leftmost first, where `ready` holds of
the character before; `last` is the one before the text. -/
def rewrite (ready : Option Char → Bool) (old new : List Char) : Nat → Option Char → List Char → List Char
  | _, _, [] => []
  | skip + 1, _, c :: r => rewrite ready old new skip (some c) r
  | 0, last, c :: r =>
    if ready last && old.isPrefixOf (c :: r) then new ++ rewrite ready old new (old.length - 1) (some c) r
    else c :: rewrite ready old new 0 (some c) r

/-- The old text stands somewhere with the right character before it. -/
def Occurs (ready : Option Char → Bool) (old : List Char) (last : Option Char) (s : List Char) : Prop :=
  ∃ front back, s = front ++ (old ++ back) ∧ ready (front.getLast?.or last)

variable {ready : Option Char → Bool} {old new s r : List Char} {c m : Char} {last : Option Char}

theorem replaceFrom_eq_rewrite (old new : List Char) (skip : Nat) (last : Option Char) (s : List Char) :
    replaceFrom old new skip s = rewrite (fun _ => true) old new skip last s := by
  induction s generalizing skip last with
  | nil => cases skip <;> rfl
  | cons c s ih =>
    cases skip with
    | succ skip => exact ih skip (some c)
    | zero =>
      rw [replaceFrom, rewrite, Bool.true_and, ← ih, ← ih]

theorem rewrite_skip (front : List Char) (last : Option Char) (s : List Char) :
    rewrite ready old new front.length last (front ++ s) = rewrite ready old new 0 (front.getLast?.or last) s := by
  induction front generalizing last with
  | nil => rfl
  | cons c front ih =>
    rw [List.length_cons, List.cons_append, rewrite, ih, List.getLast?_cons]
    cases front.getLast? <;> rfl

theorem rewrite_hit (hold : old ≠ []) (hready : ready last) (s : List Char) :
    rewrite ready old new 0 last (old ++ s) = new ++ rewrite ready old new 0 old.getLast? s := by
  obtain ⟨c, rest, rfl⟩ := List.exists_cons_of_ne_nil hold
  have hprefix : (c :: rest).isPrefixOf (c :: (rest ++ s)) := by simp
  rw [List.cons_append, rewrite, hready, hprefix, Bool.and_self, if_pos rfl, List.length_cons, Nat.add_sub_cancel,
    rewrite_skip, List.getLast?_cons]
  cases rest.getLast? <;> rfl

theorem rewrite_miss (h : ¬ (ready last ∧ old <+: c :: s)) :
    rewrite ready old new 0 last (c :: s) = c :: rewrite ready old new 0 (some c) s := by
  rw [rewrite, if_neg]
  simpa using h

/-- Texts are gone through by steps: over an old text that is rewritten, or else over one character. -/
theorem rewrite_induction (ready : Option Char → Bool) {motive : Option Char → List Char → Prop} (hold : old ≠ [])
    (nil : ∀ last, motive last [])
    (hit : ∀ last s, ready last → motive old.getLast? s → motive last (old ++ s))
    (miss : ∀ last c s, ¬ (ready last ∧ old <+: c :: s) → motive (some c) s → motive last (c :: s))
    (last : Option Char) (s : List Char) : motive last s := by
  induction hlength : s.length using Nat.strong_induction_on generalizing last s with
  | _ n ih =>
    cases s with
    | nil => exact nil last
    | cons c s =>
      by_cases hhit : ready last ∧ old <+: c :: s
      · obtain ⟨hready, rest, hrest⟩ := hhit
        have hshorter : rest.length < n := by
          have hlengths := congrArg List.length hrest
          have hpositive := List.length_pos_iff.mpr hold
          rw [List.length_append] at hlengths
          omega
        rw [← hrest]
        exact hit last rest hready (ih _ hshorter _ _ rfl)
      · exact miss last c s hhit (ih _ (by simp [← hlength]) _ _ rfl)

theorem occurs_cons_iff :
    Occurs ready old last (c :: s) ↔ (ready last ∧ old <+: c :: s) ∨ Occurs ready old (some c) s := by
  constructor
  · rintro ⟨front, back, hsplit, hready⟩
    cases front with
    | nil => exact .inl ⟨hready, back, hsplit.symm⟩
    | cons d front =>
      obtain ⟨rfl, rfl⟩ := List.cons.inj hsplit
      refine .inr ⟨front, back, rfl, ?_⟩
      rw [List.getLast?_cons] at hready
      cases hlast : front.getLast? <;> rw [hlast] at hready <;> exact hready
  · rintro (⟨hready, back, hback⟩ | ⟨front, back, rfl, hready⟩)
    · exact ⟨[], back, hback.symm, hready⟩
    · refine ⟨c :: front, back, rfl, ?_⟩
      rw [List.getLast?_cons]
      cases hlast : front.getLast? <;> rw [hlast] at hready <;> exact hready

theorem length_rewrite_le (ready : Option Char → Bool) (hold : old ≠ []) (hshort : new.length ≤ old.length)
    (last : Option Char) (s : List Char) :
    (rewrite ready old new 0 last s).length ≤ s.length := by
  induction last, s using rewrite_induction ready hold with
  | nil => exact Nat.le_refl 0
  | hit last s hready ih =>
    rw [rewrite_hit hold hready, List.length_append, List.length_append]
    omega
  | miss last c s hmiss ih =>
    rw [rewrite_miss hmiss, List.length_cons, List.length_cons]
    omega

theorem rewrite_of_not_occurs (h : ¬ Occurs ready old last s) :
    rewrite ready old new 0 last s = s := by
  induction s generalizing last with
  | nil => rfl
  | cons c s ih =>
    obtain ⟨hmiss, hrest⟩ := not_or.mp (occurs_cons_iff.not.mp h)
    rw [rewrite_miss hmiss, ih hrest]

theorem length_rewrite_lt (hold : old ≠ []) (hshort : new.length < old.length) (h : Occurs ready old last s) :
    (rewrite ready old new 0 last s).length < s.length := by
  induction last, s using rewrite_induction ready hold with
  | nil last =>
    obtain ⟨front, back, hsplit, -⟩ := h
    exact absurd (List.append_eq_nil_iff.mp (List.append_eq_nil_iff.mp hsplit.symm).2).1 hold
  | hit last s hready ih =>
    have hle := length_rewrite_le ready hold hshort.le old.getLast? s
    rw [rewrite_hit hold hready, List.length_append, List.length_append]
    omega
  | miss last c s hmiss ih =>
    have hlater := ih ((occurs_cons_iff.mp h).resolve_left hmiss)
    rw [rewrite_miss hmiss, List.length_cons, List.length_cons]
    omega

/-- A shorter text leaves nothing as it is in which the old one occurs. -/
theorem rewrite_eq_self_iff (hold : old ≠ []) (hshort : new.length < old.length) :
    rewrite ready old new 0 last s = s ↔ ¬ Occurs ready old last s := by
  refine ⟨fun h hoccurs => ?_, rewrite_of_not_occurs⟩
  have hlength := length_rewrite_lt hold hshort hoccurs
  rw [h] at hlength
  exact Nat.lt_irrefl _ hlength

theorem rewrite_shrinks (hold : old ≠ []) (hshort : new.length < old.length) (last : Option Char) (s : List Char) :
    rewrite ready old new 0 last s = s ∨ (rewrite ready old new 0 last s).length < s.length :=
  (Classical.em (Occurs ready old last s)).symm.imp (rewrite_of_not_occurs) (length_rewrite_lt hold hshort)

theorem mem_of_mem_rewrite (hold : old ≠ []) (h : c ∈ rewrite ready old new 0 last s) : c ∈ s ∨ c ∈ new := by
  induction last, s using rewrite_induction ready hold with
  | nil => contradiction
  | hit last s hready ih =>
    rw [rewrite_hit hold hready] at h
    rcases List.mem_append.mp h with hnew | hrest
    · exact .inr hnew
    · exact (ih hrest).imp_left (List.mem_append_right old)
  | miss last d s hmiss ih =>
    rw [rewrite_miss hmiss] at h
    rcases List.mem_cons.mp h with rfl | hrest
    · exact .inl List.mem_cons_self
    · exact (ih hrest).imp_left (List.mem_cons_of_mem d)

theorem prefix_of_prefix_append_cons (hm : m ∉ old) (h : old <+: s ++ m :: r) : old <+: s := by
  rcases List.prefix_or_prefix_of_prefix h (List.prefix_append s (m :: r)) with hprefix | ⟨rest, rfl⟩
  · exact hprefix
  · cases rest with
    | nil => rw [List.append_nil]
    | cons d rest =>
      obtain ⟨rfl, -⟩ := List.cons_prefix_cons.mp ((List.prefix_append_right_inj s).mp h)
      exact absurd (List.mem_append_right s List.mem_cons_self) hm

theorem rewrite_append_cons (hold : old ≠ []) (hm : m ∉ old) (last : Option Char) (s r : List Char) :
    rewrite ready old new 0 last (s ++ m :: r) =
      rewrite ready old new 0 last s ++ m :: rewrite ready old new 0 (some m) r := by
  induction last, s using rewrite_induction ready hold with
  | nil last =>
    refine rewrite_miss fun ⟨_, hprefix⟩ => hold ?_
    exact List.prefix_nil.mp (prefix_of_prefix_append_cons hm (s := []) hprefix)
  | hit last s hready ih =>
    rw [List.append_assoc, rewrite_hit hold hready, rewrite_hit hold hready, ih, List.append_assoc]
  | miss last c s hmiss ih =>
    have hmiss' : ¬ (ready last ∧ old <+: c :: (s ++ m :: r)) := fun ⟨hready, hprefix⟩ =>
      hmiss ⟨hready, prefix_of_prefix_append_cons hm hprefix⟩
    rw [List.cons_append, rewrite_miss hmiss', rewrite_miss hmiss, ih, List.cons_append]

/-! ### Everywhere in a text -/

theorem toList_replaceAll (s old new : String) :
    (replaceAll s old new).toList = rewrite (fun _ => true) old.toList new.toList 0 none s.toList := by
  unfold replaceAll replace
  rw [String.toList_ofList, replaceFrom_eq_rewrite _ _ _ none]

theorem occurs_iff_isInfix {old s : List Char} : Occurs (fun _ => true) old none s ↔ old <:+: s := by
  constructor
  · rintro ⟨front, back, rfl, -⟩
    exact ⟨front, back, List.append_assoc ..⟩
  · rintro ⟨front, back, rfl⟩
    exact ⟨front, back, List.append_assoc .., rfl⟩

theorem replaceAll_of_not_contains {s old : String} (h : contains s old = false) (new : String) :
    replaceAll s old new = s := by
  have hnone : ¬ Occurs (fun _ => true) old.toList none s.toList := by
    rw [occurs_iff_isInfix, ← occursIn_iff, Bool.not_eq_true]
    exact h
  rw [← String.toList_inj, toList_replaceAll, rewrite_of_not_occurs hnone]

end SchemaScript.Text
