import Mathlib.Data.List.Infix
import Mathlib.Data.List.TakeWhile
import SchemaScript.Ignore.Rules

/-!
# Brackets that open no class

A pattern matches the names that its atoms take apart (`accepts_iff`). Two rules say that a bracket of a pattern is
open: the check in front of the matcher refuses a pattern in which no bracket closes one that stands behind no backslash
(`isClosed_eq_false_iff`), and the matcher looks for the end of each class that it reads (`LeavesOpen`). What the check
refuses has an open bracket for the matcher as well, but not the other way round: a pattern with an open bracket that
passes the check matches itself alone only if nothing else in it means anything (`open_matches_itself_iff`).
-/

namespace SchemaScript.Ignore

variable {p : List Atom} {a : Atom} {s t r : List Char} {c : Char}

/-! ## What atoms accept -/

/-- The atoms take the text apart: a star takes any part, every other atom one character. -/
def Accepts : List Atom → List Char → Prop
  | [], s => s = []
  | .run :: p, s => ∃ part rest, s = part ++ rest ∧ Accepts p rest
  | a :: p, s => ∃ c rest, s = c :: rest ∧ a.accepts c ∧ Accepts p rest

theorem accepts_single_iff (h : a ≠ .run) :
    Accepts (a :: p) s ↔ ∃ c rest, s = c :: rest ∧ a.accepts c ∧ Accepts p rest := by
  cases a with
  | run => contradiction
  | one | char | oneOf => rfl

theorem accepts_run_cons_iff : Accepts (.run :: p) (c :: s) ↔ Accepts p (c :: s) ∨ Accepts (.run :: p) s := by
  constructor
  · rintro ⟨_ | ⟨d, part⟩, rest, heq, hrest⟩
    · exact .inl (heq ▸ hrest)
    · exact .inr ⟨part, rest, (List.cons.inj heq).2, hrest⟩
  · rintro (h | ⟨part, rest, rfl, hrest⟩)
    · exact ⟨[], c :: s, rfl, h⟩
    · exact ⟨c :: part, rest, rfl, hrest⟩

theorem verdicts_single (h : a ≠ .run) (p : List Atom) (s : List Char) :
    verdicts (a :: p) s = advance a s (verdicts p s) := by
  cases a with
  | run => contradiction
  | one | char | oneOf => rfl

theorem verdicts_nil (p : List Atom) : verdicts p [] = [accepts p []] := by
  unfold accepts
  induction p with
  | nil => rfl
  | cons a p ih =>
    by_cases hrun : a = .run
    · subst hrun
      rw [verdicts, ih]
      rfl
    · rw [verdicts_single hrun]
      rfl

/-- Behind the verdict on a text are those on its ends. -/
theorem verdicts_cons (p : List Atom) (c : Char) (s : List Char) :
    verdicts p (c :: s) = accepts p (c :: s) :: verdicts p s := by
  unfold accepts
  induction p generalizing c s with
  | nil => rfl
  | cons a p ih =>
    by_cases hrun : a = .run
    · subst hrun
      rw [verdicts, verdicts, ih]
      rfl
    · rw [verdicts_single hrun, verdicts_single hrun, ih]
      rfl

theorem accepts_run_nil (p : List Atom) : accepts (.run :: p) [] = accepts p [] := by
  rw [accepts, verdicts, verdicts_nil]
  exact Bool.or_false _

theorem accepts_run_cons (p : List Atom) (c : Char) (s : List Char) :
    accepts (.run :: p) (c :: s) = (accepts p (c :: s) || accepts (.run :: p) s) := by
  rw [accepts, verdicts, verdicts_cons]
  rfl

theorem accepts_single_nil (h : a ≠ .run) (p : List Atom) : accepts (a :: p) [] = false := by
  rw [accepts, verdicts_single h]
  rfl

theorem accepts_single_cons (h : a ≠ .run) (p : List Atom) (c : Char) (s : List Char) :
    accepts (a :: p) (c :: s) = (a.accepts c && accepts p s) := by
  rw [accepts, verdicts_single h, verdicts_cons]
  rfl

theorem accepts_iff (p : List Atom) (s : List Char) : accepts p s ↔ Accepts p s := by
  induction p generalizing s with
  | nil => cases s <;> simp [accepts, verdicts, Accepts]
  | cons a p ih =>
    by_cases hrun : a = .run
    · subst hrun
      induction s with
      | nil => simp [accepts_run_nil, ih, Accepts]
      | cons c s ihs => rw [accepts_run_cons, Bool.or_eq_true, ih, ihs, accepts_run_cons_iff]
    · rw [accepts_single_iff hrun]
      cases s with
      | nil => simp [accepts_single_nil hrun]
      | cons c s => simp [accepts_single_cons hrun, ih]

/-! ## Patterns that accept one text alone -/

/-- A star takes one character more. -/
theorem Accepts.exists_longer (h : Accepts p s) (hrun : .run ∈ p) : ∃ t, t.length = s.length + 1 ∧ Accepts p t := by
  induction p generalizing s with
  | nil => contradiction
  | cons a p ih =>
    by_cases ha : a = .run
    · subst ha
      obtain ⟨part, rest, rfl, hrest⟩ := h
      exact ⟨'a' :: part ++ rest, rfl, 'a' :: part, rest, rfl, hrest⟩
    · rw [accepts_single_iff ha] at h
      obtain ⟨c, rest, rfl, hc, hrest⟩ := h
      obtain ⟨t, hlength, ht⟩ := ih hrest ((List.mem_cons.mp hrun).resolve_left (Ne.symm ha))
      exact ⟨c :: t, congrArg (· + 1) hlength, (accepts_single_iff ha).mpr ⟨c, t, rfl, hc, ht⟩⟩

/-- A question mark takes another character. -/
theorem Accepts.exists_other (h : Accepts p s) (hone : .one ∈ p) : ∃ t, t ≠ s ∧ Accepts p t := by
  induction p generalizing s with
  | nil => contradiction
  | cons a p ih =>
    by_cases ha : a = .one
    · subst ha
      obtain ⟨c, rest, rfl, -, hrest⟩ := h
      obtain ⟨d, hd⟩ : ∃ d, d ≠ c := by
        by_cases hc : c = 'a'
        · exact ⟨'b', hc ▸ by decide⟩
        · exact ⟨'a', Ne.symm hc⟩
      exact ⟨d :: rest, fun heq => hd (List.cons.inj heq).1, d, rest, rfl, rfl, hrest⟩
    have hlater : .one ∈ p := (List.mem_cons.mp hone).resolve_left (Ne.symm ha)
    by_cases hrun : a = .run
    · subst hrun
      obtain ⟨part, rest, rfl, hrest⟩ := h
      obtain ⟨t, hne, ht⟩ := ih hrest hlater
      exact ⟨part ++ t, fun heq => hne (List.append_cancel_left heq), part, t, rfl, ht⟩
    · rw [accepts_single_iff hrun] at h
      obtain ⟨c, rest, rfl, hc, hrest⟩ := h
      obtain ⟨t, hne, ht⟩ := ih hrest hlater
      exact ⟨c :: t, fun heq => hne (List.cons.inj heq).2, (accepts_single_iff hrun).mpr ⟨c, t, rfl, hc, ht⟩⟩

theorem Accepts.length_eq (h : Accepts p s) (hrun : .run ∉ p) : s.length = p.length := by
  induction p generalizing s with
  | nil => exact congrArg List.length h
  | cons a p ih =>
    rw [List.mem_cons, not_or] at hrun
    obtain ⟨c, rest, rfl, -, hrest⟩ := (accepts_single_iff (Ne.symm hrun.1)).mp h
    exact congrArg (· + 1) (ih hrest hrun.2)

theorem accepts_chars_iff : Accepts (s.map .char) t ↔ t = s := by
  induction s generalizing t with
  | nil => rfl
  | cons c s ih =>
    rw [List.map_cons, accepts_single_iff (by simp)]
    constructor
    · rintro ⟨d, rest, rfl, hd, hrest⟩
      rw [ih.mp hrest, ← beq_iff_eq.mp (show (c == d) = true from hd)]
    · rintro rfl
      exact ⟨c, s, rfl, beq_self_eq_true c, ih.mpr rfl⟩

/-! ## Atoms of a pattern -/

/-- A class ends before the pattern does. -/
theorem ne_nil_of_classInside? {inside : List Char} (h : classInside? r = some inside) : r ≠ [] := by
  rintro rfl
  contradiction

theorem exists_classAtom (inside : List Char) : ∃ negated ranges, classAtom inside = .oneOf negated ranges := by
  unfold classAtom
  dsimp only
  split <;> exact ⟨_, _, rfl⟩

theorem length_atomsFrom_le (skip : Nat) (s : List Char) : (atomsFrom skip s).length ≤ s.length - skip := by
  fun_induction atomsFrom skip s <;> simp only [List.length_nil, List.length_cons] <;> omega

/-- An atom for a class stands for several characters of the pattern. -/
theorem length_atomsFrom_lt {skip : Nat} {negated : Bool} {ranges : List (Char × Char)}
    (h : .oneOf negated ranges ∈ atomsFrom skip s) : (atomsFrom skip s).length < s.length - skip := by
  fun_induction atomsFrom skip s with
  | case1 => contradiction
  | case2 skip c r ih => simpa using ih h
  | case5 r inside hinside =>
    have hle := length_atomsFrom_le (inside.length + 1) r
    have hr := List.length_pos_of_ne_nil (ne_nil_of_classInside? hinside)
    simp only [List.length_cons]
    omega
  | case3 r ih | case4 r ih | case6 r _ ih | case7 c r _ _ _ ih =>
    have hless := ih ((List.mem_cons.mp h).resolve_left nofun)
    simp only [List.length_cons]
    omega

/-- Where all atoms stand for characters, each character of the pattern stands for itself. -/
theorem atomsFrom_eq_map (h : ∀ a ∈ atomsFrom 0 s, ∃ c, a = .char c) : atomsFrom 0 s = s.map .char := by
  generalize hskip : 0 = skip at h ⊢
  fun_induction atomsFrom skip s with
  | case1 => rfl
  | case2 => contradiction
  | case3 | case4 =>
    obtain ⟨c, hc⟩ := h _ List.mem_cons_self
    contradiction
  | case5 r inside =>
    obtain ⟨c, hc⟩ := h _ List.mem_cons_self
    obtain ⟨negated, ranges, hclass⟩ := exists_classAtom inside
    exact absurd (hclass.symm.trans hc) nofun
  | case6 r _ ih | case7 c r _ _ _ ih =>
    rw [List.map_cons, ih rfl fun a ha => h a (List.mem_cons_of_mem _ ha)]

theorem accepts_itself_iff :
    (∀ t, Accepts (atomsFrom 0 s) t ↔ s = t) ↔ atomsFrom 0 s = s.map .char := by
  constructor
  · intro h
    have hself : Accepts (atomsFrom 0 s) s := (h s).mpr rfl
    have hrun : .run ∉ atomsFrom 0 s := by
      intro hmem
      obtain ⟨t, hlength, ht⟩ := hself.exists_longer hmem
      have hsame := congrArg List.length ((h t).mp ht)
      omega
    have hone : .one ∉ atomsFrom 0 s := by
      intro hmem
      obtain ⟨t, hne, ht⟩ := hself.exists_other hmem
      exact hne ((h t).mp ht).symm
    refine atomsFrom_eq_map fun a ha => ?_
    cases a with
    | run => exact absurd ha hrun
    | one => exact absurd ha hone
    | char c => exact ⟨c, rfl⟩
    | oneOf negated ranges =>
      have hlength := hself.length_eq hrun
      have hless := length_atomsFrom_lt ha
      omega
  · intro h t
    rw [h, accepts_chars_iff, eq_comm]

/-! ## Patterns that are refused -/

/-- What stands behind the text is escaped: the backslashes at its end are odd in number. -/
def isEscaped (before : List Char) : Bool :=
  (before.reverse.takeWhile (· == '\\')).length % 2 == 1

/-- Some bracket that is not escaped is closed nowhere behind it. -/
def HasBareBracket (s : List Char) : Prop :=
  ∃ before after, s = before ++ '[' :: after ∧ ']' ∉ after ∧ isEscaped before = false

/-- Only backslashes up to the end can reach the end. -/
theorem isEscaped_cons (c : Char) (s : List Char) :
    isEscaped (c :: s) = (isEscaped s != (c == '\\' && s.all (· == '\\'))) := by
  unfold isEscaped
  rw [List.reverse_cons, List.takeWhile_append, ← List.all_reverse]
  by_cases hall : s.reverse.all (· == '\\')
  · have hwhole : s.reverse.takeWhile (· == '\\') = s.reverse :=
      List.takeWhile_eq_self_iff.mpr (List.all_eq_true.mp hall)
    rw [hwhole, if_pos rfl, hall, Bool.and_true, List.length_append, List.takeWhile_cons, List.takeWhile_nil]
    by_cases hc : c == '\\'
    · rw [hc, if_pos rfl, List.length_singleton, Bool.eq_iff_iff]
      simp only [beq_iff_eq, bne_iff_ne, ne_eq]
      omega
    · simp [hc]
  · have hpart : (s.reverse.takeWhile (· == '\\')).length ≠ s.reverse.length := fun hlength =>
      hall (List.all_eq_true.mpr (List.takeWhile_eq_self_iff.mp ((List.takeWhile_prefix _).eq_of_length hlength)))
    rw [if_neg hpart, Bool.eq_false_iff.mpr hall, Bool.and_false, Bool.bne_false]

theorem isEscaped_cons_of_ne (hc : c ≠ '\\') (s : List Char) : isEscaped (c :: s) = isEscaped s := by
  rw [isEscaped_cons, beq_eq_false_iff_ne.mpr hc, Bool.false_and, Bool.bne_false]

theorem isEscaped_cons_of_mem {d : Char} (hmem : d ∈ s) (hd : d ≠ '\\') (c : Char) :
    isEscaped (c :: s) = isEscaped s := by
  have hother : s.all (· == '\\') = false := List.all_eq_false.mpr ⟨d, hmem, by simpa using hd⟩
  rw [isEscaped_cons, hother, Bool.and_false, Bool.bne_false]

/-- A backslash and what it escapes change nothing for what follows. -/
theorem isEscaped_pair (c : Char) (s : List Char) : isEscaped ('\\' :: c :: s) = isEscaped s := by
  rw [isEscaped_cons, isEscaped_cons, List.all_cons, beq_self_eq_true, Bool.true_and, Bool.bne_assoc, bne_self_eq_false,
    Bool.bne_false]

theorem not_hasBareBracket_nil : ¬ HasBareBracket [] := by
  rintro ⟨before, after, heq, -⟩
  exact absurd heq.symm (by simp)

/-- Behind one character a bracket is as it is alone, but for one that the character is or escapes. -/
theorem hasBareBracket_cons_iff (hsame : ∀ before after, s = before ++ '[' :: after → ']' ∉ after →
    isEscaped (c :: before) = isEscaped before) :
    HasBareBracket (c :: s) ↔ c = '[' ∧ ']' ∉ s ∨ HasBareBracket s := by
  constructor
  · rintro ⟨before, after, heq, hafter, hescaped⟩
    rcases before with _ | ⟨d, before⟩
    · obtain ⟨rfl, rfl⟩ := List.cons.inj heq
      exact .inl ⟨rfl, hafter⟩
    · obtain ⟨rfl, rfl⟩ := List.cons.inj heq
      exact .inr ⟨before, after, rfl, hafter, (hsame before after rfl hafter).symm.trans hescaped⟩
  · rintro (⟨rfl, hafter⟩ | ⟨before, after, rfl, hafter, hescaped⟩)
    · exact ⟨[], s, rfl, hafter, rfl⟩
    · exact ⟨c :: before, after, rfl, hafter, (hsame before after rfl hafter).trans hescaped⟩

theorem hasBareBracket_pair_iff : HasBareBracket ('\\' :: c :: s) ↔ HasBareBracket s := by
  constructor
  · rintro ⟨before, after, heq, hafter, hescaped⟩
    rcases before with _ | ⟨d, _ | ⟨e, before⟩⟩
    · exact absurd (List.cons.inj heq).1 (by decide)
    · rw [← (List.cons.inj heq).1] at hescaped
      contradiction
    · obtain ⟨hd, heq⟩ := List.cons.inj heq
      obtain ⟨he, rfl⟩ := List.cons.inj heq
      rw [← hd, isEscaped_pair] at hescaped
      exact ⟨before, after, rfl, hafter, hescaped⟩
  · rintro ⟨before, after, rfl, hafter, hescaped⟩
    exact ⟨'\\' :: c :: before, after, rfl, hafter, (isEscaped_pair c before).trans hescaped⟩

/-- The check refuses a pattern just where a bracket that is not escaped is closed nowhere, and behind a bracket that is
open also where nothing closes it. -/
theorem isClosed_eq_false_iff (inside : Bool) (s : List Char) :
    isClosed inside s = false ↔ inside ∧ ']' ∉ s ∨ HasBareBracket s := by
  fun_induction isClosed inside s with
  | case1 inside => simp [not_hasBareBracket_nil]
  | case2 c r ih =>
    rw [ih]
    by_cases hr : ']' ∈ r
    · -- a bracket that nothing closes stands behind the last closing one, which no backslash reaches over
      have hsame (before after : List Char) (heq : r = before ++ '[' :: after) (hafter : ']' ∉ after) :
          isEscaped (c :: before) = isEscaped before := by
        have hmem : ']' ∈ before := by
          rw [heq, List.mem_append, List.mem_cons] at hr
          simpa [hafter] using hr
        exact isEscaped_cons_of_mem hmem (by decide) c
      rw [hasBareBracket_cons_iff hsame]
      simp [hr]
    · by_cases hc : c = ']'
      · subst hc
        rw [hasBareBracket_cons_iff fun before _ _ _ => isEscaped_cons_of_ne (by decide) before]
        simp
      · simp [hr, hc, Ne.symm hc]
  | case3 c r ih => simpa [hasBareBracket_pair_iff] using ih
  | case4 c r hpair ih =>
    by_cases hc : c = '\\'
    · -- a backslash at the end escapes nothing
      obtain rfl : r = [] := by
        by_contra hne
        obtain ⟨d, t, rfl⟩ := List.exists_cons_of_ne_nil hne
        exact hpair d t hc rfl
      have hnone : ¬ HasBareBracket [c] := by
        rw [hasBareBracket_cons_iff fun before after heq _ => absurd heq (by simp)]
        simp [hc, not_hasBareBracket_nil]
      subst hc
      exact iff_of_false (by decide) (by simpa using hnone)
    · rw [ih, hasBareBracket_cons_iff fun before _ _ _ => isEscaped_cons_of_ne hc before]
      simp

/-! ## Patterns that the matcher leaves open -/

/-- Reading the pattern as the matcher does comes to a bracket that opens no class. -/
inductive LeavesOpen : List Char → Prop
  | opens {r : List Char} (unclosed : classInside? r = none) : LeavesOpen ('[' :: r)
  | behindClass {r inside : List Char} (closed : classInside? r = some inside)
      (later : LeavesOpen (r.drop (inside.length + 1))) : LeavesOpen ('[' :: r)
  | behindOther {c : Char} {r : List Char} (other : c ≠ '[') (later : LeavesOpen r) : LeavesOpen (c :: r)

/-- Behind the inside of a class stands the bracket that closes it. -/
theorem exists_of_classInside? {inside : List Char} (h : classInside? r = some inside) :
    ∃ rest, r = inside ++ ']' :: rest := by
  have hfirst {t : List Char} (ht : t.contains ']') : ∃ rest, t = t.takeWhile (· != ']') ++ ']' :: rest := by
    obtain ⟨before, rest, rfl, hbefore⟩ := List.eq_append_cons_of_mem (List.contains_iff_mem.mp ht)
    refine ⟨rest, ?_⟩
    have hother (c : Char) (hc : c ∈ before) : (c != ']') = true := by
      rw [bne_iff_ne]
      rintro rfl
      exact hbefore hc
    rw [List.takeWhile_append_of_pos hother, List.takeWhile_cons_of_neg (by simp), List.append_nil]
  unfold classInside? at h
  split at h
  next mark t hmark =>
  split at h
  next bracket u hbracket =>
  have hr : r = mark ++ t := by split at hmark <;> (cases hmark; rfl)
  have ht : t = bracket ++ u := by split at hbracket <;> (cases hbracket; rfl)
  rw [Option.ite_none_right_eq_some, Option.some.injEq] at h
  obtain ⟨hcloses, rfl⟩ := h
  obtain ⟨rest, hrest⟩ := hfirst hcloses
  exact ⟨rest, by rw [hr, ht, List.append_assoc, List.append_assoc, ← hrest]⟩

/-- A bracket that nothing closes is open for the matcher, whatever stands in front of it. -/
theorem leavesOpen_of_not_mem {after : List Char} (hafter : ']' ∉ after) (before : List Char) :
    LeavesOpen (before ++ '[' :: after) := by
  induction hn : before.length using Nat.strong_induction_on generalizing before with
  | _ n ih =>
  subst hn
  have hnone : ']' ∉ '[' :: after := by simpa using hafter
  rcases before with _ | ⟨c, before⟩
  · refine .opens (Option.eq_none_iff_forall_ne_some.mpr fun inside hinside => ?_)
    obtain ⟨rest, rfl⟩ := exists_of_classInside? hinside
    exact hafter (by simp)
  by_cases hc : c = '['
  · subst hc
    cases hclass : classInside? (before ++ '[' :: after) with
    | none => exact .opens hclass
    | some inside =>
      -- the class ends in front of the bracket, since behind it nothing could close it
      obtain ⟨rest, hrest⟩ := exists_of_classInside? hclass
      obtain ⟨between, rfl⟩ : ∃ between, before = inside ++ ']' :: between := by
        rcases List.append_eq_append_iff.mp hrest with ⟨more, -, heq⟩ | ⟨more, heq, hmore⟩
        · exact absurd (heq ▸ by simp) hnone
        · rcases more with _ | ⟨d, between⟩
          · exact absurd (List.cons.inj hmore).1 (by decide)
          · exact ⟨between, by rw [heq, ← (List.cons.inj hmore).1]⟩
      have hdrop : (inside ++ ']' :: between ++ '[' :: after).drop (inside.length + 1) = between ++ '[' :: after := by
        rw [List.append_assoc, ← List.drop_drop, List.drop_left]
        rfl
      have hlater : LeavesOpen (between ++ '[' :: after) := ih between.length (by simp; omega) between rfl
      rw [← hdrop] at hlater
      exact .behindClass hclass hlater
  · exact .behindOther hc (ih before.length (by simp) before rfl)

/-! ## What is matched -/

theorem matchesName_iff (pattern name : String) :
    matchesName pattern name ↔ HasBareBracket pattern.toList ∧ pattern = name ∨
      ¬ HasBareBracket pattern.toList ∧ Accepts (atoms pattern) name.toList := by
  have hrefused := isClosed_eq_false_iff false pattern.toList
  unfold matchesName
  cases hclosed : isClosed false pattern.toList with
  | false =>
    have hbare : HasBareBracket pattern.toList := by simpa using hrefused.mp hclosed
    simp [hbare]
  | true =>
    have hbare : ¬ HasBareBracket pattern.toList := fun hbare => by simp [hrefused.mpr (.inr hbare)] at hclosed
    simp [hbare, accepts_iff]

/-- The check refuses a pattern where nothing closes a bracket that is not escaped. Such a bracket is open for the
matcher as well, and the pattern is then compared as a text; any other pattern matches what its atoms take apart,
whether one of its brackets is open or not. So a pattern matches itself alone just if the check refuses it or each of
its characters stands for itself. -/
theorem open_matches_itself_iff (pattern : String) :
    (isClosed false pattern.toList = false ↔ HasBareBracket pattern.toList) ∧
    (HasBareBracket pattern.toList → LeavesOpen pattern.toList) ∧
    (∀ name, matchesName pattern name ↔ HasBareBracket pattern.toList ∧ pattern = name ∨
      ¬ HasBareBracket pattern.toList ∧ Accepts (atoms pattern) name.toList) ∧
    ((∀ name, matchesName pattern name ↔ pattern = name) ↔
      HasBareBracket pattern.toList ∨ atoms pattern = pattern.toList.map .char) := by
  refine ⟨by simpa using isClosed_eq_false_iff false pattern.toList, ?_, matchesName_iff pattern, ?_⟩
  · rintro ⟨before, after, heq, hafter, -⟩
    rw [heq]
    exact leavesOpen_of_not_mem hafter before
  by_cases hbare : HasBareBracket pattern.toList
  · simp [matchesName_iff, hbare]
  · have htexts : (∀ name, matchesName pattern name ↔ pattern = name) ↔
        ∀ t, Accepts (atoms pattern) t ↔ pattern.toList = t := by
      simp only [matchesName_iff, hbare, false_and, not_false_eq_true, true_and, false_or]
      constructor
      · intro h t
        rw [← String.toList_ofList (l := t), h, String.toList_inj]
      · intro h name
        rw [h, String.toList_inj]
    rw [htexts, or_iff_right hbare]
    exact accepts_itself_iff

theorem starred_brackets_match : LeavesOpen "[]*".toList ∧ matchesName "[]*" "[]x" ∧
    ¬ ∀ name, matchesName "[]*" name ↔ "[]*" = name := by
  have hopen : LeavesOpen "[]*".toList := .opens (by decide)
  have hbare : ¬ HasBareBracket "[]*".toList := fun hbare =>
    absurd ((open_matches_itself_iff "[]*").1.mpr hbare) (by decide)
  refine ⟨hopen, by decide, ?_⟩
  rw [(open_matches_itself_iff "[]*").2.2.2, not_or]
  exact ⟨hbare, by decide⟩

end SchemaScript.Ignore
