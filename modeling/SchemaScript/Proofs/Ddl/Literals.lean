import SchemaScript.Ddl.Reference
import SchemaScript.Proofs.Ddl.Parentheses
import SchemaScript.Proofs.Text.Basic

/-!
# Literals of a text

What stands between single quotes (`literals`). A rewriting that knows of no quotes treats every literal by itself as it
treats a whole text (`Blind.literals_eq`). So the short form of an expression keeps the literals that hold neither a
cast to text nor an operator between blanks, and no others (`literals_indexExpression_iff`).
-/

namespace SchemaScript.Ddl

/-! ## Quotes -/

/-- The quotes behind a whole text. -/
def Quoting.after (q : Quoting) (s : List Char) : Quoting :=
  s.foldl Quoting.behind q

def IsMark (c : Char) : Prop :=
  c = '\'' ∨ c = '"'

/-- The text has no quotes of either kind. -/
def IsPlain (s : List Char) : Prop :=
  ∀ c ∈ s, ¬ IsMark c

variable {q : Quoting} {s t w : List Char} {c m : Char} {items items' : List (List Char)}

theorem Quoting.after_append (q : Quoting) (s t : List Char) : q.after (s ++ t) = (q.after s).after t :=
  List.foldl_append

theorem Quoting.behind_of_not_mark (h : ¬ IsMark c) (q : Quoting) : q.behind c = q := by
  obtain ⟨hsingle, hdouble⟩ := not_or.mp h
  cases q <;> simp [Quoting.behind, hsingle, hdouble]

theorem Quoting.after_of_isPlain (h : IsPlain w) (q : Quoting) : q.after w = q := by
  induction w with
  | nil => rfl
  | cons c w ih =>
    show Quoting.after (q.behind c) w = q
    rw [Quoting.behind_of_not_mark (h c List.mem_cons_self)]
    exact ih fun d hd => h d (List.mem_cons_of_mem c hd)

theorem isPlain_append_iff : IsPlain (s ++ t) ↔ IsPlain s ∧ IsPlain t :=
  List.forall_mem_append

theorem exists_first_mark (s : List Char) :
    IsPlain s ∨ ∃ w m r, s = w ++ m :: r ∧ IsPlain w ∧ IsMark m := by
  induction s with
  | nil => exact .inl fun c hc => by contradiction
  | cons c s ih =>
    by_cases hc : IsMark c
    · exact .inr ⟨[], c, s, rfl, fun d hd => by contradiction, hc⟩
    · rcases ih with hplain | ⟨w, m, r, rfl, hplain, hm⟩
      · exact .inl (List.forall_mem_cons.mpr ⟨hc, hplain⟩)
      · exact .inr ⟨c :: w, m, r, rfl, List.forall_mem_cons.mpr ⟨hc, hplain⟩, hm⟩

/-! ## Literals -/

/-- Puts a text before the first one of a list. -/
def prepend (w : List Char) : List (List Char) → List (List Char)
  | [] => [w]
  | item :: items => (w ++ item) :: items

/-- What stands between single quotes, in order. Quotes that are closed and opened again part what they stand in, and
quotes that are not closed reach up to the end. -/
def literals : Quoting → List Char → List (List Char)
  | .text, [] => [[]]
  | _, [] => []
  | .text, c :: r => if c = '\'' then [] :: literals .outside r else prepend [c] (literals .text r)
  | q, c :: r => literals (q.behind c) r

theorem prepend_prepend (w t : List Char) (items : List (List Char)) :
    prepend w (prepend t items) = prepend (w ++ t) items := by
  cases items <;> simp [prepend]

theorem exists_literals_text (s : List Char) : ∃ item items, literals .text s = item :: items := by
  cases s with
  | nil => exact ⟨[], [], rfl⟩
  | cons c s =>
    rw [literals]
    split
    · exact ⟨_, _, rfl⟩
    · cases literals .text s <;> exact ⟨_, _, rfl⟩

theorem literals_cons_of_ne (h : q ≠ .text) (c : Char) (s : List Char) :
    literals q (c :: s) = literals (q.behind c) s := by
  cases q <;> first | rfl | contradiction

theorem literals_nil_of_ne (h : q ≠ .text) : literals q [] = [] := by
  cases q <;> first | rfl | contradiction

theorem literals_plain_append (hw : IsPlain w) (s : List Char) :
    literals q (w ++ s) = if q = .text then prepend w (literals q s) else literals q s := by
  induction w with
  | nil =>
    split
    · next hq =>
      subst hq
      obtain ⟨item, items, hitems⟩ := exists_literals_text s
      rw [List.nil_append, hitems]
      rfl
    · rfl
  | cons c w ih =>
    have hc := hw c List.mem_cons_self
    have ih := ih fun d hd => hw d (List.mem_cons_of_mem c hd)
    by_cases hq : q = .text
    · subst hq
      rw [if_pos rfl] at ih ⊢
      rw [List.cons_append, literals, if_neg fun h => hc (.inl h), ih, prepend_prepend, List.singleton_append]
    · rw [if_neg hq] at ih ⊢
      rw [List.cons_append, literals_cons_of_ne hq, Quoting.behind_of_not_mark hc, ih]

theorem literals_of_isPlain (hw : IsPlain w) : literals q w = if q = .text then [w] else [] := by
  have h := literals_plain_append (q := q) hw []
  rw [List.append_nil] at h
  rw [h]
  split
  · next hq =>
    subst hq
    exact congrArg ([·]) (List.append_nil w)
  · next hq => exact literals_nil_of_ne hq

/-- What follows a text in which all literals are closed has its own literals. -/
theorem literals_append_of_closed (h : q.after s ≠ .text) (t : List Char) :
    literals q (s ++ t) = literals q s ++ literals (q.after s) t := by
  induction s generalizing q with
  | nil =>
    have hq : q ≠ .text := h
    rw [List.nil_append, literals_nil_of_ne hq]
    rfl
  | cons c s ih =>
    have ih := ih (q := q.behind c) h
    by_cases hq : q = .text
    · subst hq
      rw [List.cons_append, literals, literals]
      split
      · next hc =>
        subst hc
        exact congrArg ([] :: ·) ih
      · next hc =>
        have hbehind : Quoting.text.behind c = .text := by simp [Quoting.behind, hc]
        rw [hbehind] at ih
        obtain ⟨item, items, hitems⟩ := exists_literals_text s
        rw [ih, hitems]
        show _ = _ ++ literals (Quoting.after (Quoting.text.behind c) s) t
        rw [hbehind]
        rfl
    · rw [List.cons_append, literals_cons_of_ne hq, literals_cons_of_ne hq]
      exact ih

/-- A literal that is not closed goes on in the text that follows. -/
theorem exists_open_literal (h : q.after s = .text) : ∃ items item, literals q s = items ++ [item] ∧
    ∀ t, literals q (s ++ t) = items ++ prepend item (literals .text t) := by
  induction s generalizing q with
  | nil =>
    obtain rfl : q = .text := h
    refine ⟨[], [], rfl, fun t => ?_⟩
    obtain ⟨item, items, hitems⟩ := exists_literals_text t
    rw [List.nil_append, hitems]
    rfl
  | cons c s ih =>
    obtain ⟨items, item, hitems, hmore⟩ := ih (q := q.behind c) h
    by_cases hq : q = .text
    · subst hq
      by_cases hc : c = '\''
      · subst hc
        refine ⟨[] :: items, item, ?_, fun t => ?_⟩
        · rw [literals, if_pos rfl]
          exact congrArg ([] :: ·) hitems
        · rw [List.cons_append, literals, if_pos rfl]
          exact congrArg ([] :: ·) (hmore t)
      · have hbehind : Quoting.text.behind c = .text := by simp [Quoting.behind, hc]
        rw [hbehind] at hitems hmore
        cases items with
        | nil =>
          refine ⟨[], c :: item, ?_, fun t => ?_⟩
          · rw [literals, if_neg hc, hitems]
            rfl
          · rw [List.cons_append, literals, if_neg hc, hmore, List.nil_append, prepend_prepend]
            rfl
        | cons first items =>
          refine ⟨(c :: first) :: items, item, ?_, fun t => ?_⟩
          · rw [literals, if_neg hc, hitems]
            rfl
          · rw [List.cons_append, literals, if_neg hc, hmore]
            rfl
    · refine ⟨items, item, ?_, fun t => ?_⟩
      · rw [literals_cons_of_ne hq, hitems]
      · rw [List.cons_append, literals_cons_of_ne hq, hmore]

/-! ## Rewriting -/

/-- What is done to a text is done to each part between two quotes, and quotes stay. -/
structure Blind (f : List Char → List Char) : Prop where
  nil : f [] = []
  mark : ∀ s m r, IsMark m → f (s ++ m :: r) = f s ++ m :: f r
  plain : ∀ s, IsPlain s → IsPlain (f s)
  shrinks : ∀ s, f s = s ∨ (f s).length < s.length

namespace Blind

variable {f g : List Char → List Char}

theorem literals_eq (hf : Blind f) (q : Quoting) (s : List Char) : literals q (f s) = (literals q s).map f := by
  induction hlength : s.length using Nat.strong_induction_on generalizing q s with
  | _ n ih =>
    rcases exists_first_mark s with hplain | ⟨w, m, r, rfl, hplain, hm⟩
    · rw [literals_of_isPlain hplain, literals_of_isPlain (hf.plain s hplain)]
      split <;> rfl
    · have hshorter : r.length < n := by
        rw [← hlength, List.length_append, List.length_cons]
        omega
      rw [hf.mark w m r hm, literals_plain_append hplain, literals_plain_append (hf.plain w hplain)]
      by_cases hq : q = .text
      · subst hq
        rw [if_pos rfl, if_pos rfl, literals, literals]
        split
        · rw [ih _ hshorter _ _ rfl]
          simp [prepend]
        · obtain ⟨item, items, hitems⟩ := exists_literals_text r
          rw [ih _ hshorter _ _ rfl, hitems]
          simp [prepend, hf.mark w m item hm]
      · rw [if_neg hq, if_neg hq, literals_cons_of_ne hq, literals_cons_of_ne hq, ih _ hshorter _ _ rfl]

theorem after_eq (hf : Blind f) (q : Quoting) (s : List Char) : q.after (f s) = q.after s := by
  induction hlength : s.length using Nat.strong_induction_on generalizing q s with
  | _ n ih =>
    rcases exists_first_mark s with hplain | ⟨w, m, r, rfl, hplain, hm⟩
    · rw [Quoting.after_of_isPlain hplain, Quoting.after_of_isPlain (hf.plain s hplain)]
    · have hshorter : r.length < n := by
        rw [← hlength, List.length_append, List.length_cons]
        omega
      rw [hf.mark w m r hm, Quoting.after_append, Quoting.after_append, Quoting.after_of_isPlain hplain,
        Quoting.after_of_isPlain (hf.plain w hplain)]
      exact ih _ hshorter _ _ rfl

theorem comp (hg : Blind g) (hf : Blind f) : Blind (g ∘ f) where
  nil := by rw [Function.comp_apply, hf.nil, hg.nil]
  mark s m r hm := by
    simp only [Function.comp_apply]
    rw [hf.mark s m r hm, hg.mark _ m _ hm]
  plain s hs := hg.plain _ (hf.plain s hs)
  shrinks s := by
    simp only [Function.comp_apply]
    rcases hf.shrinks s with hsame | hless
    · rw [hsame]
      exact hg.shrinks s
    · rcases hg.shrinks (f s) with hsame' | hless'
      · exact .inr (by rwa [hsame'])
      · exact .inr (hless'.trans hless)

theorem comp_eq_self_iff (hg : Blind g) (hf : Blind f) (s : List Char) : g (f s) = s ↔ f s = s ∧ g s = s := by
  constructor
  · intro h
    rcases hf.shrinks s with hsame | hless
    · exact ⟨hsame, by rwa [hsame] at h⟩
    · have hlength := congrArg List.length h
      rcases hg.shrinks (f s) with hsame' | hless'
      · rw [hsame'] at hlength
        omega
      · omega
  · rintro ⟨hf, hg⟩
    rw [hf, hg]

end Blind

theorem map_eq_self_iff {f : List Char → List Char} : items.map f = items ↔ ∀ item ∈ items, f item = item := by
  induction items with
  | nil => simp
  | cons item items ih => simp [ih]

/-- Writing a shorter text is blind if neither text holds quotes and a quote may stand before the old one just as the
front of a text may. -/
theorem blind_rewrite {ready : Option Char → Bool} {old new : List Char} (hold : old ≠ [])
    (hshort : new.length < old.length) (hplain : IsPlain old) (hplain' : IsPlain new)
    (hready : ∀ m, IsMark m → ready (some m) = ready none) : Blind (Text.rewrite ready old new 0 none) where
  nil := rfl
  mark s m r hm := by
    rw [Text.rewrite_append_cons hold fun hmem => hplain m hmem hm]
    congr 2
    cases r with
    | nil => rfl
    | cons c r => rw [Text.rewrite, Text.rewrite, hready m hm]
  plain s hs c hc := (Text.mem_of_mem_rewrite hold hc).elim (hs c) (hplain' c)
  shrinks := Text.rewrite_shrinks hold hshort none

/-! ## Short forms -/

/-- The letters of the text with the second one written for the first one everywhere. -/
def replaced (old new : String) (s : List Char) : List Char :=
  Text.rewrite (fun _ => true) old.toList new.toList 0 none s

theorem blind_replaced {old new : String} (hshort : new.toList.length < old.toList.length)
    (hplain : IsPlain old.toList) (hplain' : IsPlain new.toList) : Blind (replaced old new) :=
  blind_rewrite (List.length_pos_iff.mp (by omega)) hshort hplain hplain' fun _ _ => rfl

theorem replaced_eq_self_iff {old new : String} (hshort : new.toList.length < old.toList.length) (s : List Char) :
    replaced old new s = s ↔ ¬ old.toList <:+: s := by
  unfold replaced
  rw [Text.rewrite_eq_self_iff (List.length_pos_iff.mp (by omega)) hshort, Text.occurs_iff_isInfix]

/-- The short form of an expression, letter by letter. -/
def short : List Char → List Char :=
  replaced " -> " "->" ∘ replaced " ->> " "->>" ∘ replaced "::text" ""

theorem toList_indexExpression (expression : String) :
    (indexExpression expression).toList = short expression.toList := by
  unfold indexExpression
  rw [Text.toList_replaceAll, Text.toList_replaceAll, Text.toList_replaceAll]
  rfl

/-- There is neither a cast to text in it nor an operator between blanks. -/
structure IsShort (s : List Char) : Prop where
  cast : ¬ "::text".toList <:+: s
  textOperator : ¬ " ->> ".toList <:+: s
  operator : ¬ " -> ".toList <:+: s

instance (c : Char) : Decidable (IsMark c) :=
  inferInstanceAs (Decidable (c = '\'' ∨ c = '"'))

instance (s : List Char) : Decidable (IsPlain s) :=
  List.decidableBAll (fun c => ¬ IsMark c) s

theorem blind_short : Blind short :=
  (blind_replaced (by decide) (by decide) (by decide)).comp
    ((blind_replaced (by decide) (by decide) (by decide)).comp
      (blind_replaced (by decide) (by decide) (by decide)))

theorem short_eq_self_iff (s : List Char) : short s = s ↔ IsShort s := by
  have hcast : Blind (replaced "::text" "") := blind_replaced (by decide) (by decide) (by decide)
  have htext : Blind (replaced " ->> " "->>") := blind_replaced (by decide) (by decide) (by decide)
  have hoperator : Blind (replaced " -> " "->") := blind_replaced (by decide) (by decide) (by decide)
  unfold short
  rw [Function.comp_apply, hoperator.comp_eq_self_iff (htext.comp hcast), Function.comp_apply,
    htext.comp_eq_self_iff hcast, replaced_eq_self_iff (by decide), replaced_eq_self_iff (by decide),
    replaced_eq_self_iff (by decide)]
  exact ⟨fun ⟨⟨h, h'⟩, h''⟩ => ⟨h, h', h''⟩, fun ⟨h, h', h''⟩ => ⟨⟨h, h'⟩, h''⟩⟩

/-- The short form of an expression has the same literals just if each of them is in short form. -/
theorem literals_indexExpression_iff (expression : String) :
    literals .outside (indexExpression expression).toList = literals .outside expression.toList ↔
      ∀ item ∈ literals .outside expression.toList, IsShort item := by
  rw [toList_indexExpression, blind_short.literals_eq, map_eq_self_iff]
  simp only [short_eq_self_iff]

end SchemaScript.Ddl
