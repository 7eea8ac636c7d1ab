import SchemaScript.Proofs.Sql.Reading
import Mathlib.Data.List.Infix

/-!
# Reading dollar quotes

What stands between dollar quotes ends at the first place where the delimiter occurs again. A delimiter
that does not occur in the body can still begin in it: where the body ends like a delimiter without its last dollar,
the dollar of the closing one makes it complete. This alone cuts a body short, unless the body holds every delimiter
there is (`reads_dollarQuoted_iff`).
-/

namespace SchemaScript.Sql

variable {body : String} {name s rest : List Char}

/-! ## The first occurrence of a delimiter -/

/-- The delimiter with a name. -/
def mark (name : List Char) : List Char :=
  '$' :: name ++ ['$']

theorem length_mark (name : List Char) : (mark name).length = ('$' :: name).length + 1 := by
  simp [mark]

/-- In front of a delimiter, a delimiter begins with a text only if it occurs there, or if the text
is all of it but the last dollar. -/
theorem mark_prefix_append_iff (hname : '$' ∉ name) (hs : s ≠ []) (rest : List Char) :
    mark name <+: s ++ (mark name ++ rest) ↔ mark name <+: s ∨ s = '$' :: name := by
  constructor
  · intro h
    have hs' : s <+: s ++ (mark name ++ rest) := List.prefix_append s _
    by_cases hlength : (mark name).length ≤ s.length
    · exact .inl (List.prefix_of_prefix_length_le h hs' hlength)
    · have hshort : s.length ≤ ('$' :: name).length := by
        rw [length_mark] at hlength
        omega
      obtain ⟨back, hback⟩ : s <+: '$' :: name :=
        List.prefix_of_prefix_length_le hs' ((List.prefix_append _ _).trans h) hshort
      -- behind the text stands the dollar of the delimiter, and the name has none
      have hnext : back ++ ['$'] <+: mark name ++ rest := by
        rw [← List.prefix_append_right_inj s, ← List.append_assoc, hback]
        exact h
      rcases back with _ | ⟨c, back⟩
      · exact .inr (by simpa using hback)
      · have hc : c = '$' := (List.cons_prefix_cons.mp hnext).1
        obtain ⟨d, s, rfl⟩ := List.exists_cons_of_ne_nil hs
        obtain ⟨-, rfl⟩ := List.cons.inj hback
        simp [hc] at hname
  · rintro (h | rfl)
    · exact h.trans (List.prefix_append s _)
    · exact ⟨name ++ '$' :: rest, by simp [mark]⟩

/-- A text ends where its delimiter is if the delimiter does not occur in it and it does not end like a
delimiter without its last dollar. -/
theorem splitFirst_mark_iff (hname : '$' ∉ name) (s rest : List Char) :
    splitFirst (mark name) (s ++ (mark name ++ rest)) = some (s, rest) ↔
      ¬ mark name <:+: s ∧ ¬ '$' :: name <:+ s := by
  induction s with
  | nil => simp [splitFirst, mark]
  | cons c s ih =>
    have hhere := mark_prefix_append_iff hname (List.cons_ne_nil c s) rest
    rw [List.cons_append] at hhere ⊢
    rw [splitFirst, List.infix_cons_iff, List.suffix_cons_iff]
    by_cases h : mark name <+: c :: (s ++ (mark name ++ rest))
    · rw [if_pos (List.isPrefixOf_iff_prefix.mpr h)]
      constructor
      · intro hfound
        cases hfound
      · rintro ⟨hoccurs, hends⟩
        rcases hhere.mp h with hbegins | heq
        · exact absurd (.inl hbegins) hoccurs
        · exact absurd (.inl heq.symm) hends
    · obtain ⟨hbegins, heq⟩ := not_or.mp (mt hhere.mpr h)
      rw [if_neg (mt List.isPrefixOf_iff_prefix.mp h), or_iff_right hbegins, or_iff_right (Ne.symm heq), ← ih,
        Option.map_eq_some_iff]
      constructor
      · rintro ⟨⟨front, back⟩, hfound, h⟩
        obtain ⟨rfl, rfl⟩ : front = s ∧ back = rest := by simpa using h
        exact hfound
      · exact fun hfound => ⟨(s, rest), hfound, rfl⟩

/-! ## The names of delimiters -/

/-- A name that may stand between the dollars of a delimiter; it may be empty. -/
def IsMarkName (name : List Char) : Prop :=
  name.head?.all isNameStart ∧ name.all fun c => isNameStart c || c.isDigit

theorem isDigit_of_isNameStart {c : Char} (h : isNameStart c) : c.isDigit = false := by
  rw [← Bool.not_eq_true]
  intro hdigit
  obtain ⟨hlow, hhigh⟩ : 48 ≤ c.toNat ∧ c.toNat ≤ 57 := by
    simpa [Char.isDigit, UInt32.le_iff_toNat_le] using hdigit
  obtain ⟨k, hk, rfl⟩ : ∃ k < 10, c = Char.ofNat (48 + k) := by
    refine ⟨c.toNat - 48, by omega, ?_⟩
    rw [Nat.add_sub_cancel' hlow, Char.ofNat_toNat]
  revert k
  decide

theorem IsMarkName.dollar_not_mem (h : IsMarkName name) : '$' ∉ name := by
  intro hmem
  exact absurd (List.all_eq_true.mp h.2 '$' hmem) (by decide)

theorem dollarTag?_mark (h : IsMarkName name) (rest : List Char) :
    dollarTag? (name ++ '$' :: rest) = some (name, rest) := by
  rcases name with _ | ⟨c, name⟩
  · rfl
  · have hc : isNameStart c := h.1
    have hall : ∀ d ∈ c :: name, isNameStart d || d.isDigit := List.all_eq_true.mp h.2
    have htag : (c :: name ++ '$' :: rest).takeWhile (fun d => isNameStart d || d.isDigit) = c :: name := by
      rw [List.takeWhile_append_of_pos hall, List.takeWhile_cons_of_neg (by decide), List.append_nil]
    have hhead : ((c :: name ++ '$' :: rest).head?.map isNameStart).getD false = true := hc
    unfold dollarTag?
    dsimp only
    rw [if_pos hhead, htag, List.drop_left]
    rfl

/-- Behind the first dollar no digit stands, so the word is no parameter. -/
theorem dollarWord_mark (h : IsMarkName name) (rest : List Char) :
    dollarWord (name ++ '$' :: rest) =
      match splitFirst (mark name) rest with
      | some (body, t) => .word (.text (String.ofList body)) t
      | none => .flawedWord .openDollarQuote ('$' :: (name ++ '$' :: rest)) [] := by
  have hdigits : (name ++ '$' :: rest).takeWhile Char.isDigit = [] := by
    rcases name with _ | ⟨c, name⟩
    · rfl
    · rw [List.cons_append, List.takeWhile_cons_of_neg (by simp [isDigit_of_isNameStart h.1])]
  rw [dollarWord, hdigits, dollarTag?_mark h]
  rfl

theorem nextWord_dollar (s : List Char) : nextWord ('$' :: s) = dollarWord s := by
  rw [nextWord, letteredWord?_other (by decide)]
  rfl

/-- A delimited text is read back if the text is found that ends where the delimiter is. -/
theorem nextWord_mark_iff (h : IsMarkName name) (s rest : List Char) :
    nextWord (mark name ++ (s ++ (mark name ++ rest))) = .word (.text (String.ofList s)) rest ↔
      splitFirst (mark name) (s ++ (mark name ++ rest)) = some (s, rest) := by
  have hopening : mark name ++ (s ++ (mark name ++ rest)) =
      '$' :: (name ++ '$' :: (s ++ (mark name ++ rest))) := by
    simp [mark]
  rw [hopening, nextWord_dollar, dollarWord_mark h]
  rcases splitFirst (mark name) (s ++ (mark name ++ rest)) with _ | ⟨found, t⟩
  · simp [Scanned.flawedWord]
  · simp only [Scanned.word.injEq, Token.text.injEq, String.ofList_inj, Option.some.injEq, Prod.mk.injEq]

/-! ## The delimiter of a body -/

theorem exists_markName_of_mem {d : String} (h : d ∈ namedDelimiters ++ numberedDelimiters) :
    ∃ name, d.toList = mark name ∧ IsMarkName name := by
  rcases List.mem_append.mp h with h | h
  · simp only [namedDelimiters, List.mem_cons, List.not_mem_nil, or_false] at h
    rcases h with rfl | rfl | rfl | rfl
    · exact ⟨"_".toList, by decide, by decide, by decide⟩
    · exact ⟨"procedure".toList, by decide, by decide, by decide⟩
    · exact ⟨"body".toList, by decide, by decide, by decide⟩
    · exact ⟨"pgdump".toList, by decide, by decide, by decide⟩
  · obtain ⟨i, -, rfl⟩ := List.mem_map.mp h
    refine ⟨"tag".toList ++ Text.digits (i + 1), by simp [mark, Text.writeNatural], rfl, ?_⟩
    rw [List.all_append, Bool.and_eq_true]
    constructor
    · decide
    · apply List.all_eq_true.mpr
      intro c hc
      rw [Bool.or_eq_true]
      exact .inr (Nat.isDigit_of_mem_toDigits (by decide) (by decide) hc)

/-- The delimiter has the form of one, whichever it is. -/
theorem exists_markName (body : String) : ∃ name, (delimiter body).toList = mark name ∧ IsMarkName name := by
  unfold delimiter
  split
  · exact ⟨[], by decide, by decide, by decide⟩
  · cases hfind : (namedDelimiters ++ numberedDelimiters).find? fun d => !Text.contains body d with
    | none => exact ⟨"fallback".toList, by decide, by decide, by decide⟩
    | some d => exact exists_markName_of_mem (List.mem_of_find?_eq_some hfind)

/-- The body rules out the empty delimiter, and holds every named and every numbered one. -/
def RulesOutAll (body : String) : Prop :=
  (Text.contains body "$$" ∨ mentionsParameter body.toList) ∧
    ∀ d ∈ namedDelimiters ++ numberedDelimiters, Text.contains body d

/-- Only the last delimiter can occur in the body. -/
theorem contains_delimiter_iff (body : String) :
    Text.contains body (delimiter body) ↔ RulesOutAll body ∧ Text.contains body lastDelimiter := by
  unfold delimiter RulesOutAll
  by_cases hempty : !Text.contains body "$$" && !mentionsParameter body.toList
  · rw [if_pos hempty]
    simp only [Bool.and_eq_true, Bool.not_eq_true'] at hempty
    simp [hempty]
  · rw [if_neg hempty]
    have hruled : Text.contains body "$$" ∨ mentionsParameter body.toList := by
      by_cases hdouble : Text.contains body "$$"
      · exact .inl hdouble
      · exact .inr (by simpa [hdouble] using hempty)
    cases hfind : (namedDelimiters ++ numberedDelimiters).find? fun d => !Text.contains body d with
    | none =>
      have hall : ∀ d ∈ namedDelimiters ++ numberedDelimiters, Text.contains body d := by
        simpa using List.find?_eq_none.mp hfind
      simp only [Option.getD_none]
      exact ⟨fun h => ⟨⟨hruled, hall⟩, h⟩, fun h => h.2⟩
    | some d =>
      have hfree : Text.contains body d = false := by simpa using List.find?_some hfind
      simp only [Option.getD_some, hfree, Bool.false_eq_true, false_iff]
      rintro ⟨⟨-, hall⟩, -⟩
      rw [hall d (List.mem_of_find?_eq_some hfind)] at hfree
      contradiction

/-! ## The quoted body -/

theorem toList_dollarQuoted (hname : (delimiter body).toList = mark name) (rest : List Char) :
    (dollarQuoted body).toList ++ rest = mark name ++ (body.toList ++ (mark name ++ rest)) := by
  simp [dollarQuoted, hname]

theorem dropLast_mark (name : List Char) : (mark name).dropLast = '$' :: name :=
  List.dropLast_concat

/-- A body that ends like its delimiter without the last dollar is cut off before that. -/
theorem reads_cut {cut : List Char} (hfree : ¬ Text.contains body (delimiter body))
    (hcut : body.toList = cut ++ (delimiter body).toList.dropLast) (rest : List Char) :
    nextWord ((dollarQuoted body).toList ++ rest) =
      .word (.text (String.ofList cut)) ((delimiter body).toList.tail ++ rest) := by
  obtain ⟨name, hmark, hname⟩ := exists_markName body
  rw [Text.contains, Text.occursIn_iff, hcut, hmark, dropLast_mark] at hfree
  have hread : splitFirst (mark name) (cut ++ (mark name ++ ((mark name).tail ++ rest))) =
      some (cut, (mark name).tail ++ rest) := by
    refine (splitFirst_mark_iff hname.dollar_not_mem cut _).mpr ⟨?_, ?_⟩
    · exact fun hoccurs => hfree (hoccurs.trans (List.prefix_append cut _).isInfix)
    · rintro ⟨front, rfl⟩
      exact hfree ⟨front, name, by simp [mark]⟩
  have htext : mark name ++ (body.toList ++ (mark name ++ rest)) =
      mark name ++ (cut ++ (mark name ++ ((mark name).tail ++ rest))) := by
    rw [hcut, hmark, dropLast_mark]
    simp [mark]
  rw [toList_dollarQuoted hmark, htext, hmark]
  exact (nextWord_mark_iff hname cut _).mpr hread

/-- A body between dollar quotes is read back whole, and what follows is left, unless every delimiter occurs in
the body or the body ends like its delimiter without the last dollar; then that end is cut off. -/
theorem reads_dollarQuoted_iff (body : String) (rest : List Char) :
    (nextWord ((dollarQuoted body).toList ++ rest) = .word (.text body) rest ↔
      ¬ (RulesOutAll body ∧ Text.contains body lastDelimiter) ∧
        ¬ (delimiter body).toList.dropLast <:+ body.toList) ∧
    ∀ cut, ¬ RulesOutAll body → body.toList = cut ++ (delimiter body).toList.dropLast →
      nextWord ((dollarQuoted body).toList ++ rest) =
        .word (.text (String.ofList cut)) ((delimiter body).toList.tail ++ rest) := by
  constructor
  · obtain ⟨name, hmark, hname⟩ := exists_markName body
    have hread := nextWord_mark_iff hname body.toList rest
    rw [String.ofList_toList, splitFirst_mark_iff hname.dollar_not_mem] at hread
    rw [toList_dollarQuoted hmark, hread, ← contains_delimiter_iff, Text.contains, Text.occursIn_iff, hmark,
      dropLast_mark]
  · intro cut hfree hcut
    exact reads_cut (fun hcontains => hfree ((contains_delimiter_iff body).mp hcontains).1) hcut rest

/-- No delimiter occurs in the comment at the end of this query, but its last character is a dollar. -/
theorem priceQuery_cut : ¬ RulesOutAll "select 5 -- in $" ∧
    nextWord ((dollarQuoted "select 5 -- in $").toList ++ [';']) =
      .word (.text "select 5 -- in ") ['$', ';'] ∧
    nextWord ((dollarQuoted "select 5 -- in $").toList ++ [';']) ≠ .word (.text "select 5 -- in $") [';'] := by
  have hfree : ¬ RulesOutAll "select 5 -- in $" := by
    rintro ⟨hruled, -⟩
    revert hruled
    decide
  obtain ⟨hread, hcut⟩ := reads_dollarQuoted_iff "select 5 -- in $" [';']
  refine ⟨hfree, hcut "select 5 -- in ".toList hfree (by decide), fun h => (hread.mp h).2 ?_⟩
  exact ⟨"select 5 -- in ".toList, by decide⟩

end SchemaScript.Sql
