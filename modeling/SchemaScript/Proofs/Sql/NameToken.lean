import SchemaScript.Proofs.Sql.Writing

/-!
# Names and references that are read back

A name is one word: a bare one, folded to lower case and not reserved, or what stands between quotes (`nameToken?`).
As it is written, a name is read back and nothing is left, unless it is a bare word with a line break behind it
(`nameToken?_quoteName`). References to different objects are written differently, whatever characters their names
are made of (`qualified_eq_iff`).
-/

namespace SchemaScript.Sql

/-! ## One word that is a name -/

/-- The name at the front of a text, and what follows it. -/
def nameToken? : List Char → Option (String × List Char)
  | [] => none
  | '"' :: r => (quotedInside r).map fun found => (String.ofList found.1, found.2)
  | c :: r =>
    let word := String.ofList (((c :: r).takeWhile isNameContinue).map Char.toLower)
    if isNameStart c && isColumnName word then some (word, (c :: r).dropWhile isNameContinue) else none

/-- The name is a bare word, but for the line break at its end. -/
def BreaksBehind (name : String) (word : List Char) : Prop :=
  IsBareWord word ∧ name.toList = word ++ ['\n']

section

variable {name : String} {word s rest : List Char}

theorem not_isReserved_of_break (h : name.toList = word ++ ['\n']) : isReserved name = false := by
  have hlines : ∀ w ∈ reservedWords, '\n' ∉ w.toList := by decide +kernel
  rw [← Bool.not_eq_true]
  intro hreserved
  have hmem : name ∈ reservedWords := by simpa [isReserved] using hreserved
  exact hlines name hmem (by simp [h])

namespace IsBareWord

theorem map_toLower (h : IsBareWord word) : word.map Char.toLower = word :=
  (List.map_congr_left fun c hc => (isBareContinue_facts (h.isBareContinue c hc)).2.1).trans (List.map_id _)

/-- A bare word is read up to where it ends, if it may name something. -/
theorem nameToken?_append (h : IsBareWord word) (hrest : rest.head?.all fun d => !isNameContinue d) :
    nameToken? (word ++ rest) =
      if isColumnName (String.ofList word) then some (String.ofList word, rest) else none := by
  have hall : ∀ c ∈ word, isNameContinue c := fun c hc => (isBareContinue_facts (h.isBareContinue c hc)).1
  have hstop : rest.takeWhile isNameContinue = [] ∧ rest.dropWhile isNameContinue = rest := by
    rcases rest with _ | ⟨d, rest⟩
    · exact ⟨rfl, rfl⟩
    · have hd : isNameContinue d = false := by simpa using hrest
      exact ⟨List.takeWhile_cons_of_neg (by simp [hd]), List.dropWhile_cons_of_neg (by simp [hd])⟩
  have htake : (word ++ rest).takeWhile isNameContinue = word := by
    rw [List.takeWhile_append_of_pos hall, hstop.1, List.append_nil]
  have hdrop : (word ++ rest).dropWhile isNameContinue = rest := by
    rw [List.dropWhile_append_of_pos hall, hstop.2]
  obtain ⟨c, r, rfl⟩ := List.exists_cons_of_ne_nil (l := word) (by rintro rfl; simp [IsBareWord] at h)
  have hc : isBareStart c := by simpa using h.1
  have hquote : c ≠ '"' := ne_of_isBareStart hc rfl
  have hstart : isNameStart c := (isBareContinue_facts (h.isBareContinue c List.mem_cons_self)).2.2 hc
  rw [List.cons_append] at htake hdrop ⊢
  unfold nameToken?
  split
  · contradiction
  · next heq => exact absurd (List.cons.inj heq).1 hquote
  · next heq =>
    obtain ⟨rfl, rfl⟩ := List.cons.inj heq
    simp only [htake, hdrop, hstart, Bool.true_and, h.map_toLower]

end IsBareWord

theorem nameToken?_quoted (hrest : rest.head? ≠ some '"') (name : String) :
    nameToken? ((quoted name).toList ++ rest) = some (name, rest) := by
  have htext : (quoted name).toList ++ rest = '"' :: (doubleQuotes name.toList ++ '"' :: rest) := by
    simp [quoted]
  rw [htext, nameToken?, quotedInside_doubleQuotes hrest, Option.map_some, String.ofList_toList]

/-- As one word of a text, the scanner takes the same name, cut to its first bytes. -/
theorem nextWord_of_nameToken? (hname : name ≠ "") (h : nameToken? s = some (name, [])) :
    nextWord s = .word (.word (clipName name.toList)) [] ∨
      nextWord s = .word (.quotedName (clipName name.toList)) [] := by
  unfold nameToken? at h
  split at h
  · contradiction
  · next r =>
    right
    obtain ⟨⟨inner, left⟩, hinside, heq⟩ := Option.map_eq_some_iff.mp h
    obtain ⟨rfl, rfl⟩ := Prod.mk.inj heq
    rw [nextWord, letteredWord?_other (by decide), Option.getD_none, plainWord, quotedWord, hinside]
    rcases inner with _ | ⟨c, inner⟩
    · exact absurd rfl hname
    · simp
  · next c r hquote =>
    left
    dsimp only at h
    split at h
    · next hallowed =>
      obtain ⟨rfl, hrest⟩ := Prod.mk.inj (Option.some.inj h)
      have hstart := (Bool.and_eq_true_iff.mp hallowed).1
      have hlettered : letteredWord? (c :: r) = none := by
        rcases r with _ | ⟨e, r⟩
        · rfl
        · have he : isNameContinue e := by
            refine List.dropWhile_eq_nil_iff.mp hrest e (by simp)
          refine letteredWord?_name ?_ ?_ <;> (rintro rfl; revert he; decide)
      rw [nextWord, hlettered, Option.getD_none, plainWord_nameStart hstart, bareName, hrest, String.toList_ofList]
    · contradiction

/-- As it is written, a name is read back and nothing is left, and the scanner takes it as it takes any name. Only
from a bare word with a line break behind it the break is left, and the word is another name, or none. -/
theorem nameToken?_quoteName (h : name ≠ "") :
    (nameToken? (quoteName name).toList = some (name, []) ↔ ¬ ∃ word, BreaksBehind name word) ∧
    (∀ word, BreaksBehind name word → nameToken? (quoteName name).toList =
      if isColumnName (String.ofList word) then some (String.ofList word, ['\n']) else none) ∧
    ((¬ ∃ word, BreaksBehind name word) →
      nextWord (quoteName name).toList = .word (.word (clipName name.toList)) [] ∨
        nextWord (quoteName name).toList = .word (.quotedName (clipName name.toList)) []) := by
  have hbroken : ∀ word, BreaksBehind name word → nameToken? (quoteName name).toList =
      if isColumnName (String.ofList word) then some (String.ofList word, ['\n']) else none := by
    rintro word ⟨hword, hname⟩
    have hbare : isBare name.toList := isBare_iff.mpr (.inr ⟨word, hword, hname⟩)
    have hquotes : needsQuotes name = false := by simp [needsQuotes, lower_of_isBare hbare, not_isReserved_of_break hname, hbare]
    rw [quoteName, hquotes, if_neg (by simp), hname]
    exact hword.nameToken?_append rfl
  have hread : (¬ ∃ word, BreaksBehind name word) → nameToken? (quoteName name).toList = some (name, []) := by
    intro hwhole
    by_cases hquotes : needsQuotes name
    · rw [quoteName, if_pos hquotes]
      have hend : ([] : List Char).head? ≠ some '"' := by simp
      simpa using nameToken?_quoted hend name
    · obtain ⟨hreserved, hbare⟩ := isReserved_of_not_needsQuotes h (eq_false_of_ne_true hquotes)
      have hword : IsBareWord name.toList := (isBare_iff.mp hbare).resolve_right hwhole
      have hallowed := isColumnName_of_not_isReserved name hreserved
      rw [quoteName, if_neg hquotes]
      have hend : ([] : List Char).head?.all fun d => !isNameContinue d := rfl
      simpa [hallowed] using hword.nameToken?_append hend
  refine ⟨⟨?_, hread⟩, hbroken, fun hwhole => nextWord_of_nameToken? h (hread hwhole)⟩
  rintro hback ⟨word, hbreak⟩
  rw [hbroken word hbreak] at hback
  split at hback
  · simpa using Option.some.inj hback
  · contradiction

/-- This name is written bare, and the break is left over. -/
theorem orders_break_left : "orders\n" ≠ "" ∧ BreaksBehind "orders\n" "orders".toList ∧
    nameToken? (quoteName "orders\n").toList = some ("orders", ['\n']) ∧
    nameToken? (quoteName "orders\n").toList ≠ some ("orders\n", []) := by
  have hbreak : BreaksBehind "orders\n" "orders".toList := ⟨⟨by decide, by decide⟩, by decide⟩
  obtain ⟨hiff, hleft, -⟩ := nameToken?_quoteName (show "orders\n" ≠ "" by decide)
  exact ⟨by decide, hbreak, (hleft _ hbreak).trans (if_pos (by decide +kernel)), fun h => hiff.mp h ⟨_, hbreak⟩⟩

end

/-! ## References -/

section

variable {schema schema' name name' : String} {target : Option String}

theorem quoteName_inj (h : quoteName name = quoteName name') : name = name' := by
  refine (quoteName_append_inj (d := '.') (r := []) (s := []) (by decide) ?_).1
  rw [h]

/-- A name by itself is not written like a name with its schema in front. -/
theorem quoteName_ne_pointed (hschema : schema ≠ "") (name : String) (rest : List Char) :
    (quoteName name).toList ≠ (quoteName schema).toList ++ '.' :: rest := by
  intro h
  have hpoint : '.' ∈ (quoteName name).toList := by simp [h]
  by_cases hname : name = ""
  · subst hname
    exact absurd hpoint (by decide)
  · rcases quoteName_cases hname with ⟨htext, hbare⟩ | htext
    · rw [htext] at hpoint
      exact not_mem_of_isBare (by decide) hbare hpoint
    · rcases quoteName_cases hschema with ⟨htext', hbare⟩ | htext'
      · obtain ⟨c, r, hfront, hc⟩ : ∃ c r, schema.toList = c :: r ∧ isBareStart c := by
          rcases hlist : schema.toList with _ | ⟨c, r⟩
          · simp [hlist, isBare] at hbare
          · rw [hlist] at hbare
            exact ⟨c, r, rfl, (Bool.and_eq_true_iff.mp hbare).1⟩
        rw [htext, htext', hfront] at h
        exact ne_of_isBareStart hc rfl (List.cons.inj h).1.symm
      · -- both are read up to their closing quotes, and behind only one of them a point is left
        rw [htext, htext', List.cons_append, List.cons.injEq, List.append_assoc, List.singleton_append] at h
        have hend : ([] : List Char).head? ≠ some '"' := by simp
        have hpoint : ('.' :: rest).head? ≠ some '"' := by simp
        have hname := quotedInside_doubleQuotes hend name.toList
        rw [h.2, quotedInside_doubleQuotes hpoint] at hname
        simpa using Option.some.inj hname

theorem qualified_eq (h : schema ≠ "") : qualified (some schema) (some name) target =
    if some schema = target then quoteName name else quoteName schema ++ "." ++ quoteName name := by
  have hgiven : Text.given (some schema) = some schema := Text.given_eq_some_iff.mpr ⟨rfl, h⟩
  rw [qualified, qualified?, hgiven]
  by_cases htarget : some schema = target <;> simp [htarget, nameText]

/-- For one target, two references are written alike only if they are to one object of one schema. -/
theorem qualified_eq_iff (h : schema ≠ "") (h' : schema' ≠ "") :
    qualified (some schema) (some name) target = qualified (some schema') (some name') target ↔
      schema = schema' ∧ name = name' := by
  constructor
  · intro heq
    rw [qualified_eq h, qualified_eq h'] at heq
    by_cases hhere : some schema = target <;> by_cases hhere' : some schema' = target
    · rw [if_pos hhere, if_pos hhere'] at heq
      exact ⟨Option.some.inj (hhere.trans hhere'.symm), quoteName_inj heq⟩
    · rw [if_pos hhere, if_neg hhere'] at heq
      refine absurd (congrArg String.toList heq) ?_
      simpa using quoteName_ne_pointed h' name (quoteName name').toList
    · rw [if_neg hhere, if_pos hhere'] at heq
      refine absurd (congrArg String.toList heq).symm ?_
      simpa using quoteName_ne_pointed h name' (quoteName name).toList
    · rw [if_neg hhere, if_neg hhere'] at heq
      have hlists := congrArg String.toList heq
      simp only [String.toList_append, List.append_assoc] at hlists
      obtain ⟨hschemas, hnames⟩ := quoteName_append_inj (d := '.') (by decide) hlists
      exact ⟨hschemas, quoteName_inj (String.toList_injective hnames)⟩
  · rintro ⟨rfl, rfl⟩
    rfl

/-- A name that looks like the reference to another object once it stands between quotes. -/
theorem disguised_qualified : "A" ≠ "" ∧ "s" ≠ "" ∧
    qualified (some "A") (some "B") (some "s") = "\"A\".\"B\"" ∧
    qualified (some "s") (some "A\".\"B") (some "s") = "\"A\"\".\"\"B\"" ∧
    qualified (some "A") (some "B") (some "s") ≠ qualified (some "s") (some "A\".\"B") (some "s") := by
  refine ⟨by decide, by decide, by decide +kernel, by decide +kernel, fun heq => ?_⟩
  exact absurd ((qualified_eq_iff (by decide) (by decide)).mp heq).1 (by decide)

end

end SchemaScript.Sql
