import SchemaScript.Proofs.Sql.Quoting
import SchemaScript.Sql.Grammar.Script
import SchemaScript.Sql.Scan

/-!
# Words of a text, and how they are read

The scanner finds the words of a text one after another, and a reader takes them in the same way.
-/

/-!
## Tokens of written text

`Scans s tokens` says which tokens a text is taken apart into, wherever it stands. A name that stands
bare is folded to lower case; one between quotes is taken as it is. Both are clipped to their first bytes.
-/

namespace SchemaScript.Sql

/-! ### Token by token -/

/-- Lexemes of these tokens; `places` tells where they stand and how they are written. -/
def lexemesAt (places : Nat → Nat × String) : List Token → List Lexeme
  | [] => []
  | token :: tokens =>
    ⟨token, (places 0).1, (places 0).2⟩ :: lexemesAt (fun i => places (i + 1)) tokens

theorem exists_lexemesAt (lexemes : List Lexeme) :
    ∃ places, lexemes = lexemesAt places (lexemes.map (·.token)) := by
  induction lexemes with
  | nil => exact ⟨fun _ => (0, ""), rfl⟩
  | cons l lexemes ih =>
    obtain ⟨places, hplaces⟩ := ih
    refine ⟨fun i => if i = 0 then (l.offset, l.source) else places (i - 1), ?_⟩
    rw [List.map_cons, lexemesAt]
    simp only [if_true, Nat.add_eq_zero_iff, Nat.one_ne_zero, and_false, if_false,
      Nat.add_sub_cancel]
    rw [← hplaces]

/-- The tokens of a text, whatever stands before it. -/
def Scans (s : List Char) (tokens : List Token) : Prop :=
  ∀ steps offset, tokens.length < steps → (scanFrom steps offset s).map (·.token) = tokens

theorem scans_nil {s t : List Char} (h : firstWord s = (t, none)) : Scans s [] := by
  intro steps offset hsteps
  obtain ⟨steps, rfl⟩ := Nat.exists_eq_add_one_of_ne_zero (Nat.ne_zero_of_lt hsteps)
  rw [scanFrom, h]
  rfl

theorem scans_cons {s t r : List Char} {token : Token} {tokens : List Token}
    (h : firstWord s = (t, some (.word token r))) (hr : Scans r tokens) :
    Scans s (token :: tokens) := by
  intro steps offset hsteps
  obtain ⟨steps, rfl⟩ := Nat.exists_eq_add_one_of_ne_zero (Nat.ne_zero_of_lt hsteps)
  rw [scanFrom, h]
  simp only [List.map_cons]
  rw [hr steps _ (Nat.lt_of_succ_lt_succ hsteps)]

/-- So many words from the front of a text, and what is left of it. -/
def frontWords : Nat → List Char → Option (List Token × List Char)
  | 0, s => some ([], s)
  | n + 1, s =>
    match firstWord s with
    | (_, some (.word token r)) => (frontWords n r).map fun found => (token :: found.1, found.2)
    | _ => none

theorem scans_frontWords {n : Nat} {s r : List Char} {front tokens : List Token}
    (h : frontWords n s = some (front, r)) (hr : Scans r tokens) : Scans s (front ++ tokens) := by
  induction n generalizing s front with
  | zero =>
    obtain ⟨rfl, rfl⟩ : [] = front ∧ s = r := by simpa [frontWords] using h
    exact hr
  | succ n ih =>
    rw [frontWords] at h
    split at h
    · next t token r' hword =>
      obtain ⟨found, hfound, h⟩ := Option.map_eq_some_iff.mp h
      obtain ⟨rfl, rfl⟩ := Prod.mk.inj h
      exact scans_cons hword (ih hfound)
    · contradiction

/-- A text without zero characters is scanned to its end. -/
theorem scan_of_scans {s : String} {tokens : List Token} (h : Scans s.toList tokens)
    (hzero : '\x00' ∉ s.toList) (hlength : tokens.length ≤ s.toList.length) :
    ∃ places, scan s = Lexeme.joinAll (lexemesAt places tokens) := by
  have hall : s.toList.takeWhile (· != '\x00') = s.toList := by
    have hne : ∀ c ∈ s.toList, (c != '\x00') = true := by
      intro c hc
      rw [bne_iff_ne]
      rintro rfl
      exact hzero hc
    rw [← List.append_nil s.toList, List.takeWhile_append_of_pos hne, List.takeWhile_nil]
  obtain ⟨places, hplaces⟩ := exists_lexemesAt (scanFrom (s.toList.length + 1) 0 s.toList)
  rw [h _ _ (Nat.lt_succ_of_le hlength)] at hplaces
  refine ⟨places, ?_⟩
  rw [scan, hall, ← hplaces]

/-! ### Names -/

/-- A name of letters, digits, underscores and dollars that begins like a name. -/
def IsName (name : List Char) : Prop :=
  name.head?.any isNameStart ∧ name.all isNameContinue

theorem IsName.not_mem {name : List Char} {c : Char} (h : IsName name)
    (hc : isNameContinue c = false) : c ∉ name := by
  intro hmem
  rw [List.all_eq_true.mp h.2 c hmem] at hc
  contradiction

theorem ne_of_isNameStart {c d : Char} (hc : isNameStart c) (hd : isNameStart d = false) :
    c ≠ d := by
  rintro rfl
  rw [hc] at hd
  contradiction

/-- After a blank, a word begins with a character that begins neither blank nor comment. -/
theorem firstWord_blank {c : Char} {r : List Char} (hspace : isSpace c = false) (hdash : c ≠ '-')
    (hslash : c ≠ '/') : firstWord (' ' :: c :: r) = (c :: r, some (nextWord (c :: r))) := by
  have hgap (steps : Nat) : skipGap (steps + 1) (c :: r) = c :: r := by
    unfold skipGap
    split <;> simp_all
  have hblank (steps : Nat) : skipGap (steps + 2) (' ' :: c :: r) = c :: r := by
    rw [skipGap, if_pos (by rfl), List.dropWhile_cons_of_neg (by simp [hspace]), hgap]
    all_goals simp
  rw [firstWord, List.length_cons, List.length_cons, hblank]
  split <;> simp_all

/-- The character ends a bare name, and what follows the name is not taken for the inside of it. -/
def isBreak (d : Char) : Bool :=
  !isNameContinue d && d != '"' && d != '\'' && d != '&'

theorem isBreak_iff {d : Char} :
    isBreak d ↔ isNameContinue d = false ∧ d ≠ '"' ∧ d ≠ '\'' ∧ d ≠ '&' := by
  simp [isBreak, and_assoc]

/-- The letter in front of a name is no mark of another kind of word. -/
theorem letteredWord?_name {c d : Char} {r : List Char} (hquote : d ≠ '\'') (hand : d ≠ '&') :
    letteredWord? (c :: d :: r) = none := by
  unfold letteredWord?
  split <;> simp_all

/-- Only these letters say how to read the text or name behind them. -/
theorem letteredWord?_other {c : Char} (h : c ∉ ['e', 'E', 'b', 'B', 'x', 'X', 'n', 'N', 'u', 'U']) (r : List Char) :
    letteredWord? (c :: r) = none := by
  simp only [List.mem_cons, List.not_mem_nil, or_false, not_or] at h
  unfold letteredWord?
  split
  · next heq =>
    obtain ⟨rfl, -⟩ := List.cons.inj heq
    simp [h]
  · next heq =>
    obtain ⟨rfl, -⟩ := List.cons.inj heq
    simp [h]
  · rfl

theorem plainWord_nameStart {c : Char} {r : List Char} (h : isNameStart c) :
    plainWord (c :: r) = bareName (c :: r) := by
  have hquote : c ≠ '\'' := ne_of_isNameStart h rfl
  have hquotes : c ≠ '"' := ne_of_isNameStart h rfl
  have hdollar : c ≠ '$' := ne_of_isNameStart h rfl
  have hcolon : c ≠ ':' := ne_of_isNameStart h rfl
  have hpoint : c ≠ '.' := ne_of_isNameStart h rfl
  unfold plainWord
  split <;> simp_all

theorem IsName.exists_cons {name : List Char} (h : IsName name) : ∃ c r, name = c :: r ∧ isNameStart c := by
  rcases name with _ | ⟨c, r⟩
  · simp [IsName] at h
  · exact ⟨c, r, rfl, by simpa using h.1⟩

theorem isSpace_of_isNameStart {c : Char} (h : isNameStart c) : isSpace c = false := by
  rw [← Bool.not_eq_true]
  intro hspace
  simp only [isSpace, Bool.or_eq_true, beq_iff_eq] at hspace
  rcases hspace with ((((rfl | rfl) | rfl) | rfl) | rfl) | rfl <;> revert h <;> decide

/-- A bare name, up to the character that ends it. -/
theorem nextWord_bareName {name : List Char} {d : Char} (h : IsName name) (hd : isBreak d) (rest : List Char) :
    nextWord (name ++ d :: rest) = .word (.word (clipName (name.map Char.toLower))) (d :: rest) := by
  obtain ⟨hend, -, hquote, hand⟩ := isBreak_iff.mp hd
  have hbare : bareName (name ++ d :: rest) =
      .word (.word (clipName (name.map Char.toLower))) (d :: rest) := by
    have hall : ∀ c ∈ name, isNameContinue c := by simpa using h.2
    rw [bareName, List.takeWhile_append_of_pos hall, List.takeWhile_cons_of_neg (by simp [hend]),
      List.dropWhile_append_of_pos hall, List.dropWhile_cons_of_neg (by simp [hend]), List.append_nil]
  obtain ⟨c, r, rfl, hc⟩ := h.exists_cons
  have hlettered : letteredWord? (c :: (r ++ d :: rest)) = none := by
    rcases r with _ | ⟨e, r⟩
    · exact letteredWord?_name hquote hand
    · have he : isNameContinue e := List.all_eq_true.mp h.2 e (by simp)
      refine letteredWord?_name ?_ ?_ <;> (rintro rfl; revert he; decide)
  rw [List.cons_append] at hbare ⊢
  rw [nextWord, hlettered, Option.getD_none, plainWord_nameStart hc, hbare]

theorem firstWord_bareName {name rest : List Char} {d : Char} (h : IsName name) (hd : isBreak d) :
    firstWord (' ' :: (name ++ d :: rest)) =
      (name ++ d :: rest, some (.word (.word (clipName (name.map Char.toLower))) (d :: rest))) := by
  have hword := nextWord_bareName h hd rest
  obtain ⟨c, r, rfl, hc⟩ := h.exists_cons
  rw [List.cons_append] at hword ⊢
  rw [firstWord_blank (isSpace_of_isNameStart hc) (ne_of_isNameStart hc rfl) (ne_of_isNameStart hc rfl),
    hword]

/-- Up to the quote that closes it, a name with its quotes written twice. -/
theorem quotedInside_doubleQuotes {rest : List Char} (hrest : rest.head? ≠ some '"') (name : List Char) :
    quotedInside (doubleQuotes name ++ '"' :: rest) = some (name, rest) := by
  induction name with
  | nil =>
    show quotedInside ('"' :: rest) = _
    rw [quotedInside]
    rintro r rfl
    exact hrest rfl
  | cons c name ih =>
    by_cases hc : c = '"'
    · have hdouble : doubleQuotes (c :: name) = '"' :: '"' :: doubleQuotes name := by
        rw [doubleQuotes, List.flatMap_cons, hc]
        rfl
      rw [hdouble, List.cons_append, List.cons_append, quotedInside, ih, hc]
      rfl
    · have hsingle : doubleQuotes (c :: name) = c :: doubleQuotes name := by
        rw [doubleQuotes, List.flatMap_cons, if_neg (by simpa using hc)]
        rfl
      rw [hsingle, List.cons_append, quotedInside, ih]
      · rfl
      · exact fun _ hquote _ => hc hquote
      · exact hc

theorem doubleQuotes_of_not_mem {name : List Char} (h : '"' ∉ name) : doubleQuotes name = name := by
  induction name with
  | nil => rfl
  | cons c name ih =>
    obtain ⟨hc, hname⟩ : '"' ≠ c ∧ '"' ∉ name := by simpa using h
    have hrest := ih hname
    rw [doubleQuotes] at hrest ⊢
    rw [List.flatMap_cons, hrest, if_neg (by simpa using hc.symm)]
    rfl

/-- A quoted name, up to the character behind its closing quote. -/
theorem nextWord_quotedName {name : List Char} {d : Char} (hne : name ≠ []) (hd : d ≠ '"')
    (rest : List Char) : nextWord ('"' :: (doubleQuotes name ++ '"' :: d :: rest)) =
      .word (.quotedName (clipName name)) (d :: rest) := by
  rw [nextWord, letteredWord?_other (by decide), Option.getD_none, plainWord, quotedWord,
    quotedInside_doubleQuotes (by simpa using hd)]
  obtain _ | ⟨c, name⟩ := name
  · exact absurd rfl hne
  · rfl

/-- A quoted name without quotes inside. -/
theorem firstWord_quotedName {name rest : List Char} {d : Char} (hne : name ≠ []) (hd : d ≠ '"')
    (h : '"' ∉ name) : firstWord (' ' :: '"' :: (name ++ '"' :: d :: rest)) =
      ('"' :: (name ++ '"' :: d :: rest), some (.word (.quotedName (clipName name)) (d :: rest))) := by
  have hword := nextWord_quotedName hne hd rest
  rw [doubleQuotes_of_not_mem h] at hword
  rw [firstWord_blank rfl (by decide) (by decide), hword]

/-! ### Length and case of names -/

theorem clip_map {f : Char → Char} (hf : ∀ c, (f c).utf8Size = c.utf8Size) (room : Nat)
    (s : List Char) : clip room (s.map f) = (clip room s).map f := by
  induction s generalizing room with
  | nil => simp [clip]
  | cons c s ih =>
    rw [List.map_cons, clip, clip, hf]
    split
    · rw [ih, List.map_cons]
    · rfl

theorem clip_clip (room : Nat) (s : List Char) : clip room (clip room s) = clip room s := by
  induction s generalizing room with
  | nil => rfl
  | cons c s ih =>
    by_cases h : c.utf8Size ≤ room
    · rw [clip, if_pos h, clip, if_pos h, ih]
    · rw [clip, if_neg h, clip]

theorem clip_sublist (room : Nat) (s : List Char) : (clip room s).Sublist s := by
  induction s generalizing room with
  | nil => exact .slnil
  | cons c s ih =>
    rw [clip]
    split
    · exact (ih _).cons_cons c
    · exact List.nil_sublist _

theorem toLower_eq_self_or (c : Char) : c.toLower = c ∨ ∃ k < 26, c = Char.ofNat (65 + k) := by
  by_cases h : 65 ≤ c.toNat ∧ c.toNat ≤ 90
  · refine .inr ⟨c.toNat - 65, by omega, ?_⟩
    rw [Nat.add_sub_cancel' h.1, Char.ofNat_toNat]
  · refine .inl (dif_neg fun hc => h ?_)
    exact ⟨UInt32.le_iff_toNat_le.mp hc.1, UInt32.le_iff_toNat_le.mp hc.2⟩

theorem utf8Size_toLower (c : Char) : c.toLower.utf8Size = c.utf8Size := by
  obtain h | ⟨k, hk, rfl⟩ := toLower_eq_self_or c
  · rw [h]
  · revert k
    decide

theorem isNameStart_toLower (c : Char) : isNameStart c.toLower = isNameStart c := by
  obtain h | ⟨k, hk, rfl⟩ := toLower_eq_self_or c
  · rw [h]
  · revert k
    decide

theorem isNameContinue_toLower (c : Char) : isNameContinue c.toLower = isNameContinue c := by
  obtain h | ⟨k, hk, rfl⟩ := toLower_eq_self_or c
  · rw [h]
  · revert k
    decide

theorem IsName.clip {name : List Char} (h : IsName name) : IsName (Sql.clip nameBytes name) := by
  obtain ⟨hstart, hall⟩ := h
  refine ⟨?_, ?_⟩
  · obtain _ | ⟨c, name⟩ := name
    · simp at hstart
    · have hc : c.utf8Size ≤ nameBytes := Nat.le_trans c.utf8Size_le_four (by decide)
      rw [Sql.clip, if_pos hc]
      exact hstart
  · rw [List.all_eq_true] at hall ⊢
    exact fun c hc => hall c ((clip_sublist nameBytes name).mem hc)

theorem IsName.lower {name : List Char} (h : IsName name) : IsName (name.map Char.toLower) := by
  obtain ⟨hstart, hall⟩ := h
  refine ⟨?_, ?_⟩
  · obtain _ | ⟨c, name⟩ := name
    · simp at hstart
    · simpa [isNameStart_toLower] using hstart
  · rw [List.all_map, List.all_eq_true]
    exact fun c hc => (isNameContinue_toLower c).trans (List.all_eq_true.mp hall c hc)

end SchemaScript.Sql

/-!
## Reading one word after another

A reader does not care where its lexemes stand, so a text that is read is given as the tokens in it.
The word behind `EXECUTE FUNCTION` is the only one of a trigger that may be refused for what it is: it
has to be a word that can name a function.
-/

namespace SchemaScript.Sql

namespace Reader

/-! ### Steps -/

section

variable {α β : Type} {x : Reader α} {f : α → Reader β} {s s' : List Lexeme} {a : α}
  {r : Except Flaw (β × List Lexeme)}

theorem bind_ok (hx : x s = .ok (a, s')) (hf : f a s' = r) : (x >>= f) s = r := by
  show Except.bind (x s) _ = r
  rw [hx]
  exact hf

theorem bind_error {flaw : Flaw} (hx : x s = .error flaw) : (x >>= f) s = .error flaw := by
  show Except.bind (x s) _ = _
  rw [hx]
  rfl

/-- A test that does not find what it looks for. -/
theorem test_false {test : Reader Bool} {x y : Reader β} (ht : test s = .ok (false, s'))
    (hy : y s' = r) : (test >>= fun b => if b = true then x else y) s = r :=
  bind_ok ht hy

theorem repeatUpTo_some {step : α → Reader (Option α)} {limit : Nat} {a b : α}
    {r : Except Flaw (α × List Lexeme)} (h : step a s = .ok (some b, s'))
    (hr : repeatUpTo step limit b s' = r) : repeatUpTo step (limit + 1) a s = r :=
  bind_ok h hr

end

/-! ### Names -/

section

variable {m : String} {offset : Nat} {source : String} {rest : List Lexeme}

theorem nameWith_word {allowed : String → Bool} (h : allowed m) :
    nameWith allowed (⟨.word m, offset, source⟩ :: rest) = .ok (m, rest) := by
  refine bind_ok rfl ?_
  simp only [List.getElem?_cons_zero, Option.map_some, nameOf?, h, if_true]
  rfl

theorem nameWith_refused {allowed : String → Bool} (h : allowed m = false) :
    ∃ flaw, nameWith allowed (⟨.word m, offset, source⟩ :: rest) = .error flaw := by
  refine ⟨flawAt (⟨.word m, offset, source⟩ :: rest), bind_ok rfl ?_⟩
  simp only [List.getElem?_cons_zero, Option.map_some, nameOf?, h, Bool.false_eq_true, if_false]
  rfl

theorem isColumnNameAhead_word : isColumnNameAhead 0 (⟨.word m, offset, source⟩ :: rest) =
    .ok (isColumnName m, ⟨.word m, offset, source⟩ :: rest) := by
  refine bind_ok rfl ?_
  cases hcolumn : isColumnName m <;>
    simp [nameOf?, hcolumn] <;> rfl

variable {r : Rules} {offset' : Nat} {source' : String}

/-- A word before a parenthesis is the name of a routine if it can name a function. -/
theorem routinePath_word (h : isFunctionName m) :
    routinePath r (⟨.word m, offset, source⟩ :: ⟨.symbol "(", offset', source'⟩ :: rest) =
      .ok ([m], ⟨.symbol "(", offset', source'⟩ :: rest) := by
  refine bind_ok isColumnNameAhead_word ?_
  cases hcolumn : isColumnName m
  · exact bind_ok (nameWith_word h) rfl
  · refine bind_ok rfl (bind_ok (nameWith_word hcolumn) (bind_ok rfl (bind_ok rfl ?_)))
    simp [nameOf?, h]
    rfl

theorem routinePath_refused (h : isFunctionName m = false) :
    ∃ flaw, routinePath r
      (⟨.word m, offset, source⟩ :: ⟨.symbol "(", offset', source'⟩ :: rest) = .error flaw := by
  cases hcolumn : isColumnName m
  · obtain ⟨flaw, hflaw⟩ : ∃ flaw, functionName
        (⟨.word m, offset, source⟩ :: ⟨.symbol "(", offset', source'⟩ :: rest) = .error flaw :=
      nameWith_refused h
    refine ⟨flaw, bind_ok isColumnNameAhead_word ?_⟩
    rw [hcolumn]
    exact bind_error hflaw
  · refine ⟨flawAt (⟨.symbol "(", offset', source'⟩ :: rest), bind_ok isColumnNameAhead_word ?_⟩
    rw [hcolumn]
    refine bind_ok rfl (bind_ok (nameWith_word hcolumn) (bind_ok rfl (bind_ok rfl ?_)))
    simp [nameOf?, h]
    rfl

end

end Reader
end SchemaScript.Sql
