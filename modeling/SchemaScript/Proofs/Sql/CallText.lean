import SchemaScript.Proofs.Sql.IndexText

/-!
# Calls in statements

A function that is called on one column is read as this call (`expression_call`). The names are words that no rule of
the grammar takes for a keyword, so that nothing but a name is seen in them.
-/

namespace SchemaScript.Sql

/-- A name that is written bare, and that no rule of the grammar takes for a keyword. -/
structure IsFreeWord (word : String) : Prop where
  kept : IsKept word
  bare : needsQuotes word = false
  free : isKeyword word = false
  /-- It is written bare inside an expression as well. -/
  printed : phraseName word = word

namespace IsFreeWord

variable {word : String} (h : IsFreeWord word)
include h

theorem ne {keyword : String} (hkeyword : isKeyword keyword) : word ≠ keyword := by
  rintro rfl
  exact Bool.false_ne_true (h.free.symm.trans hkeyword)

theorem not_isReservedKeyword : isReservedKeyword word = false := by
  have hfree := h.free
  simp only [isKeyword, Bool.or_eq_false_iff] at hfree
  exact hfree.1.1.1

theorem isFunctionName : isFunctionName word := by
  have hfree := h.free
  simp only [isKeyword, Bool.or_eq_false_iff] at hfree
  rw [Sql.isFunctionName, hfree.1.1.1, hfree.1.2]
  rfl

theorem not_mem {keywords : List String} (hkeywords : keywords.all isKeyword) : keywords.contains word = false := by
  rw [← Bool.not_eq_true, List.contains_iff_mem]
  exact fun hmem => h.ne (List.all_eq_true.mp hkeywords word hmem) rfl

theorem head?_ne {keyword : String} (hkeyword : isKeyword keyword) (more : List Token) :
    (Token.word word :: more).head? ≠ some (.word keyword) :=
  fun hsame => h.ne hkeyword (Token.word.inj (Option.some.inj hsame))

theorem isBareContinue : ∀ c ∈ word.toList, isBareContinue c := by
  have hbare : isBare word.toList := by
    have hquotes := h.bare
    simp only [needsQuotes, Bool.and_eq_false_iff, Bool.or_eq_false_iff, Bool.not_eq_false'] at hquotes
    rcases hquotes with hempty | ⟨-, hbare⟩
    · exact absurd (by simpa using hempty) h.kept.nonempty
    · exact hbare
  exact isBareContinue_of_mem hbare (h.kept.oneLine hbare)

theorem nameToken_eq : nameToken word = .word word := by
  rw [nameToken, h.bare]
  rfl

end IsFreeWord

namespace Reader

section

variable {w : String} {r : Rules} {next : Token} {more : List Token}

/-! ## Words that begin nothing else -/

theorem constant?_freeWord (h : IsFreeWord w) : constant? (.word w) = none := by
  unfold constant?
  split <;> first | rfl | contradiction | exact absurd (Token.word.inj ‹_›) (h.ne (by decide))

theorem keywordFunction?_freeWord (h : IsFreeWord w) (r : Rules) : keywordFunction? r w = none := by
  have hxml : xmlFunction? r w = none := by
    unfold xmlFunction?
    split <;> first | rfl | exact absurd rfl (h.ne (by decide))
  have hjson : jsonFunction? r w = none := by
    unfold jsonFunction?
    split <;> first | rfl | exact absurd rfl (h.ne (by decide))
  unfold keywordFunction?
  split <;> first | exact absurd rfl (h.ne (by decide)) | skip
  rw [hxml, hjson]
  rfl

theorem jsonAggregate?_freeWord (h : IsFreeWord w) (r : Rules) : jsonAggregate? r w = none := by
  unfold jsonAggregate?
  split <;> first | rfl | exact absurd rfl (h.ne (by decide))

theorem keywordValue_freeWord (h : IsFreeWord w) (s : List Lexeme) : keywordValue w s = .ok (none, s) := by
  have hsystem : (w == "system_user") = false := beq_eq_false_iff_ne.mpr (h.ne (by decide))
  have hschema : (w == "current_schema") = false := beq_eq_false_iff_ne.mpr (h.ne (by decide))
  unfold keywordValue
  rw [h.not_mem (by decide), h.not_mem (by decide), hsystem, hschema]
  rfl

theorem prefixOperation_freeWord (h : IsFreeWord w) (r : Rules) (places : Nat → Nat × String)
    (more : List Token) : prefixOperation r .full (lexemesAt places (.word w :: more)) =
      (primaryWith r >>= overlap r (some (places 0).1)) (lexemesAt places (.word w :: more)) := by
  have hfull : (Extent.full == Extent.restricted) = false := rfl
  have hfront : (lexemesAt places (.word w :: more))[0]?.map (·.token) = some (.word w) := rfl
  unfold prefixOperation
  refine bind_ok rfl (bind_ok rfl ?_)
  simp only [hfull, Bool.false_eq_true, if_false]
  -- each alternative but the last one asks for a keyword or for no word at all
  generalize (lexemesAt places (.word w :: more))[0]?.map (·.token) = token? at hfront
  split <;> first | rfl | exact absurd (Token.word.inj (Option.some.inj hfront)).symm (h.ne (by decide)) | cases hfront

theorem aggregateCall_freeWord (h : IsFreeWord w) (r : Rules) (places : Nat → Nat × String) (more : List Token) :
    aggregateCall r (lexemesAt places (.word w :: more)) = .ok (none, lexemesAt places (.word w :: more)) := by
  refine bind_ok rfl (bind_ok (ahead_second _ more places) ?_)
  rw [jsonAggregate?_freeWord h]
  split <;> rfl

theorem wordBeforeParenthesis_freeWord (h : IsFreeWord w) (r : Rules) (places : Nat → Nat × String)
    (more : List Token) : wordBeforeParenthesis r (lexemesAt places (.word w :: more)) =
      .ok (none, lexemesAt places (.word w :: more)) := by
  have hword (keyword : String) (hkeyword : isKeyword keyword) := accept_other (h.head?_ne hkeyword more) places
  refine bind_ok (ahead_second _ more places) ?_
  split
  · exact test_false (isAt_other (h.head?_ne (by decide) more) places) (test_false (hword "exists" (by decide))
      (test_false (hword "grouping" (by decide)) (bind_ok (aggregateCall_freeWord h r places more) rfl)))
  · rfl

theorem specialCall_freeWord (h : IsFreeWord w) (r : Rules) (places : Nat → Nat × String) (more : List Token) :
    specialCall r (lexemesAt places (.word w :: more)) = .ok (none, lexemesAt places (.word w :: more)) := by
  have hcast : (w == "cast") = false := beq_eq_false_iff_ne.mpr (h.ne (by decide))
  have hcollation : (w == "collation") = false := beq_eq_false_iff_ne.mpr (h.ne (by decide))
  refine bind_ok rfl (bind_ok (keywordValue_freeWord h _) ?_)
  dsimp only
  rw [hcast, hcollation, keywordFunction?_freeWord h]
  refine bind_ok (ahead_second _ more places) (bind_ok (ahead_second _ more places) ?_)
  split <;> rfl

theorem primaryWith_freeWord (h : IsFreeWord w) (r : Rules) {places : Nat → Nat × String} {more : List Token}
    (htyped : atTypedConstant (lexemesAt places (.word w :: more)) =
      .ok (false, lexemesAt places (.word w :: more))) :
    primaryWith r (lexemesAt places (.word w :: more)) = named r (lexemesAt places (.word w :: more)) := by
  have hnone := constant?_freeWord h
  have hbefore := wordBeforeParenthesis_freeWord h r places more
  have hspecial := specialCall_freeWord h r places more
  have hnamed : atNamed (lexemesAt places (.word w :: more)) = .ok (true, lexemesAt places (.word w :: more)) := by
    refine bind_ok rfl ?_
    show (pure (!isReservedKeyword w) : Reader Bool) _ = _
    rw [h.not_isReservedKeyword]
    rfl
  have hfront : (lexemesAt places (.word w :: more))[0]?.map (·.token) = some (.word w) := rfl
  unfold primaryWith
  refine bind_ok rfl ?_
  rw [hfront]
  dsimp only
  rw [hnone]
  dsimp only
  generalize htoken : Token.word w = token at hbefore hspecial htyped hnamed ⊢
  split
  · contradiction
  · contradiction
  · exact absurd (Token.word.inj htoken) (h.ne (by decide))
  · exact absurd (Token.word.inj htoken) (h.ne (by decide))
  · exact bind_ok hbefore (bind_ok hspecial (test_false htyped (bind_ok hnamed rfl)))

/-! ## Columns and calls -/

theorem expression_column (h : IsFreeWord w) (depth : Nat) (places : Nat → Nat × String) (more : List Token) :
    (rulesTo (depth + 2)).expression (lexemesAt places (.word w :: .symbol ")" :: more)) =
      .ok ({ text := w, form := .column }, lexemesAt (fun i => places (i + 1)) (.symbol ")" :: more)) := by
  have hcolumn : columnWithParts w [] = { text := w, form := .column } := by
    show ({ text := phraseName w ++ String.join [], form := .column } : Phrase) = _
    rw [h.printed]
    simp [String.join]
  have hname := isColumnNameAhead_nameToken h.kept.nonempty places (.symbol ")" :: more)
  rw [h.nameToken_eq] at hname
  have hnamed : named (rulesTo (depth + 1)) (lexemesAt places (.word w :: .symbol ")" :: more)) =
      .ok (columnWithParts w [], lexemesAt (fun i => places (i + 1)) (.symbol ")" :: more)) :=
    bind_ok hname (bind_ok rfl (bind_ok rfl (bind_ok rfl rfl)))
  have hprimary := (primaryWith_freeWord h (rulesTo (depth + 1)) rfl).trans hnamed
  rw [hcolumn] at hprimary
  have hprefix := (prefixOperation_freeWord h (rulesTo (depth + 1)) places (.symbol ")" :: more)).trans
    (bind_ok hprimary rfl)
  exact bind_ok hprefix (operations_ends _ (.inr rfl) _)

theorem callArguments_column (h : IsFreeWord w) (depth : Nat) (places : Nat → Nat × String) (more : List Token) :
    callArguments (rulesTo (depth + 2)) (lexemesAt places (.symbol "(" :: .word w :: .symbol ")" :: more)) =
      .ok ({ arguments := [{ text := w }], orderAt := some (places 2).1 },
        lexemesAt (fun i => places (i + 3)) more) := by
  have hword (keyword : String) (hkeyword : isKeyword keyword) :=
    accept_other (h.head?_ne hkeyword (.symbol ")" :: more)) fun i => places (i + 1)
  have hargument : argument (rulesTo (depth + 2))
      (lexemesAt (fun i => places (i + 1)) (.word w :: .symbol ")" :: more)) =
        .ok ({ text := w }, lexemesAt (fun i => places (i + 2)) (.symbol ")" :: more)) :=
    bind_ok rfl (bind_ok (expression_column h depth (fun i => places (i + 1)) more) rfl)
  have harguments : variadicArguments (rulesTo (depth + 2))
      (lexemesAt (fun i => places (i + 1)) (.word w :: .symbol ")" :: more)) =
        .ok ([{ text := w }], lexemesAt (fun i => places (i + 2)) (.symbol ")" :: more)) :=
    bind_ok (test_false (hword "variadic" (by decide)) hargument) rfl
  -- the words that may stand before the arguments are keywords, and none follows them
  refine bind_ok (a := ()) rfl (bind_ok (show _ = Except.ok
    (({ arguments := [{ text := w }], orderAt := some (places 2).1 } : Given),
      lexemesAt (fun i => places (i + 2)) (.symbol ")" :: more)) from ?_) rfl)
  exact test_false rfl (test_false rfl (bind_ok (hword "distinct" (by decide))
    (bind_ok (hword "all" (by decide)) (bind_ok harguments rfl))))

/-- A call of a function on one column. -/
theorem expression_call {f c : String} (hf : IsFreeWord f) (hc : IsFreeWord c) (depth : Nat)
    (hnext : next = .symbol "," ∨ next = .symbol ")") (places : Nat → Nat × String) (more : List Token) :
    (rulesTo (depth + 4)).expression
        (lexemesAt places (.word f :: .symbol "(" :: .word c :: .symbol ")" :: next :: more)) =
      .ok ({ text := f ++ enclosed c, form := .call }, lexemesAt (fun i => places (i + 4)) (next :: more)) := by
  have hname := isColumnNameAhead_nameToken hf.kept.nonempty places
    (.symbol "(" :: .word c :: .symbol ")" :: next :: more)
  rw [hf.nameToken_eq] at hname
  have htext : phrasePath [f] ++ Given.text { arguments := [{ text := c }], orderAt := some (places 3).1 } ++ "" =
      f ++ enclosed c := by
    have hpath : phrasePath [f] = f := String.intercalate_singleton.trans hf.printed
    have hitems : commaList [c] ++ "" = c := String.append_empty.trans String.intercalate_singleton
    show phrasePath [f] ++ enclosed (commaList [c] ++ "") ++ "" = f ++ enclosed c
    rw [hpath, hitems, String.append_empty]
  have hcall : callOf (rulesTo (depth + 3)) [f]
      (lexemesAt (fun i => places (i + 1)) (.symbol "(" :: .word c :: .symbol ")" :: next :: more)) =
        .ok ({ text := f ++ enclosed c, form := .call }, lexemesAt (fun i => places (i + 4)) (next :: more)) := by
    refine bind_ok (callArguments_column hc (depth + 1) (fun i => places (i + 1)) (next :: more)) ?_
    rw [← htext]
    rcases hnext with rfl | rfl <;> rfl
  have hnamed : named (rulesTo (depth + 3))
      (lexemesAt places (.word f :: .symbol "(" :: .word c :: .symbol ")" :: next :: more)) =
        .ok ({ text := f ++ enclosed c, form := .call }, lexemesAt (fun i => places (i + 4)) (next :: more)) := by
    have hcalled : (!(nameOf? isFunctionName (some (.word f))).isSome) = false := by
      rw [nameOf?, hf.isFunctionName]
      rfl
    refine bind_ok hname (bind_ok rfl (bind_ok rfl (bind_ok rfl (bind_ok rfl (bind_ok (a := [f]) ?_ hcall)))))
    rw [if_neg]
    · rfl
    · exact fun hrefused => Bool.false_ne_true (hcalled.symm.trans hrefused)
  have htyped : atTypedConstant (lexemesAt places (.word f :: .symbol "(" :: .word c :: .symbol ")" :: next :: more)) =
      .ok (false, lexemesAt places (.word f :: .symbol "(" :: .word c :: .symbol ")" :: next :: more)) := by
    refine bind_ok rfl (bind_ok rfl ?_)
    exact congrArg (fun isType => Except.ok (isType, _)) (hf.not_mem (by decide))
  have hprimary := (primaryWith_freeWord hf (rulesTo (depth + 3)) htyped).trans hnamed
  have hprefix := (prefixOperation_freeWord hf (rulesTo (depth + 3)) places _).trans (bind_ok hprimary rfl)
  exact bind_ok hprefix (operations_ends _ hnext _)

end

end Reader

section

variable {f c : String} (hf : IsFreeWord f) (hc : IsFreeWord c)
include hf hc

/-- The call of a function on a column, as a value. -/
def callValue : Value where
  tokens := [.word f, .symbol "(", .word c, .symbol ")"]
  phrase := { text := f ++ enclosed c, form := .call }
  isRead depth hdepth next hnext places more := by
    obtain ⟨depth, rfl⟩ : ∃ k, depth = k + 4 := ⟨depth - 4, by omega⟩
    exact ⟨_, Reader.expression_call hf hc depth hnext places more⟩

theorem joined_callValue : joined (callValue hf hc).tokens = (callValue hf hc).tokens := by
  have hword {w : String} (h : IsFreeWord w) : StandsApart (.word w) := by
    refine standsApart_word ?_
    rw [← List.contains_iff_mem, h.not_mem (by decide)]
    exact Bool.false_ne_true
  unfold callValue
  dsimp only
  rw [joined_cons (hword hf), joined_cons (standsApart_symbol "("), joined_cons (hword hc)]
  rfl

/-- The call is written as its words. -/
theorem scansAs_call (ends : List Char) : ScansAs ends (f ++ enclosed c).toList (callValue hf hc).tokens := by
  have hname (stop : Char) (hstop : isBreak stop) {w : String} (h : IsFreeWord w) :
      ScansAs [stop] w.toList [.word w] := by
    have hpath := ScansAs.path [stop] (by simp [hstop]) (List.cons_ne_nil w []) (List.forall_mem_singleton.mpr h.kept)
    have htext : pathText [w] = w := by
      rw [pathText, List.map_singleton, quoteName, h.bare]
      exact String.intercalate_singleton
    rw [htext, pathTokens, h.nameToken_eq] at hpath
    exact hpath
  have hend : ScansAs ends [')'] [.symbol ")"] := (ScansAs.nil ends).symbol (by decide)
  have hargument : ScansAs ends ('(' :: (c.toList ++ [')'])) [.symbol "(", .word c, .symbol ")"] :=
    ((hname ')' (by decide) hc).append hend (by decide)).symbol (by decide)
  have htext : (f ++ enclosed c).toList = f.toList ++ '(' :: (c.toList ++ [')']) := by
    simp [enclosed, String.toList_append]
  rw [htext]
  exact (hname '(' (by decide) hf).append hargument (by decide)

end

end SchemaScript.Sql
