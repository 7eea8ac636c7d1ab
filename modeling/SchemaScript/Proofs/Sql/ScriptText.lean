import SchemaScript.Proofs.Sql.BoundText

/-!
# Scripts of several statements

A script is read if each of its statements is read whatever stands behind it, and if it may end with a comment
(`IsSentence.script`, `isScript_remarkText`). The items of a statement may stand on lines of their own
(`ScansAs.rows`).
-/

namespace SchemaScript.Sql

/-! ## Statements one after another -/

/-- In front of a semicolon the characters are read as this statement, whatever stands behind it. -/
def IsSentence (s : List Char) (statement : Statement) : Prop :=
  ∃ words, ScansAs [';'] s words ∧ ∀ depth, 3 * words.length + 10 ≤ depth → ∀ places found more, ∃ places',
    Reader.nextStatement (Reader.rulesTo depth) found (lexemesAt places (joined words ++ .symbol ";" :: more)) =
      .ok (some (statement :: found), lexemesAt places' more)

/-- Behind the statements that are found already, the characters are read up to such an end. -/
def RunsTo (s : List Char) (ends : List Statement → Except Flaw (List Statement × List Lexeme) → Prop) : Prop :=
  ∃ words, Reads s words ∧ ∀ depth, 3 * words.length + 10 ≤ depth → ∀ places found limit, words.length < limit →
    ends found (Reader.repeatUpTo (Reader.nextStatement (Reader.rulesTo depth)) limit found
      (lexemesAt places (joined words)))

/-- The characters are read as these statements. -/
def IsScript (s : List Char) (all : List Statement) : Prop :=
  RunsTo s fun found result => result = .ok (all.reverse ++ found, [])

/-- No statements can be read from the characters. -/
def IsRefused (s : List Char) : Prop :=
  RunsTo s fun _ result => ∃ flaw, result = .error flaw

section

variable {s rest : List Char} {statement : Statement} {all : List Statement} {words : List Token}
  {ends : List Statement → Except Flaw (List Statement × List Lexeme) → Prop}

theorem RunsTo.behind_newline (h : RunsTo s ends) : RunsTo ('\n' :: s) ends := by
  obtain ⟨words, hreads, hrun⟩ := h
  exact ⟨words, hreads.behind_newline, hrun⟩

theorem isScript_nil : IsScript [] [] := by
  refine ⟨[], reads_nil, fun depth _ places found limit hlimit => ?_⟩
  obtain ⟨limit, rfl⟩ := Nat.exists_eq_add_one_of_ne_zero (Nat.ne_zero_of_lt hlimit)
  rfl

theorem isScript_last (hreads : Reads s words) (hwords : words ≠ [])
    (hnext : ∀ depth places found, Reader.nextStatement (Reader.rulesTo depth) found (lexemesAt places (joined words)) =
      .ok (some (statement :: found), [])) : IsScript s [statement] := by
  refine ⟨words, hreads, fun depth _ places found limit hlimit => ?_⟩
  obtain ⟨limit, rfl⟩ : ∃ more, limit = more + 2 := by
    have := List.length_pos_iff.mpr hwords
    exact ⟨limit - 2, by omega⟩
  exact Reader.repeatUpTo_some (hnext depth places found) rfl

theorem isRefused_first (hreads : Reads s words)
    (hnext : ∀ depth places found, ∃ flaw, Reader.nextStatement (Reader.rulesTo depth) found
      (lexemesAt places (joined words)) = .error flaw) : IsRefused s := by
  refine ⟨words, hreads, fun depth _ places found limit hlimit => ?_⟩
  obtain ⟨limit, rfl⟩ := Nat.exists_eq_add_one_of_ne_zero (Nat.ne_zero_of_lt hlimit)
  obtain ⟨flaw, hflaw⟩ := hnext depth places found
  exact ⟨flaw, Reader.bind_error hflaw⟩

theorem firstWord_semicolon (rest : List Char) :
    firstWord (';' :: rest) = (';' :: rest, some (.word (.symbol ";") rest)) := by
  rw [firstWord_front rfl (by decide) (by decide), nextWord, letteredWord?_other (by decide)]
  rfl

/-- A statement in front of a text is found before whatever is made of that text. -/
theorem IsSentence.runsTo (h : IsSentence s statement) (hrest : RunsTo rest ends) :
    RunsTo (s ++ ';' :: rest) fun found => ends (statement :: found) := by
  obtain ⟨words, hscans, hread⟩ := h
  obtain ⟨others, hothers, hrun⟩ := hrest
  have hend : Scans (';' :: rest) (.symbol ";" :: others) := scans_cons (firstWord_semicolon rest) hothers.scans
  have hjoined : joined (words ++ .symbol ";" :: others) = joined words ++ .symbol ";" :: joined others := by
    rw [joined_append words ((standsApart_symbol ";").head others), joined_cons (standsApart_symbol ";")]
  have hlength : (words ++ .symbol ";" :: others).length = words.length + others.length + 1 := by
    rw [List.length_append, List.length_cons, Nat.add_assoc]
  refine ⟨words ++ .symbol ";" :: others, ⟨?_, ?_, ?_⟩, fun depth hdepth places found limit hlimit => ?_⟩
  · simpa [hscans.noZero] using hothers.noZero
  · have := hscans.short
    have := hothers.short
    rw [hlength, List.length_append, List.length_cons]
    omega
  · exact hscans.scans ';' (by decide) _ _ hend
  · rw [hlength] at hdepth hlimit
    obtain ⟨limit, rfl⟩ := Nat.exists_eq_add_one_of_ne_zero (Nat.ne_zero_of_lt hlimit)
    obtain ⟨places', hfirst⟩ := hread depth (by omega) places found (joined others)
    have hlater := hrun depth (by omega) places' (statement :: found) limit (by omega)
    rw [hjoined, Reader.repeatUpTo_some hfirst rfl]
    exact hlater

theorem IsSentence.script (h : IsSentence s statement) (hrest : IsScript rest all) :
    IsScript (s ++ ';' :: rest) (statement :: all) := by
  have hall := h.runsTo hrest
  unfold IsScript
  simpa only [List.reverse_cons, List.append_assoc, List.singleton_append] using hall

theorem IsSentence.refused (h : IsSentence s statement) (hrest : IsRefused rest) : IsRefused (s ++ ';' :: rest) :=
  h.runsTo hrest

theorem length_joined (tokens : List Token) : (joined tokens).length = tokens.length := by
  fun_induction joined tokens with
  | case1 token next rest ih =>
    rw [List.length_cons, ih]
    rfl
  | case2 rest => rfl

/-- What is read of a whole text. -/
theorem RunsTo.exists_run {sql : String} (h : RunsTo sql.toList ends) :
    ∃ result, ends [] result ∧ statements sql = result.map fun found => found.1.reverse := by
  obtain ⟨words, hreads, hrun⟩ := h
  obtain ⟨places, hscan⟩ := scan_of_scans hreads.scans hreads.noZero hreads.short
  rw [joinAll_lexemesAt] at hscan
  have hlength : (scan sql).length = words.length := by
    rw [hscan, Reader.length_lexemesAt, length_joined]
  have hend := hrun (3 * (scan sql).length + 10) (by rw [hlength]) places [] ((scan sql).length + 1)
    (by rw [hlength]; exact Nat.lt_succ_self _)
  rw [← hscan] at hend
  refine ⟨_, hend, ?_⟩
  generalize hresult : Reader.repeatUpTo (Reader.nextStatement (Reader.rulesTo (3 * (scan sql).length + 10)))
    ((scan sql).length + 1) [] (scan sql) = result
  show Except.bind (Except.bind (Reader.repeatUpTo (Reader.nextStatement (Reader.rulesTo (3 * (scan sql).length + 10)))
    ((scan sql).length + 1) [] (scan sql)) _) _ = _
  rw [hresult]
  cases result <;> rfl

theorem IsScript.statements {sql : String} (h : IsScript sql.toList all) : statements sql = .ok all := by
  obtain ⟨_, rfl, hall⟩ := h.exists_run
  rw [hall, Except.map, List.append_nil, List.reverse_reverse]

theorem IsRefused.statements {sql : String} (h : IsRefused sql.toList) : ∃ flaw, statements sql = .error flaw := by
  obtain ⟨_, ⟨flaw, rfl⟩, hall⟩ := h.exists_run
  exact ⟨flaw, hall⟩

/-- A comment at the end of a script. -/
theorem isScript_remarkText {kind : CommentKind} {path : List String} {text : String}
    (h : IsNamedBy (Reader.kindNaming kind) path) (hpath : ∀ n ∈ path, IsKept n) (htext : '\x00' ∉ text.toList) :
    IsScript (remarkText kind path text).toList [.comment kind path (some text)] := by
  refine isScript_last (reads_remarkText h hpath htext) (List.cons_ne_nil _ _) fun depth places found => ?_
  rw [(unjoined_commentTokens kind path text).joined]
  exact nextStatement_commentTokens h (fun n hn => (hpath n hn).nonempty) places text found

end

/-! ## Items on lines of their own -/

namespace ScansAs

variable {ends ends' : List Char} {s : List Char} {words : List Token}

theorem of_subset (h : ScansAs ends s words) (hsubset : ends' ⊆ ends) : ScansAs ends' s words :=
  { h with scans := fun d hd => h.scans d (hsubset hd) }

theorem space {c : Char} (hc : isSpace c) (h : ScansAs ends s words) : ScansAs ends (c :: s) words where
  noZero := by
    have hzero : '\x00' ≠ c := by
      rintro rfl
      contradiction
    simpa [hzero] using h.noZero
  short := Nat.le_succ_of_le h.short
  scans e he rest more hrest := by
    have hlater := h.scans e he rest more hrest
    rw [List.cons_append, ← List.singleton_append]
    exact hlater.behind_gap (afterGap_space hc _)

end ScansAs

/-- An item on a line of its own, which ends in front of a comma or with the last line. -/
structure ScansRow (row : List Char) (words : List Token) : Prop where
  inside : ScansAs [','] row words
  last : ScansAs [')'] (row ++ ['\n']) words

/-- The rows of a list behind the first one, up to the parenthesis that closes it. -/
def rowsText (rows : List String) : List Char :=
  (rows.flatMap fun row => ',' :: '\n' :: ("    ".toList ++ row.toList)) ++ ['\n', ')']

theorem toList_rows (first : String) (others : List String) :
    ("(\n" ++ ",\n".intercalate ((first :: others).map ("    " ++ ·)) ++ "\n)").toList =
      '(' :: '\n' :: ("    ".toList ++ (first.toList ++ rowsText others)) := by
  have hrow (row : String) : ("    " ++ row).toList = "    ".toList ++ row.toList := String.toList_append
  rw [List.map_cons, String.toList_append, String.toList_append, toList_intercalate_cons, hrow, List.flatMap_map,
    rowsText]
  simp only [hrow, List.append_assoc]
  rfl

theorem ScansAs.indented {ends s : List Char} {words : List Token} (h : ScansAs ends s words) :
    ScansAs ends ("    ".toList ++ s) words :=
  h.blank.blank.blank.blank

/-- Items on lines of their own are the items of a list. -/
theorem ScansAs.rows (ends : List Char) {first : String} {others : List String} {words : List Token}
    {parts : List (List Token)} (hfirst : ScansRow first.toList words)
    (h : List.Forall₂ (fun row words => ScansRow row.toList words) others parts) :
    ScansAs ends ("(\n" ++ ",\n".intercalate ((first :: others).map ("    " ++ ·)) ++ "\n)").toList
      (.symbol "(" :: (words ++ othersTokens parts)) := by
  have hall : ScansAs ends (first.toList ++ rowsText others) (words ++ othersTokens parts) := by
    induction h generalizing first words with
    | nil =>
      have hend : ScansAs ends [')'] [.symbol ")"] := (ScansAs.nil ends).symbol (by decide)
      have hclosed := hfirst.last.append hend (by decide)
      rw [List.append_assoc] at hclosed
      exact hclosed
    | @cons row words' others parts hrow hmore ih =>
      have hlater := ((ih hrow).indented.space (c := '\n') rfl).symbol (c := ',') (by decide)
      have htext : rowsText (row :: others) = ',' :: '\n' :: ("    ".toList ++ (row.toList ++ rowsText others)) := by
        simp [rowsText]
      have hwords : othersTokens (words' :: parts) = .symbol "," :: (words' ++ othersTokens parts) := by
        simp [othersTokens]
      rw [htext, hwords]
      exact hfirst.inside.append hlater (by decide)
  rw [toList_rows]
  exact (hall.indented.space (c := '\n') rfl).symbol (by decide)

/-- The words of a line are a row. -/
theorem ScansRow.of_line {row : List Char} {words : List Token} (hcomma : ScansAs [','] row words)
    (hline : ScansAs ['\n'] row words) : ScansRow row words where
  inside := hcomma
  last := by
    have hend := hline.append ((ScansAs.nil [')']).space (c := '\n') rfl) (by decide)
    rwa [List.append_nil] at hend

end SchemaScript.Sql
