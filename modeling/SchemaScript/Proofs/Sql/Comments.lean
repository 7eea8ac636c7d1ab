import SchemaScript.Proofs.Sql.Reading
import Mathlib.Data.List.TakeWhile

/-!
# Lines of comments

A text whose lines are all empty or begin with `--` leaves no trace in front of other text: what follows
it has the words it has alone (`Scans.behind`). Lines end where the scanner lets a comment end.
-/

namespace SchemaScript.Sql

/-! ## Lines -/

def lines (s : List Char) : List (List Char) :=
  s.splitOnP isNewline

/-- An empty line or one that is a comment from its beginning. -/
def IsCommentLine (line : List Char) : Prop :=
  line = [] ∨ ['-', '-'] <+: line

instance (line : List Char) : Decidable (IsCommentLine line) :=
  inferInstanceAs (Decidable (_ ∨ _))

def Commented (s : List Char) : Prop :=
  ∀ line ∈ lines s, IsCommentLine line

instance (s : List Char) : Decidable (Commented s) :=
  inferInstanceAs (Decidable (∀ line ∈ lines s, IsCommentLine line))

/-- Every line but the first, which goes on with what stands before the text. -/
def StaysCommented (s : List Char) : Prop :=
  ∀ line ∈ (lines s).tail, IsCommentLine line

instance (s : List Char) : Decidable (StaysCommented s) :=
  inferInstanceAs (Decidable (∀ line ∈ (lines s).tail, IsCommentLine line))

/-- No line ends inside the text. -/
def InLine (s : List Char) : Prop :=
  ∀ c ∈ s, isNewline c = false

-- named, since an instance for all characters would go through every character there is
instance (s : List Char) : Decidable (InLine s) :=
  List.decidableBAll (fun c => isNewline c = false) s

theorem exists_newline {s : List Char} (h : ¬ InLine s) :
    ∃ a c b, s = a ++ c :: b ∧ isNewline c := by
  simp only [InLine, Classical.not_forall, Bool.not_eq_false] at h
  obtain ⟨c, hmem, hc⟩ := h
  obtain ⟨a, b, rfl⟩ := List.append_of_mem hmem
  exact ⟨a, c, b, rfl, hc⟩

theorem exists_lines (s : List Char) : ∃ first rest, lines s = first :: rest :=
  List.exists_cons_of_ne_nil (List.splitOnP_ne_nil isNewline s)

theorem lines_inLine {s : List Char} (h : InLine s) : lines s = [s] :=
  List.splitOnP_eq_singleton h

theorem lines_newline (a b : List Char) {c : Char} (hc : isNewline c) :
    lines (a ++ c :: b) = lines a ++ lines b :=
  List.splitOnP_append_cons a b hc

theorem lines_inLine_append {a : List Char} (h : InLine a) (b : List Char) :
    lines (a ++ b) = (lines b).modifyHead (a ++ ·) := by
  induction a with
  | nil =>
    obtain ⟨first, rest, hb⟩ := exists_lines b
    simp [hb]
  | cons c a ih =>
    obtain ⟨hc, ha⟩ : isNewline c = false ∧ InLine a := by simpa [InLine] using h
    obtain ⟨first, rest, hb⟩ := exists_lines b
    have hcons : lines (c :: (a ++ b)) = (lines (a ++ b)).modifyHead (c :: ·) := by
      rw [lines, List.splitOnP_cons_eq_if_modifyHead, hc]
      rfl
    rw [List.cons_append, hcons, ih ha, hb]
    rfl

theorem commented_newline {a b : List Char} {c : Char} (hc : isNewline c) :
    Commented (a ++ c :: b) ↔ Commented a ∧ Commented b := by
  simp only [Commented, lines_newline a b hc, List.mem_append, or_imp, forall_and]

theorem staysCommented_newline {a b : List Char} {c : Char} (hc : isNewline c) :
    StaysCommented (a ++ c :: b) ↔ StaysCommented a ∧ Commented b := by
  obtain ⟨first, rest, ha⟩ := exists_lines a
  simp only [StaysCommented, Commented, lines_newline a b hc, ha, List.cons_append, List.tail_cons,
    List.mem_append, or_imp, forall_and]

theorem staysCommented_inLine {a : List Char} (h : InLine a) : StaysCommented a := by
  simp [StaysCommented, lines_inLine h]

theorem staysCommented_inLine_append {a : List Char} (h : InLine a) {b : List Char} :
    StaysCommented (a ++ b) ↔ StaysCommented b := by
  obtain ⟨first, rest, hb⟩ := exists_lines b
  simp [StaysCommented, lines_inLine_append h, hb]

theorem commented_inLine_append {a : List Char} (h : InLine a) {b : List Char} :
    Commented (a ++ b) ↔
      IsCommentLine (a ++ (lines b).head (List.splitOnP_ne_nil isNewline b)) ∧ StaysCommented b := by
  obtain ⟨first, rest, hb⟩ := exists_lines b
  simp [Commented, StaysCommented, lines_inLine_append h, hb]

/-- Behind dashes only the lines after the first one matter. -/
theorem commented_dashes_append {a b : List Char} (h : InLine a) (hdashes : ['-', '-'] <+: a) :
    Commented (a ++ b) ↔ StaysCommented b := by
  rw [commented_inLine_append h]
  exact and_iff_right (.inr (hdashes.trans (List.prefix_append _ _)))

/-- A comment line between others: only what it shows can break it. -/
theorem commented_around {shown : List Char} (lead line last : List Char) (hlead : Commented lead)
    (hline : InLine line) (hdashes : ['-', '-'] <+: line) (hlast : Commented last) :
    Commented ((lead ++ '\n' :: line) ++ (shown ++ '\n' :: last)) ↔ StaysCommented shown := by
  rw [List.append_assoc, List.cons_append, ← List.append_assoc line, commented_newline (by rfl),
    commented_newline (by rfl), commented_dashes_append hline hdashes]
  exact ⟨fun h => h.2.1, fun h => ⟨hlead, h, hlast⟩⟩

/-- A character that is no dash decides whether its line is a comment. -/
theorem isCommentLine_append_cons {a b : List Char} {c : Char} (hc : c ≠ '-') :
    IsCommentLine (a ++ c :: b) ↔ IsCommentLine (a ++ [c]) := by
  rcases a with _ | ⟨d, _ | ⟨e, a⟩⟩ <;> simp [IsCommentLine, hc.symm]

/-- A text may be looked at in two parts, where they meet in the middle of a line behind something that
is no dash. -/
theorem commented_append_cons {a b : List Char} {c : Char} (hline : isNewline c = false)
    (hc : c ≠ '-') :
    Commented (a ++ c :: b) ↔ Commented (a ++ [c]) ∧ StaysCommented b := by
  by_cases ha : InLine a
  · have hlead : InLine (a ++ [c]) := by
      intro d hd
      rcases List.mem_append.mp hd with hd | hd
      · exact ha d hd
      · rwa [List.mem_singleton.mp hd]
    have halone : Commented (a ++ [c]) ↔ IsCommentLine (a ++ [c]) := by
      simp [Commented, lines_inLine hlead]
    rw [List.append_cons, commented_inLine_append hlead, halone, List.append_assoc,
      List.singleton_append, isCommentLine_append_cons hc]
  · obtain ⟨first, d, rest, rfl, hd⟩ := exists_newline ha
    rw [List.append_assoc, List.append_assoc, List.cons_append, List.cons_append,
      commented_newline hd, commented_newline hd, commented_append_cons hline hc, and_assoc]
termination_by a.length
decreasing_by subst_vars; simp only [List.length_append, List.length_cons]; omega

theorem staysCommented_append_cons {a b : List Char} {c : Char} (hline : isNewline c = false)
    (hc : c ≠ '-') :
    StaysCommented (a ++ c :: b) ↔ StaysCommented (a ++ [c]) ∧ StaysCommented b := by
  have hone : InLine [c] := by simpa [InLine] using hline
  by_cases ha : InLine a
  · rw [List.append_cons, List.append_assoc, staysCommented_inLine_append ha,
      staysCommented_inLine_append hone, staysCommented_inLine_append ha]
    exact (and_iff_right (staysCommented_inLine hone)).symm
  · obtain ⟨first, d, rest, rfl, hd⟩ := exists_newline ha
    rw [List.append_assoc, List.append_assoc, List.cons_append, List.cons_append,
      staysCommented_newline hd, staysCommented_newline hd, commented_append_cons hline hc,
      and_assoc]

/-! ## Gaps between words -/

theorem length_commentEnd {depth : Nat} {s t : List Char} (h : commentEnd depth s = some t) :
    t.length < s.length := by
  fun_induction commentEnd depth s with
  | case1 => contradiction
  | case2 depth r ih =>
    have := ih h
    simp only [List.length_cons]
    omega
  | case3 r =>
    obtain rfl := Option.some.inj h
    simp only [List.length_cons]
    omega
  | case4 depth r ih =>
    have := ih h
    simp only [List.length_cons]
    omega
  | case5 depth c r hopen hlast hinner ih =>
    have := ih h
    simp only [List.length_cons]
    omega

/-- Enough steps are as good as any other number that is enough. -/
theorem skipGap_steps {n m : Nat} {s : List Char} (hn : s.length < n) (hm : s.length < m) :
    skipGap n s = skipGap m s := by
  induction n generalizing m s with
  | zero => omega
  | succ n ih =>
    obtain ⟨m, rfl⟩ := Nat.exists_eq_add_one_of_ne_zero (Nat.ne_zero_of_lt hm)
    have hshorter {c : Char} {r : List Char} (p : Char → Bool) (hs : s = c :: r) :
        skipGap n (r.dropWhile p) = skipGap m (r.dropWhile p) := by
      have hdrop := List.length_dropWhile_le p r
      subst hs
      simp only [List.length_cons] at hn hm
      exact ih (by omega) (by omega)
    unfold skipGap
    split
    · next r =>
      have hdrop := List.length_dropWhile_le (fun c => !isNewline c) r
      simp only [List.length_cons] at hn hm
      exact ih (by omega) (by omega)
    · next r =>
      split
      · next t ht =>
        have hend := length_commentEnd ht
        simp only [List.length_cons] at hn hm
        exact ih (by omega) (by omega)
      · rfl
    · split
      · exact hshorter _ rfl
      · rfl
    · rfl

/-- The text from its first word on. -/
def afterGap (s : List Char) : List Char :=
  skipGap (s.length + 1) s

theorem skipGap_eq_afterGap {n : Nat} {s : List Char} (h : s.length < n) :
    skipGap n s = afterGap s :=
  skipGap_steps h (Nat.lt_succ_self _)

theorem firstWord_congr {s s' : List Char} (h : afterGap s = afterGap s') :
    firstWord s = firstWord s' := by
  simp only [firstWord, ← afterGap.eq_1, h]

theorem length_skipGap_le (n : Nat) (s : List Char) : (skipGap n s).length ≤ s.length := by
  induction n generalizing s with
  | zero => exact Nat.le_refl _
  | succ n ih =>
    unfold skipGap
    split
    · next r =>
      have hdrop := List.length_dropWhile_le (fun c => !isNewline c) r
      have := ih (r.dropWhile fun c => !isNewline c)
      simp only [List.length_cons]
      omega
    · next r =>
      split
      · next t ht =>
        have hend := length_commentEnd ht
        have := ih t
        simp only [List.length_cons]
        omega
      · exact Nat.le_refl _
    · next c r _ _ =>
      split
      · have hdrop := List.length_dropWhile_le isSpace r
        have := ih (r.dropWhile isSpace)
        simp only [List.length_cons]
        omega
      · exact Nat.le_refl _
    · exact Nat.le_refl _

theorem isSpace_of_isNewline {c : Char} (h : isNewline c) : isSpace c := by
  simp only [isNewline, Bool.or_eq_true, beq_iff_eq] at h
  rcases h with rfl | rfl <;> rfl

theorem afterGap_dropWhile {c : Char} (hc : isSpace c) (r : List Char) :
    afterGap (c :: r) = afterGap (r.dropWhile isSpace) := by
  have hdash : c ≠ '-' := by
    rintro rfl
    contradiction
  have hslash : c ≠ '/' := by
    rintro rfl
    contradiction
  have hstep : skipGap (r.length + 1 + 1) (c :: r) = skipGap (r.length + 1) (r.dropWhile isSpace) := by
    rw [skipGap, if_pos hc]
    · exact fun _ h => absurd h hdash
    · exact fun _ h => absurd h hslash
  have hdrop := List.length_dropWhile_le isSpace r
  rw [afterGap, List.length_cons, hstep, skipGap_eq_afterGap (by omega)]

theorem afterGap_space {c : Char} (hc : isSpace c) (r : List Char) :
    afterGap (c :: r) = afterGap r := by
  rw [afterGap_dropWhile hc]
  rcases r with _ | ⟨d, r⟩
  · rfl
  · by_cases hd : isSpace d
    · rw [List.dropWhile_cons_of_pos hd, afterGap_dropWhile hd]
    · rw [List.dropWhile_cons_of_neg hd]

theorem afterGap_dashes (r : List Char) :
    afterGap ('-' :: '-' :: r) = afterGap (r.dropWhile fun c => !isNewline c) := by
  have hdrop := List.length_dropWhile_le (fun c => !isNewline c) r
  rw [afterGap, List.length_cons, List.length_cons, skipGap, skipGap_eq_afterGap (by omega)]

theorem afterGap_commentLine {line : List Char} {c : Char} (h : IsCommentLine line)
    (hline : InLine line) (hc : isNewline c) (rest : List Char) :
    afterGap (line ++ c :: rest) = afterGap rest := by
  rcases h with rfl | ⟨text, rfl⟩
  · exact afterGap_space (isSpace_of_isNewline hc) rest
  · have htext : ∀ d ∈ text, (!isNewline d) = true := fun d hd => by
      simp [hline d (List.mem_append_right _ hd)]
    simp only [List.cons_append, List.nil_append]
    rw [afterGap_dashes, List.dropWhile_append_of_pos htext,
      List.dropWhile_cons_of_neg (by simp [hc]), afterGap_space (isSpace_of_isNewline hc)]

/-- Comments in front of a text are passed over. -/
theorem afterGap_commented {text : List Char} {c : Char} (h : Commented text) (hc : isNewline c)
    (rest : List Char) : afterGap (text ++ c :: rest) = afterGap rest := by
  by_cases hline : InLine text
  · have hcomment : IsCommentLine text := h text (by simp [lines_inLine hline])
    exact afterGap_commentLine hcomment hline hc rest
  · obtain ⟨first, d, last, rfl, hd⟩ := exists_newline hline
    obtain ⟨hfirst, hlast⟩ := (commented_newline hd).mp h
    rw [List.append_assoc, List.cons_append, afterGap_commented hfirst hd,
      afterGap_commented hlast hc]
termination_by text.length
decreasing_by all_goals subst_vars; simp only [List.length_append, List.length_cons]; omega

/-! ## Words behind comments -/

theorem length_firstWord_le (s : List Char) : (firstWord s).1.length ≤ s.length := by
  have hgap := length_skipGap_le (s.length + 1) s
  unfold firstWord
  dsimp only
  split
  · exact Nat.zero_le _
  · exact hgap
  · exact hgap

/-- What does not count in front of a text only moves its words. -/
theorem scanFrom_gap {gap rest : List Char} (h : afterGap (gap ++ rest) = afterGap rest) (steps offset : Nat) :
    scanFrom steps offset (gap ++ rest) = scanFrom steps (offset + gap.length) rest := by
  rcases steps with _ | steps
  · rfl
  · have hword := firstWord_congr h
    have hlength := length_firstWord_le rest
    have hstart : offset + ((gap ++ rest).length - (firstWord rest).1.length) =
        offset + gap.length + (rest.length - (firstWord rest).1.length) := by
      simp only [List.length_append]
      omega
    rw [scanFrom, scanFrom, hword]
    simp only [hstart]

theorem Scans.behind_gap {gap rest : List Char} {tokens : List Token} (hrest : Scans rest tokens)
    (h : afterGap (gap ++ rest) = afterGap rest) : Scans (gap ++ rest) tokens := by
  intro steps offset hsteps
  rw [scanFrom_gap h, hrest steps _ hsteps]

/-- Complete comment lines leave no trace in front of a text. -/
theorem Scans.behind {gap rest : List Char} {tokens : List Token} (hrest : Scans rest tokens)
    (h : Commented gap) (hend : ['\n'] <:+ gap) : Scans (gap ++ rest) tokens := by
  obtain ⟨text, rfl⟩ := hend
  refine hrest.behind_gap ?_
  rw [List.append_assoc, List.singleton_append]
  exact afterGap_commented ((commented_newline (by rfl)).mp h).1 (by rfl) rest

/-- The scanner reaches the end of the text and takes it apart into these words. -/
structure Reads (s : List Char) (tokens : List Token) : Prop where
  noZero : '\x00' ∉ s
  short : tokens.length ≤ s.length
  scans : Scans s tokens

theorem reads_nil : Reads [] [] :=
  ⟨List.not_mem_nil, Nat.le_refl _, scans_nil rfl⟩

theorem Reads.behind {gap rest : List Char} {tokens : List Token} (hrest : Reads rest tokens)
    (h : Commented gap) (hend : ['\n'] <:+ gap) (hzero : '\x00' ∉ gap) :
    Reads (gap ++ rest) tokens where
  noZero hmem := (List.mem_append.mp hmem).elim hzero hrest.noZero
  short := by
    rw [List.length_append]
    exact Nat.le_add_left_of_le hrest.short
  scans := hrest.scans.behind h hend

theorem Reads.behind_newline {rest : List Char} {tokens : List Token} (hrest : Reads rest tokens) :
    Reads ('\n' :: rest) tokens :=
  hrest.behind (by decide) (List.suffix_rfl : ['\n'] <:+ ['\n']) (by decide)

/-- The words of a text at the end of a line are its own, whatever follows in later lines. -/
structure StandsAlone (text : List Char) (tokens : List Token) : Prop where
  noZero : '\x00' ∉ text
  short : tokens.length ≤ text.length
  scans : ∀ rest more, Scans rest more → Scans (text ++ '\n' :: rest) (tokens ++ more)

theorem StandsAlone.reads {text rest : List Char} {tokens more : List Token}
    (h : StandsAlone text tokens) (hrest : Reads rest more) :
    Reads (text ++ '\n' :: rest) (tokens ++ more) where
  noZero hmem := (List.mem_append.mp hmem).elim h.noZero hrest.behind_newline.noZero
  short := by
    rw [List.length_append, List.length_append]
    exact Nat.add_le_add h.short hrest.behind_newline.short
  scans := h.scans rest more hrest.scans

theorem standsAlone_of_frontWords {n : Nat} {text : List Char} {tokens : List Token}
    (hzero : '\x00' ∉ text) (hshort : tokens.length ≤ text.length)
    (h : ∀ rest, frontWords n (text ++ '\n' :: rest) = some (tokens, '\n' :: rest)) :
    StandsAlone text tokens where
  noZero := hzero
  short := hshort
  scans rest _ hrest :=
    scans_frontWords (h rest) (hrest.behind (by decide) (List.suffix_rfl : ['\n'] <:+ ['\n']))

/-- Where words stand plays no part in what joins them. -/
theorem joinAll_places (places places' : Nat → Nat × String) (tokens : List Token) :
    (Lexeme.joinAll (lexemesAt places tokens)).map (·.token) =
      (Lexeme.joinAll (lexemesAt places' tokens)).map (·.token) := by
  induction tokens generalizing places places' with
  | nil => rfl
  | cons token tokens ih =>
    rcases tokens with _ | ⟨next, tokens⟩
    · rfl
    · have hrest := ih (fun i => places (i + 1)) (fun i => places' (i + 1))
      simp only [lexemesAt] at hrest
      simp only [lexemesAt, Lexeme.joinAll, List.map_cons, hrest, List.cons.injEq, and_true]
      split
      · split <;> rfl
      · rfl

theorem scan_eq_of_reads {s s' : String} {tokens : List Token} (h : Reads s.toList tokens)
    (h' : Reads s'.toList tokens) : (scan s).map (·.token) = (scan s').map (·.token) := by
  obtain ⟨places, hs⟩ := scan_of_scans h.scans h.noZero h.short
  obtain ⟨places', hs'⟩ := scan_of_scans h'.scans h'.noZero h'.short
  rw [hs, hs', joinAll_places places places']

end SchemaScript.Sql
