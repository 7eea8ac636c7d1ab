import SchemaScript.Proofs.Sql.SequenceText

/-!
# Bounds of partitions in statements

The rows of a partition are given where it is created (`statements_partition`), or where it is attached to its parent
(`statements_attachment`); both statements are read with one reader (`partitionBound_tokens`). A bound is printed as
words that are read as itself, if its values are (`exists_hasWords_attachment`).
-/

namespace SchemaScript.Sql

/-! ## Words that depend on the next one -/

/-- A token as it is in front of another one. -/
def Token.beside (token next : Token) : Token :=
  match token with
  | .word w => if isJoinedTo token next then .joined w else token
  | _ => token

/-- The tokens of a text, with the meaning that each has in front of the next one. -/
def joined : List Token → List Token
  | token :: next :: rest => token.beside next :: joined (next :: rest)
  | rest => rest

section

variable {token : Token} {back : List Token}

theorem joinAll_lexemesAt (places : Nat → Nat × String) (tokens : List Token) :
    Lexeme.joinAll (lexemesAt places tokens) = lexemesAt places (joined tokens) := by
  fun_induction joined tokens generalizing places with
  | case1 token next rest ih =>
    have hlater := ih fun i => places (i + 1)
    rw [lexemesAt] at hlater
    rw [lexemesAt, lexemesAt, Lexeme.joinAll, hlater, lexemesAt]
    cases token with
    | word w =>
      cases next with
      | word other =>
        unfold Token.beside isJoinedTo
        dsimp only
        split <;> rfl
      | _ => rfl
    | _ => rfl
  | case2 rest h =>
    rcases rest with _ | ⟨a, _ | ⟨b, more⟩⟩
    · rfl
    · rfl
    · exact absurd rfl (h a b more)

theorem beside_apart {next : Token} (h : isJoinedTo token next = false) : token.beside next = token := by
  unfold Token.beside
  split
  · rw [h]
    rfl
  · rfl

theorem joined_cons (h : StandsApart token) (back : List Token) : joined (token :: back) = token :: joined back := by
  cases back with
  | nil => rfl
  | cons next back => rw [joined, beside_apart (h next).1]

/-- The first of the tokens stands apart. -/
def HeadApart (tokens : List Token) : Prop :=
  ∀ token ∈ tokens.head?, StandsApart token

theorem StandsApart.head (h : StandsApart token) (back : List Token) : HeadApart (token :: back) := by
  rintro _ ⟨⟩
  exact h

theorem HeadApart.append {front : List Token} (h : HeadApart front) (hback : HeadApart back) :
    HeadApart (front ++ back) := by
  cases front with
  | nil => exact hback
  | cons token front => exact h

/-- In front of a word that stands apart, words are joined as they are by themselves. -/
theorem joined_append (front : List Token) (h : HeadApart back) :
    joined (front ++ back) = joined front ++ joined back := by
  fun_induction joined front with
  | case1 first next rest ih =>
    rw [List.cons_append, List.cons_append, joined, ← List.cons_append, ih, List.cons_append]
  | case2 rest hrest =>
    match rest with
    | [] => rfl
    | [first] =>
      cases back with
      | nil => rfl
      | cons next back =>
        have hnext : StandsApart next := h next rfl
        rw [List.cons_append, List.nil_append, joined, beside_apart (hnext first).2]
        rfl
    | a :: b :: more => exact absurd rfl (hrest a b more)

theorem Unjoined.joined {tokens : List Token} (h : Unjoined tokens) : joined tokens = tokens := by
  fun_induction Sql.joined tokens with
  | case1 token next rest ih =>
    obtain ⟨hfirst, hrest⟩ := List.isChain_cons_cons.mp h
    rw [beside_apart hfirst, ih hrest]
  | case2 rest => rfl

theorem joined_pathTokens (path : List String) : joined (pathTokens path) = pathTokens path := by
  have hunjoined : Unjoined (pathTokens path ++ []) := unjoined_path path ⟨List.isChain_nil, by simp⟩
  rw [List.append_nil] at hunjoined
  exact hunjoined.joined

end

/-! ## Values -/

/-- A value in a bound: an expression, as it is written in a text and as it is printed. -/
structure Value where
  tokens : List Token
  phrase : Phrase
  /-- The words are read as this expression, with rules that are deep enough for a text that has them all. -/
  isRead : ∀ depth, 3 * tokens.length + 10 ≤ depth → ∀ next, next = .symbol "," ∨ next = .symbol ")" → ∀ places more,
    ∃ places', (Reader.rulesTo depth).expression (lexemesAt places (tokens ++ next :: more)) =
      .ok (phrase, lexemesAt places' (next :: more))

/-- Values between parentheses, at least one. -/
structure ValueList where
  first : Value
  others : List Value

namespace ValueList

def values (list : ValueList) : List Value :=
  list.first :: list.others

def otherTokens (list : ValueList) : List Token :=
  list.others.flatMap fun v => .symbol "," :: v.tokens

def tokens (list : ValueList) : List Token :=
  .symbol "(" :: (list.first.tokens ++ (list.otherTokens ++ [.symbol ")"]))

def texts (list : ValueList) : List String :=
  list.values.map fun v => v.phrase.text

def text (list : ValueList) : String :=
  enclosed (commaList list.texts)

end ValueList

namespace Reader

section

variable {depth : Nat}

/-- No operator goes on behind a value. -/
theorem operations_ends {r : Rules} {extent : Extent} {rank : Nat} {next : Token} {more : List Token} (left : Phrase)
    (hnext : next = .symbol "," ∨ next = .symbol ")") (places : Nat → Nat × String) :
    operations r extent rank left (lexemesAt places (next :: more)) = .ok (left, lexemesAt places (next :: more)) := by
  rcases hnext with rfl | rfl <;> rfl

/-- The values of a list are read one after another. -/
theorem boundValues_tokens (list : ValueList) (hdepth : 3 * list.tokens.length + 10 ≤ depth)
    (places : Nat → Nat × String) (more : List Token) :
    ∃ places', boundValues (rulesTo depth) (lexemesAt places (list.tokens ++ more)) =
      .ok (list.text, lexemesAt places' more) := by
  obtain ⟨first, others⟩ := list
  have hlength : first.tokens.length + (others.flatMap fun v => Token.symbol "," :: v.tokens).length + 2 ≤
      (ValueList.tokens ⟨first, others⟩).length := by
    simp only [ValueList.tokens, ValueList.otherTokens, List.length_cons, List.length_append, List.length_nil]
    omega
  have hothers : ∀ v ∈ others, 3 * v.tokens.length + 10 ≤ depth := by
    intro v hv
    have hpart : (Token.symbol "," :: v.tokens).Sublist (others.flatMap fun v => Token.symbol "," :: v.tokens) := by
      rw [List.flatMap_def]
      exact List.sublist_flatten_of_mem (List.mem_map_of_mem hv)
    have hshort := hpart.length_le
    rw [List.length_cons] at hshort
    omega
  have hvalues : ∀ v ∈ first :: others, ReadsInList (rulesTo depth).expression v.tokens v.phrase :=
    List.forall_mem_cons.mpr ⟨first.isRead depth (by omega), fun v hv => v.isRead depth (hothers v hv)⟩
  obtain ⟨places', hlist⟩ := list_items Value.phrase hvalues (fun i => places (i + 1)) more
  have hall : ValueList.tokens ⟨first, others⟩ ++ more = .symbol "(" ::
      (first.tokens ++ ((others.flatMap fun v => .symbol "," :: v.tokens) ++ .symbol ")" :: more)) := by
    simp [ValueList.tokens, ValueList.otherTokens]
  have hsame : (first.phrase :: others.map (·.phrase)).map (·.text) = ValueList.texts ⟨first, others⟩ := by
    simp [ValueList.texts, ValueList.values]
  have htexts : parenthesized (plainExpressions (rulesTo depth))
      (lexemesAt places (ValueList.tokens ⟨first, others⟩ ++ more)) =
        .ok (ValueList.texts ⟨first, others⟩, lexemesAt (fun i => places' (i + 1)) more) := by
    rw [← hsame, hall]
    exact bind_ok (a := ()) rfl (bind_ok (bind_ok hlist rfl) rfl)
  exact ⟨_, bind_ok htexts rfl⟩

end

end Reader

/-! ## Bounds -/

/-- The rows that a partition takes from its parent. -/
inductive Bound
  /-- The rows that no other partition takes. -/
  | rest
  /-- The rows whose hash leaves a remainder, which may be written in front of the modulus. -/
  | hash (modulus remainder : Fin (largestInteger + 1)) (isSwapped : Bool)
  | among (values : ValueList)
  | between (low high : ValueList)

namespace Bound

def hashTokens (name : String) (n : Nat) : List Token :=
  [.word name, .integer n]

def tokens : Bound → List Token
  | rest => [.word "default"]
  | hash modulus remainder isSwapped =>
    let modulus := hashTokens "modulus" modulus
    let remainder := hashTokens "remainder" remainder
    let entries := if isSwapped then remainder ++ .symbol "," :: modulus else modulus ++ .symbol "," :: remainder
    .word "for" :: .word "values" :: .word "with" :: .symbol "(" :: (entries ++ [.symbol ")"])
  | among values => .word "for" :: .word "values" :: .word "in" :: values.tokens
  | between low high => .word "for" :: .word "values" :: .word "from" :: (low.tokens ++ .word "to" :: high.tokens)

def text : Bound → String
  | rest => "DEFAULT"
  | hash modulus remainder _ =>
    "FOR VALUES WITH " ++ enclosed (commaList
      ["MODULUS " ++ Text.writeNatural modulus, "REMAINDER " ++ Text.writeNatural remainder])
  | among values => "FOR VALUES IN " ++ values.text
  | between low high => "FOR VALUES FROM " ++ low.text ++ " TO " ++ high.text

def values : Bound → List Value
  | rest | hash _ _ _ => []
  | among values => values.values
  | between low high => low.values ++ high.values

theorem text_ne_empty (bound : Bound) : bound.text ≠ "" := by
  have hfront {front back : String} (hfront : front ≠ "") : front ++ back ≠ "" := fun hempty =>
    hfront (String.append_eq_empty_iff.mp hempty).1
  unfold text
  split
  · decide
  · exact hfront (by decide)
  · exact hfront (by decide)
  · exact hfront (hfront (hfront (by decide)))

end Bound

namespace Reader

/-- A bound is read from its words, wherever it stands. -/
theorem partitionBound_tokens (bound : Bound) {depth : Nat} (hdepth : 3 * bound.tokens.length + 10 ≤ depth)
    (places : Nat → Nat × String) (more : List Token) :
    ∃ places', partitionBound (rulesTo depth) (lexemesAt places (bound.tokens ++ more)) =
      .ok (bound.text, lexemesAt places' more) := by
  cases bound with
  | rest => exact ⟨_, rfl⟩
  | hash modulus remainder isSwapped => cases isSwapped <;> exact ⟨_, rfl⟩
  | among values =>
    have hvalues : 3 * values.tokens.length + 10 ≤ depth := by
      simp only [Bound.tokens, List.length_cons] at hdepth
      omega
    obtain ⟨places', hread⟩ := boundValues_tokens values hvalues (fun i => places (i + 3)) more
    exact ⟨places', bind_ok rfl (bind_ok (a := ()) rfl (bind_ok (a := ()) rfl (bind_ok (a := true) rfl
      (bind_ok hread rfl))))⟩
  | between low high =>
    have hlow : 3 * low.tokens.length + 10 ≤ depth ∧ 3 * high.tokens.length + 10 ≤ depth := by
      simp only [Bound.tokens, List.length_cons, List.length_append] at hdepth
      omega
    obtain ⟨places', hread⟩ := boundValues_tokens low hlow.1 (fun i => places (i + 3))
      (.word "to" :: (high.tokens ++ more))
    obtain ⟨places'', hhigh⟩ := boundValues_tokens high hlow.2 (fun i => places' (i + 1)) more
    rw [Bound.tokens, List.cons_append, List.cons_append, List.cons_append, List.append_assoc, List.cons_append]
    exact ⟨places'', bind_ok rfl (bind_ok (a := ()) rfl (bind_ok (a := ()) rfl (bind_ok (a := false) rfl
      (bind_ok (a := true) rfl (bind_ok hread (bind_ok (a := ()) rfl (bind_ok hhigh rfl)))))))⟩

end Reader

/-! ## Statements -/

/-- The words that create a table as a partition. -/
def partitionTokens (child parent : List String) (bound : Bound) : List Token :=
  .word "create" :: .word "table" :: (pathTokens child ++ (.word "partition" :: .word "of" ::
    (pathTokens parent ++ (bound.tokens ++ [.symbol ";"]))))

/-- The words that attach a table to its parent. -/
def attachmentTokens (parent child : List String) (bound : Bound) : List Token :=
  .word "alter" :: .word "table" :: (pathTokens parent ++ (.word "attach" :: .word "partition" ::
    (pathTokens child ++ (bound.tokens ++ [.symbol ";"]))))

/-- A table without elements of its own that is created as a partition. -/
def partitionOf (child parent : List String) (bound : String) : TableDefinition where
  relation := .ofPath child
  parents := [.ofPath parent]
  bound := some bound

def attachmentStatement (parent child : List String) (bound : String) : Statement :=
  .alterTable (.ofPath parent) [.attachPartition (.ofPath child) bound]

/-- A path of names as it can stand in a statement. -/
structure IsPath (path : List String) : Prop where
  nonempty : path ≠ []
  kept : ∀ n ∈ path, IsKept n
  short : path.length ≤ 3

namespace IsPath

variable {path : List String} (h : IsPath path)
include h

theorem names : ∀ n ∈ path, n ≠ "" :=
  fun n hn => (h.kept n hn).nonempty

end IsPath

namespace Reader

section

variable {depth : Nat} {child parent path : List String} {rest : List Token}

theorem endsParts_bound (bound : Bound) (rest : List Token) : EndsParts (bound.tokens ++ rest) := by
  cases bound <;> exact ⟨by simp [Bound.tokens], by simp [Bound.tokens]⟩

theorem createTable_partition (hchild : IsPath child) (hparent : IsPath parent) (bound : Bound)
    (hdepth : 3 * bound.tokens.length + 10 ≤ depth) (places : Nat → Nat × String) (more : List Token) :
    ∃ places', createTable (rulesTo depth) false false (lexemesAt places (pathTokens child ++
        (.word "partition" :: .word "of" :: (pathTokens parent ++ (bound.tokens ++ .symbol ";" :: more))))) =
      .ok (.createTable (partitionOf child parent bound.text), lexemesAt places' (.symbol ";" :: more)) := by
  have hends (behind : List Token) : EndsParts (.word "partition" :: behind) := ⟨by simp, by simp⟩
  have hnot (behind : List Token) : (Token.word "partition" :: behind).head? ≠ some (.word "not") := by simp
  obtain ⟨places₁, hrelation⟩ := relationName_tokens (r := rulesTo depth) hchild.nonempty hchild.names hchild.short
    (hends (.word "of" :: (pathTokens parent ++ (bound.tokens ++ .symbol ";" :: more)))) places
  obtain ⟨places₂, hof⟩ := relationName_tokens (r := rulesTo depth) hparent.nonempty hparent.names hparent.short
    (endsParts_bound bound (.symbol ";" :: more)) fun i => places₁ (i + 2)
  obtain ⟨places₃, hbound⟩ := partitionBound_tokens bound hdepth places₂ (.symbol ";" :: more)
  have helements : typedElements (rulesTo depth) (lexemesAt places₂ (bound.tokens ++ .symbol ";" :: more)) =
      .ok ([], lexemesAt places₂ (bound.tokens ++ .symbol ";" :: more)) := by
    cases bound <;> rfl
  have hend : tableEnd (rulesTo depth) (lexemesAt places₃ (.symbol ";" :: more)) =
      .ok (none, lexemesAt places₃ (.symbol ";" :: more)) := rfl
  exact ⟨places₃, bind_ok (ifNotExists_path hchild.nonempty (hnot _) places) (bind_ok hrelation (test_false rfl
    (bind_ok (a := true) rfl (bind_ok (a := ()) rfl (bind_ok hof (bind_ok helements (bind_ok hbound
      (bind_ok hend rfl))))))))⟩

/-- A word that may not name a table is never the first of a path. -/
theorem head?_pathTokens_ne (hpath : path ≠ []) {w : String} (hw : needsQuotes w) (rest : List Token) :
    (pathTokens path ++ rest).head? ≠ some (.word w) := by
  obtain ⟨name, names, rfl⟩ := List.exists_cons_of_ne_nil hpath
  rw [pathTokens, List.cons_append, List.head?_cons]
  intro heq
  have htoken := Option.some.inj heq
  unfold nameToken at htoken
  split at htoken
  · contradiction
  · next hquotes =>
    obtain rfl := Token.word.inj htoken
    exact hquotes hw

theorem ifExists_path (hpath : path ≠ []) (hrest : rest.head? ≠ some (.word "exists")) (places : Nat → Nat × String) :
    ifExists (lexemesAt places (pathTokens path ++ rest)) =
      .ok (false, lexemesAt places (pathTokens path ++ rest)) := by
  obtain ⟨name, names, rfl⟩ := List.exists_cons_of_ne_nil hpath
  have hsecond : (pointedTokens names ++ rest).head? ≠ some (.word "exists") := by
    cases names with
    | nil => exact hrest
    | cons next names => simp [pointedTokens]
  rw [pathTokens, List.cons_append]
  refine test_false ?_ rfl
  refine congrArg (fun b => Except.ok (b, _)) ?_
  cases hafter : pointedTokens names ++ rest with
  | nil => exact beq_eq_false_iff_ne.mpr (by simp [lexemesAt])
  | cons second more =>
    rw [hafter] at hsecond
    have hne : second ≠ .word "exists" := by simpa using hsecond
    exact beq_eq_false_iff_ne.mpr (by simp [lexemesAt, hne])

theorem openRelation_tokens (r : Rules) (hpath : IsPath path) (hrest : EndsParts rest)
    (hstar : rest.head? ≠ some (.symbol "*")) (places : Nat → Nat × String) :
    ∃ places', openRelation r (lexemesAt places (pathTokens path ++ rest)) =
      .ok (.ofPath path, lexemesAt places' rest) := by
  obtain ⟨places', hread⟩ := relationPath_tokens (r := r) hpath.nonempty hpath.names hpath.short hrest places
  have honly := accept_other (head?_pathTokens_ne hpath.nonempty (w := "only") (by decide) rest) places
  exact ⟨places', bind_ok (test_false honly (bind_ok hread (bind_ok (accept_other hstar places') rfl))) rfl⟩

theorem alterTable_attachment (hparent : IsPath parent) (hchild : IsPath child) (bound : Bound)
    (hdepth : 3 * bound.tokens.length + 10 ≤ depth) (places : Nat → Nat × String) (more : List Token) :
    ∃ places', alterTable (rulesTo depth) (lexemesAt places (pathTokens parent ++
        (.word "attach" :: .word "partition" :: (pathTokens child ++ (bound.tokens ++ .symbol ";" :: more))))) =
      .ok (attachmentStatement parent child bound.text, lexemesAt places' (.symbol ";" :: more)) := by
  have hends (behind : List Token) : EndsParts (.word "attach" :: behind) := ⟨by simp, by simp⟩
  have hother (behind : List Token) (t : Token) (ht : .word "attach" ≠ t) :
      (Token.word "attach" :: behind).head? ≠ some t := by
    simpa using ht
  have hall := accept_other (head?_pathTokens_ne hparent.nonempty (w := "all") (by decide) (.word "attach" ::
    .word "partition" :: (pathTokens child ++ (bound.tokens ++ .symbol ";" :: more)))) places
  obtain ⟨places₁, hrelation⟩ := openRelation_tokens (rulesTo depth) hparent
    (hends (.word "partition" :: (pathTokens child ++ (bound.tokens ++ .symbol ";" :: more))))
    (hother _ _ (by decide)) places
  obtain ⟨places₂, hof⟩ := relationName_tokens (r := rulesTo depth) hchild.nonempty hchild.names hchild.short
    (endsParts_bound bound (.symbol ";" :: more)) fun i => places₁ (i + 2)
  obtain ⟨places₃, hbound⟩ := partitionBound_tokens bound hdepth places₂ (.symbol ";" :: more)
  have hchange : partitionChange (rulesTo depth) (lexemesAt places₁ (.word "attach" :: .word "partition" ::
      (pathTokens child ++ (bound.tokens ++ .symbol ";" :: more)))) =
        .ok (some (.attachPartition (.ofPath child) bound.text), lexemesAt places₃ (.symbol ";" :: more)) :=
    bind_ok (a := true) rfl (bind_ok (a := ()) rfl (bind_ok hof (bind_ok hbound rfl)))
  exact ⟨places₃, bind_ok (a := none) (test_false hall rfl)
    (bind_ok (ifExists_path hparent.nonempty (hother _ _ (by decide)) places) (bind_ok hrelation
      (bind_ok (a := none) rfl (bind_ok hchange rfl))))⟩

end

end Reader

namespace Reader

section

variable {r : Rules} {places places' : Nat → Nat × String} {rest more : List Token} {s : Statement}

theorem nextStatement_createTable
    (h : createTable r false false (lexemesAt (fun i => places (i + 2)) rest) =
      .ok (s, lexemesAt places' (.symbol ";" :: more))) (found : List Statement) :
    nextStatement r found (lexemesAt places (.word "create" :: .word "table" :: rest)) =
      .ok (some (s :: found), lexemesAt (fun i => places' (i + 1)) more) := by
  have hrelation : relationCreation r (lexemesAt (fun i => places (i + 1)) (.word "table" :: rest)) =
      .ok (some s, lexemesAt places' (.symbol ";" :: more)) :=
    bind_ok rfl (bind_ok rfl (bind_ok rfl (bind_ok rfl (bind_ok rfl (bind_ok h rfl)))))
  have houter : outerStatement r (lexemesAt places (.word "create" :: .word "table" :: rest)) =
      .ok (s, lexemesAt places' (.symbol ";" :: more)) :=
    bind_ok rfl (bind_ok rfl (bind_ok rfl (bind_ok rfl (bind_ok rfl (bind_ok hrelation rfl)))))
  exact test_false rfl (bind_ok rfl (bind_ok houter rfl))

theorem nextStatement_alterTable
    (h : alterTable r (lexemesAt (fun i => places (i + 2)) rest) = .ok (s, lexemesAt places' (.symbol ";" :: more)))
    (found : List Statement) :
    nextStatement r found (lexemesAt places (.word "alter" :: .word "table" :: rest)) =
      .ok (some (s :: found), lexemesAt (fun i => places' (i + 1)) more) := by
  have hchange : change r (lexemesAt (fun i => places (i + 1)) (.word "table" :: rest)) =
      .ok (s, lexemesAt places' (.symbol ";" :: more)) := bind_ok rfl h
  have houter : outerStatement r (lexemesAt places (.word "alter" :: .word "table" :: rest)) =
      .ok (s, lexemesAt places' (.symbol ";" :: more)) :=
    bind_ok rfl (bind_ok rfl (bind_ok rfl (bind_ok rfl hchange)))
  exact test_false rfl (bind_ok rfl (bind_ok houter rfl))

end

end Reader

/-- The text is taken apart into these words. -/
def HasWords (sql : String) (words : List Token) : Prop :=
  ∃ scanned, Reads sql.toList scanned ∧ joined scanned = words

section

variable {sql : String} {words : List Token} {s : Statement}

/-- A text that is taken apart word by word up to its end. -/
theorem hasWords_of_frontWords (n : Nat) (scanned : List Token) (h : frontWords n sql.toList = some (scanned, []))
    (hzero : '\x00' ∉ sql.toList) (hshort : scanned.length ≤ sql.toList.length) (hwords : joined scanned = words) :
    HasWords sql words := by
  have hscans := scans_frontWords h (scans_nil rfl)
  rw [List.append_nil] at hscans
  exact ⟨scanned, ⟨hzero, hshort, hscans⟩, hwords⟩

theorem HasWords.scan (h : HasWords sql words) : ∃ places, scan sql = lexemesAt places words := by
  obtain ⟨scanned, hreads, rfl⟩ := h
  obtain ⟨places, hscan⟩ := scan_of_scans hreads.scans hreads.noZero hreads.short
  exact ⟨places, hscan.trans (joinAll_lexemesAt places scanned)⟩

/-- A text is read if its words are one statement for rules that are deep enough for so many. -/
theorem HasWords.statements (h : HasWords sql words)
    (hstatement : ∀ depth, 3 * words.length + 10 ≤ depth → ∀ places,
      Reader.nextStatement (Reader.rulesTo depth) [] (lexemesAt places words) = .ok (some [s], [])) :
    statements sql = .ok [s] := by
  obtain ⟨places, hscan⟩ := h.scan
  have hlength : (Sql.scan sql).length = words.length := by
    rw [hscan, Reader.length_lexemesAt]
  have hnext := hstatement (3 * (Sql.scan sql).length + 10) (by rw [hlength]) places
  have hall : Reader.script (Reader.rulesFor (Sql.scan sql)) (Sql.scan sql) = .ok ([s], []) := by
    rw [← hscan] at hnext
    exact Reader.bind_ok (Reader.repeatUpTo_some hnext (by cases (Sql.scan sql).length <;> rfl)) rfl
  rw [Sql.statements]
  show Except.bind (Reader.script _ _) _ = _
  rw [hall]
  rfl

end

section

variable {sql : String} {child parent : List String}

theorem statements_partition (hchild : IsPath child) (hparent : IsPath parent) (bound : Bound)
    (h : HasWords sql (partitionTokens child parent bound)) :
    statements sql = .ok [.createTable (partitionOf child parent bound.text)] := by
  refine h.statements fun depth hdepth places => ?_
  have hbound : 3 * bound.tokens.length + 10 ≤ depth := by
    simp only [partitionTokens, List.length_cons, List.length_append] at hdepth
    omega
  obtain ⟨places', hcreate⟩ := Reader.createTable_partition hchild hparent bound hbound (fun i => places (i + 2)) []
  exact Reader.nextStatement_createTable hcreate []

theorem statements_attachment (hparent : IsPath parent) (hchild : IsPath child) (bound : Bound)
    (h : HasWords sql (attachmentTokens parent child bound)) :
    statements sql = .ok [attachmentStatement parent child bound.text] := by
  refine h.statements fun depth hdepth places => ?_
  have hbound : 3 * bound.tokens.length + 10 ≤ depth := by
    simp only [attachmentTokens, List.length_cons, List.length_append] at hdepth
    omega
  obtain ⟨places', halter⟩ := Reader.alterTable_attachment hparent hchild bound hbound (fun i => places (i + 2)) []
  exact Reader.nextStatement_alterTable halter []

end

/-! ## Printed bounds -/

/-- The characters are taken apart into these words, in front of any of these ends. -/
structure ScansAs (ends : List Char) (s : List Char) (words : List Token) : Prop where
  noZero : '\x00' ∉ s
  short : words.length ≤ s.length
  scans : ∀ d ∈ ends, ∀ rest more, Scans (d :: rest) more → Scans (s ++ d :: rest) (words ++ more)

namespace ScansAs

variable {ends ends' : List Char} {s t : List Char} {words more : List Token} {d : Char}

theorem append (h : ScansAs ends s words) (ht : ScansAs ends' (d :: t) more) (hd : d ∈ ends) :
    ScansAs ends' (s ++ d :: t) (words ++ more) where
  noZero hmem := (List.mem_append.mp hmem).elim h.noZero ht.noZero
  short := by
    rw [List.length_append, List.length_append]
    exact Nat.add_le_add h.short ht.short
  scans e he rest more' hrest := by
    rw [List.append_assoc, List.append_assoc]
    exact h.scans d hd _ _ (ht.scans e he rest more' hrest)

theorem blank (h : ScansAs ends s words) : ScansAs ends (' ' :: s) words where
  noZero := by simpa using h.noZero
  short := Nat.le_succ_of_le h.short
  scans e he rest more' hrest := (h.scans e he rest more' hrest).behind_blank

/-- A parenthesis or comma is a word whatever follows it. -/
theorem symbol {c : Char} (hc : c ∈ ['(', ')', ',']) (h : ScansAs ends s words) :
    ScansAs ends (c :: s) (.symbol (String.ofList [c]) :: words) where
  noZero := by
    have hzero : '\x00' ≠ c := by
      rintro rfl
      contradiction
    simpa [hzero] using h.noZero
  short := Nat.succ_le_succ h.short
  scans e he rest more' hrest := by
    have hword (r : List Char) : firstWord (c :: r) = (c :: r, some (.word (.symbol (String.ofList [c])) r)) := by
      simp only [List.mem_cons, List.not_mem_nil, or_false] at hc
      rcases hc with rfl | rfl | rfl
      all_goals
        rw [firstWord_front rfl (by decide) (by decide), nextWord, letteredWord?_other (by decide)]
        rfl
    exact scans_cons (hword _) (h.scans e he rest more' hrest)

theorem nil (ends : List Char) : ScansAs ends [] [] where
  noZero := List.not_mem_nil
  short := Nat.le_refl _
  scans _ _ _ _ hrest := hrest

theorem of_frontWords (n : Nat) (hzero : '\x00' ∉ s) (hshort : words.length ≤ s.length)
    (h : ∀ rest, frontWords n (s ++ d :: rest) = some (words, d :: rest)) : ScansAs [d] s words where
  noZero := hzero
  short := hshort
  scans e he rest _ hrest := by
    obtain rfl := List.mem_singleton.mp he
    exact scans_frontWords (h rest) hrest

/-- Names with points between them are the same words in front of anything that cannot go on with a name. -/
theorem path (ends : List Char) {path : List String} (hends : ends.all isBreak) (hnonempty : path ≠ [])
    (h : ∀ n ∈ path, IsKept n) : ScansAs ends (pathText path).toList (pathTokens path) where
  noZero := not_mem_pathText (by decide) (by decide) fun n hn => (h n hn).noZero
  short := length_pathTokens_le fun n hn => (h n hn).nonempty
  scans d hd _ _ hrest := scans_path hnonempty h (List.all_eq_true.mp hends d hd) hrest

theorem digits (n : Fin (largestInteger + 1)) : ScansAs [',', ')'] (Text.digits n) [.integer n] where
  noZero hmem := by
    have := Json.isDigit_of_mem_digits hmem
    contradiction
  short := Nat.length_toDigits_pos
  scans d hd rest more hrest := by
    have hends : endsNumber d := by
      simp only [List.mem_cons, List.not_mem_nil, or_false] at hd
      rcases hd with rfl | rfl <;> rfl
    have htoken : digitsToken n = .integer n := if_pos (Nat.le_of_lt_succ n.isLt)
    have hword := firstWord_digits n hends rest
    rw [htoken] at hword
    exact scans_cons hword hrest

end ScansAs

/-- Printed and read again, the value is printed the same. -/
def Value.IsStable (v : Value) : Prop :=
  ∃ (again : Value) (words : List Token), again.phrase.text = v.phrase.text ∧
    ScansAs [',', ')'] v.phrase.text.toList words ∧ joined words = again.tokens

/-- The values of a list behind the first one, up to the parenthesis that closes it. -/
def othersText (texts : List String) : List Char :=
  (texts.flatMap fun s => ',' :: ' ' :: s.toList) ++ [')']

theorem exists_othersText (texts : List String) : ∃ d t, othersText texts = d :: t ∧ d ∈ [',', ')'] := by
  cases texts with
  | nil => exact ⟨_, _, rfl, by decide⟩
  | cons => exact ⟨_, _, rfl, by decide⟩

theorem toList_enclosed_commaList (first : String) (others : List String) :
    (enclosed (commaList (first :: others))).toList = '(' :: (first.toList ++ othersText others) := by
  have hlist : (commaList (first :: others)).toList =
      first.toList ++ others.flatMap fun s => ',' :: ' ' :: s.toList := toList_intercalate_cons ", " first others
  have hend : ")".toList = [')'] := rfl
  rw [enclosed, String.toList_append, String.toList_append, hlist, othersText, hend, List.append_assoc,
    List.append_assoc]
  rfl

/-- Words with commas before them, up to the parenthesis that closes the list. -/
def othersTokens (parts : List (List Token)) : List Token :=
  (parts.flatMap fun words => .symbol "," :: words) ++ [.symbol ")"]

theorem headApart_othersTokens (parts : List (List Token)) : HeadApart (othersTokens parts) := by
  cases parts with
  | nil => exact (standsApart_symbol ")").head []
  | cons => exact (standsApart_symbol ",").head _

theorem joined_othersTokens (parts : List (List Token)) :
    joined (othersTokens parts) = othersTokens (parts.map joined) := by
  induction parts with
  | nil => rfl
  | cons words parts ih =>
    have hfirst (words : List Token) (parts : List (List Token)) :
        othersTokens (words :: parts) = .symbol "," :: (words ++ othersTokens parts) := by
      simp [othersTokens]
    rw [hfirst, joined_cons (standsApart_symbol ","), joined_append words (headApart_othersTokens parts), ih,
      List.map_cons, hfirst]

theorem ScansAs.others (ends : List Char) {texts : List String} {parts : List (List Token)}
    (h : List.Forall₂ (fun text words => ScansAs [',', ')'] text.toList words) texts parts) :
    ScansAs ends (othersText texts) (othersTokens parts) := by
  induction h with
  | nil => exact (ScansAs.nil ends).symbol (by decide)
  | @cons text words texts parts hprinted hmore ih =>
    obtain ⟨d, t, hrow, hd⟩ := exists_othersText texts
    rw [hrow] at ih
    have hall : othersText (text :: texts) = ',' :: ' ' :: (text.toList ++ d :: t) := by
      rw [← hrow]
      simp [othersText]
    have hwords : othersTokens (words :: parts) = .symbol "," :: (words ++ othersTokens parts) := by
      simp [othersTokens]
    rw [hall, hwords]
    exact (hprinted.append ih hd).blank.symbol (by decide)

/-- A list between parentheses is its items, whatever follows it. -/
theorem ScansAs.enclosed (ends : List Char) {text : String} {texts : List String} {words : List Token}
    {parts : List (List Token)} (hfirst : ScansAs [',', ')'] text.toList words)
    (h : List.Forall₂ (fun text words => ScansAs [',', ')'] text.toList words) texts parts) :
    ScansAs ends (enclosed (commaList (text :: texts))).toList (.symbol "(" :: (words ++ othersTokens parts)) := by
  obtain ⟨d, t, hrow, hd⟩ := exists_othersText texts
  have hothers := ScansAs.others ends h
  rw [toList_enclosed_commaList, hrow]
  rw [hrow] at hothers
  exact (hfirst.append hothers hd).symbol (by decide)

theorem exists_others_again {others : List Value} (h : ∀ v ∈ others, v.IsStable) :
    ∃ (agains : List Value) (parts : List (List Token)),
      agains.map (fun v => v.phrase.text) = others.map (fun v => v.phrase.text) ∧
      List.Forall₂ (fun text words => ScansAs [',', ')'] text.toList words) (others.map fun v => v.phrase.text) parts ∧
      parts.map joined = agains.map Value.tokens := by
  induction others with
  | nil => exact ⟨[], [], rfl, .nil, rfl⟩
  | cons v others ih =>
    obtain ⟨hv, hothers⟩ := List.forall_mem_cons.mp h
    obtain ⟨again, words, htext, hprinted, hjoined⟩ := hv
    obtain ⟨agains, parts, htexts, hmore, hlater⟩ := ih hothers
    refine ⟨again :: agains, words :: parts, ?_, .cons hprinted hmore, ?_⟩
    · rw [List.map_cons, List.map_cons, htext, htexts]
    · rw [List.map_cons, List.map_cons, hjoined, hlater]

theorem ValueList.exists_again (list : ValueList) (ends : List Char) (h : ∀ v ∈ list.values, v.IsStable) :
    ∃ (again : ValueList) (words : List Token), again.text = list.text ∧ ScansAs ends list.text.toList words ∧
      HeadApart words ∧ joined words = again.tokens := by
  obtain ⟨first, others⟩ := list
  obtain ⟨hfirst, hothers⟩ := List.forall_mem_cons.mp h
  obtain ⟨again, words, htext, hprinted, hjoined⟩ := hfirst
  obtain ⟨agains, parts, htexts, hmore, hlater⟩ := exists_others_again hothers
  refine ⟨⟨again, agains⟩, .symbol "(" :: (words ++ othersTokens parts), ?_, ?_, (standsApart_symbol "(").head _, ?_⟩
  · unfold ValueList.text ValueList.texts ValueList.values
    rw [List.map_cons, List.map_cons, htext, htexts]
  · exact .enclosed ends hprinted hmore
  · rw [joined_cons (standsApart_symbol "("), joined_append words (headApart_othersTokens parts), hjoined,
      joined_othersTokens, hlater, othersTokens, List.flatMap_map]
    rfl

/-- The words `FOR VALUES` and one more. -/
def valuesTokens (w : String) : List Token :=
  [.word "for", .word "values", .word w]

theorem headApart_valuesTokens (w : String) (words : List Token) : HeadApart (valuesTokens w ++ words) :=
  (standsApart_word (by decide)).head _

theorem exists_hash_again (modulus remainder : Fin (largestInteger + 1)) (isSwapped : Bool) :
    ∃ words, ScansAs [';'] (Bound.hash modulus remainder isSwapped).text.toList (valuesTokens "with" ++ words) ∧
      joined (valuesTokens "with" ++ words) = (Bound.hash modulus remainder false).tokens := by
  have hstart : ScansAs [' '] "FOR VALUES WITH (MODULUS".toList
      (valuesTokens "with" ++ [.symbol "(", .word "modulus"]) :=
    .of_frontWords 5 (by decide) (by decide) fun _ => rfl
  have hsecond : ScansAs [' '] "REMAINDER".toList [.word "remainder"] :=
    .of_frontWords 1 (by decide) (by decide) fun _ => rfl
  have hend : ScansAs [';'] [')'] [.symbol ")"] := (ScansAs.nil [';']).symbol (by decide)
  have hnumber := ((ScansAs.digits remainder).append hend (by decide)).blank
  have hentry := (hsecond.append hnumber (by decide)).blank.symbol (c := ',') (by decide)
  have hprinted := hstart.append ((ScansAs.digits modulus).append hentry (by decide)).blank (by decide)
  have hlist : (Bound.hash modulus remainder isSwapped).text.toList = "FOR VALUES WITH (MODULUS".toList ++
      ' ' :: (Text.digits modulus ++
        ',' :: ' ' :: ("REMAINDER".toList ++ ' ' :: (Text.digits remainder ++ [')']))) := by
    have htext (w : String) (n : Nat) : (w ++ Text.writeNatural n).toList = w.toList ++ Text.digits n := by
      rw [String.toList_append, Text.writeNatural, String.toList_ofList]
    have hwith : "FOR VALUES WITH (MODULUS".toList = "FOR VALUES WITH ".toList ++ '(' :: "MODULUS".toList := rfl
    have hmodulus : "MODULUS ".toList = "MODULUS".toList ++ [' '] := rfl
    have hremainder : "REMAINDER ".toList = "REMAINDER".toList ++ [' '] := rfl
    unfold Bound.text
    dsimp only
    rw [String.toList_append, toList_enclosed_commaList, othersText, htext, List.flatMap_cons, List.flatMap_nil, htext,
      hwith, hmodulus, hremainder]
    simp only [List.append_nil, List.append_assoc, List.cons_append, List.nil_append]
  rw [hlist]
  refine ⟨_, List.append_assoc _ _ _ ▸ hprinted, rfl⟩

/-- Printed and read again, a bound is the same if its values are. -/
theorem Bound.exists_again (bound : Bound) (h : ∀ v ∈ bound.values, v.IsStable) :
    ∃ (again : Bound) (words : List Token), again.text = bound.text ∧ ScansAs [';'] bound.text.toList words ∧
      HeadApart words ∧ joined words = again.tokens := by
  cases bound with
  | rest =>
    exact ⟨rest, [.word "default"], rfl, .of_frontWords 1 (by decide) (by decide) fun _ => rfl,
      (standsApart_word (by decide)).head [], rfl⟩
  | hash modulus remainder isSwapped =>
    obtain ⟨words, hprinted, hjoined⟩ := exists_hash_again modulus remainder isSwapped
    refine ⟨hash modulus remainder false, _, ?_, hprinted, headApart_valuesTokens "with" words, hjoined⟩
    unfold text
    rfl
  | among values =>
    obtain ⟨again, words, htext, hprinted, happart, hjoined⟩ := values.exists_again [';'] h
    have hstart : ScansAs [' '] "FOR VALUES IN".toList (valuesTokens "in") :=
      .of_frontWords 3 (by decide) (by decide) fun _ => rfl
    have hlist : (among values).text.toList = "FOR VALUES IN".toList ++ ' ' :: values.text.toList := by
      have hin : "FOR VALUES IN ".toList = "FOR VALUES IN".toList ++ [' '] := rfl
      unfold text
      dsimp only
      rw [String.toList_append, hin, List.append_assoc, List.singleton_append]
    refine ⟨among again, valuesTokens "in" ++ words, ?_, ?_, headApart_valuesTokens "in" words, ?_⟩
    · unfold text
      dsimp only
      rw [htext]
    · rw [hlist]
      exact hstart.append hprinted.blank (by decide)
    · rw [joined_append _ happart, hjoined]
      rfl
  | between low high =>
    obtain ⟨hlow, hhigh⟩ := List.forall_mem_append.mp h
    obtain ⟨low', words, htext, hprinted, happart, hjoined⟩ := low.exists_again [' '] hlow
    obtain ⟨high', words', htext', hprinted', happart', hjoined'⟩ := high.exists_again [';'] hhigh
    have hstart : ScansAs [' '] "FOR VALUES FROM".toList (valuesTokens "from") :=
      .of_frontWords 3 (by decide) (by decide) fun _ => rfl
    have hto : ScansAs [' '] "TO".toList [.word "to"] := .of_frontWords 1 (by decide) (by decide) fun _ => rfl
    have hbehind := (hto.append hprinted'.blank (by decide)).blank
    have hlist : (between low high).text.toList =
        "FOR VALUES FROM".toList ++ ' ' :: (low.text.toList ++ ' ' :: ("TO".toList ++ ' ' :: high.text.toList)) := by
      have hfrom : "FOR VALUES FROM ".toList = "FOR VALUES FROM".toList ++ [' '] := rfl
      have hto : " TO ".toList = ' ' :: ("TO".toList ++ [' ']) := rfl
      unfold text
      dsimp only
      rw [String.toList_append, String.toList_append, String.toList_append, hfrom, hto]
      simp only [List.append_assoc, List.cons_append, List.nil_append]
    refine ⟨between low' high', valuesTokens "from" ++ (words ++ (.word "to" :: words')), ?_, ?_,
      headApart_valuesTokens "from" _, ?_⟩
    · unfold text
      dsimp only
      rw [htext, htext']
    · rw [hlist]
      exact hstart.append (hprinted.append hbehind (by decide)).blank (by decide)
    · have hapart : StandsApart (.word "to") := standsApart_word (by decide)
      have hrest : HeadApart (.word "to" :: words') := hapart.head words'
      rw [joined_append _ (happart.append hrest), joined_append _ hrest, joined_cons hapart, hjoined, hjoined']
      rfl

theorem ScansAs.reads {s : List Char} {words : List Token} (h : ScansAs [';'] s words) :
    Reads (s ++ [';']) (words ++ [.symbol ";"]) where
  noZero := by simpa using h.noZero
  short := by
    rw [List.length_append, List.length_append]
    exact Nat.add_le_add_right h.short 1
  scans := h.scans ';' (by decide) [] [.symbol ";"] (scans_cons rfl (scans_nil rfl))

/-- The statement that attaches a table, as it is written. -/
def attachmentText (parent child : List String) (bound : String) : String :=
  "ALTER TABLE " ++ pathText parent ++ " ATTACH PARTITION " ++ pathText child ++ " " ++ bound ++ ";"

section

variable {parent child : List String} {bound : Bound}

theorem exists_hasWords_attachment (hparent : IsPath parent) (hchild : IsPath child)
    (h : ∀ v ∈ bound.values, v.IsStable) : ∃ again : Bound, again.text = bound.text ∧
      HasWords (attachmentText parent child bound.text) (attachmentTokens parent child again) := by
  obtain ⟨again, words, htext, hprinted, happart, hjoined⟩ := bound.exists_again h
  have hstart : ScansAs [' '] "ALTER TABLE".toList [.word "alter", .word "table"] :=
    .of_frontWords 2 (by decide) (by decide) fun _ => rfl
  have hattach : ScansAs [' '] "ATTACH PARTITION".toList [.word "attach", .word "partition"] :=
    .of_frontWords 2 (by decide) (by decide) fun _ => rfl
  have hpath {path : List String} (h : IsPath path) : ScansAs [' '] (pathText path).toList (pathTokens path) :=
    .path [' '] (by decide) h.nonempty h.kept
  have hnamed := ((hpath hchild).append hprinted.blank (by decide)).blank
  have hbehind := (hattach.append hnamed (by decide)).blank
  have hreads := (hstart.append ((hpath hparent).append hbehind (by decide)).blank (by decide)).reads
  have hlist : (attachmentText parent child bound.text).toList = ("ALTER TABLE".toList ++ ' ' ::
      ((pathText parent).toList ++ ' ' :: ("ATTACH PARTITION".toList ++ ' ' ::
        ((pathText child).toList ++ ' ' :: bound.text.toList)))) ++ [';'] := by
    have htable : "ALTER TABLE ".toList = "ALTER TABLE".toList ++ [' '] := rfl
    have hpartition : " ATTACH PARTITION ".toList = ' ' :: ("ATTACH PARTITION".toList ++ [' ']) := rfl
    have hblank : " ".toList = [' '] := rfl
    have hend : ";".toList = [';'] := rfl
    unfold attachmentText
    simp only [String.toList_append, htable, hpartition, hblank, hend, List.append_assoc, List.cons_append,
      List.nil_append]
  rw [← hlist] at hreads
  have hend : HeadApart [.symbol ";"] := (standsApart_symbol ";").head []
  refine ⟨again, htext, _, hreads, ?_⟩
  have hattachApart : StandsApart (.word "attach") := standsApart_word (by decide)
  simp only [List.cons_append, List.nil_append, List.append_assoc]
  rw [joined_cons (standsApart_word (by decide)), joined_cons (standsApart_word (by decide)),
    joined_append _ (hattachApart.head _), joined_cons hattachApart, joined_cons (standsApart_word (by decide)),
    joined_append _ (happart.append hend), joined_append _ hend, joined_pathTokens, joined_pathTokens, hjoined]
  rfl

end

end SchemaScript.Sql
