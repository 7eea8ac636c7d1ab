import SchemaScript.Proofs.Script.Commenting
import SchemaScript.Proofs.Source.ReportedSequence
import SchemaScript.Proofs.Sql.NumberText
import SchemaScript.Sql.Grammar.Script

/-!
# Statements that create sequences

The clauses of such a statement are read one after another, each from its own words (`many_tokens`,
`sequenceOption_clause`). What is written of a sequence whose names are kept is read back as that sequence's clauses,
with its comment behind them (`statements_ddl`).
-/

namespace SchemaScript.Sql

namespace Reader

/-! ## Names of relations -/

section

variable {r : Rules} {path : List String} {more : List Token}

/-- Neither another name nor an element of what is named follows. -/
def EndsParts (more : List Token) : Prop :=
  more.head? ≠ some (.symbol ".") ∧ more.head? ≠ some (.symbol "[")

/-- The next part of a name, if there is one. -/
def nextPart (r : Rules) : Reader (Option Part) := do
  if ← atSymbol "[" then return some (← subscript r)
  unless ← acceptSymbol "." do return none
  if ← acceptSymbol "*" then return some .all
  return some (.field (← label))

theorem isAt_other {token : Token} (h : more.head? ≠ some token) (places : Nat → Nat × String) :
    isAt token (lexemesAt places more) = .ok (false, lexemesAt places more) := by
  cases more with
  | nil => rfl
  | cons first more =>
    have hother : (some first == some token) = false := by
      rw [beq_eq_false_iff_ne]
      exact h
    exact congrArg (fun b => Except.ok (b, lexemesAt places (first :: more))) hother

theorem accept_other {token : Token} (h : more.head? ≠ some token) (places : Nat → Nat × String) :
    accept token (lexemesAt places more) = .ok (false, lexemesAt places more) :=
  test_false (isAt_other h places) rfl

theorem nextPart_some {name : String} (h : name ≠ "") :
    ReadsItem (nextPart r) [.symbol ".", nameToken name] (.field name) := by
  intro places rest
  have hstar : (nameToken name :: rest).head? ≠ some (.symbol "*") := by
    unfold nameToken
    split <;> simp
  have hlabel := nameWith_token (nameOf?_nameToken h fun _ _ => rfl) (fun i => places (i + 1)) rest
  have hpoint : acceptSymbol "." (lexemesAt places (.symbol "." :: nameToken name :: rest)) =
      .ok (true, lexemesAt (fun i => places (i + 1)) (nameToken name :: rest)) := rfl
  exact ⟨_, test_false rfl (bind_ok hpoint (test_false (accept_other hstar _) (bind_ok hlabel rfl)))⟩

theorem nextPart_none (h : EndsParts more) : EndsItems (nextPart r) more := fun places =>
  test_false (isAt_other h.2 places) (bind_ok (accept_other h.1 places) rfl)

theorem mapM_field? (names : List String) : (names.map Part.field).mapM Part.field? = some names := by
  induction names with
  | nil => rfl
  | cons name names ih => simp [List.mapM_cons, Part.field?, ih]

theorem relationPath_tokens (hnonempty : path ≠ []) (hpath : ∀ n ∈ path, n ≠ "") (hshort : path.length ≤ 3)
    (hmore : EndsParts more) (places : Nat → Nat × String) :
    ∃ places', relationPath r (lexemesAt places (pathTokens path ++ more)) = .ok (path, lexemesAt places' more) := by
  obtain ⟨name, names, rfl⟩ := List.exists_cons_of_ne_nil hnonempty
  obtain ⟨hname, hnames⟩ := List.forall_mem_cons.mp hpath
  have hfirst := nameWith_token (nameOf?_nameToken hname isColumnName_of_not_isReserved) places
    (pointedTokens names ++ more)
  obtain ⟨places', hparts⟩ := many_tokens Part.field
    (fun n hn => nextPart_some (r := r) (hnames n hn)) (nextPart_none hmore) (fun _ _ => List.cons_ne_nil _ _)
    fun i => places (i + 1)
  have hfields : fieldsOnly (names.map Part.field) (lexemesAt places' more) = .ok (names, lexemesAt places' more) := by
    rw [fieldsOnly, mapM_field?]
    rfl
  have hlength : ¬ (name :: names).length > 3 := Nat.not_lt.mpr hshort
  refine ⟨places', bind_ok rfl (bind_ok hfirst (bind_ok hparts (bind_ok hfields ?_)))⟩
  rw [if_neg hlength]
  rfl

theorem relationName_tokens (hnonempty : path ≠ []) (hpath : ∀ n ∈ path, n ≠ "") (hshort : path.length ≤ 3)
    (hmore : EndsParts more) (places : Nat → Nat × String) :
    ∃ places', relationName r (lexemesAt places (pathTokens path ++ more)) =
      .ok (.ofPath path, lexemesAt places' more) := by
  obtain ⟨places', hread⟩ := relationPath_tokens hnonempty hpath hshort hmore places
  exact ⟨places', bind_ok hread rfl⟩

end

end Reader

/-! ## Clauses -/

/-- A clause of a statement that creates a sequence. -/
inductive SequenceClause
  | dataType (type : SequenceType)
  | start (n : Int)
  | increment (n : Int)
  /-- A lower bound, or that there is none. -/
  | minimum (bound : Option Int)
  /-- An upper bound, or that there is none. -/
  | maximum (bound : Option Int)
  | cycle

namespace SequenceClause

/-- The words of a clause, in front of its number if it has one. -/
def words : SequenceClause → String
  | .dataType type => "AS " ++ type.name
  | .start _ => "START WITH"
  | .increment _ => "INCREMENT BY"
  | .minimum (some _) => "MINVALUE"
  | .minimum none => "NO MINVALUE"
  | .maximum (some _) => "MAXVALUE"
  | .maximum none => "NO MAXVALUE"
  | .cycle => "CYCLE"

def wordTokens : SequenceClause → List Token
  | .dataType type => [.word "as", .word type.name]
  | .start _ => [.word "start", .word "with"]
  | .increment _ => [.word "increment", .word "by"]
  | .minimum (some _) => [.word "minvalue"]
  | .minimum none => [.word "no", .word "minvalue"]
  | .maximum (some _) => [.word "maxvalue"]
  | .maximum none => [.word "no", .word "maxvalue"]
  | .cycle => [.word "cycle"]

def number? : SequenceClause → Option Int
  | .start n | .increment n => some n
  | .minimum bound | .maximum bound => bound
  | .dataType _ | .cycle => none

def text (clause : SequenceClause) : String :=
  match clause.number? with
  | some n => clause.words ++ " " ++ Text.writeInteger n
  | none => clause.words

def tokens (clause : SequenceClause) : List Token :=
  clause.wordTokens ++ (clause.number?.map numberTokens).getD []

end SequenceClause

/-- What a clause says. -/
def SequenceClause.option : SequenceClause → SequenceOption
  | .dataType type => .dataType (.ofKeyword type.internalName)
  | .start n => .start (writtenNumber n)
  | .increment n => .increment (writtenNumber n)
  | .minimum bound => .minimum (bound.map writtenNumber)
  | .maximum bound => .maximum (bound.map writtenNumber)
  | .cycle => .cycle true

namespace SequenceClause

variable {clause : SequenceClause} {d : Char} {rest : List Char} {more : List Token}

theorem frontWords_words (clause : SequenceClause) (hd : d = ' ' ∨ d = ';') (rest : List Char) :
    ∃ n, frontWords n (' ' :: (clause.words.toList ++ d :: rest)) = some (clause.wordTokens, d :: rest) := by
  rcases hd with rfl | rfl
  all_goals
    unfold words wordTokens
    split
    · next type => cases type <;> exact ⟨2, rfl⟩
    · exact ⟨2, rfl⟩
    · exact ⟨2, rfl⟩
    · exact ⟨1, rfl⟩
    · exact ⟨2, rfl⟩
    · exact ⟨1, rfl⟩
    · exact ⟨2, rfl⟩
    · exact ⟨1, rfl⟩

/-- A clause is taken apart into its words, up to the blank or semicolon behind it. -/
theorem scans_text (clause : SequenceClause) (hd : d = ' ' ∨ d = ';') (hrest : Scans (d :: rest) more) :
    Scans (' ' :: (clause.text.toList ++ d :: rest)) (clause.tokens ++ more) := by
  unfold text tokens
  cases clause.number? with
  | none =>
    obtain ⟨n, hwords⟩ := clause.frontWords_words hd rest
    rw [Option.map_none, Option.getD_none, List.append_nil]
    exact scans_frontWords hwords hrest
  | some n =>
    have hends : endsNumber d := by rcases hd with rfl | rfl <;> rfl
    obtain ⟨k, hwords⟩ := clause.frontWords_words (.inl rfl) ((Text.writeInteger n).toList ++ d :: rest)
    have hscans := scans_frontWords hwords (scans_number n hends hrest).behind_blank
    rw [Option.map_some, Option.getD_some]
    rw [String.toList_append, String.toList_append, List.append_assoc, List.append_assoc, List.append_assoc]
    exact hscans

/-- What a clause says is read from its words. -/
theorem sequenceOption_tokens (r : Rules) (clause : SequenceClause) :
    Reader.ReadsItem (Reader.sequenceOption r) clause.tokens clause.option := by
  intro places rest
  cases clause with
  | dataType type => cases type <;> exact ⟨_, Reader.bind_ok rfl (Reader.bind_ok rfl rfl)⟩
  | start n =>
    obtain ⟨places', hread⟩ := Reader.number_tokens n (fun i => places (i + 2)) rest
    exact ⟨places', Reader.bind_ok rfl (Reader.bind_ok rfl (Reader.bind_ok hread rfl))⟩
  | increment n =>
    obtain ⟨places', hread⟩ := Reader.number_tokens n (fun i => places (i + 2)) rest
    exact ⟨places', Reader.bind_ok rfl (Reader.bind_ok rfl (Reader.bind_ok hread rfl))⟩
  | minimum bound =>
    cases bound with
    | none => exact ⟨_, rfl⟩
    | some n =>
      obtain ⟨places', hread⟩ := Reader.number_tokens n (fun i => places (i + 1)) rest
      exact ⟨places', Reader.bind_ok rfl (Reader.bind_ok hread rfl)⟩
  | maximum bound =>
    cases bound with
    | none => exact ⟨_, rfl⟩
    | some n =>
      obtain ⟨places', hread⟩ := Reader.number_tokens n (fun i => places (i + 1)) rest
      exact ⟨places', Reader.bind_ok rfl (Reader.bind_ok hread rfl)⟩
  | cycle => exact ⟨_, rfl⟩

end SequenceClause

/-! ## Statements -/

/-- What is written of a sequence without its comment. -/
def sequenceText (path : List String) (clauses : List SequenceClause) : String :=
  "CREATE SEQUENCE " ++ pathText path ++ String.join (clauses.map fun clause => " " ++ clause.text) ++ ";"

def sequenceTokens (path : List String) (clauses : List SequenceClause) : List Token :=
  .word "create" :: .word "sequence" :: (pathTokens path ++ (clauses.flatMap SequenceClause.tokens ++ [.symbol ";"]))

section

variable {path : List String} {clauses : List SequenceClause} {rest : List Char} {more : List Token}

/-- A clause begins, or the statement ends. -/
def BeginsClause (token : Token) : Prop :=
  token = .symbol ";" ∨
    ∃ w ∈ ["as", "start", "increment", "minvalue", "maxvalue", "no", "cycle"], token = .word w

theorem exists_beginsClause (clauses : List SequenceClause) (more : List Token) :
    ∃ token rest, clauses.flatMap SequenceClause.tokens ++ .symbol ";" :: more = token :: rest ∧
      BeginsClause token := by
  cases clauses with
  | nil => exact ⟨_, _, rfl, .inl rfl⟩
  | cons clause clauses =>
    rw [List.flatMap_cons, List.append_assoc, SequenceClause.tokens]
    cases clause with
    | minimum bound | maximum bound => cases bound <;> exact ⟨_, _, rfl, .inr ⟨_, by decide, rfl⟩⟩
    | _ => exact ⟨_, _, rfl, .inr ⟨_, by decide, rfl⟩⟩

theorem BeginsClause.ne {token : Token} (h : BeginsClause token) (other : Token) (hsymbol : other ≠ .symbol ";")
    (hwords : ∀ w ∈ ["as", "start", "increment", "minvalue", "maxvalue", "no", "cycle"], other ≠ .word w) :
    token ≠ other := by
  rintro rfl
  rcases h with h | ⟨w, hw, h⟩
  · exact hsymbol h
  · exact hwords w hw h

/-- Behind a path comes a blank, or the statement ends. -/
theorem exists_clausesText (clauses : List SequenceClause) (rest : List Char) :
    ∃ d t, (clauses.flatMap fun clause => ' ' :: clause.text.toList) ++ ';' :: rest = d :: t ∧ (d = ' ' ∨ d = ';') := by
  cases clauses with
  | nil => exact ⟨_, _, rfl, .inr rfl⟩
  | cons => exact ⟨_, _, rfl, .inl rfl⟩

theorem scans_clauses (clauses : List SequenceClause) (hend : Scans (';' :: rest) more) :
    Scans ((clauses.flatMap fun clause => ' ' :: clause.text.toList) ++ ';' :: rest)
      (clauses.flatMap SequenceClause.tokens ++ more) := by
  induction clauses with
  | nil => exact hend
  | cons clause clauses ih =>
    obtain ⟨d, t, htail, hd⟩ := exists_clausesText clauses rest
    rw [htail] at ih
    rw [List.flatMap_cons, List.append_assoc, htail, List.flatMap_cons, List.append_assoc]
    exact clause.scans_text hd ih

theorem toList_sequenceText (path : List String) (clauses : List SequenceClause) (rest : List Char) :
    (sequenceText path clauses).toList ++ rest = "CREATE SEQUENCE ".toList ++ ((pathText path).toList ++
      ((clauses.flatMap fun clause => ' ' :: clause.text.toList) ++ ';' :: rest)) := by
  have hclause (clause : SequenceClause) : (" " ++ clause.text).toList = ' ' :: clause.text.toList :=
    String.toList_append
  have hend : ";".toList = [';'] := rfl
  unfold sequenceText
  simp only [String.toList_append, String.toList_join, List.flatMap_map, hclause, hend,
    List.append_assoc, List.cons_append, List.nil_append]

theorem scans_sequenceText (hnonempty : path ≠ []) (hpath : ∀ n ∈ path, IsKept n)
    (hend : Scans (';' :: rest) (.symbol ";" :: more)) :
    Scans ((sequenceText path clauses).toList ++ rest) (sequenceTokens path clauses ++ more) := by
  have hclauses := scans_clauses clauses hend
  obtain ⟨d, t, htail, hd⟩ := exists_clausesText clauses rest
  rw [htail] at hclauses
  have hbreak : isBreak d := by rcases hd with rfl | rfl <;> rfl
  have hnames := (scans_path hnonempty hpath hbreak hclauses).behind_blank
  have hstart (s : List Char) : frontWords 2 ("CREATE SEQUENCE ".toList ++ s) =
      some ([.word "create", .word "sequence"], ' ' :: s) := rfl
  have hscans := scans_frontWords (hstart _) hnames
  rw [toList_sequenceText, htail]
  simpa only [sequenceTokens, List.append_assoc, List.cons_append, List.nil_append] using hscans

/-- The statement that a text of such clauses makes. -/
def sequenceStatement (path : List String) (clauses : List SequenceClause) : Statement :=
  .createSequence (.ofPath path) (clauses.map SequenceClause.option)

end

namespace Reader

section

variable {r : Rules} {path : List String} {clauses : List SequenceClause} {more : List Token}

theorem ifNotExists_path (hnonempty : path ≠ []) (hmore : more.head? ≠ some (.word "not"))
    (places : Nat → Nat × String) :
    ifNotExists (lexemesAt places (pathTokens path ++ more)) =
      .ok (false, lexemesAt places (pathTokens path ++ more)) := by
  obtain ⟨name, names, rfl⟩ := List.exists_cons_of_ne_nil hnonempty
  have hsecond : (pointedTokens names ++ more).head? ≠ some (.word "not") := by
    cases names with
    | nil => exact hmore
    | cons next names => simp [pointedTokens]
  rw [pathTokens, List.cons_append]
  refine bind_ok (a := false) ?_ rfl
  refine congrArg (fun b => Except.ok (b, _)) ?_
  cases hrest : pointedTokens names ++ more with
  | nil => exact beq_eq_false_iff_ne.mpr (by simp [lexemesAt])
  | cons second rest =>
    rw [hrest] at hsecond
    have hne : second ≠ .word "not" := by simpa using hsecond
    exact beq_eq_false_iff_ne.mpr (by simp [lexemesAt, hne])

theorem createSequence_tokens (r : Rules) (clauses : List SequenceClause) (more : List Token)
    (hnonempty : path ≠ []) (hpath : ∀ n ∈ path, n ≠ "") (hshort : path.length ≤ 3)
    (places : Nat → Nat × String) :
    ∃ places', createSequence r (lexemesAt places
        (pathTokens path ++ (clauses.flatMap SequenceClause.tokens ++ .symbol ";" :: more))) =
      .ok (sequenceStatement path clauses, lexemesAt places' (.symbol ";" :: more)) := by
  obtain ⟨token, rest, hclauses, hbegins⟩ := exists_beginsClause clauses more
  have hother {other : Token} (h : token ≠ other) :
      (clauses.flatMap SequenceClause.tokens ++ .symbol ";" :: more).head? ≠ some other := by
    rw [hclauses]
    simpa using h
  have hnot := ifNotExists_path hnonempty (hother (hbegins.ne (.word "not") (by decide) (by decide))) places
  obtain ⟨places', hname⟩ := relationName_tokens (r := r) hnonempty hpath hshort
    ⟨hother (hbegins.ne (.symbol ".") (by decide) (by decide)),
      hother (hbegins.ne (.symbol "[") (by decide) (by decide))⟩ places
  have hend : EndsItems (sequenceOption r) (.symbol ";" :: more) := fun _ => rfl
  have hwords (clause : SequenceClause) : clause.tokens ≠ [] := by
    unfold SequenceClause.tokens SequenceClause.wordTokens
    split <;> simp
  obtain ⟨places'', hoptions⟩ :=
    many_tokens SequenceClause.option (fun clause _ => SequenceClause.sequenceOption_tokens r clause) hend
    (fun clause _ => hwords clause) places'
  exact ⟨places'', bind_ok hnot (bind_ok hname (bind_ok hoptions rfl))⟩

theorem outerStatement_createSequence {places places' : Nat → Nat × String} {rest more : List Token} {s : Statement}
    (h : createSequence r (lexemesAt (fun i => places (i + 2)) rest) = .ok (s, lexemesAt places' more)) :
    outerStatement r (lexemesAt places (.word "create" :: .word "sequence" :: rest)) =
      .ok (s, lexemesAt places' more) := by
  have hrelation : relationCreation r (lexemesAt (fun i => places (i + 1)) (.word "sequence" :: rest)) =
      .ok (some s, lexemesAt places' more) :=
    bind_ok rfl (bind_ok rfl (bind_ok rfl (bind_ok rfl (bind_ok rfl (bind_ok h rfl)))))
  exact bind_ok rfl (bind_ok rfl (bind_ok rfl (bind_ok rfl (bind_ok rfl (bind_ok hrelation rfl)))))

/-- A statement that creates a sequence is read, whatever statements follow. -/
theorem nextStatement_sequence (r : Rules) (clauses : List SequenceClause) (more : List Token)
    (hnonempty : path ≠ []) (hpath : ∀ n ∈ path, n ≠ "") (hshort : path.length ≤ 3)
    (places : Nat → Nat × String) (found : List Statement) :
    ∃ places', nextStatement r found (lexemesAt places (sequenceTokens path clauses ++ more)) =
      .ok (some (sequenceStatement path clauses :: found), lexemesAt places' more) := by
  obtain ⟨places', hcreate⟩ := createSequence_tokens r clauses more hnonempty hpath hshort
    fun i => places (i + 2)
  have houter := outerStatement_createSequence hcreate
  have hall : sequenceTokens path clauses ++ more = .word "create" :: .word "sequence" ::
      (pathTokens path ++ (clauses.flatMap SequenceClause.tokens ++ .symbol ";" :: more)) := by
    simp [sequenceTokens]
  rw [hall]
  exact ⟨_, test_false rfl (bind_ok rfl (bind_ok houter rfl))⟩

end

end Reader

/-! ## Whole texts -/

section

variable {path : List String} {clauses : List SequenceClause} {more : List Token}

theorem beginsApart_clause (clause : SequenceClause) (h : BeginsApart more) : BeginsApart (clause.tokens ++ more) := by
  have hnumber : BeginsApart ((clause.number?.map numberTokens).getD [] ++ more) := by
    cases clause.number? with
    | none => exact h
    | some n => exact unjoined_number n h
  have hword {w : String} {rest : List Token} (hrest : Unjoined rest) (hw : w ∉ ["format", "not", "nulls", "with",
      "without", "json", "between", "ilike", "in", "like", "similar", "first", "last", "ordinality", "time"]) :
      BeginsApart (.word w :: rest) := (standsApart_word hw).begins hrest
  unfold SequenceClause.tokens
  rw [List.append_assoc]
  unfold SequenceClause.wordTokens
  split
  · next type => cases type <;> exact hword (hword hnumber.1 (by decide)).1 (by decide)
  · exact hword (hnumber.behind _) (by decide)
  all_goals first
    | exact hword hnumber.1 (by decide)
    | exact hword (hword hnumber.1 (by decide)).1 (by decide)

theorem unjoined_sequence (h : Unjoined more) : Unjoined (sequenceTokens path clauses ++ more) := by
  have hclauses : BeginsApart (clauses.flatMap SequenceClause.tokens ++ .symbol ";" :: more) := by
    induction clauses with
    | nil => exact (standsApart_symbol ";").begins h
    | cons clause clauses ih =>
      rw [List.flatMap_cons, List.append_assoc]
      exact beginsApart_clause clause ih
  have hpath := unjoined_path path hclauses
  have hall := (standsApart_word (w := "create") (by decide)).cons
    ((standsApart_word (w := "sequence") (by decide)).cons hpath)
  simpa [sequenceTokens] using hall

theorem length_tokens_le (clause : SequenceClause) : clause.tokens.length ≤ clause.text.toList.length := by
  have hwords : clause.wordTokens.length ≤ clause.words.toList.length := by
    unfold SequenceClause.wordTokens SequenceClause.words
    split
    · next type => cases type <;> decide
    all_goals decide
  unfold SequenceClause.tokens SequenceClause.text
  cases clause.number? with
  | none => simpa using hwords
  | some n =>
    have := length_numberTokens_le n
    simp only [Option.map_some, Option.getD_some, String.toList_append, List.length_append]
    omega

theorem length_sequenceTokens_le (hpath : ∀ n ∈ path, n ≠ "") :
    (sequenceTokens path clauses).length ≤ (sequenceText path clauses).toList.length := by
  have hclauses : (clauses.flatMap SequenceClause.tokens).length ≤
      (clauses.flatMap fun clause => ' ' :: clause.text.toList).length := by
    induction clauses with
    | nil => exact Nat.le_refl _
    | cons clause clauses ih =>
      have hclause := length_tokens_le clause
      simp only [List.flatMap_cons, List.length_append, List.length_cons]
      omega
  have htext := congrArg List.length (toList_sequenceText path clauses [])
  have hnames := length_pathTokens_le hpath
  have hstart : "CREATE SEQUENCE ".toList.length = 16 := rfl
  simp only [List.length_append, List.length_nil, List.length_cons] at htext
  simp only [sequenceTokens, List.length_append, List.length_nil, List.length_cons]
  omega

theorem noZero_clause (clause : SequenceClause) : '\x00' ∉ clause.text.toList := by
  have hwords : '\x00' ∉ clause.words.toList := by
    unfold SequenceClause.words
    split
    · next type => cases type <;> decide
    all_goals decide
  unfold SequenceClause.text
  cases clause.number? with
  | none => exact hwords
  | some n =>
    have hnumber := not_mem_writeInteger (c := '\x00') (by decide) rfl n
    simp [String.toList_append, hwords, hnumber]

theorem noZero_sequenceText (hpath : ∀ n ∈ path, IsKept n) : '\x00' ∉ (sequenceText path clauses).toList := by
  have hnames := not_mem_pathText (c := '\x00') (by decide) (by decide) fun n hn => (hpath n hn).noZero
  have hclauses : '\x00' ∉ clauses.flatMap fun clause => ' ' :: clause.text.toList := by
    simp [noZero_clause]
  have htext := toList_sequenceText path clauses []
  rw [List.append_nil] at htext
  rw [htext]
  simp only [List.mem_append, List.mem_cons, not_or]
  exact ⟨by decide, hnames, hclauses, by decide, List.not_mem_nil⟩

/-- The statement that comments on a sequence, set apart by a blank line, if there is a comment. -/
def sequenceRemark (path : List String) : Option String → String
  | some text => "\n\n" ++ remarkText .sequence path text
  | none => ""

def remarkStatements (path : List String) (comment : Option String) : List Statement :=
  comment.toList.map fun text => .comment .sequence path (some text)

def sequenceRemarkTokens (path : List String) (comment : Option String) : List Token :=
  (comment.map (commentTokens .sequence path)).getD []

theorem reads_sequenceRemark (hnonempty : path ≠ []) (hpath : ∀ n ∈ path, IsKept n) {comment : Option String}
    (hcomment : ∀ text ∈ comment, '\x00' ∉ text.toList) :
    Reads (sequenceRemark path comment).toList (sequenceRemarkTokens path comment) := by
  cases comment with
  | none => exact reads_nil
  | some text =>
    have hreads : Reads (remarkText .sequence path text).toList (commentTokens .sequence path text) :=
      reads_remarkText hnonempty hpath (hcomment text rfl)
    have hlist : (sequenceRemark path (some text)).toList =
        '\n' :: '\n' :: (remarkText .sequence path text).toList := by
      simp [sequenceRemark, String.toList_append]
    rw [hlist]
    exact hreads.behind_newline.behind_newline

theorem reads_sequence (clauses : List SequenceClause) (hnonempty : path ≠ []) (hpath : ∀ n ∈ path, IsKept n)
    {comment : Option String}
    (hcomment : ∀ text ∈ comment, '\x00' ∉ text.toList) :
    Reads (sequenceText path clauses ++ sequenceRemark path comment).toList
      (sequenceTokens path clauses ++ sequenceRemarkTokens path comment) := by
  have hremark := reads_sequenceRemark hnonempty hpath hcomment
  have hend : Scans (';' :: (sequenceRemark path comment).toList)
      (.symbol ";" :: sequenceRemarkTokens path comment) := by
    cases comment with
    | none => exact scans_cons rfl hremark.scans
    | some text =>
      have hlist : (sequenceRemark path (some text)).toList =
          '\n' :: '\n' :: (remarkText .sequence path text).toList := by
        simp [sequenceRemark, String.toList_append]
      rw [hlist] at hremark ⊢
      exact scans_cons rfl hremark.scans
  rw [String.toList_append]
  refine ⟨?_, ?_, scans_sequenceText hnonempty hpath hend⟩
  · rw [List.mem_append, not_or]
    exact ⟨noZero_sequenceText hpath, hremark.noZero⟩
  · rw [List.length_append, List.length_append]
    exact Nat.add_le_add (length_sequenceTokens_le fun n hn => (hpath n hn).nonempty) hremark.short

theorem unjoined_sequenceRemark (path : List String) (comment : Option String) :
    Unjoined (sequenceRemarkTokens path comment) := by
  cases comment with
  | none => exact List.isChain_nil
  | some text => exact unjoined_commentTokens .sequence path text

/-- What is written of a sequence is read back, with its comment. -/
theorem statements_sequence (hnonempty : path ≠ []) (hpath : ∀ n ∈ path, IsKept n) (hshort : path.length ≤ 3)
    {comment : Option String} (hcomment : ∀ text ∈ comment, '\x00' ∉ text.toList) :
    statements (sequenceText path clauses ++ sequenceRemark path comment) =
      .ok (sequenceStatement path clauses :: remarkStatements path comment) := by
  have hreads := reads_sequence clauses hnonempty hpath hcomment
  obtain ⟨places, hscan⟩ := scan_of_scans hreads.scans hreads.noZero hreads.short
  rw [(unjoined_sequence (unjoined_sequenceRemark path comment)).joinAll] at hscan
  generalize hrules : Reader.rulesFor (scan (sequenceText path clauses ++ sequenceRemark path comment)) = r
  have hnames : ∀ n ∈ path, n ≠ "" := fun n hn => (hpath n hn).nonempty
  obtain ⟨places', hsequence⟩ := Reader.nextStatement_sequence r clauses
    (sequenceRemarkTokens path comment) hnonempty hnames hshort places []
  have hrest (limit : Nat) : Reader.repeatUpTo (Reader.nextStatement r) (limit + 2) [sequenceStatement path clauses]
      (lexemesAt places' (sequenceRemarkTokens path comment)) =
        .ok ((remarkStatements path comment).reverse ++ [sequenceStatement path clauses], []) := by
    cases comment with
    | none => rfl
    | some text =>
      have hremark : Reader.nextStatement r [sequenceStatement path clauses]
          (lexemesAt places' (commentTokens .sequence path text)) =
            .ok (some (.comment .sequence path (some text) :: [sequenceStatement path clauses]), []) :=
        nextStatement_commentTokens (show IsNamedBy (Reader.kindNaming .sequence) path from hnonempty) hnames places'
          text _
      exact Reader.repeatUpTo_some hremark rfl
  have hall : Reader.script r (lexemesAt places (sequenceTokens path clauses ++ sequenceRemarkTokens path comment)) =
      .ok (sequenceStatement path clauses :: remarkStatements path comment, []) := by
    refine Reader.bind_ok (Reader.repeatUpTo_some hsequence (hrest _)) ?_
    rw [List.reverse_append, List.reverse_reverse]
    rfl
  rw [← hscan] at hall
  rw [statements, hrules]
  show Except.bind (Reader.script _ _) _ = _
  rw [hall]
  rfl

end

end SchemaScript.Sql
