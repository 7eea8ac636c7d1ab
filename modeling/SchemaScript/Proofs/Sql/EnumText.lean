import SchemaScript.Proofs.Sql.ScriptText

/-!
# Enumerations in statements

A type is created with its labels in order, whatever its name and its labels are (`isSentence_enum`). A comment on the
type is read as one on a type of the system, or not at all, where the name is a keyword (`typeObject_keyword`).
-/

namespace SchemaScript.Sql

/-! ## Labels -/

/-- The labels between parentheses, one per line. -/
def labelsText (labels : List String) : String :=
  if labels.isEmpty then "()"
  else "(\n" ++ ",\n".intercalate ((labels.map literal).map ("    " ++ ·)) ++ "\n)"

def labelsTokens : List String → List Token
  | [] => [.symbol "(", .symbol ")"]
  | label :: labels => .symbol "(" :: .text label :: othersTokens (labels.map fun l => [.text l])

/-- The statement that creates the type, up to its semicolon. -/
def enumText (path labels : List String) : String :=
  "CREATE TYPE " ++ pathText path ++ " AS ENUM " ++ labelsText labels

def enumTokens (path labels : List String) : List Token :=
  [.word "create", .word "type"] ++ (pathTokens path ++ ([.word "as", .word "enum"] ++ labelsTokens labels))

section

variable {path labels : List String} {label : String}

theorem scansAs_literal (h : '\x00' ∉ label.toList) : ScansAs [';', ',', ')'] (literal label).toList [.text label] where
  noZero := not_mem_literal (by decide) h
  short := by
    rw [toList_literal]
    exact Nat.succ_le_succ (Nat.zero_le _)
  scans _ hd rest _ hrest := scans_cons (firstWord_literal label hd rest) hrest

/-- Behind the last label another line begins, but the label does not go on there. -/
theorem scansRow_literal (h : '\x00' ∉ label.toList) : ScansRow (literal label).toList [.text label] where
  inside := (scansAs_literal h).of_subset (by decide)
  last := by
    have hliteral := scansAs_literal h
    refine ⟨by simpa using hliteral.noZero, ?_, fun d hd rest more hrest => ?_⟩
    · rw [List.length_append]
      exact Nat.le_add_right_of_le hliteral.short
    · obtain rfl := List.mem_singleton.mp hd
      have hends : continued .line ('\n' :: ')' :: rest) = none := rfl
      have hbreak : Scans ('\n' :: ')' :: rest) more := by
        rw [← List.singleton_append]
        exact hrest.behind_gap (afterGap_space rfl _)
      rw [List.append_assoc]
      exact scans_cons (firstWord_literal_of_ends label (by decide) hends) hbreak

theorem scansAs_labelsText (ends : List Char) (h : ∀ l ∈ labels, '\x00' ∉ l.toList) :
    ScansAs ends (labelsText labels).toList (labelsTokens labels) := by
  cases labels with
  | nil => exact ((ScansAs.nil ends).symbol (c := ')') (by decide)).symbol (c := '(') (by decide)
  | cons label labels =>
    obtain ⟨hlabel, hlabels⟩ := List.forall_mem_cons.mp h
    refine ScansAs.rows ends (scansRow_literal hlabel) ?_
    induction labels with
    | nil => exact .nil
    | cons l labels ih =>
      obtain ⟨hl, hlabels⟩ := List.forall_mem_cons.mp hlabels
      exact .cons (scansRow_literal hl) (ih (List.forall_mem_cons.mpr ⟨hlabel, hlabels⟩) hlabels)

theorem joined_labelsTokens (labels : List String) : joined (labelsTokens labels) = labelsTokens labels := by
  cases labels with
  | nil => rfl
  | cons label labels =>
    have hparts : (labels.map fun l => [Token.text l]).map joined = labels.map fun l => [.text l] := by
      rw [List.map_map]
      rfl
    rw [labelsTokens, joined_cons (standsApart_symbol "("), joined_cons (standsApart_text label), joined_othersTokens,
      hparts]

theorem scansAs_enumText (hnonempty : path ≠ []) (hpath : ∀ n ∈ path, IsKept n)
    (hlabels : ∀ l ∈ labels, '\x00' ∉ l.toList) :
    ScansAs [';'] (enumText path labels).toList (enumTokens path labels) := by
  have hstart : ScansAs [' '] "CREATE TYPE".toList [.word "create", .word "type"] :=
    .of_frontWords 2 (by decide) (by decide) fun _ => rfl
  have has : ScansAs [' '] "AS ENUM".toList [.word "as", .word "enum"] :=
    .of_frontWords 2 (by decide) (by decide) fun _ => rfl
  have hpath : ScansAs [' '] (pathText path).toList (pathTokens path) := .path [' '] (by decide) hnonempty hpath
  have hbody := (has.append (scansAs_labelsText [';'] hlabels).blank (by decide)).blank
  have hall := hstart.append (hpath.append hbody (by decide)).blank (by decide)
  have hlist : (enumText path labels).toList = "CREATE TYPE".toList ++ ' ' ::
      ((pathText path).toList ++ ' ' :: ("AS ENUM".toList ++ ' ' :: (labelsText labels).toList)) := by
    have hcreate : "CREATE TYPE ".toList = "CREATE TYPE".toList ++ [' '] := rfl
    have has : " AS ENUM ".toList = ' ' :: ("AS ENUM".toList ++ [' ']) := rfl
    rw [enumText, String.toList_append, String.toList_append, String.toList_append, hcreate, has]
    simp only [List.append_assoc, List.cons_append, List.nil_append]
  rw [hlist]
  exact hall

theorem joined_enumTokens (path labels : List String) : joined (enumTokens path labels) = enumTokens path labels := by
  have has : StandsApart (.word "as") := standsApart_word (by decide)
  unfold enumTokens
  simp only [List.cons_append, List.nil_append]
  rw [joined_cons (standsApart_word (by decide)), joined_cons (standsApart_word (by decide)),
    joined_append _ (has.head _), joined_pathTokens, joined_cons has, joined_cons (standsApart_word (by decide)),
    joined_labelsTokens]

end

/-! ## The type -/

namespace Reader

section

variable {r : Rules} {path : List String} {more : List Token}

theorem labels_tokens (labels : List String) (places : Nat → Nat × String) (more : List Token) :
    ∃ places', parenthesized (do if ← atSymbol ")" then pure [] else list text)
        (lexemesAt places (labelsTokens labels ++ more)) = .ok (labels, lexemesAt places' more) := by
  cases labels with
  | nil => exact ⟨_, rfl⟩
  | cons label labels =>
    have hitems : ∀ l ∈ label :: labels, ReadsInList text [.text l] l := fun l _ next _ places more =>
      ⟨fun i => places (i + 1), bind_ok rfl rfl⟩
    obtain ⟨places', hlist⟩ := list_items id hitems (fun i => places (i + 1)) more
    have hall : labelsTokens (label :: labels) ++ more = .symbol "(" :: ([.text label] ++
        ((labels.flatMap fun l => .symbol "," :: [.text l]) ++ .symbol ")" :: more)) := by
      simp [labelsTokens, othersTokens, List.flatMap_map]
    rw [hall]
    rw [List.map_id] at hlist
    exact ⟨_, bind_ok (a := ()) rfl (bind_ok (bind_ok (a := false) rfl hlist) rfl)⟩

theorem createType_tokens (labels : List String) (more : List Token) (hnonempty : path ≠ [])
    (hpath : ∀ n ∈ path, n ≠ "") (places : Nat → Nat × String) :
    ∃ places', createType r (lexemesAt places
        (pathTokens path ++ (.word "as" :: .word "enum" :: (labelsTokens labels ++ more)))) =
      .ok (.createEnum path labels, lexemesAt places' more) := by
  have hends (behind : List Token) : EndsPath (.word "as" :: behind) := by simp [EndsPath]
  obtain ⟨places₁, hname⟩ :=
    anyName_tokens hnonempty hpath (hends (.word "enum" :: (labelsTokens labels ++ more))) places
  obtain ⟨places₂, hlabels⟩ := labels_tokens labels (fun i => places₁ (i + 2)) more
  exact ⟨places₂, bind_ok rfl (bind_ok hname (bind_ok (a := true) rfl (bind_ok (a := true) rfl
    (bind_ok hlabels rfl))))⟩

theorem nextStatement_createType {places places' : Nat → Nat × String} {rest : List Token} {s : Statement}
    (h : createType r (lexemesAt (fun i => places (i + 2)) rest) = .ok (s, lexemesAt places' (.symbol ";" :: more)))
    (found : List Statement) :
    nextStatement r found (lexemesAt places (.word "create" :: .word "type" :: rest)) =
      .ok (some (s :: found), lexemesAt (fun i => places' (i + 1)) more) := by
  have hnone : relationCreation r (lexemesAt (fun i => places (i + 1)) (.word "type" :: rest)) =
      .ok (none, lexemesAt (fun i => places (i + 1)) (.word "type" :: rest)) := rfl
  have hcreation : creation r (some (places 0).1) (lexemesAt (fun i => places (i + 1)) (.word "type" :: rest)) =
      .ok (s, lexemesAt places' (.symbol ";" :: more)) :=
    bind_ok rfl (bind_ok hnone (bind_ok (a := none) rfl (bind_ok (a := some "type") rfl h)))
  have houter : outerStatement r (lexemesAt places (.word "create" :: .word "type" :: rest)) =
      .ok (s, lexemesAt places' (.symbol ";" :: more)) :=
    bind_ok rfl (bind_ok rfl (bind_ok rfl (bind_ok rfl hcreation)))
  exact test_false rfl (bind_ok rfl (bind_ok houter rfl))

end

end Reader

/-- The statement that creates an enumeration is read as its name and its labels, whatever they are. -/
theorem isSentence_enum {path labels : List String} (hnonempty : path ≠ []) (hpath : ∀ n ∈ path, IsKept n)
    (hlabels : ∀ l ∈ labels, '\x00' ∉ l.toList) :
    IsSentence (enumText path labels).toList (.createEnum path labels) := by
  refine ⟨_, scansAs_enumText hnonempty hpath hlabels, fun depth _ places found more => ?_⟩
  obtain ⟨places', hcreate⟩ := Reader.createType_tokens (r := Reader.rulesTo depth) labels (.symbol ";" :: more)
    hnonempty (fun n hn => (hpath n hn).nonempty) fun i => places (i + 2)
  have hall : enumTokens path labels ++ .symbol ";" :: more = .word "create" :: .word "type" ::
      (pathTokens path ++ (.word "as" :: .word "enum" :: (labelsTokens labels ++ .symbol ";" :: more))) := by
    simp [enumTokens]
  rw [joined_enumTokens, hall]
  exact ⟨_, Reader.nextStatement_createType hcreate found⟩

/-! ## Comments on types -/

/-- Words that name a type of the system where a type is expected, with the name that the type has inside. -/
def typeKeywords : List (String × String) :=
  [("bigint", "int8"), ("bit", "bit"), ("boolean", "bool"), ("char", "bpchar"), ("character", "bpchar"),
   ("dec", "numeric"), ("decimal", "numeric"), ("float", "float8"), ("int", "int4"), ("integer", "int4"),
   ("interval", "interval"), ("json", "json"), ("nchar", "bpchar"), ("numeric", "numeric"), ("real", "float4"),
   ("smallint", "int2"), ("time", "time"), ("timestamp", "timestamp"), ("varchar", "varchar")]

theorem mem_typeKeywords {w name : String} (h : typeKeywords.lookup w = some name) : (w, name) ∈ typeKeywords := by
  obtain ⟨before, after, hall, -⟩ := List.lookup_eq_some_iff.mp h
  rw [hall]
  exact List.mem_append_right _ List.mem_cons_self

namespace Reader

/-- A word that names a type of the system is not read as the name of another type. -/
theorem commentStatement_system (r : Rules) (text : String) : ∀ p ∈ typeKeywords, ∀ places, ∃ places',
    commentStatement r (lexemesAt places (.word "type" :: .word p.1 :: remarkTokens text)) =
      .ok (.comment .type ["pg_catalog", p.2] (some text), lexemesAt places' [.symbol ";"]) := by
  unfold typeKeywords
  simp only [List.forall_mem_cons]
  repeat' apply And.intro
  all_goals
    first
    | exact fun places => ⟨fun i => places (i + 4), rfl⟩
    | exact fun _ h => nomatch h

/-- No other keyword of columns is read as the name of a type; behind `setof` the next word is. -/
theorem commentStatement_refused (r : Rules) (text : String) : ∀ w ∈ columnKeywords, typeKeywords.lookup w = none →
    ∀ places, ∃ flaw, commentStatement r (lexemesAt places (.word "type" :: .word w :: remarkTokens text)) =
      .error flaw := by
  unfold columnKeywords
  simp only [List.forall_mem_cons]
  repeat' apply And.intro
  all_goals
    first
    | exact fun h => absurd h (by decide)
    | exact fun _ _ => ⟨_, rfl⟩
    | exact fun _ h => nomatch h

end Reader

section

variable {w text : String}

/-- Keywords of columns are written bare. -/
theorem nameToken_keyword (h : w ∈ columnKeywords) : nameToken w = .word w := by
  have hbare : ∀ w ∈ columnKeywords, needsQuotes w = false := by decide +kernel
  rw [nameToken, hbare w h]
  rfl

/-- A type is named by its own name in a comment exactly if that is no keyword of columns. -/
theorem isNamedBy_type_iff (h : w ≠ "") : IsNamedBy .type [w] ↔ isColumnKeyword w = false := by
  have hmem : isColumnKeyword w ↔ w ∈ columnKeywords := List.contains_iff_mem
  constructor
  · rintro ⟨-, hname⟩
    by_contra hkeyword
    have hname := hname w rfl
    rw [Bool.not_eq_false] at hkeyword
    rw [nameToken_keyword (hmem.mp hkeyword)] at hname
    simp [Reader.nameOf?, isFunctionName, hkeyword] at hname
  · intro hkeyword
    refine ⟨List.cons_ne_nil _ _, ?_⟩
    rintro _ ⟨⟩
    unfold nameToken
    split
    · rfl
    · next hquotes =>
      have hcolumn := isColumnName_of_not_isReserved w (isReserved_of_not_needsQuotes h (eq_false_of_ne_true hquotes)).1
      rw [isColumnName, Bool.and_eq_true] at hcolumn
      simp [Reader.nameOf?, isFunctionName, hkeyword, hcolumn.1]

theorem reads_typeRemark (hname : IsKept w) (htext : '\x00' ∉ text.toList) :
    Reads (remarkText .type [w] text).toList (commentTokens .type [w] text) := by
  have hstart : ScansAs [' '] "COMMENT ON TYPE".toList [.word "comment", .word "on", .word "type"] :=
    .of_frontWords 3 (by decide) (by decide) fun _ => rfl
  have his : ScansAs [' '] "IS".toList [.word "is"] := .of_frontWords 1 (by decide) (by decide) fun _ => rfl
  have hpath : ScansAs [' '] (pathText [w]).toList (pathTokens [w]) :=
    .path [' '] (by decide) (List.cons_ne_nil _ _) (List.forall_mem_singleton.mpr hname)
  have hliteral : ScansAs [';'] (literal text).toList [.text text] := (scansAs_literal htext).of_subset (by decide)
  have hbody := (his.append hliteral.blank (by decide)).blank
  have hreads := (hstart.append (hpath.append hbody (by decide)).blank (by decide)).reads
  have hlist : (remarkText .type [w] text).toList = "COMMENT ON TYPE".toList ++ ' ' :: ((pathText [w]).toList ++
      ' ' :: ("IS".toList ++ ' ' :: (literal text).toList)) ++ [';'] := by
    have hfront : "COMMENT ON ".toList ++ (kindText .type).toList ++ " ".toList =
        "COMMENT ON TYPE".toList ++ [' '] := rfl
    have his : " IS ".toList = ' ' :: ("IS".toList ++ [' ']) := rfl
    have hend : ";".toList = [';'] := rfl
    have hname : namingText (Reader.kindNaming .type) [w] = pathText [w] := rfl
    rw [remarkText_eq]
    simp only [String.toList_append]
    rw [hfront, his, hend, hname]
    simp only [List.append_assoc, List.cons_append, List.nil_append]
  rw [hlist]
  exact hreads

theorem isScript_systemRemark {name : String} (hkeyword : w ∈ columnKeywords)
    (h : typeKeywords.lookup w = some name) (hname : IsKept w) (htext : '\x00' ∉ text.toList) :
    IsScript (remarkText .type [w] text).toList [.comment .type ["pg_catalog", name] (some text)] := by
  refine isScript_last (reads_typeRemark hname htext) (List.cons_ne_nil _ _) fun depth places found => ?_
  obtain ⟨places', hread⟩ := Reader.commentStatement_system (Reader.rulesTo depth) text _ (mem_typeKeywords h)
    fun i => places (i + 2)
  have houter := (Reader.outerStatement_comment (r := Reader.rulesTo depth) places
    (.word "type" :: .word w :: Reader.remarkTokens text)).trans hread
  rw [(unjoined_commentTokens .type [w] text).joined]
  show Reader.nextStatement _ _ (lexemesAt places (.word "comment" :: .word "on" :: .word "type" ::
    nameToken w :: Reader.remarkTokens text)) = _
  rw [nameToken_keyword hkeyword]
  exact Reader.test_false rfl (Reader.bind_ok rfl (Reader.bind_ok houter rfl))

theorem isRefused_keywordRemark (hkeyword : w ∈ columnKeywords) (h : typeKeywords.lookup w = none) (hname : IsKept w)
    (htext : '\x00' ∉ text.toList) : IsRefused (remarkText .type [w] text).toList := by
  refine isRefused_first (reads_typeRemark hname htext) fun depth places found => ?_
  obtain ⟨flaw, hread⟩ := Reader.commentStatement_refused (Reader.rulesTo depth) text w hkeyword h
    fun i => places (i + 2)
  have houter := (Reader.outerStatement_comment (r := Reader.rulesTo depth) places
    (.word "type" :: .word w :: Reader.remarkTokens text)).trans hread
  rw [(unjoined_commentTokens .type [w] text).joined]
  show ∃ flaw, Reader.nextStatement _ _ (lexemesAt places (.word "comment" :: .word "on" :: .word "type" ::
    nameToken w :: Reader.remarkTokens text)) = .error flaw
  rw [nameToken_keyword hkeyword]
  exact ⟨flaw, Reader.test_false rfl (Reader.bind_ok rfl (Reader.bind_error houter))⟩

end

end SchemaScript.Sql
