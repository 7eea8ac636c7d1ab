import SchemaScript.Proofs.Sql.BoundText
import SchemaScript.Proofs.Sql.KeyText

/-!
# Indexes in statements

The elements of an index are columns and expressions, each with an operator class and an order if they are given. A
statement that creates an index is read as these elements (`statements_index`).
-/

namespace SchemaScript.Sql

/-! ## Words -/

/-- What an element of an index is about: a column, or an expression between parentheses. -/
inductive IndexKey
  | column (name : String)
  | expression (value : Value)

/-- The word for a descending order; the other one is not said. -/
def orderTokens (isDescending : Bool) : List Token :=
  if isDescending then [.word "desc"] else []

/-- An element of an index as it is written. -/
structure IndexItem where
  key : IndexKey
  operatorClass : List String := []
  isDescending : Bool := false

namespace IndexKey

def tokens : IndexKey → List Token
  | column name => [nameToken name]
  | expression value => .symbol "(" :: (value.tokens ++ [.symbol ")"])

def text : IndexKey → String
  | column name => name
  | expression value => value.phrase.text

def isExpression : IndexKey → Bool
  | column _ => false
  | expression _ => true

end IndexKey

namespace IndexItem

def tokens (item : IndexItem) : List Token :=
  item.key.tokens ++ (pathTokens item.operatorClass ++ orderTokens item.isDescending)

def element (item : IndexItem) : IndexElement where
  key := item.key.text
  isExpression := item.key.isExpression
  operatorClass := item.operatorClass
  isDescending := item.isDescending

/-- The names in the element are not empty. -/
structure IsNamed (item : IndexItem) : Prop where
  column : ∀ name, item.key = .column name → name ≠ ""
  operatorClass : ∀ n ∈ item.operatorClass, n ≠ ""

end IndexItem

/-- The words that name the method of an index, unless it is the usual one. -/
def methodTokens (method : String) : List Token :=
  if method = "btree" then [] else [.word "using", nameToken method]

/-- What a statement says of an index. -/
structure IndexWords where
  isUnique : Bool
  isConcurrent : Bool
  name : String
  /-- The table, with its schema if that is said. -/
  path : List String
  method : String
  first : IndexItem
  others : List IndexItem

namespace IndexWords

variable (w : IndexWords)

def items : List IndexItem :=
  w.first :: w.others

def itemTokens : List Token :=
  w.first.tokens ++ ((w.others.flatMap fun item => .symbol "," :: item.tokens) ++ [.symbol ")"])

/-- The words behind the word `INDEX`. -/
def ownTokens : List Token :=
  (if w.isConcurrent then [.word "concurrently"] else []) ++ (nameToken w.name :: .word "on" ::
    (pathTokens w.path ++ (methodTokens w.method ++ (.symbol "(" :: w.itemTokens))))

def tokens : List Token :=
  .word "create" :: ((if w.isUnique then [.word "unique"] else []) ++
    (.word "index" :: (w.ownTokens ++ [.symbol ";"])))

def definition : IndexDefinition where
  name := some w.name
  table := .ofPath w.path
  method := w.method
  elements := w.items.map (·.element)
  isUnique := w.isUnique
  isConcurrent := w.isConcurrent

/-- The names in the statement are not empty, and the table is one. -/
structure IsNamed : Prop where
  name : w.name ≠ ""
  method : w.method ≠ ""
  path : IsPath w.path
  items : ∀ item ∈ w.items, item.IsNamed

end IndexWords

namespace Reader

section

variable {depth : Nat} {item : IndexItem} {w : IndexWords} {next : Token} {more : List Token}

/-! ## Elements -/

/-- No parenthesis or point follows, so that what stands before is not a call. -/
def EndsColumn (more : List Token) : Prop :=
  more.head? ≠ some (.symbol "(") ∧ more.head? ≠ some (.symbol ".")

theorem ahead_second (first : Token) (more : List Token) (places : Nat → Nat × String) :
    ahead 1 (lexemesAt places (first :: more)) = .ok (more.head?, lexemesAt places (first :: more)) := by
  cases more <;> rfl

theorem isColumnNameAhead_nameToken {name : String} (h : name ≠ "") (places : Nat → Nat × String)
    (more : List Token) : isColumnNameAhead 0 (lexemesAt places (nameToken name :: more)) =
      .ok (true, lexemesAt places (nameToken name :: more)) := by
  refine bind_ok rfl ?_
  rw [lexemesAt, List.getElem?_cons_zero, Option.map_some, nameOf?_nameToken h isColumnName_of_not_isReserved]
  rfl

theorem indexKey_column {name : String} (h : name ≠ "") (hmore : EndsColumn more) (r : Rules)
    (places : Nat → Nat × String) :
    indexKey r (lexemesAt places (nameToken name :: more)) =
      .ok ((name, false), lexemesAt (fun i => places (i + 1)) more) := by
  have hfront : (nameToken name :: more).head? ≠ some (.symbol "(") := by
    unfold nameToken
    split <;> simp
  have hname := isColumnNameAhead_nameToken h places more
  have hcall : (more.head? == some (.symbol "(") || more.head? == some (.symbol ".")) = false := by
    rw [Bool.or_eq_false_iff]
    exact ⟨beq_eq_false_iff_ne.mpr hmore.1, beq_eq_false_iff_ne.mpr hmore.2⟩
  refine test_false (isAt_other hfront places) (bind_ok (ahead_second _ more places) (bind_ok hname ?_))
  rw [hcall]
  exact bind_ok (columnName_token h places more) rfl

theorem indexKey_expression (value : Value) (hdepth : 3 * value.tokens.length + 10 ≤ depth)
    (places : Nat → Nat × String) (more : List Token) :
    ∃ places', indexKey (rulesTo depth)
        (lexemesAt places (.symbol "(" :: (value.tokens ++ .symbol ")" :: more))) =
      .ok ((value.phrase.text, true), lexemesAt places' more) := by
  obtain ⟨places', hread⟩ := value.isRead depth hdepth (.symbol ")") (.inr rfl) (fun i => places (i + 1)) more
  have hparenthesized : parenthesized (rulesTo depth).expression
      (lexemesAt places (.symbol "(" :: (value.tokens ++ .symbol ")" :: more))) =
        .ok (value.phrase, lexemesAt (fun i => places' (i + 1)) more) :=
    bind_ok (a := ()) rfl (bind_ok hread rfl)
  exact ⟨_, bind_ok (a := true) rfl (bind_ok hparenthesized rfl)⟩

theorem head?_orderTokens_ne (isDescending : Bool) (hnext : next = .symbol "," ∨ next = .symbol ")") {token : Token}
    (h : token ∉ [.symbol ",", .symbol ")", .word "desc"]) (more : List Token) :
    (orderTokens isDescending ++ next :: more).head? ≠ some token := by
  simp only [List.mem_cons, List.not_mem_nil, or_false, not_or] at h
  obtain ⟨hcomma, hclose, hdesc⟩ := h
  cases isDescending <;> rcases hnext with rfl | rfl <;>
    simp [orderTokens, Ne.symm hcomma, Ne.symm hclose, Ne.symm hdesc]

/-- The class of an operator and the order are given or not, each by itself. -/
theorem indexElementEnd_tokens (r : Rules) (element : IndexElement) {path : List String} (hpath : ∀ n ∈ path, n ≠ "")
    (isDescending : Bool) (hnext : next = .symbol "," ∨ next = .symbol ")") (places : Nat → Nat × String)
    (more : List Token) :
    ∃ places', indexElementEnd r element
        (lexemesAt places (pathTokens path ++ (orderTokens isDescending ++ next :: more))) =
      .ok ({ element with operatorClass := path, isDescending := isDescending }, lexemesAt places' (next :: more)) := by
  have hnulls (places : Nat → Nat × String) :
      acceptJoined "nulls" (lexemesAt places (next :: more)) = .ok (false, lexemesAt places (next :: more)) := by
    rcases hnext with rfl | rfl <;> rfl
  have horder (places : Nat → Nat × String) : ∃ places', acceptAny ["asc", "desc"]
      (lexemesAt places (orderTokens isDescending ++ next :: more)) =
        .ok (if isDescending then some "desc" else none, lexemesAt places' (next :: more)) := by
    cases isDescending with
    | true => exact ⟨fun i => places (i + 1), rfl⟩
    | false => exact ⟨places, by rcases hnext with rfl | rfl <;> rfl⟩
  have hother {token : Token} (h : token ∉ [.symbol ",", .symbol ")", .word "desc"]) :=
    head?_orderTokens_ne isDescending hnext h more
  cases path with
  | nil =>
    have hname : isColumnNameAhead 0 (lexemesAt places (orderTokens isDescending ++ next :: more)) =
        .ok (false, lexemesAt places (orderTokens isDescending ++ next :: more)) := by
      cases isDescending <;> rcases hnext with rfl | rfl <;> rfl
    obtain ⟨places', horder⟩ := horder places
    refine ⟨places', test_false (accept_other (hother (by decide)) places) (test_false hname (bind_ok rfl
      (bind_ok horder ?_)))⟩
    cases isDescending <;> exact bind_ok rfl (test_false (hnulls places') rfl)
  | cons name names =>
    obtain ⟨places₁, hread⟩ := anyName_tokens (List.cons_ne_nil name names) hpath (hother (by decide)) places
    obtain ⟨places', horder⟩ := horder places₁
    have hcollate := accept_other (head?_pathTokens_ne (List.cons_ne_nil name names) (w := "collate") (by decide)
      (orderTokens isDescending ++ next :: more)) places
    have hname : isColumnNameAhead 0 (lexemesAt places (pathTokens (name :: names) ++
        (orderTokens isDescending ++ next :: more))) = .ok (true, lexemesAt places
          (pathTokens (name :: names) ++ (orderTokens isDescending ++ next :: more))) :=
      isColumnNameAhead_nameToken (hpath name List.mem_cons_self) places _
    have hsettings : atSymbol "(" (lexemesAt places₁ (orderTokens isDescending ++ next :: more)) =
        .ok (false, lexemesAt places₁ (orderTokens isDescending ++ next :: more)) :=
      isAt_other (hother (by decide)) places₁
    refine ⟨places', test_false hcollate (bind_ok hname (bind_ok hread (test_false hsettings (bind_ok rfl
      (bind_ok horder ?_)))))⟩
    cases isDescending <;> exact bind_ok rfl (test_false (hnulls places') rfl)

theorem endsColumn_behind_key (path : List String) (isDescending : Bool)
    (hnext : next = .symbol "," ∨ next = .symbol ")") (more : List Token) :
    EndsColumn (pathTokens path ++ (orderTokens isDescending ++ next :: more)) := by
  cases path with
  | nil => exact ⟨head?_orderTokens_ne isDescending hnext (by decide) more,
      head?_orderTokens_ne isDescending hnext (by decide) more⟩
  | cons name names =>
    have hfirst (s : String) : nameToken name ≠ .symbol s := by
      unfold nameToken
      split <;> simp
    simp [EndsColumn, pathTokens, hfirst]

/-- An element is read from its words. -/
theorem indexElement_tokens (hnamed : item.IsNamed) (hdepth : 3 * item.tokens.length + 10 ≤ depth) :
    ReadsInList (indexElement (rulesTo depth)) item.tokens item.element := by
  intro next hnext places more
  obtain ⟨key, operatorClass, isDescending⟩ := item
  have hend (element : IndexElement) (places : Nat → Nat × String) :=
    indexElementEnd_tokens (rulesTo depth) element hnamed.operatorClass isDescending hnext places more
  unfold IndexItem.tokens
  rw [List.append_assoc, List.append_assoc]
  cases key with
  | column name =>
    obtain ⟨places', hend⟩ := hend { key := name, isExpression := false } fun i => places (i + 1)
    exact ⟨places', bind_ok (indexKey_column (hnamed.column name rfl)
      (endsColumn_behind_key operatorClass isDescending hnext more) _ places) hend⟩
  | expression value =>
    have hvalue : 3 * value.tokens.length + 10 ≤ depth := by
      simp only [IndexItem.tokens, IndexKey.tokens, List.length_append, List.length_cons] at hdepth
      omega
    obtain ⟨places₁, hkey⟩ := indexKey_expression value hvalue places
      (pathTokens operatorClass ++ (orderTokens isDescending ++ next :: more))
    obtain ⟨places', hend⟩ := hend { key := value.phrase.text, isExpression := true } places₁
    refine ⟨places', ?_⟩
    simp only [IndexKey.tokens, List.cons_append, List.append_assoc, List.nil_append] at hkey ⊢
    exact bind_ok hkey hend

/-! ## Statements -/

theorem length_tokens_le_itemTokens (h : item ∈ w.items) : item.tokens.length ≤ w.itemTokens.length := by
  unfold IndexWords.itemTokens
  rw [List.length_append, List.length_append]
  rcases List.mem_cons.mp h with rfl | h
  · omega
  · have hpart : (Token.symbol "," :: item.tokens).Sublist
        (w.others.flatMap fun item => Token.symbol "," :: item.tokens) := by
      rw [List.flatMap_def]
      exact List.sublist_flatten_of_mem (List.mem_map_of_mem h)
    have hshort := hpart.length_le
    rw [List.length_cons] at hshort
    omega

theorem indexElements_tokens (hnamed : ∀ item ∈ w.items, item.IsNamed) (hdepth : 3 * w.itemTokens.length + 10 ≤ depth)
    (places : Nat → Nat × String) (more : List Token) :
    ∃ places', parenthesized (list (indexElement (rulesTo depth)))
        (lexemesAt places (.symbol "(" :: (w.itemTokens ++ more))) =
      .ok (w.items.map (·.element), lexemesAt places' more) := by
  have hitems : ∀ item ∈ w.first :: w.others,
      ReadsInList (indexElement (rulesTo depth)) item.tokens item.element := by
    intro item hitem
    have hshort := length_tokens_le_itemTokens hitem
    exact indexElement_tokens (hnamed item hitem) (by omega)
  obtain ⟨places', hlist⟩ := list_items IndexItem.element hitems (fun i => places (i + 1)) more
  have hall : w.itemTokens ++ more = w.first.tokens ++
      ((w.others.flatMap fun item => .symbol "," :: item.tokens) ++ .symbol ")" :: more) := by
    simp [IndexWords.itemTokens]
  rw [hall]
  exact ⟨_, bind_ok (a := ()) rfl (bind_ok hlist rfl)⟩

/-- A word that may not name a column is never written bare. -/
theorem isAt_nameToken (name : String) {word : String} (hword : needsQuotes word) (places : Nat → Nat × String)
    (more : List Token) : isAt (.word word) (lexemesAt places (nameToken name :: more)) =
      .ok (false, lexemesAt places (nameToken name :: more)) := by
  have hpath := head?_pathTokens_ne (List.cons_ne_nil name []) hword more
  exact isAt_other hpath places

theorem endsParts_methodTokens (method : String) (more : List Token) :
    EndsParts (methodTokens method ++ .symbol "(" :: more) ∧
      (methodTokens method ++ .symbol "(" :: more).head? ≠ some (.symbol "*") := by
  unfold methodTokens EndsParts
  split <;> simp

theorem acceptConcurrently_tokens (isConcurrent : Bool) (name : String) (places : Nat → Nat × String)
    (more : List Token) :
    ∃ places', acceptWord "concurrently" (lexemesAt places
        ((if isConcurrent then [Token.word "concurrently"] else []) ++ nameToken name :: more)) =
      .ok (isConcurrent, lexemesAt places' (nameToken name :: more)) := by
  cases isConcurrent with
  | true => exact ⟨fun i => places (i + 1), rfl⟩
  | false =>
    exact ⟨places, test_false (isAt_nameToken name (by decide) places more) rfl⟩

theorem createIndex_tokens (hnamed : w.IsNamed) (hdepth : 3 * w.itemTokens.length + 10 ≤ depth)
    (places : Nat → Nat × String) (more : List Token) :
    ∃ places', createIndex (rulesTo depth) w.isUnique (lexemesAt places (w.ownTokens ++ .symbol ";" :: more)) =
      .ok (.createIndex w.definition, lexemesAt places' (.symbol ";" :: more)) := by
  have hall : w.ownTokens ++ .symbol ";" :: more = (if w.isConcurrent then [.word "concurrently"] else []) ++
      (nameToken w.name :: .word "on" :: (pathTokens w.path ++ (methodTokens w.method ++
        .symbol "(" :: (w.itemTokens ++ .symbol ";" :: more)))) := by
    simp [IndexWords.ownTokens]
  rw [hall]
  obtain ⟨places₁, hconcurrently⟩ := acceptConcurrently_tokens w.isConcurrent w.name places (.word "on" ::
    (pathTokens w.path ++ (methodTokens w.method ++ .symbol "(" :: (w.itemTokens ++ .symbol ";" :: more))))
  have hnot (rest : List Token) : ifNotExists (lexemesAt places₁ (nameToken w.name :: .word "on" :: rest)) =
      .ok (false, lexemesAt places₁ (nameToken w.name :: .word "on" :: rest)) :=
    ifNotExists_path (List.cons_ne_nil w.name []) (by simp) places₁
  have hon (rest : List Token) : atWord "on" (lexemesAt places₁ (nameToken w.name :: rest)) =
      .ok (false, lexemesAt places₁ (nameToken w.name :: rest)) :=
    isAt_nameToken w.name (by decide) places₁ rest
  have hname (rest : List Token) : (some <$> columnName : Reader (Option String))
      (lexemesAt places₁ (nameToken w.name :: rest)) =
        .ok (some w.name, lexemesAt (fun i => places₁ (i + 1)) rest) := by
    show (columnName >>= fun name => pure (some name)) _ = _
    exact bind_ok (columnName_token hnamed.name places₁ rest) rfl
  obtain ⟨hparts, hstar⟩ := endsParts_methodTokens w.method (w.itemTokens ++ .symbol ";" :: more)
  obtain ⟨places₂, htable⟩ := openRelation_tokens (rulesTo depth) hnamed.path hparts hstar fun i => places₁ (i + 2)
  have helements (places : Nat → Nat × String) :=
    indexElements_tokens hnamed.items hdepth places (.symbol ";" :: more)
  have hword (rest : List Token) : word "on" (lexemesAt (fun i => places₁ (i + 1)) (.word "on" :: rest)) =
      .ok ((), lexemesAt (fun i => places₁ (i + 2)) rest) := rfl
  by_cases husual : w.method = "btree"
  · obtain ⟨places₃, helements⟩ := helements places₂
    refine ⟨places₃, bind_ok hconcurrently (bind_ok (hnot _) (bind_ok (hon _) (bind_ok (hname _)
      (bind_ok (hword _) (bind_ok htable ?_)))))⟩
    unfold methodTokens
    rw [if_pos husual, List.nil_append]
    refine test_false rfl (bind_ok rfl (bind_ok helements ?_))
    rw [IndexWords.definition, husual]
    rfl
  · have hmethod := columnName_token hnamed.method (fun i => places₂ (i + 1))
      (.symbol "(" :: (w.itemTokens ++ .symbol ";" :: more))
    obtain ⟨places₃, helements⟩ := helements fun i => places₂ (i + 2)
    refine ⟨places₃, bind_ok hconcurrently (bind_ok (hnot _) (bind_ok (hon _) (bind_ok (hname _)
      (bind_ok (hword _) (bind_ok htable ?_)))))⟩
    unfold methodTokens
    rw [if_neg husual]
    exact bind_ok (a := true) rfl (bind_ok hmethod (bind_ok helements rfl))

theorem nextStatement_index (hnamed : w.IsNamed) (hdepth : 3 * w.itemTokens.length + 10 ≤ depth)
    (places : Nat → Nat × String) :
    nextStatement (rulesTo depth) [] (lexemesAt places w.tokens) = .ok (some [.createIndex w.definition], []) := by
  have hcreate (places : Nat → Nat × String) := createIndex_tokens hnamed hdepth places []
  obtain ⟨places', hcreation⟩ : ∃ places', ∀ at?, creation (rulesTo depth) at? (lexemesAt (fun i => places (i + 1))
      ((if w.isUnique then [.word "unique"] else []) ++ .word "index" :: (w.ownTokens ++ [.symbol ";"]))) =
        .ok (.createIndex w.definition, lexemesAt places' [.symbol ";"]) := by
    cases hunique : w.isUnique with
    | false =>
      rw [hunique] at hcreate
      obtain ⟨places', hcreate⟩ := hcreate fun i => places (i + 2)
      exact ⟨places', fun _ => bind_ok rfl (bind_ok rfl (bind_ok rfl (bind_ok rfl hcreate)))⟩
    | true =>
      rw [hunique] at hcreate
      obtain ⟨places', hcreate⟩ := hcreate fun i => places (i + 3)
      exact ⟨places', fun _ => bind_ok rfl (bind_ok rfl (bind_ok rfl (bind_ok rfl (bind_ok (a := ()) rfl hcreate))))⟩
  have houter : outerStatement (rulesTo depth) (lexemesAt places w.tokens) =
      .ok (.createIndex w.definition, lexemesAt places' [.symbol ";"]) :=
    bind_ok rfl (bind_ok rfl (bind_ok rfl (bind_ok rfl (hcreation _))))
  exact test_false rfl (bind_ok rfl (bind_ok houter rfl))

end

end Reader

/-- A statement that creates an index is read as its parts. -/
theorem statements_index {sql : String} {w : IndexWords} (hnamed : w.IsNamed) (h : HasWords sql w.tokens) :
    statements sql = .ok [.createIndex w.definition] := by
  refine h.statements fun depth hdepth places => ?_
  have hitems : 3 * w.itemTokens.length + 10 ≤ depth := by
    simp only [IndexWords.tokens, IndexWords.ownTokens, List.length_cons, List.length_append] at hdepth
    omega
  exact Reader.nextStatement_index hnamed hitems places

end SchemaScript.Sql
