import SchemaScript.Proofs.Sql.KeyText
import SchemaScript.Proofs.Sql.ScriptText

/-!
# Keys that are added to a table

A key of any number of columns is added to its table by a statement of its own. Whatever the names in it are, and
whatever is said of a reference, the statement is read as that key (`isSentence_key`).
-/

namespace SchemaScript.Sql

/-! ## Pieces with blanks between them -/

/-- The pieces of a statement, with blanks between them, are these words, of which none depends on the next one. -/
inductive SpellsOut : List String → List Token → Prop
  | nil : SpellsOut [] []
  | words {piece : String} {pieces : List String} {words tokens : List Token}
      (scans : ScansAs [' ', ';'] piece.toList words) (apart : ∀ t ∈ words, StandsApart t)
      (more : SpellsOut pieces tokens) : SpellsOut (piece :: pieces) (words ++ tokens)
  | names {piece : String} {pieces : List String} {words tokens : List Token}
      (scans : ScansAs [' ', ';'] piece.toList words) (alone : joined words = words) (apart : HeadApart tokens)
      (more : SpellsOut pieces tokens) : SpellsOut (piece :: pieces) (words ++ tokens)

namespace SpellsOut

variable {pieces pieces' : List String} {tokens tokens' : List Token}

theorem append (h : SpellsOut pieces tokens) (h' : SpellsOut pieces' tokens') (apart : HeadApart tokens') :
    SpellsOut (pieces ++ pieces') (tokens ++ tokens') := by
  induction h with
  | nil => exact h'
  | words scans apart more ih =>
    rw [List.append_assoc]
    exact .words scans apart ih
  | names scans alone behind more ih =>
    rw [List.append_assoc]
    exact .names scans alone (behind.append apart) ih

theorem joined_eq (h : SpellsOut pieces tokens) : joined tokens = tokens := by
  induction h with
  | nil => rfl
  | @words piece pieces words tokens scans apart more ih =>
    clear scans
    induction words with
    | nil => exact ih
    | cons t words ihwords =>
      obtain ⟨ht, hwords⟩ := List.forall_mem_cons.mp apart
      rw [List.cons_append, joined_cons ht, ihwords hwords]
  | names scans alone apart more ih => rw [joined_append _ apart, alone, ih]

theorem scansAs (h : SpellsOut pieces tokens) : ScansAs [' ', ';'] (" ".intercalate pieces).toList tokens := by
  have hnext {piece : String} {pieces : List String} {words tokens : List Token}
      (hpiece : ScansAs [' ', ';'] piece.toList words) (hmore : SpellsOut pieces tokens)
      (ih : ScansAs [' ', ';'] (" ".intercalate pieces).toList tokens) :
      ScansAs [' ', ';'] (" ".intercalate (piece :: pieces)).toList (words ++ tokens) := by
    cases pieces with
    | nil =>
      cases hmore
      simpa [String.intercalate_singleton] using hpiece
    | cons next pieces =>
      have hall := hpiece.append ih.blank (by decide)
      rw [String.intercalate_cons_cons, String.toList_append, String.toList_append, List.append_assoc]
      exact hall
  induction h with
  | nil => exact .nil _
  | words scans apart more ih => exact hnext scans more ih
  | names scans alone apart more ih => exact hnext scans more ih

end SpellsOut

/-- A piece of such words is the same in front of a blank and of a semicolon. -/
theorem scansAs_words {s : List Char} {words : List Token} (hzero : '\x00' ∉ s) (hshort : words.length ≤ s.length)
    (hblank : ∀ rest, frontWords words.length (s ++ ' ' :: rest) = some (words, ' ' :: rest))
    (hend : ∀ rest, frontWords words.length (s ++ ';' :: rest) = some (words, ';' :: rest)) :
    ScansAs [' ', ';'] s words where
  noZero := hzero
  short := hshort
  scans d hd rest more hrest := by
    simp only [List.mem_cons, List.not_mem_nil, or_false] at hd
    obtain rfl | rfl := hd
    · exact scans_frontWords (hblank rest) hrest
    · exact scans_frontWords (hend rest) hrest

/-! ## Names -/

/-- Names between parentheses. -/
def listText (names : List String) : String :=
  enclosed (commaList (names.map quoteName))

section

variable {name : String} {names path : List String}

theorem scansAs_quoteName {ends : List Char} (hends : ends.all isBreak) (h : IsKept name) :
    ScansAs ends (quoteName name).toList [nameToken name] := by
  have hpath := ScansAs.path ends hends (List.cons_ne_nil name []) (List.forall_mem_singleton.mpr h)
  have hone : pathText [name] = quoteName name := String.intercalate_singleton
  rw [hone] at hpath
  exact hpath

theorem listTokens_eq (name : String) (names : List String) : listTokens (name :: names) =
    .symbol "(" :: ([nameToken name] ++ othersTokens (names.map fun n => [nameToken n])) := by
  simp [listTokens, othersTokens, List.flatMap_map]

theorem scansAs_listText (ends : List Char) (hnonempty : names ≠ []) (h : ∀ n ∈ names, IsKept n) :
    ScansAs ends (listText names).toList (listTokens names) := by
  obtain ⟨name, names, rfl⟩ := List.exists_cons_of_ne_nil hnonempty
  obtain ⟨hname, hnames⟩ := List.forall_mem_cons.mp h
  have hitem {n : String} (hn : IsKept n) : ScansAs [',', ')'] (quoteName n).toList [nameToken n] :=
    scansAs_quoteName (by decide) hn
  rw [listTokens_eq]
  refine ScansAs.enclosed ends (hitem hname) ?_
  rw [List.forall₂_map_left_iff, List.forall₂_map_right_iff, List.forall₂_same]
  exact fun n hn => hitem (hnames n hn)

theorem joined_listTokens (names : List String) : joined (listTokens names) = listTokens names := by
  cases names with
  | nil => rfl
  | cons name names =>
    have hparts : (names.map fun n => [nameToken n]).map joined = names.map fun n => [nameToken n] := by
      rw [List.map_map]
      rfl
    rw [listTokens_eq, joined_cons (standsApart_symbol "("), joined_append _ (headApart_othersTokens _),
      joined_othersTokens, hparts]
    rfl

theorem headApart_listTokens (names : List String) : HeadApart (listTokens names) := by
  cases names with
  | nil => exact fun _ h => nomatch h
  | cons name names => exact (standsApart_symbol "(").head _

end

/-! ## Words of a key -/

/-- The keywords that a key is written with, and how each is read. -/
def keyKeywords : List (String × List String) :=
  [("ALTER TABLE", ["alter", "table"]), ("ADD CONSTRAINT", ["add", "constraint"]),
    ("PRIMARY KEY", ["primary", "key"]), ("UNIQUE", ["unique"]), ("FOREIGN KEY", ["foreign", "key"]),
    ("REFERENCES", ["references"]), ("ON UPDATE", ["on", "update"]), ("ON DELETE", ["on", "delete"]),
    ("NO ACTION", ["no", "action"]), ("RESTRICT", ["restrict"]), ("CASCADE", ["cascade"]),
    ("SET NULL", ["set", "null"]), ("SET DEFAULT", ["set", "default"]), ("DEFERRABLE", ["deferrable"]),
    ("INITIALLY DEFERRED", ["initially", "deferred"])]

theorem scansAs_keyword : ∀ p ∈ keyKeywords, ScansAs [' ', ';'] p.1.toList (p.2.map Token.word) := by
  simp only [keyKeywords, List.forall_mem_cons, List.not_mem_nil, false_implies, implies_true, and_true]
  refine ⟨?_, ?_, ?_, ?_, ?_, ?_, ?_, ?_, ?_, ?_, ?_, ?_, ?_, ?_, ?_⟩ <;>
    exact scansAs_words (by decide) (by decide) (fun _ => rfl) fun _ => rfl

theorem SpellsOut.keyword {text : String} (words : List String) {pieces : List String} {tokens : List Token}
    (h : (text, words) ∈ keyKeywords) (more : SpellsOut pieces tokens) :
    SpellsOut (text :: pieces) (words.map .word ++ tokens) := by
  have happart : ∀ p ∈ keyKeywords, ∀ w ∈ p.2, w ∉ ["format", "not", "nulls", "with", "without", "json", "between",
      "ilike", "in", "like", "similar", "first", "last", "ordinality", "time"] := by
    decide
  refine .words (scansAs_keyword _ h) (fun t ht => ?_) more
  obtain ⟨w, hw, rfl⟩ := List.mem_map.mp ht
  exact standsApart_word (happart _ h w hw)

/-! ## Pieces of a key -/

/-- What to do on an update or a deletion, which is not said if it is nothing. -/
def ReferentialAction.pieces (event : String) (action : ReferentialAction) : List String :=
  if action = .noAction then [] else ["ON " ++ event, action.text]

/-- Names between parentheses, if there are any. -/
def listPieces (names : List String) : List String :=
  if names = [] then [] else [listText names]

def Reference.pieces (reference : Reference) : List String :=
  "REFERENCES" :: pathText reference.table.path :: (listPieces reference.columns ++
    (reference.onUpdate.pieces "UPDATE" ++ reference.onDelete.pieces "DELETE"))

def KeyKind.pieces (columns : List String) : KeyKind → List String
  | .primaryKey => ["PRIMARY KEY", listText columns]
  | .unique => ["UNIQUE", listText columns]
  | .references reference => "FOREIGN KEY" :: listText columns :: reference.pieces

/-- Whether a key can be checked later, and whether it is at first. -/
inductive Deferral
  | never
  | allowed
  | initially
  deriving DecidableEq

namespace Deferral

def properties : Deferral → List Reader.Property
  | never => []
  | allowed => [.deferrable]
  | initially => [.deferrable, .deferred]

def pieces : Deferral → List String
  | never => []
  | allowed => ["DEFERRABLE"]
  | initially => ["DEFERRABLE", "INITIALLY DEFERRED"]

end Deferral

/-- A key of any number of columns, as a statement of its own adds it to a table. -/
structure AddedKey where
  table : List String
  name : String
  columns : List String
  kind : KeyKind
  deferral : Deferral := .never

namespace AddedKey

def pieces (key : AddedKey) : List String :=
  "ALTER TABLE" :: pathText key.table :: "ADD CONSTRAINT" :: quoteName key.name ::
    (key.kind.pieces key.columns ++ key.deferral.pieces)

/-- The statement without its semicolon. -/
def text (key : AddedKey) : String :=
  " ".intercalate key.pieces

/-- The key apart from its columns. -/
def columnKey (key : AddedKey) : ColumnKey where
  name := key.name
  kind := key.kind
  properties := key.deferral.properties

/-- The words of the key behind its name. -/
def bodyTokens (key : AddedKey) : List Token :=
  key.kind.ownTokens key.columns ++ key.columnKey.propertyTokens

def tokens (key : AddedKey) : List Token :=
  [.word "alter", .word "table"] ++ (pathTokens key.table ++ ([.word "add", .word "constraint"] ++
    (nameToken key.name :: key.bodyTokens)))

/-- The names in the key can all be written and read. -/
structure IsKept (key : AddedKey) : Prop where
  table : IsPath key.table
  name : Sql.IsKept key.name
  nonempty : key.columns ≠ []
  columns : ∀ n ∈ key.columns, Sql.IsKept n
  reference : ∀ reference, key.kind = .references reference →
    IsPath reference.table.path ∧ ∀ n ∈ reference.columns, Sql.IsKept n

end AddedKey

section

variable {names columns path : List String} {tokens : List Token} {reference : Reference} {key : AddedKey}

theorem SpellsOut.pathPiece {pieces : List String} (hpath : IsPath path) (happart : HeadApart tokens)
    (more : SpellsOut pieces tokens) : SpellsOut (pathText path :: pieces) (pathTokens path ++ tokens) :=
  .names (.path _ (by decide) hpath.nonempty hpath.kept) (joined_pathTokens path) happart more

theorem SpellsOut.listPiece {pieces : List String} (hnonempty : names ≠ []) (h : ∀ n ∈ names, IsKept n)
    (happart : HeadApart tokens) (more : SpellsOut pieces tokens) :
    SpellsOut (listText names :: pieces) (listTokens names ++ tokens) :=
  .names (scansAs_listText _ hnonempty h) (joined_listTokens names) happart more

theorem spells_action (event word : String) (h : ("ON " ++ event, ["on", word]) ∈ keyKeywords)
    (action : ReferentialAction) : SpellsOut (action.pieces event) (action.tokens word) := by
  have hsaid : (action.text, action.words) ∈ keyKeywords := by cases action <;> decide
  unfold ReferentialAction.pieces ReferentialAction.tokens
  split
  · exact .nil
  · have hall := SpellsOut.keyword _ h (SpellsOut.keyword _ hsaid .nil)
    rw [List.append_nil] at hall
    exact hall

theorem headApart_word {w : String} (h : w ∉ ["format", "not", "nulls", "with", "without", "json", "between",
    "ilike", "in", "like", "similar", "first", "last", "ordinality", "time"]) (tokens : List Token) :
    HeadApart (.word w :: tokens) :=
  (standsApart_word h).head tokens

theorem headApart_nil : HeadApart [] :=
  fun _ h => nomatch h

theorem headApart_action (word : String) (action : ReferentialAction) : HeadApart (action.tokens word) := by
  unfold ReferentialAction.tokens
  split
  · exact headApart_nil
  · exact headApart_word (by decide) _

theorem spells_listPieces (h : ∀ n ∈ names, IsKept n) : SpellsOut (listPieces names) (listTokens names) := by
  unfold listPieces
  split
  · next hnone =>
    rw [hnone]
    exact .nil
  · next hsome =>
    have hlist := SpellsOut.listPiece hsome h headApart_nil .nil
    rw [List.append_nil] at hlist
    exact hlist

theorem spells_reference (htable : IsPath reference.table.path) (hcolumns : ∀ n ∈ reference.columns, IsKept n) :
    SpellsOut reference.pieces reference.tokens := by
  have happart := (headApart_action "update" reference.onUpdate).append (headApart_action "delete" reference.onDelete)
  have hactions := (spells_action "UPDATE" "update" (by decide) reference.onUpdate).append
    (spells_action "DELETE" "delete" (by decide) reference.onDelete) (headApart_action "delete" reference.onDelete)
  have hlist := (spells_listPieces hcolumns).append hactions happart
  exact .keyword ["references"] (by decide)
    (.pathPiece htable ((headApart_listTokens reference.columns).append happart) hlist)

theorem AddedKey.IsKept.spells_kind (h : key.IsKept) :
    SpellsOut (key.kind.pieces key.columns) (key.kind.ownTokens key.columns) := by
  have hown := SpellsOut.listPiece h.nonempty h.columns headApart_nil .nil
  rw [List.append_nil] at hown
  cases hkind : key.kind with
  | primaryKey => exact .keyword ["primary", "key"] (by decide) hown
  | unique => exact .keyword ["unique"] (by decide) hown
  | references reference =>
    obtain ⟨htable, hcolumns⟩ := h.reference reference hkind
    exact .keyword ["foreign", "key"] (by decide)
      (.listPiece h.nonempty h.columns (headApart_word (by decide) _) (spells_reference htable hcolumns))

theorem spells_deferral (deferral : Deferral) :
    SpellsOut deferral.pieces (deferral.properties.flatMap Reader.Property.tokens) ∧
      HeadApart (deferral.properties.flatMap Reader.Property.tokens) := by
  have hinitially : SpellsOut ["INITIALLY DEFERRED"] [.word "initially", .word "deferred"] :=
    .keyword ["initially", "deferred"] (by decide) .nil
  cases deferral with
  | never => exact ⟨.nil, headApart_nil⟩
  | allowed => exact ⟨.keyword ["deferrable"] (by decide) .nil, headApart_word (by decide) _⟩
  | initially => exact ⟨.keyword ["deferrable"] (by decide) hinitially, headApart_word (by decide) _⟩

theorem AddedKey.IsKept.spells (h : key.IsKept) : SpellsOut key.pieces key.tokens := by
  obtain ⟨hdeferral, happart⟩ := spells_deferral key.deferral
  have hbody : SpellsOut (key.kind.pieces key.columns ++ key.deferral.pieces) key.bodyTokens :=
    h.spells_kind.append hdeferral happart
  have hbodyApart : HeadApart key.bodyTokens := by
    unfold AddedKey.bodyTokens
    cases key.kind <;> exact headApart_word (by decide) _
  have hname : SpellsOut (quoteName key.name :: (key.kind.pieces key.columns ++ key.deferral.pieces))
      ([nameToken key.name] ++ key.bodyTokens) :=
    .names (scansAs_quoteName (by decide) h.name) rfl hbodyApart hbody
  exact .keyword ["alter", "table"] (by decide) (.pathPiece h.table (headApart_word (by decide) _)
    (.keyword ["add", "constraint"] (by decide) hname))

end

/-! ## The statement -/

namespace AddedKey

variable {key : AddedKey}

/-- The clause that the key makes. -/
def clause (key : AddedKey) : ConstraintClause :=
  key.columnKey.listing key.columns

theorem IsKept.isNamed (h : key.IsKept) : key.columnKey.IsNamed where
  name n hn := by
    obtain rfl := Option.mem_some_iff.mp hn
    exact h.name.nonempty
  reference reference hkind := by
    obtain ⟨htable, hcolumns⟩ := h.reference reference hkind
    exact ⟨htable.names, fun n hn => (hcolumns n hn).nonempty⟩

theorem fits (key : AddedKey) : Reader.Fits key.columnKey := by
  unfold columnKey
  constructor <;> cases key.kind <;> cases key.deferral <;> rfl

end AddedKey

namespace Reader

variable {r : Rules} {key : AddedKey}

theorem alterCommand_key (r : Rules) (h : key.IsKept) (places : Nat → Nat × String) (more : List Token) :
    ∃ places', alterCommand r (lexemesAt places (.word "add" :: .word "constraint" ::
        (nameToken key.name :: (key.bodyTokens ++ .symbol ";" :: more)))) =
      .ok (.addConstraint key.clause, lexemesAt places' (.symbol ";" :: more)) := by
  have hmore : EndsKey (.symbol ";" :: more) := by simp [EndsKey]
  obtain ⟨places', hread⟩ := tableConstraint_key r h.isNamed h.nonempty (fun n hn => (h.columns n hn).nonempty)
    key.fits hmore fun i => places (i + 1)
  rw [AddedKey.bodyTokens, List.append_assoc]
  exact ⟨places', bind_ok (a := true) rfl (bind_ok (a := true) rfl (bind_ok hread rfl))⟩

theorem alterTable_key (r : Rules) (h : key.IsKept) (places : Nat → Nat × String) (more : List Token) :
    ∃ places', alterTable r (lexemesAt places (pathTokens key.table ++ (.word "add" :: .word "constraint" ::
        (nameToken key.name :: (key.bodyTokens ++ .symbol ";" :: more))))) =
      .ok (.alterTable (.ofPath key.table) [.addConstraint key.clause], lexemesAt places' (.symbol ";" :: more)) := by
  have hother (behind : List Token) (t : Token) (ht : .word "add" ≠ t) :
      (Token.word "add" :: behind).head? ≠ some t := by
    simpa using ht
  have hends (behind : List Token) : EndsParts (.word "add" :: behind) := ⟨by simp, by simp⟩
  have hall := accept_other (head?_pathTokens_ne h.table.nonempty (w := "all") (by decide) (.word "add" ::
    .word "constraint" :: (nameToken key.name :: (key.bodyTokens ++ .symbol ";" :: more)))) places
  obtain ⟨places₁, hrelation⟩ := openRelation_tokens r h.table (hends (.word "constraint" ::
    (nameToken key.name :: (key.bodyTokens ++ .symbol ";" :: more)))) (hother _ _ (by decide)) places
  obtain ⟨places₂, hcommand⟩ := alterCommand_key r h places₁ more
  have hlist : list (alterCommand r) (lexemesAt places₁ (.word "add" :: .word "constraint" ::
      (nameToken key.name :: (key.bodyTokens ++ .symbol ";" :: more)))) =
        .ok ([.addConstraint key.clause], lexemesAt places₂ (.symbol ";" :: more)) :=
    bind_ok hcommand rfl
  exact ⟨places₂, bind_ok (a := none) (test_false hall rfl)
    (bind_ok (ifExists_path h.table.nonempty (hother _ _ (by decide)) places) (bind_ok hrelation
      (bind_ok (a := none) rfl (bind_ok (a := none) rfl (bind_ok hlist rfl)))))⟩

end Reader

/-- A key that is added to a table is read as that key, with all its columns and all that is said of it. -/
theorem isSentence_key {key : AddedKey} (h : key.IsKept) :
    IsSentence key.text.toList (.alterTable (.ofPath key.table) [.addConstraint key.clause]) := by
  have hspells := h.spells
  refine ⟨key.tokens, hspells.scansAs.of_subset (by simp), fun depth _ places found more => ?_⟩
  obtain ⟨places', halter⟩ := Reader.alterTable_key (Reader.rulesTo depth) h (fun i => places (i + 2)) more
  have hall : key.tokens ++ .symbol ";" :: more = .word "alter" :: .word "table" :: (pathTokens key.table ++
      (.word "add" :: .word "constraint" :: (nameToken key.name :: (key.bodyTokens ++ .symbol ";" :: more)))) := by
    simp [AddedKey.tokens]
  rw [hspells.joined_eq, hall]
  exact ⟨_, Reader.nextStatement_alterTable halter found⟩

end SchemaScript.Sql
