import SchemaScript.Ddl.Index
import SchemaScript.Effect.Attached
import SchemaScript.Proofs.Catalog.Filing
import SchemaScript.Proofs.Ddl.Literals
import SchemaScript.Proofs.Order.Sorting
import SchemaScript.Proofs.Sql.CallText

/-!
# Columns of indexes on their way through a catalog

A column and an expression of an index share one field, and the writer takes for an expression what looks like one. So
a column is written as a name just if its name does not look like an expression, and the statement that is written for
an index is read with the same columns if its elements are read as they are written (`columns_of_statement`), which
holds of a function that is called on a column (`isSettled_call`).
-/

namespace SchemaScript

namespace Sql

/-! ## Names that look like expressions -/

/-- What looks like an expression is not a name that can stand without quotes. -/
theorem needsQuotes_of_looksLikeExpression {name : String} (h : Ddl.looksLikeExpression name) : needsQuotes name := by
  have hmark {part : String} (hpart : Text.contains name part) {c : Char} (hc : c ∈ part.toList)
      (hother : isBareContinue c = false ∧ c ≠ '\n') : needsQuotes name := by
    have hmem : c ∈ name.toList := (Text.occursIn_iff.mp hpart).subset hc
    have hname : name ≠ "" := by
      rintro rfl
      contradiction
    have hbare : isBare name.toList = false := by
      rw [← Bool.not_eq_true]
      intro hbare
      rcases isBare_iff.mp hbare with hword | ⟨word, hword, hline⟩
      · exact Bool.false_ne_true (hother.1.symm.trans (hword.isBareContinue c hmem))
      · rw [hline, List.mem_append, List.mem_singleton] at hmem
        rcases hmem with hmem | rfl
        · exact Bool.false_ne_true (hother.1.symm.trans (hword.isBareContinue c hmem))
        · exact hother.2 rfl
    simp [needsQuotes, hname, hbare]
  unfold Ddl.looksLikeExpression at h
  rw [Bool.or_eq_true, Bool.or_eq_true] at h
  rcases h with (hparenthesis | hcast) | harrow
  · exact hmark (c := '(') hparenthesis (by decide) (by decide)
  · exact hmark (c := ':') hcast (by decide) (by decide)
  · exact hmark (c := '-') harrow (by decide) (by decide)

theorem quoteName_ne_self {name : String} (h : needsQuotes name) : quoteName name ≠ name := by
  have hlength (s : List Char) : s.length ≤ (doubleQuotes s).length := by
    induction s with
    | nil => exact Nat.le_refl 0
    | cons c s ih =>
      have hfirst : 1 ≤ (if c == '"' then ['"', '"'] else [c]).length := by split <;> simp
      simp only [doubleQuotes, List.flatMap_cons, List.length_append, List.length_cons] at ih ⊢
      omega
  intro heq
  have hlengths := congrArg (fun s => s.toList.length) heq
  have := hlength name.toList
  unfold quoteName quoted at hlengths
  rw [if_pos h] at hlengths
  simp only [String.toList_ofList, List.length_append, List.length_cons, List.length_nil] at hlengths
  omega

end Sql

namespace Effect

open Sql

/-- What is written for the key of an element. -/
def keyText (element : IndexElement) : String :=
  if element.isExpression then enclosed (Ddl.indexExpression element.key)
  else if Ddl.looksLikeExpression element.key then element.key else quoteName element.key

def classText (element : IndexElement) : String :=
  if element.operatorClass = [] then "" else " " ++ ".".intercalate element.operatorClass

def orderText (element : IndexElement) : String :=
  if element.isDescending then " DESC" else ""

theorem given_operatorClass {element : IndexElement} (h : ∀ n ∈ element.operatorClass, n ≠ "") (i : Nat) :
    (indexColumn i element).operatorClass.given =
      if element.operatorClass = [] then none else some (".".intercalate element.operatorClass) := by
  have hfield : (indexColumn i element).operatorClass = if element.operatorClass.isEmpty then .absent
      else ((".".intercalate element.operatorClass : String) : Field String) := rfl
  rw [hfield]
  cases hclass : element.operatorClass with
  | nil => rfl
  | cons name names =>
    have hname : name ≠ "" := h name (hclass ▸ List.mem_cons_self)
    have hjoined : ".".intercalate (name :: names) ≠ "" := by
      intro hempty
      have hlist := congrArg String.toList hempty
      rw [toList_intercalate_cons] at hlist
      exact hname (String.toList_eq_nil_iff.mp (List.append_eq_nil_iff.mp hlist).1)
    rw [if_neg (by simp), if_neg (by simp)]
    exact (Field.given_text _).trans (if_neg hjoined)

theorem isDescending_indexColumn (element : IndexElement) (i : Nat) :
    (Text.upper ((indexColumn i element).direction.givenOr "") == "DESC") = element.isDescending := by
  have hfield : (indexColumn i element).direction =
      if element.isDescending then (("DESC" : String) : Field String) else .absent := rfl
  rw [hfield]
  cases element.isDescending <;> decide

theorem columnText_indexColumn {element : IndexElement} (hkey : element.key ≠ "")
    (hclass : ∀ n ∈ element.operatorClass, n ≠ "") (i : Nat) :
    Index.columnText (indexColumn i element) = keyText element ++ classText element ++ orderText element := by
  have hname (name : String) (hname : name ≠ "") :
      (if Ddl.looksLikeExpression (name : Field String).spelled then (name : Field String).spelled
        else Ddl.nameText (name : Field String)) =
          if Ddl.looksLikeExpression name then name else quoteName name := by
    rw [Ddl.nameText_of_isGiven (Field.isGiven_text hname), Field.spelled_text]
  have hkeyText : (if Ddl.looksLikeExpression (indexColumn i element).name.spelled
      then (indexColumn i element).name.spelled else Ddl.nameText (indexColumn i element).name) = keyText element := by
    unfold indexColumn keyText
    cases element.isExpression with
    | false => exact hname element.key hkey
    | true =>
      have hlooks : Ddl.looksLikeExpression (enclosed (Ddl.indexExpression element.key)) := by
        have hopen : Text.contains (enclosed (Ddl.indexExpression element.key)) "(" := by
          refine Text.occursIn_iff.mpr ⟨[], (Ddl.indexExpression element.key ++ ")").toList, ?_⟩
          simp [enclosed, String.toList_append]
        simp [Ddl.looksLikeExpression, hopen]
      exact if_pos hlooks
  unfold Index.columnText classText orderText
  rw [given_operatorClass hclass, isDescending_indexColumn, hkeyText]
  by_cases hempty : element.operatorClass = []
  · rw [if_pos hempty, if_pos hempty]
  · rw [if_neg hempty, if_neg hempty]

/-- A column is written as a name just if the name does not look like an expression. -/
theorem columnText_eq_iff {element : IndexElement} (hcolumn : element.isExpression = false) (hkey : element.key ≠ "")
    (hclass : ∀ n ∈ element.operatorClass, n ≠ "") (i : Nat) :
    Index.columnText (indexColumn i element) = quoteName element.key ++ classText element ++ orderText element ↔
      Ddl.looksLikeExpression element.key = false := by
  have htext : keyText element = if Ddl.looksLikeExpression element.key then element.key else quoteName element.key :=
    if_neg (by simp [hcolumn])
  rw [columnText_indexColumn hkey hclass, htext]
  constructor
  · intro hquoted
    rw [← Bool.not_eq_true]
    -- what looks like an expression would need quotes, and is written without them
    intro hlooks
    rw [if_pos hlooks, String.append_assoc, String.append_assoc] at hquoted
    exact quoteName_ne_self (needsQuotes_of_looksLikeExpression hlooks) ((String.append_left_inj _).mp hquoted).symm
  · intro hplain
    rw [if_neg (by simp [hplain])]

end Effect

namespace Sql

/-! ## Elements as they are printed -/

namespace ScansAs

variable {ends ends' : List Char} {s t : List Char} {words more : List Token}

theorem mono (h : ScansAs ends s words) (hsub : ∀ d ∈ ends', d ∈ ends) : ScansAs ends' s words where
  noZero := h.noZero
  short := h.short
  scans d hd := h.scans d (hsub d hd)

/-- What follows may be nothing if it would begin with a blank. -/
theorem append_blank (h : ScansAs (' ' :: ends) s words) (ht : ScansAs ends t more)
    (hblank : ∀ d ∈ t.head?, d = ' ') : ScansAs ends (s ++ t) (words ++ more) := by
  cases t with
  | nil =>
    obtain rfl : more = [] := List.length_eq_zero_iff.mp (Nat.le_zero.mp ht.short)
    rw [List.append_nil, List.append_nil]
    exact h.mono fun d hd => List.mem_cons_of_mem _ hd
  | cons d t =>
    obtain rfl := hblank d rfl
    exact h.append ht List.mem_cons_self

theorem optional (b : Bool) (hfront : ScansAs [' '] s words) (h : ScansAs ends t more) :
    ScansAs ends ((if b then s ++ [' '] else []) ++ t) ((if b then words else []) ++ more) := by
  cases b with
  | false => exact h
  | true =>
    rw [if_pos rfl, if_pos rfl, List.append_assoc]
    exact hfront.append h.blank (by decide)

end ScansAs

/-- The expression in short form is read as one that has the same short form. -/
def IsSettled (expression : String) : Prop :=
  ∃ (again : Value) (words : List Token),
    Ddl.indexExpression again.phrase.text = Ddl.indexExpression expression ∧
    ScansAs [')'] (Ddl.indexExpression expression).toList words ∧ joined words = again.tokens

/-- A function that is called on a column has no shorter form, and is read as it is written. -/
theorem isSettled_call {f c : String} (hf : IsFreeWord f) (hc : IsFreeWord c) : IsSettled (f ++ enclosed c) := by
  have hplain : ∀ d ∈ (f ++ enclosed c).toList, d ≠ ':' ∧ d ≠ ' ' := by
    intro d hd
    have hword {w : String} (h : IsFreeWord w) (hd : d ∈ w.toList) : d ≠ ':' ∧ d ≠ ' ' := by
      have hcontinues := h.isBareContinue d hd
      exact ⟨by rintro rfl; contradiction, by rintro rfl; contradiction⟩
    simp only [enclosed, String.toList_append, List.mem_append] at hd
    rcases hd with hd | (hd | hd) | hd
    · exact hword hf hd
    · obtain rfl := List.mem_singleton.mp hd
      decide
    · exact hword hc hd
    · obtain rfl := List.mem_singleton.mp hd
      decide
  have hshort : Ddl.IsShort (f ++ enclosed c).toList := by
    refine ⟨fun h => ?_, fun h => ?_, fun h => ?_⟩
    · exact (hplain ':' (h.subset (by decide))).1 rfl
    · exact (hplain ' ' (h.subset (by decide))).2 rfl
    · exact (hplain ' ' (h.subset (by decide))).2 rfl
  have hsame : Ddl.indexExpression (f ++ enclosed c) = f ++ enclosed c := by
    rw [← String.toList_inj, Ddl.toList_indexExpression]
    exact (Ddl.short_eq_self_iff _).mpr hshort
  refine ⟨callValue hf hc, (callValue hf hc).tokens, rfl, ?_, joined_callValue hf hc⟩
  rw [hsame]
  exact scansAs_call hf hc [')']

/-- The element is written as words that are read as itself. -/
structure IndexElement.IsSettled (element : IndexElement) : Prop where
  column : element.isExpression = false → IsKept element.key ∧ Ddl.looksLikeExpression element.key = false
  expression : element.isExpression → element.key ≠ "" ∧ Sql.IsSettled element.key
  /-- The names of the class are written as they are. -/
  operatorClass : ∀ n ∈ element.operatorClass, IsKept n ∧ needsQuotes n = false
  /-- A column that is called by a keyword does not have a class that changes the meaning of that keyword. -/
  apart : element.isExpression = false → ∀ n ∈ element.operatorClass.head?,
    isJoinedTo (nameToken element.key) (nameToken n) = false

namespace IndexElement.IsSettled

variable {element : IndexElement} (h : element.IsSettled)
include h

theorem key_ne_empty : element.key ≠ "" := by
  cases hexpression : element.isExpression with
  | false => exact (h.column hexpression).1.nonempty
  | true => exact (h.expression hexpression).1

theorem class_ne_empty : ∀ n ∈ element.operatorClass, n ≠ "" :=
  fun n hn => (h.operatorClass n hn).1.nonempty

end IndexElement.IsSettled

end Sql

namespace Effect

open Sql

section

variable {element : IndexElement}

/-- The words behind the key of an element. -/
def backTokens (element : IndexElement) : List Token :=
  pathTokens element.operatorClass ++ orderTokens element.isDescending

theorem beginsApart_orderTokens (isDescending : Bool) : BeginsApart (orderTokens isDescending) := by
  cases isDescending
  · exact ⟨List.isChain_nil, nofun⟩
  · exact (standsApart_word (by decide)).begins List.isChain_nil

theorem unjoined_backTokens (element : IndexElement) : Unjoined (backTokens element) :=
  unjoined_path element.operatorClass (beginsApart_orderTokens element.isDescending)

theorem scansAs_orderText (element : IndexElement) :
    ScansAs [',', ')'] (orderText element).toList (orderTokens element.isDescending) ∧
      ∀ d ∈ (orderText element).toList.head?, d = ' ' := by
  unfold orderText orderTokens
  cases element.isDescending with
  | false => exact ⟨.nil _, by simp⟩
  | true =>
    refine ⟨⟨by decide, by decide, fun d hd rest more hrest => ?_⟩, by simp⟩
    have hwords : frontWords 1 (" DESC".toList ++ d :: rest) = some ([.word "desc"], d :: rest) := by
      simp only [List.mem_cons, List.not_mem_nil, or_false] at hd
      rcases hd with rfl | rfl <;> rfl
    exact scans_frontWords hwords hrest

theorem scansAs_backText (h : ∀ n ∈ element.operatorClass, IsKept n ∧ needsQuotes n = false) :
    ScansAs [',', ')'] (classText element ++ orderText element).toList (backTokens element) ∧
      ∀ d ∈ (classText element ++ orderText element).toList.head?, d = ' ' := by
  obtain ⟨horder, hblank⟩ := scansAs_orderText element
  unfold backTokens
  by_cases hempty : element.operatorClass = []
  · rw [classText, if_pos hempty, hempty, String.empty_append]
    exact ⟨horder, hblank⟩
  · have hbare : element.operatorClass.map quoteName = element.operatorClass :=
      (List.map_congr_left fun n hn => if_neg (by simp [(h n hn).2])).trans (List.map_id _)
    have hclass : (classText element).toList = ' ' :: (pathText element.operatorClass).toList := by
      rw [classText, if_neg hempty, pathText, hbare, String.toList_append]
      rfl
    rw [String.toList_append, hclass]
    have hpath := ScansAs.path [' ', ',', ')'] (by decide) hempty fun n hn => (h n hn).1
    exact ⟨hpath.blank.append_blank horder hblank, by simp⟩

/-- What is printed for an element that is settled is read as an element with the same column. -/
theorem exists_item (h : element.IsSettled) : ∃ (item : IndexItem) (words : List Token), item.IsNamed ∧
    (∀ i, indexColumn i item.element = indexColumn i element) ∧
    ScansAs [',', ')'] (keyText element ++ classText element ++ orderText element).toList words ∧
    joined words = item.tokens := by
  obtain ⟨hback, hblank⟩ := scansAs_backText h.operatorClass
  have hjoined := (unjoined_backTokens element).joined
  have hnames := h.class_ne_empty
  rw [String.append_assoc, String.toList_append]
  cases hexpression : element.isExpression with
  | false =>
    obtain ⟨hkept, hlooks⟩ := h.column hexpression
    have htext : keyText element = pathText [element.key] := by
      rw [keyText, if_neg (by simp [hexpression]), if_neg (by simp [hlooks])]
      exact String.intercalate_singleton.symm
    have hkey := ScansAs.path [' ', ',', ')'] (by decide) (List.cons_ne_nil element.key [])
      (List.forall_mem_singleton.mpr hkept)
    have hunjoined : Unjoined (nameToken element.key :: backTokens element) := by
      refine List.isChain_cons.mpr ⟨fun next hnext => ?_, unjoined_backTokens element⟩
      unfold backTokens at hnext
      cases hclass : element.operatorClass with
      | nil =>
        rw [hclass] at hnext
        exact ((beginsApart_orderTokens element.isDescending).2 next hnext (nameToken element.key)).2
      | cons n names =>
        rw [hclass] at hnext
        obtain rfl := Option.some.inj hnext
        exact h.apart hexpression n (by rw [hclass]; rfl)
    refine ⟨⟨.column element.key, element.operatorClass, element.isDescending⟩,
      nameToken element.key :: backTokens element, ⟨fun name hname => ?_, hnames⟩, fun i => ?_, ?_, hunjoined.joined⟩
    · exact IndexKey.column.inj hname ▸ hkept.nonempty
    · show indexColumn i { element with isExpression := false } = _
      rw [← hexpression]
    · rw [htext]
      exact hkey.append_blank hback hblank
  | true =>
    obtain ⟨again, words, hshort, hprinted, hagain⟩ := (h.expression hexpression).2
    have htext : (keyText element).toList = '(' :: ((Ddl.indexExpression element.key).toList ++ [')']) := by
      rw [keyText, if_pos hexpression, enclosed, String.toList_append, String.toList_append]
      rfl
    have hclose : HeadApart (.symbol ")" :: backTokens element) := (standsApart_symbol ")").head _
    refine ⟨⟨.expression again, element.operatorClass, element.isDescending⟩,
      .symbol "(" :: (words ++ .symbol ")" :: backTokens element), ⟨by rintro _ ⟨⟩, hnames⟩, fun i => ?_, ?_, ?_⟩
    · show indexColumn i { element with key := again.phrase.text, isExpression := true } = _
      unfold indexColumn
      rw [hexpression, hshort]
      rfl
    · rw [htext, List.cons_append, List.append_assoc, List.singleton_append]
      exact (hprinted.append (hback.symbol (by decide)) (by decide)).symbol (by decide)
    · rw [joined_cons (standsApart_symbol "("), joined_append words hclose, joined_cons (standsApart_symbol ")"),
        hagain, hjoined]
      simp [IndexItem.tokens, IndexKey.tokens, backTokens]

/-! ## Whole statements -/

/-- What is written for an element. -/
def elementText (element : IndexElement) : String :=
  keyText element ++ classText element ++ orderText element

theorem exists_items {elements : List IndexElement} (h : ∀ e ∈ elements, e.IsSettled) :
    ∃ (items : List IndexItem) (parts : List (List Token)), (∀ item ∈ items, item.IsNamed) ∧
      List.Forall₂ (fun item e => ∀ i, indexColumn i item.element = indexColumn i e) items elements ∧
      List.Forall₂ (fun text words => ScansAs [',', ')'] text.toList words) (elements.map elementText) parts ∧
      parts.map joined = items.map IndexItem.tokens := by
  induction elements with
  | nil => exact ⟨[], [], by simp, .nil, .nil, rfl⟩
  | cons e elements ih =>
    obtain ⟨he, helements⟩ := List.forall_mem_cons.mp h
    obtain ⟨item, words, hnamed, hsame, hprinted, hjoined⟩ := exists_item he
    obtain ⟨items, parts, hitems, hall, hmore, hlater⟩ := ih helements
    refine ⟨item :: items, words :: parts, List.forall_mem_cons.mpr ⟨hnamed, hitems⟩, .cons hsame hall,
      .cons hprinted hmore, ?_⟩
    rw [List.map_cons, List.map_cons, hjoined, hlater]

theorem mapIdx_indexColumn_eq {items : List IndexItem} {elements : List IndexElement}
    (h : List.Forall₂ (fun item e => ∀ i, indexColumn i item.element = indexColumn i e) items elements) :
    (items.map (·.element)).mapIdx indexColumn = elements.mapIdx indexColumn := by
  obtain ⟨hlength, hsame⟩ := List.forall₂_iff_get.mp h
  refine List.ext_getElem (by simpa using hlength) fun i hi hi' => ?_
  rw [List.getElem_mapIdx, List.getElem_mapIdx, List.getElem_map]
  exact hsame i _ _ i

theorem map_columnText_mapIdx {elements : List IndexElement} (h : ∀ e ∈ elements, e.key ≠ "" ∧
    ∀ n ∈ e.operatorClass, n ≠ "") :
    (elements.mapIdx indexColumn).map Index.columnText = elements.map elementText := by
  refine List.ext_getElem (by simp) fun i hi hi' => ?_
  rw [List.getElem_map, List.getElem_map, List.getElem_mapIdx]
  obtain ⟨hkey, hclass⟩ := h _ (List.getElem_mem (List.length_map _ ▸ hi'))
  exact columnText_indexColumn hkey hclass i

/-- What a statement that creates an index says in front of its columns. -/
def indexFront (isUnique isConcurrent : Bool) (name : String) (path : List String) (method : String) : String :=
  "CREATE " ++ (if isUnique then "UNIQUE " else "") ++ "INDEX " ++ (if isConcurrent then "CONCURRENTLY " else "") ++
    quoteName name ++ " ON " ++ pathText path ++ (if method = "btree" then "" else " USING " ++ method) ++ " "

/-- A statement that creates an index, with the texts of its columns. -/
def createIndexText (isUnique isConcurrent : Bool) (name : String) (path : List String) (method : String)
    (columns : List String) : String :=
  indexFront isUnique isConcurrent name path method ++ enclosed (commaList columns) ++ ";"

theorem toList_createIndexText (isUnique isConcurrent : Bool) (name : String) (path : List String) (method : String)
    (columns : List String) : (createIndexText isUnique isConcurrent name path method columns).toList =
      ("CREATE".toList ++ ' ' :: ((if isUnique then "UNIQUE".toList ++ [' '] else []) ++ ("INDEX".toList ++
        ' ' :: ((if isConcurrent then "CONCURRENTLY".toList ++ [' '] else []) ++ ((quoteName name).toList ++
          ' ' :: ("ON".toList ++ ' ' :: ((pathText path).toList ++ ' ' ::
            ((if method = "btree" then [] else ("USING".toList ++ ' ' :: method.toList) ++ [' ']) ++
              (enclosed (commaList columns)).toList)))))))) ++ [';'] := by
  have hcreate : "CREATE ".toList = "CREATE".toList ++ [' '] := rfl
  have hindex : "INDEX ".toList = "INDEX".toList ++ [' '] := rfl
  have hon : " ON ".toList = ' ' :: ("ON".toList ++ [' ']) := rfl
  have hblank : " ".toList = [' '] := rfl
  have hend : ";".toList = [';'] := rfl
  have hunique : (if isUnique then "UNIQUE " else "").toList = if isUnique then "UNIQUE".toList ++ [' '] else [] := by
    cases isUnique <;> rfl
  have hconcurrently : (if isConcurrent then "CONCURRENTLY " else "").toList =
      if isConcurrent then "CONCURRENTLY".toList ++ [' '] else [] := by
    cases isConcurrent <;> rfl
  have hmethod (rest : List Char) : (if method = "btree" then "" else " USING " ++ method).toList ++ ' ' :: rest =
      ' ' :: ((if method = "btree" then [] else ("USING".toList ++ ' ' :: method.toList) ++ [' ']) ++ rest) := by
    have husing : " USING ".toList = ' ' :: ("USING".toList ++ [' ']) := rfl
    split
    · rfl
    · rw [String.toList_append, husing]
      simp only [List.append_assoc, List.cons_append, List.nil_append]
  unfold createIndexText indexFront
  simp only [String.toList_append, hcreate, hindex, hon, hblank, hend, hunique, hconcurrently, List.append_assoc,
    List.cons_append, List.nil_append, hmethod]

/-- The words that create an index, up to the parenthesis before its elements and with what follows it. -/
def indexTokens (isUnique isConcurrent : Bool) (name : String) (path : List String) (method : String)
    (elements : List Token) : List Token :=
  .word "create" :: ((if isUnique then [.word "unique"] else []) ++ .word "index" ::
    ((if isConcurrent then [.word "concurrently"] else []) ++ nameToken name :: .word "on" ::
      (pathTokens path ++ (methodTokens method ++ .symbol "(" :: elements))))

theorem joined_indexTokens (isUnique isConcurrent : Bool) (name : String) (path : List String) (method : String)
    (elements : List Token) : joined (indexTokens isUnique isConcurrent name path method elements) =
      indexTokens isUnique isConcurrent name path method (joined elements) := by
  have hoptional (b : Bool) {w : String} (hw : StandsApart (.word w)) (back : List Token) :
      joined ((if b then [Token.word w] else []) ++ back) = (if b then [Token.word w] else []) ++ joined back := by
    cases b with
    | false => rfl
    | true => exact joined_cons hw back
  have hopen : StandsApart (.symbol "(") := standsApart_symbol "("
  have hon : StandsApart (.word "on") := standsApart_word (by decide)
  have hname (back : List Token) : joined (nameToken name :: .word "on" :: back) =
      nameToken name :: joined (.word "on" :: back) := joined_append [nameToken name] (hon.head back)
  have happart : HeadApart (methodTokens method ++ .symbol "(" :: elements) := by
    unfold methodTokens
    split
    · exact hopen.head elements
    · exact (standsApart_word (by decide)).head _
  have hmethod : joined (methodTokens method ++ .symbol "(" :: elements) =
      methodTokens method ++ .symbol "(" :: joined elements := by
    rw [joined_append _ (hopen.head elements), joined_cons hopen]
    unfold methodTokens
    split
    · rfl
    · rw [joined_cons (standsApart_word (by decide))]
      rfl
  unfold indexTokens
  rw [joined_cons (standsApart_word (by decide)), hoptional isUnique (standsApart_word (by decide)),
    joined_cons (standsApart_word (by decide)), hoptional isConcurrent (standsApart_word (by decide)), hname,
    joined_cons hon, joined_append _ happart, joined_pathTokens, hmethod]

theorem reads_index (isUnique isConcurrent : Bool) {name method text : String} {path texts : List String}
    {words : List Token} {parts : List (List Token)} (hname : IsKept name) (hpath : IsPath path)
    (hmethod : IsKept method) (hbare : needsQuotes method = false) (hfirst : ScansAs [',', ')'] text.toList words)
    (hothers : List.Forall₂ (fun text words => ScansAs [',', ')'] text.toList words) texts parts) :
    Reads (createIndexText isUnique isConcurrent name path method (text :: texts)).toList
      (indexTokens isUnique isConcurrent name path method (words ++ (othersTokens parts ++ [.symbol ";"]))) := by
  have hname' (name : String) (h : IsKept name) : ScansAs [' '] (quoteName name).toList [nameToken name] := by
    have hpath := ScansAs.path [' '] (by decide) (List.cons_ne_nil name []) (List.forall_mem_singleton.mpr h)
    rwa [show pathText [name] = quoteName name from String.intercalate_singleton] at hpath
  have hword (word token : String) (hword : ∀ rest, frontWords 1 (word.toList ++ ' ' :: rest) =
      some ([.word token], ' ' :: rest)) (hzero : '\x00' ∉ word.toList) (hlong : 1 ≤ word.toList.length) :
      ScansAs [' '] word.toList [.word token] := .of_frontWords 1 hzero hlong hword
  have hlist : ScansAs [';'] (enclosed (commaList (text :: texts))).toList _ := .enclosed [';'] hfirst hothers
  have hcalled : ScansAs [' '] method.toList [nameToken method] := by
    have hquoted := hname' method hmethod
    rwa [quoteName, if_neg (by simp [hbare])] at hquoted
  have husing := (hword "USING" "using" (fun _ => rfl) (by decide) (by decide)).append hcalled.blank (by decide)
  -- the statement is read from its end, since each part says what may follow it
  have hmethods : ScansAs [';'] ((if method = "btree" then [] else ("USING".toList ++ ' ' :: method.toList) ++ [' ']) ++
      (enclosed (commaList (text :: texts))).toList)
      (methodTokens method ++ .symbol "(" :: (words ++ othersTokens parts)) := by
    unfold methodTokens
    split
    · exact hlist
    · have hboth := husing.append hlist.blank (by decide)
      simpa only [List.append_assoc, List.cons_append, List.nil_append] using hboth
  have htable := (ScansAs.path [' '] (by decide) hpath.nonempty hpath.kept).append hmethods.blank (by decide)
  have hon := (hword "ON" "on" (fun _ => rfl) (by decide) (by decide)).append htable.blank (by decide)
  have hnamed := (hname' name hname).append hon.blank (by decide)
  have hindex := (hword "INDEX" "index" (fun _ => rfl) (by decide) (by decide)).append
    (ScansAs.optional isConcurrent (hword "CONCURRENTLY" "concurrently" (fun _ => rfl) (by decide) (by decide))
      hnamed).blank (by decide)
  have hcreate := (hword "CREATE" "create" (fun _ => rfl) (by decide) (by decide)).append
    (ScansAs.optional isUnique (hword "UNIQUE" "unique" (fun _ => rfl) (by decide) (by decide)) hindex).blank
    (by decide)
  have hreads := hcreate.reads
  rw [← toList_createIndexText] at hreads
  simpa only [indexTokens, List.append_assoc, List.cons_append, List.nil_append] using hreads

/-- The statement for elements that are settled is read as one with the same columns. -/
theorem exists_hasWords_index (isUnique isConcurrent : Bool) {name method : String} {path : List String}
    {elements : List IndexElement} (hname : IsKept name) (hpath : IsPath path) (hmethod : IsKept method)
    (hbare : needsQuotes method = false) (hnonempty : elements ≠ []) (h : ∀ e ∈ elements, e.IsSettled) :
    ∃ first others, (IndexWords.mk isUnique isConcurrent name path method first others).IsNamed ∧
      HasWords (createIndexText isUnique isConcurrent name path method (elements.map elementText))
        (IndexWords.mk isUnique isConcurrent name path method first others).tokens ∧
      ((first :: others).map (·.element)).mapIdx indexColumn = elements.mapIdx indexColumn := by
  obtain ⟨items, parts, hnamed, hsame, hprinted, hjoined⟩ := exists_items h
  obtain ⟨e, elements, rfl⟩ := List.exists_cons_of_ne_nil hnonempty
  cases hsame with
  | @cons item _ items _ _ _ =>
  cases hprinted with
  | @cons _ words _ parts hfirst hothers =>
  rw [List.map_cons, List.map_cons, List.cons.injEq] at hjoined
  refine ⟨item, items, ⟨hname.nonempty, hmethod.nonempty, hpath, hnamed⟩,
    ⟨_, reads_index isUnique isConcurrent hname hpath hmethod hbare hfirst hothers, ?_⟩, mapIdx_indexColumn_eq ?_⟩
  · have hend : HeadApart [.symbol ";"] := (standsApart_symbol ";").head []
    rw [joined_indexTokens, joined_append words ((headApart_othersTokens parts).append hend), joined_append _ hend,
      joined_othersTokens, hjoined.1, hjoined.2]
    simp only [indexTokens, IndexWords.tokens, IndexWords.ownTokens, IndexWords.itemTokens, othersTokens,
      List.flatMap_map, List.append_assoc, List.cons_append, List.nil_append]
    rfl
  · exact .cons ‹_› ‹_›

/-! ## Indexes of a table -/

theorem isGiven_indexColumn {e : IndexElement} (h : e.key ≠ "") (i : Nat) : (indexColumn i e).name.isGiven := by
  have hfield : (indexColumn i e).name = if e.isExpression
      then ((enclosed (Ddl.indexExpression e.key) : String) : Field String) else (e.key : Field String) := rfl
  rw [hfield]
  split
  · refine Field.isGiven_text fun hempty => ?_
    have hlist := congrArg String.toList hempty
    simp [enclosed, String.toList_append] at hlist
  · exact Field.isGiven_text h

/-- An index without a condition is written from its elements. -/
theorem ddl_addIndex {t : Table} {d : IndexDefinition} {index : Index} {name : String}
    (hindex : (addIndex t d).indexes.get? name = some index)
    (hcalled : Text.givenOr d.name (indexName t (d.elements.mapIdx indexColumn)) = name) (hname : name ≠ "")
    (htable : t.name.isGiven) (hmethod : d.method ≠ "") (hpredicate : d.predicate = none) (hnonempty : d.elements ≠ [])
    (hkeys : ∀ e ∈ d.elements, e.key ≠ "" ∧ ∀ n ∈ e.operatorClass, n ≠ "") (target : Option String) :
    index.columns = d.elements.mapIdx indexColumn ∧
    index.ddl target = createIndexText d.isUnique d.isConcurrent name (Ddl.path t.schema t.name target) d.method
      (d.elements.map elementText) := by
  unfold addIndex at hindex
  dsimp only at hindex
  rw [hcalled, Entries.get?_put, if_pos rfl] at hindex
  obtain rfl := Option.some.inj hindex
  refine ⟨rfl, ?_⟩
  have hsorted : byPosition (·.position) (d.elements.mapIdx indexColumn) = d.elements.mapIdx indexColumn :=
    Numbered.byPosition_eq (numbered_mapIdx d.elements fun _ _ => rfl)
  have hall : ((d.elements.mapIdx indexColumn).all fun c => c.name.isGiven) := by
    refine List.all_eq_true.mpr fun c hc => ?_
    obtain ⟨i, hi, rfl⟩ := List.mem_mapIdx.mp hc
    exact isGiven_indexColumn (hkeys _ (List.getElem_mem hi)).1 i
  have hsome : (d.elements.mapIdx indexColumn).isEmpty = false := by
    simpa using hnonempty
  have hflag (b : Bool) : (b : Field Bool).isGiven = b := by cases b <;> rfl
  have htext : Index.fromColumns? {
      schema := t.schema, table := t.name, name := name, method := d.method
      kind := if d.isUnique then .unique else .regular
      columns := d.elements.mapIdx indexColumn, isUnique := d.isUnique
      isPartial := d.predicate.isSome, isConcurrent := d.isConcurrent, predicate := d.predicate } target =
    some (indexFront d.isUnique d.isConcurrent name (Ddl.path t.schema t.name target) d.method ++
      enclosed (commaList (d.elements.map elementText))) := by
    unfold Index.fromColumns? Index.hasColumns Index.sortedColumns
    rw [hsorted, hsome, hall, Ddl.nameText_of_isGiven (Field.isGiven_text hname), Ddl.reference_eq_pathText htable,
      map_columnText_mapIdx hkeys]
    simp only [hflag, hpredicate, Field.given_text, if_neg hmethod]
    refine congrArg some (String.append_empty.trans ?_)
    have hopen : " (" = " " ++ "(" := rfl
    rw [hopen]
    simp only [indexFront, enclosed, commaList, Field.spelled_text, beq_iff_eq, String.append_assoc]
  have hends (front inner : String) : Text.endsWith (front ++ enclosed inner) ";" = false := by
    have hlist : (front ++ enclosed inner).toList = (front.toList ++ '(' :: inner.toList) ++ [')'] := by
      simp [enclosed, String.toList_append]
    have hlast : ¬ [';'] <:+ (front.toList ++ '(' :: inner.toList) ++ [')'] := by
      rintro ⟨before, hbefore⟩
      exact absurd (List.append_inj_right' hbefore rfl) (by decide)
    unfold Text.endsWith
    rw [hlist, ← Bool.not_eq_true, List.isSuffixOf_iff_suffix]
    exact hlast
  unfold Index.ddl
  rw [if_neg (by simp [Field.isGiven_text hname])]
  dsimp only [Field.given_absent]
  rw [htext]
  dsimp only
  rw [hends, Ddl.commentAfter, Field.given_absent]
  exact String.append_empty

end

/-- A column of an index is written as a name unless its name looks like an expression. The statement for an index is
read with the same columns, for any table, if its elements are read as they are written. -/
theorem columns_of_statement (element : IndexElement) (i : Nat) (t : Table) (d : IndexDefinition) (index : Index)
    (name : String) (target : Option String) :
    (element.isExpression = false → element.key ≠ "" → (∀ n ∈ element.operatorClass, n ≠ "") →
      (Index.columnText (indexColumn i element) = quoteName element.key ++ classText element ++ orderText element ↔
        Ddl.looksLikeExpression element.key = false)) ∧
    (Text.givenOr d.name (indexName t (d.elements.mapIdx indexColumn)) = name →
      (addIndex t d).indexes.get? name = some index → IsKept name → t.name.isGiven →
      IsPath (Ddl.path t.schema t.name target) → IsKept d.method → needsQuotes d.method = false →
      d.predicate = none → d.elements ≠ [] → (∀ e ∈ d.elements, e.IsSettled) →
      ∃ read, statements (index.ddl target) = .ok [.createIndex read] ∧
        read.table = .ofPath (Ddl.path t.schema t.name target) ∧
        ∀ existing : Table, ((addIndex existing read).indexes.get? name).map (·.columns) = some index.columns) := by
  refine ⟨fun hcolumn hkey hclass => columnText_eq_iff hcolumn hkey hclass i, ?_⟩
  intro hcalled hindex hname htable hpath hmethod hbare hpredicate hnonempty h
  have hkeys : ∀ e ∈ d.elements, e.key ≠ "" ∧ ∀ n ∈ e.operatorClass, n ≠ "" :=
    fun e he => ⟨(h e he).key_ne_empty, (h e he).class_ne_empty⟩
  obtain ⟨hcolumns, hddl⟩ := ddl_addIndex hindex hcalled hname.nonempty htable hmethod.nonempty hpredicate hnonempty
    hkeys target
  obtain ⟨first, others, hnamed, hwords, hsame⟩ :=
    exists_hasWords_index d.isUnique d.isConcurrent hname hpath hmethod hbare hnonempty h
  rw [← hddl] at hwords
  refine ⟨_, statements_index hnamed hwords, rfl, fun existing => ?_⟩
  have hgiven (other : String) : Text.givenOr (some name) other = name := by
    rw [Text.givenOr, Text.given_eq_some_iff.mpr ⟨rfl, hname.nonempty⟩, Option.getD_some]
  unfold addIndex
  dsimp only [IndexWords.definition]
  rw [hgiven, Entries.get?_put, if_pos rfl, Option.map_some]
  exact congrArg some (hsame.trans hcolumns.symm)

def orders : Table :=
  { schema := "public", name := "orders" }

/-- An index with a column that needs quotes, two expressions and a column with a class. -/
def ordersByTotal : IndexDefinition where
  name := some "by_total"
  table := { name := "orders" }
  elements := [
    { key := "Total Sum", isDescending := true },
    { key := "data ->> 'kind'", isExpression := true },
    { key := "lower(email)", isExpression := true },
    { key := "note", operatorClass := ["text_pattern_ops"] }]

/-- The kind of an order. -/
def orderKind : Value where
  tokens := [.word "data", .symbol "->>", .text "kind"]
  phrase := (Reader.columnWithParts "data" []).infixed "->>" .operator (.ofText "kind")
  isRead depth hdepth next hnext places more := by
    obtain ⟨depth, rfl⟩ : ∃ k, depth = k + 6 := ⟨depth - 6, by rw [List.length_cons] at hdepth; omega⟩
    refine ⟨fun i => places (i + 3), ?_⟩
    rcases hnext with rfl | rfl <;> rfl

theorem orders_columns_read : ∃ index read,
    (addIndex orders ordersByTotal).indexes.get? "by_total" = some index ∧
    index.ddl (some "public") =
      "CREATE INDEX by_total ON orders (\"Total Sum\" DESC, (data->>'kind'), (lower(email)), note text_pattern_ops);" ∧
    statements (index.ddl (some "public")) = .ok [.createIndex read] ∧
    ((addIndex orders read).indexes.get? "by_total").map (·.columns) = some index.columns ∧
    Index.columnText (indexColumn 0 { key := "f(a)" }) ≠ quoteName "f(a)" := by
  have hkept (name : String)
      (h : name ∈ ["by_total", "orders", "btree", "Total Sum", "lower", "email", "note", "text_pattern_ops"]) :
      IsKept name := by
    simp only [List.mem_cons, List.not_mem_nil, or_false] at h
    rcases h with rfl | rfl | rfl | rfl | rfl | rfl | rfl | rfl <;>
      exact ⟨by decide, by decide +kernel, by decide, fun _ => by decide⟩
  have hpath : IsPath (Ddl.path orders.schema orders.name (some "public")) :=
    ⟨by decide, List.forall_mem_singleton.mpr (hkept "orders" (by decide)), by decide⟩
  have hkind : Sql.IsSettled "data ->> 'kind'" := by
    refine ⟨orderKind, orderKind.tokens, by decide +kernel, ⟨by decide +kernel, by decide +kernel, ?_⟩, by decide⟩
    intro d hd rest more hrest
    have hwords : frontWords 3 ((Ddl.indexExpression "data ->> 'kind'").toList ++ d :: rest) =
        some (orderKind.tokens, d :: rest) := by
      obtain rfl := List.mem_singleton.mp hd
      rfl
    exact scans_frontWords hwords hrest
  have hfree (name : String) (h : name ∈ ["lower", "email"]) : IsFreeWord name := by
    simp only [List.mem_cons, List.not_mem_nil, or_false] at h
    rcases h with rfl | rfl <;> exact ⟨hkept _ (by decide), by decide, by decide +kernel, by decide⟩
  have hlower : Sql.IsSettled "lower(email)" := by
    have hcall : Sql.IsSettled ("lower" ++ enclosed "email") :=
      isSettled_call (hfree "lower" (by decide)) (hfree "email" (by decide))
    rwa [show "lower" ++ enclosed "email" = "lower(email)" by decide +kernel] at hcall
  have hsettled : ∀ e ∈ ordersByTotal.elements, e.IsSettled := by
    rintro _ (_ | ⟨_, _ | ⟨_, _ | ⟨_, _ | ⟨_, ⟨⟩⟩⟩⟩⟩)
    · exact ⟨fun _ => ⟨hkept _ (by decide), by decide +kernel⟩, nofun, nofun, nofun⟩
    · exact ⟨nofun, fun _ => ⟨by decide, hkind⟩, nofun, nofun⟩
    · exact ⟨nofun, fun _ => ⟨by decide, hlower⟩, nofun, nofun⟩
    · refine ⟨fun _ => ⟨hkept _ (by decide), by decide +kernel⟩, nofun, ?_, ?_⟩
      · exact List.forall_mem_singleton.mpr ⟨hkept _ (by decide), by decide⟩
      · rintro _ _ ⟨⟩
        decide
  obtain ⟨hcolumn, hread⟩ := columns_of_statement { key := "f(a)" } 0 orders ordersByTotal _ "by_total" (some "public")
  obtain ⟨read, hstatements, -, hsame⟩ := hread (by decide +kernel) rfl (hkept _ (by decide)) (by decide) hpath
    (hkept _ (by decide)) (by decide) rfl (by decide) hsettled
  refine ⟨_, read, rfl, by decide +kernel, hstatements, hsame orders, ?_⟩
  have hcall := (hcolumn rfl (by decide) nofun).not.mpr (by decide +kernel)
  exact fun hquoted => hcall (hquoted.trans (String.append_empty.trans String.append_empty).symm)

-- Without its quotes the name of such a column is read as a call.
example : ((addIndex orders { name := some "i", table := { name := "orders" }, elements := [{ key := "f(a)" }] }
    ).indexes.get? "i").map (fun index => (statements (index.ddl (some "public"))).toOption) =
      some (some [.createIndex {
        name := some "i", table := { name := "orders" }, elements := [{ key := "f(a)", isExpression := true }] }]) := by
  decide +kernel

end Effect
end SchemaScript
