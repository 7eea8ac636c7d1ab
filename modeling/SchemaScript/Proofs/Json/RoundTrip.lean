import SchemaScript.Proofs.Catalog.Entries
import SchemaScript.Proofs.Json.Normal
import SchemaScript.Proofs.Json.QuotedText
import SchemaScript.Proofs.Json.RealText

/-!
# Written values read back

A value reads back from what is written of it, up to the order of fields, which is that of their names
in what is written (`read_write`). A layout may set items apart with any blanks. The reader's bound on the
number of steps plays no part: a value takes no more steps than the characters it is written with.
-/

namespace SchemaScript.Json

variable {layout : Layout} {depth fuel : Nat} {r s t blank : List Char} {value : Json}

/-! ## Sound values -/

mutual

/-- The value is one that a text can hold: halves stand alone, numbers with a fraction have double precision,
and no name occurs twice in an object. -/
def isSound : Json → Bool
  | real x => x.isDouble
  | torn letters => (Letter.text? letters).isNone && areApart letters
  | list items => areSound items
  | object fields => decide (fields.map (·.1)).Nodup && areSoundFields fields
  | _ => true

def areSound : List Json → Bool
  | [] => true
  | item :: items => isSound item && areSound items

def areSoundFields : List (String × Json) → Bool
  | [] => true
  | (_, value) :: fields => isSound value && areSoundFields fields

end

/-! ## Blanks -/

/-- Nothing but blanks. -/
def IsBlank (s : List Char) : Prop :=
  ∀ c ∈ s, isSpace c

theorem skipSpaces_append (h : IsBlank s) (r : List Char) : skipSpaces (s ++ r) = skipSpaces r :=
  List.dropWhile_append_of_pos h

theorem skipSpaces_cons {c : Char} (h : isSpace c = false) : skipSpaces (c :: r) = c :: r :=
  List.dropWhile_cons_of_neg (by simp [h])

theorem skipSpaces_blank {c : Char} (hs : IsBlank s) (hc : isSpace c = false) (r : List Char) :
    skipSpaces (s ++ c :: r) = c :: r := by
  rw [skipSpaces_append hs, skipSpaces_cons hc]

theorem endsNumber_blank (hs : IsBlank s) (hr : EndsNumber r) : EndsNumber (s ++ r) := by
  rcases s with _ | ⟨c, s⟩
  · exact hr
  · have hc := hs c (by simp)
    simp only [isSpace, Bool.or_eq_true, beq_iff_eq] at hc
    rcases hc with ((rfl | rfl) | rfl) | rfl <;> exact .cons (by decide) (by decide) (by decide) _

/-- The layout sets items apart with blanks only. -/
def Layout.IsBlank : Layout → Prop
  | line => True
  | block indent => Json.IsBlank indent.toList

theorem Layout.isBlank_ofWidth (width : Nat) : (ofWidth width).IsBlank := by
  simp only [ofWidth, Layout.IsBlank, String.toList_ofList, Json.IsBlank]
  intro c hc
  rw [(List.mem_replicate.mp hc).2]
  rfl

theorem Layout.IsBlank.newline (h : layout.IsBlank) (depth : Nat) :
    Json.IsBlank (layout.newline depth).toList := by
  cases layout with
  | line => simp [Layout.newline, Json.IsBlank]
  | block indent =>
    intro c hc
    rw [Layout.newline, String.toList_append, List.mem_append, String.toList_join, List.mem_flatMap] at hc
    rcases hc with hc | ⟨s, hs, hc⟩
    · rw [List.mem_singleton.mp hc]
      rfl
    · rw [(List.mem_replicate.mp hs).2] at hc
      exact h c hc

theorem Layout.IsBlank.comma (h : layout.IsBlank) (depth : Nat) :
    ∃ blank, (layout.comma depth).toList = ',' :: blank ∧ Json.IsBlank blank := by
  cases layout with
  | line => exact ⟨[' '], by simp [Layout.comma], by simp [Json.IsBlank, isSpace]⟩
  | block indent => exact ⟨((block indent).newline depth).toList, by simp [Layout.comma], h.newline depth⟩

/-! ## Single values -/

/-- The characters that a value is written with. -/
def written (layout : Layout) (depth : Nat) (value : Json) : List Char :=
  (writeAt layout depth value).toList

/-- No blank, no closing bracket and no byte order mark. -/
def canStart (c : Char) : Bool :=
  !isSpace c && c != ']' && c != '\uFEFF'

theorem canStart_iff {c : Char} : canStart c ↔ isSpace c = false ∧ c ≠ ']' ∧ c ≠ '\uFEFF' := by
  simp [canStart, and_assoc]

theorem canStart_of_isDigit {c : Char} (h : c.isDigit) : canStart c := by
  rw [canStart_iff]
  refine ⟨?_, ne_of_isDigit h (by decide), ne_of_isDigit h (by decide)⟩
  simp only [isSpace, Bool.or_eq_false_iff, beq_eq_false_iff_ne]
  exact ⟨⟨⟨ne_of_isDigit h (by decide), ne_of_isDigit h (by decide)⟩, ne_of_isDigit h (by decide)⟩,
    ne_of_isDigit h (by decide)⟩

/-- Whatever comes behind what is written of the value, if it does not go on a number, the value is read. -/
structure ReadsBack (layout : Layout) (value : Json) : Prop where
  starts : ∀ depth, ∃ c t, written layout depth value = c :: t ∧ canStart c
  reads : ∀ (depth fuel : Nat) {r : List Char}, EndsNumber r → (written layout depth value).length ≤ fuel →
    readValue fuel (written layout depth value ++ r) = .ok (value.normal, r)

/-- For a value without parts one step is enough. -/
theorem readsBack_of_step {c : Char} {t : List Char} (htext : ∀ depth, written layout depth value = c :: t)
    (hc : canStart c)
    (hread : ∀ {fuel : Nat} {r : List Char}, EndsNumber r →
      readValue (fuel + 1) (c :: t ++ r) = .ok (value.normal, r)) :
    ReadsBack layout value where
  starts depth := ⟨c, t, htext depth, hc⟩
  reads := by
    intro depth fuel r hr hfuel
    rw [htext] at hfuel ⊢
    cases fuel with
    | zero => simp at hfuel
    | succ fuel => exact hread hr

theorem readsBack_null (layout : Layout) : ReadsBack layout null :=
  readsBack_of_step (c := 'n') (t := ['u', 'l', 'l']) (fun _ => by rw [written, writeAt]; rfl) rfl
    fun _ => by simp only [normal]; exact readValue.eq_5 _ _

theorem readsBack_flag (layout : Layout) (b : Bool) : ReadsBack layout (flag b) := by
  cases b with
  | false =>
    exact readsBack_of_step (c := 'f') (t := ['a', 'l', 's', 'e'])
      (fun _ => by rw [written, writeAt]; rfl) rfl fun _ => by simp only [normal]; exact readValue.eq_7 _ _
  | true =>
    exact readsBack_of_step (c := 't') (t := ['r', 'u', 'e']) (fun _ => by rw [written, writeAt]; rfl) rfl
      fun _ => by simp only [normal]; exact readValue.eq_6 _ _

theorem readsBack_number (text : List Char) (htext : ∀ depth, written layout depth value = text)
    (hnormal : value.normal = value) (hfirst : ∃ c t, text = c :: t ∧ (c.isDigit ∨ c = '-'))
    (hread : ∀ {r}, EndsNumber r → readNumber (text ++ r) = some (value, r)) :
    ReadsBack layout value := by
  obtain ⟨c, t, rfl, hc⟩ := hfirst
  have hstart : canStart c := by
    rcases hc with hc | rfl
    · exact canStart_of_isDigit hc
    · rfl
  refine readsBack_of_step htext hstart fun {fuel r} hr => ?_
  have hnumber := hread hr
  rw [List.cons_append] at hnumber ⊢
  rw [readValue_number hc, hnumber, hnormal]

theorem readsBack_integer (layout : Layout) (n : Int) : ReadsBack layout (integer n) :=
  readsBack_number _ (fun _ => by rw [written, writeAt]) (by simp only [normal]) (exists_integer_cons n)
    (readNumber_integer n)

theorem readsBack_real (layout : Layout) {x : Binary64} (hx : x.isDouble) :
    ReadsBack layout (real x) := by
  have htext (depth : Nat) : written layout depth (real x) = (x.text "Infinity" "NaN").toList := by
    rw [written, writeAt]
  have hnormal : (real x).normal = real x := by simp only [normal]
  cases x with
  | finite negative mantissa exponent =>
    have hdouble := of_decide_eq_true hx
    exact readsBack_number _ htext hnormal (exists_finite_cons hdouble negative _ _)
      (readNumber_finite hdouble negative _ _)
  | infinite negative =>
    cases negative with
    | true =>
      exact readsBack_number ['-', 'I', 'n', 'f', 'i', 'n', 'i', 't', 'y'] htext hnormal
        ⟨'-', _, rfl, .inr rfl⟩ fun _ => readNumber.eq_1 _
    | false =>
      exact readsBack_of_step (c := 'I') (t := ['n', 'f', 'i', 'n', 'i', 't', 'y']) htext rfl
        fun _ => by rw [hnormal]; exact readValue.eq_9 _ _
  | nan =>
    exact readsBack_of_step (c := 'N') (t := ['a', 'N']) htext rfl
      fun _ => by rw [hnormal]; exact readValue.eq_8 _ _

theorem text?_ofText (s : String) : Letter.text? (Letter.ofText s) = some s := by
  have hchars (cs : List Char) : cs.mapM (Letter.char? ∘ Letter.whole) = some cs := by
    induction cs with
    | nil => rfl
    | cons c cs ih => simp [List.mapM_cons, ih, Letter.char?]
  rw [Letter.text?, Letter.ofText, List.mapM_map, hchars, Option.map_some, String.ofList_toList]

theorem readsBack_text (layout : Layout) (s : String) : ReadsBack layout (text s) :=
  readsBack_of_step (fun _ => by rw [written, writeAt, toList_quoted]; rfl) rfl
    fun {fuel r} _ => by
      show readValue (fuel + 1) ('"' :: (_ ++ ['"'] ++ r)) = _
      rw [readValue.eq_2, List.append_assoc, List.singleton_append, readText_quoted]
      show Except.ok (ofLetters (Letter.ofText s), r) = _
      simp only [ofLetters, text?_ofText, normal]

theorem readsBack_torn (layout : Layout) {letters : List Letter} (hgap : Letter.text? letters = none)
    (hapart : areApart letters) : ReadsBack layout (torn letters) :=
  readsBack_of_step (fun _ => by rw [written, writeAt, String.toList_ofList]; rfl) rfl
    fun {fuel r} _ => by
      show readValue (fuel + 1) ('"' :: (_ ++ ['"'] ++ r)) = _
      rw [readValue.eq_2, List.append_assoc, List.singleton_append, readText_letters hapart]
      show Except.ok (ofLetters letters, r) = _
      simp only [ofLetters, hgap, normal]

/-! ## Rows -/

/-- Texts behind one another, set apart by the commas of the layout. -/
def Layout.row (layout : Layout) (depth : Nat) (texts : List (List Char)) : List Char :=
  (layout.comma depth).toList.intercalate texts

theorem Layout.row_singleton (layout : Layout) (depth : Nat) (text : List Char) :
    layout.row depth [text] = text :=
  List.intercalate_singleton

theorem Layout.row_cons (layout : Layout) (depth : Nat) (text next : List Char) (texts : List (List Char)) :
    layout.row depth (text :: next :: texts) =
      text ++ ((layout.comma depth).toList ++ layout.row depth (next :: texts)) := by
  rw [row, List.intercalate_cons_cons, List.append_assoc, row]

/-- A row begins as the first text of it does. -/
theorem Layout.exists_row_cons (layout : Layout) (depth : Nat) {text : List Char}
    {c : Char} {t : List Char} (h : text = c :: t) (texts : List (List Char)) :
    ∃ u, layout.row depth (text :: texts) = c :: u := by
  cases texts with
  | nil => exact ⟨t, by rw [row_singleton, h]⟩
  | cons next texts => exact ⟨_, by rw [row_cons, h, List.cons_append]⟩

theorem Layout.toList_enclose (layout : Layout) (depth : Nat) (opening closing item : String)
    (items : List String) :
    (layout.enclose depth opening closing (item :: items)).toList =
      opening.toList ++ ((layout.newline (depth + 1)).toList ++
        (layout.row (depth + 1) ((item :: items).map String.toList) ++
          ((layout.newline depth).toList ++ closing.toList))) := by
  simp [Layout.enclose, Layout.row, String.toList_intercalate]

/-! ## Lists -/

theorem readItems_last {v : Json} (hv : readValue fuel s = .ok (v, t)) (ht : skipSpaces t = ']' :: r) :
    readItems (fuel + 1) s = .ok ([v], r) := by
  rw [readItems.eq_2, hv]
  simp only [bind, Except.bind, ht]
  rfl

theorem readItems_more {v : Json} {vs : List Json} (hv : readValue fuel s = .ok (v, ',' :: t))
    (ht : readItems fuel (skipSpaces t) = .ok (vs, r)) :
    readItems (fuel + 1) s = .ok (v :: vs, r) := by
  rw [readItems.eq_2, hv]
  simp only [bind, Except.bind, skipSpaces_cons (show isSpace ',' = false from rfl), ht]
  rfl

theorem readItems_row (hlayout : layout.IsBlank) (hblank : IsBlank blank) (depth fuel : Nat)
    {items : List Json} {item : Json}
    (h : ∀ v ∈ item :: items, ReadsBack layout v)
    (hfuel : (layout.row depth ((item :: items).map (written layout depth))).length < fuel)
    (r : List Char) :
    readItems fuel (layout.row depth ((item :: items).map (written layout depth)) ++ (blank ++ ']' :: r)) =
      .ok ((item :: items).map normal, r) := by
  induction items generalizing item fuel with
  | nil =>
    simp only [List.map_cons, List.map_nil, Layout.row_singleton] at hfuel ⊢
    obtain ⟨fuel, rfl⟩ : ∃ k, fuel = k + 1 := Nat.exists_eq_succ_of_ne_zero (by omega)
    have hends : EndsNumber (blank ++ ']' :: r) :=
      endsNumber_blank hblank (.cons (by decide) (by decide) (by decide) r)
    exact readItems_last ((h item (by simp)).reads depth fuel hends (by omega))
      (skipSpaces_blank hblank rfl r)
  | cons next items ih =>
    obtain ⟨gap, hgap, hgapBlank⟩ := hlayout.comma depth
    obtain ⟨c, t, ht, hc⟩ := (h next (by simp)).starts depth
    obtain ⟨u, hu⟩ := layout.exists_row_cons depth ht (items.map (written layout depth))
    have hrest (k : Nat) := ih k fun v hv => h v (List.mem_cons_of_mem item hv)
    simp only [List.map_cons, Layout.row_cons, hgap, List.length_append, List.length_cons,
      List.append_assoc, List.cons_append] at hfuel hrest ⊢
    obtain ⟨fuel, rfl⟩ : ∃ k, fuel = k + 1 := Nat.exists_eq_succ_of_ne_zero (by omega)
    have hends := EndsNumber.cons (c := ',') rfl (by decide) (by decide)
      (gap ++ (layout.row depth (written layout depth next :: items.map (written layout depth)) ++
        (blank ++ ']' :: r)))
    refine readItems_more ((h item (by simp)).reads depth fuel hends (by omega)) ?_
    rw [skipSpaces_append hgapBlank, ← hrest fuel (by omega), hu, List.cons_append,
      skipSpaces_cons (canStart_iff.mp hc).1]

theorem readValue_list {c : Char} {vs : List Json} (hs : skipSpaces s = c :: t) (hc : c ≠ ']')
    (h : readItems fuel (c :: t) = .ok (vs, r)) : readValue (fuel + 1) ('[' :: s) = .ok (list vs, r) := by
  rw [readValue.eq_4, hs]
  split
  · next heq => exact absurd (List.cons.inj heq).1 hc
  · rw [h]
    rfl

theorem readsBack_list (hlayout : layout.IsBlank) {items : List Json}
    (h : ∀ v ∈ items, ReadsBack layout v) : ReadsBack layout (list items) := by
  cases items with
  | nil =>
    exact readsBack_of_step (c := '[') (t := [']'])
      (fun _ => by simp [written, writeAt, writeItems, Layout.enclose])
      rfl fun _ => by simp only [normal_list, List.map_nil]; exact readValue.eq_4 _ _
  | cons item items =>
    have htext (depth : Nat) : written layout depth (list (item :: items)) =
        '[' :: ((layout.newline (depth + 1)).toList ++
          (layout.row (depth + 1) ((item :: items).map (written layout (depth + 1))) ++
            ((layout.newline depth).toList ++ [']']))) := by
      rw [written, writeAt, writeItems_eq, List.map_cons, Layout.toList_enclose, ← List.map_cons,
        List.map_map]
      rfl
    refine ⟨fun depth => ⟨'[', _, htext depth, rfl⟩, fun depth fuel r _ hfuel => ?_⟩
    obtain ⟨c, t, ht, hc⟩ := (h item (by simp)).starts (depth + 1)
    obtain ⟨hspace, hclose, -⟩ := canStart_iff.mp hc
    obtain ⟨u, hu⟩ := layout.exists_row_cons (depth + 1) ht (items.map (written layout (depth + 1)))
    rw [htext] at hfuel ⊢
    simp only [List.length_cons, List.length_append, List.length_nil] at hfuel
    obtain ⟨fuel, rfl⟩ : ∃ k, fuel = k + 1 := Nat.exists_eq_succ_of_ne_zero (by omega)
    have hitems := readItems_row hlayout (hlayout.newline depth) (depth + 1) fuel h (by omega) r
    rw [List.map_cons, hu, List.cons_append] at hitems
    rw [normal_list]
    simp only [List.cons_append, List.append_assoc, List.nil_append]
    refine readValue_list (c := c) ?_ hclose hitems
    rw [skipSpaces_append (hlayout.newline _), List.map_cons, hu, List.cons_append, skipSpaces_cons hspace]

/-! ## Objects -/

/-- Fields are kept as entries are. -/
theorem setField_eq_putPair (name : String) (value : Json) (fields : List (String × Json)) :
    setField name value fields = Entries.putPair name value fields := by
  induction fields with
  | nil => rfl
  | cons field fields ih => simp only [setField, Entries.putPair, ih, beq_iff_eq]

theorem mended_ofText (s : String) : Letter.mended (Letter.ofText s) = s := by
  simp [Letter.mended, Letter.ofText, Function.comp_def, Letter.char?]

/-- The characters that a field is written with. -/
def writtenField (layout : Layout) (depth : Nat) (field : String × Json) : List Char :=
  (quoted field.1).toList ++ (':' :: ' ' :: written layout depth field.2)

theorem writtenField_cons (layout : Layout) (depth : Nat) (field : String × Json) :
    ∃ t, writtenField layout depth field = '"' :: t :=
  ⟨_, by rw [writtenField, toList_quoted, List.cons_append, List.cons_append]⟩

/-- A field up to the character behind its value. -/
theorem readFields_field (hvalue : ReadsBack layout value) (hr : EndsNumber r) {name : String}
    (hfuel : (written layout depth value).length ≤ fuel) (done : List (String × Json)) :
    readFields (fuel + 1) done (writtenField layout depth (name, value) ++ r) =
      match skipSpaces r with
      | '}' :: r => .ok (setField name value.normal done, r)
      | ',' :: r => readFields fuel (setField name value.normal done) (skipSpaces r)
      | r => .error ⟨.commaExpected, r⟩ := by
  obtain ⟨c, t, ht, hc⟩ := hvalue.starts depth
  have hread := hvalue.reads depth fuel hr hfuel
  have hskip : skipSpaces (' ' :: (written layout depth value ++ r)) = written layout depth value ++ r := by
    rw [ht, List.cons_append]
    exact (skipSpaces_append (s := [' ']) (by simp [IsBlank, isSpace]) _).trans
      (skipSpaces_cons (canStart_iff.mp hc).1)
  simp only [writtenField, toList_quoted, List.cons_append, List.append_assoc, List.nil_append]
  rw [readFields.eq_2, readText_quoted]
  simp only [bind, Except.bind, skipSpaces_cons (show isSpace ':' = false from rfl), hskip, hread,
    mended_ofText]
  rfl

theorem length_written_lt (layout : Layout) (depth : Nat) (field : String × Json) :
    (written layout depth field.2).length + 1 < (writtenField layout depth field).length := by
  rw [writtenField, List.length_append, List.length_cons, List.length_cons]
  omega

theorem fresh_of_nodup {done fields : List (String × Json)} {field : String × Json}
    (h : ((done ++ field :: fields).map (·.1)).Nodup) : field.1 ∉ done.map (·.1) := by
  rw [List.map_append, List.map_cons, List.nodup_append] at h
  exact fun hmem => h.2.2 _ hmem _ (by simp) rfl

theorem readFields_row (hlayout : layout.IsBlank) (hblank : IsBlank blank) (depth fuel : Nat)
    (done : List (String × Json)) {fields : List (String × Json)} {field : String × Json}
    (hnames : ((done ++ field :: fields).map (·.1)).Nodup)
    (h : ∀ f ∈ field :: fields, ReadsBack layout f.2)
    (hfuel : (layout.row depth ((field :: fields).map (writtenField layout depth))).length < fuel)
    (r : List Char) :
    readFields fuel done
        (layout.row depth ((field :: fields).map (writtenField layout depth)) ++ (blank ++ '}' :: r)) =
      .ok (done ++ (field :: fields).map fun f => (f.1, f.2.normal), r) := by
  induction fields generalizing done field fuel with
  | nil =>
    have hlen := length_written_lt layout depth field
    simp only [List.map_cons, List.map_nil, Layout.row_singleton] at hfuel ⊢
    obtain ⟨fuel, rfl⟩ : ∃ k, fuel = k + 1 := Nat.exists_eq_succ_of_ne_zero (by omega)
    have hends : EndsNumber (blank ++ '}' :: r) :=
      endsNumber_blank hblank (.cons (by decide) (by decide) (by decide) r)
    rw [readFields_field (h field (by simp)) hends (by omega), skipSpaces_blank hblank rfl]
    simp only [setField_eq_putPair, Entries.putPair_fresh (fresh_of_nodup hnames)]
  | cons next fields ih =>
    have hlen := length_written_lt layout depth field
    obtain ⟨gap, hgap, hgapBlank⟩ := hlayout.comma depth
    obtain ⟨t, ht⟩ := writtenField_cons layout depth next
    obtain ⟨u, hu⟩ := layout.exists_row_cons depth ht (fields.map (writtenField layout depth))
    have hnext : (((done ++ [(field.1, field.2.normal)]) ++ next :: fields).map (·.1)).Nodup := by
      simpa using hnames
    have hrest (k : Nat) := ih k _ hnext fun f hf => h f (List.mem_cons_of_mem field hf)
    simp only [List.map_cons, Layout.row_cons, hgap, List.length_append, List.length_cons,
      List.append_assoc, List.cons_append] at hfuel hrest ⊢
    obtain ⟨fuel, rfl⟩ : ∃ k, fuel = k + 1 := Nat.exists_eq_succ_of_ne_zero (by omega)
    have hends := EndsNumber.cons (c := ',') rfl (by decide) (by decide)
      (gap ++
        (layout.row depth (writtenField layout depth next :: fields.map (writtenField layout depth)) ++
          (blank ++ '}' :: r)))
    rw [readFields_field (h field (by simp)) hends (by omega),
      skipSpaces_cons (show isSpace ',' = false from rfl)]
    simp only [setField_eq_putPair, Entries.putPair_fresh (fresh_of_nodup hnames),
      skipSpaces_append hgapBlank, hu, List.cons_append,
      skipSpaces_cons (show isSpace '"' = false from rfl)] at hrest ⊢
    rw [hrest fuel (by simp only [hu, List.length_cons] at hfuel ⊢; omega)]
    rfl

theorem readValue_object {fields : List (String × Json)} (hs : skipSpaces s = '"' :: t)
    (h : readFields fuel [] ('"' :: t) = .ok (fields, r)) :
    readValue (fuel + 1) ('\x7b' :: s) = .ok (object fields, r) := by
  rw [readValue.eq_3, hs]
  split
  · next heq => exact absurd (List.cons.inj heq).1 (by decide)
  · rw [h]
    rfl

/-- An object is written with its fields in the order of their names. -/
theorem writeAt_object (layout : Layout) (depth : Nat) (fields : List (String × Json)) :
    writeAt layout depth (object fields) = layout.enclose depth "\x7b" "\x7d"
      ((sortFields fields).map fun field =>
        quoted field.1 ++ ": " ++ writeAt layout (depth + 1) field.2) := by
  rw [writeAt, writeFields_eq, sortFields_map, List.map_map]
  rfl

theorem readsBack_object (hlayout : layout.IsBlank) {fields : List (String × Json)}
    (hnames : (fields.map (·.1)).Nodup) (h : ∀ field ∈ fields, ReadsBack layout field.2) :
    ReadsBack layout (object fields) := by
  have hperm := sortFields_perm fields
  have hsorted : ∀ field ∈ sortFields fields, ReadsBack layout field.2 := fun field hf =>
    h field (hperm.mem_iff.mp hf)
  have hnodup : ((sortFields fields).map (·.1)).Nodup := (hperm.map (·.1)).nodup_iff.mpr hnames
  have hnormal := normal_object fields
  have hwritten (depth : Nat) := writeAt_object layout depth fields
  revert hsorted hnodup hnormal hwritten
  cases sortFields fields with
  | nil =>
    intro _ _ hnormal hwritten
    exact readsBack_of_step (c := '\x7b') (t := ['\x7d'])
      (fun depth => by simp [written, hwritten, Layout.enclose]) rfl
      fun _ => by rw [hnormal]; exact readValue.eq_3 _ _
  | cons field rest =>
    intro hsorted hnodup hnormal hwritten
    have htext (depth : Nat) : written layout depth (object fields) =
        '\x7b' :: ((layout.newline (depth + 1)).toList ++
          (layout.row (depth + 1) ((field :: rest).map (writtenField layout (depth + 1))) ++
            ((layout.newline depth).toList ++ ['\x7d']))) := by
      rw [written, hwritten, List.map_cons, Layout.toList_enclose,
        ← List.map_cons (f := fun field : String × Json =>
          quoted field.1 ++ ": " ++ writeAt layout (depth + 1) field.2), List.map_map]
      have hfield : (String.toList ∘ fun field : String × Json =>
          quoted field.1 ++ ": " ++ writeAt layout (depth + 1) field.2) = writtenField layout (depth + 1) := by
        funext field
        simp [writtenField, written]
      rw [hfield]
      rfl
    refine ⟨fun depth => ⟨'\x7b', _, htext depth, rfl⟩, fun depth fuel r _ hfuel => ?_⟩
    obtain ⟨t, ht⟩ := writtenField_cons layout (depth + 1) field
    obtain ⟨u, hu⟩ := layout.exists_row_cons (depth + 1) ht (rest.map (writtenField layout (depth + 1)))
    rw [htext] at hfuel ⊢
    simp only [List.length_cons, List.length_append, List.length_nil] at hfuel
    obtain ⟨fuel, rfl⟩ : ∃ k, fuel = k + 1 := Nat.exists_eq_succ_of_ne_zero (by omega)
    have hfields := readFields_row hlayout (hlayout.newline depth) (depth + 1) fuel [] hnodup hsorted
      (by omega) r
    rw [List.map_cons, hu, List.cons_append, List.nil_append] at hfields
    rw [hnormal]
    simp only [List.cons_append, List.append_assoc, List.nil_append]
    refine readValue_object ?_ hfields
    rw [skipSpaces_append (hlayout.newline _), List.map_cons, hu, List.cons_append, skipSpaces_cons rfl]

/-! ## All values -/

mutual

theorem readsBack (hlayout : layout.IsBlank) : (value : Json) → value.isSound → ReadsBack layout value
  | null, _ => readsBack_null layout
  | flag b, _ => readsBack_flag layout b
  | integer n, _ => readsBack_integer layout n
  | real x, h => readsBack_real layout (by simpa only [isSound] using h)
  | text s, _ => readsBack_text layout s
  | torn letters, h => by
    simp only [isSound, Bool.and_eq_true, Option.isNone_iff_eq_none] at h
    exact readsBack_torn layout h.1 h.2
  | list items, h => by
    rw [isSound] at h
    exact readsBack_list hlayout (readsBack_items hlayout items h)
  | object fields, h => by
    simp only [isSound, Bool.and_eq_true, decide_eq_true_eq] at h
    exact readsBack_object hlayout h.1 (readsBack_fields hlayout fields h.2)

theorem readsBack_items (hlayout : layout.IsBlank) : (items : List Json) → areSound items →
    ∀ item ∈ items, ReadsBack layout item
  | [], _ => by simp
  | item :: items, h => by
    simp only [areSound, Bool.and_eq_true] at h
    exact List.forall_mem_cons.mpr ⟨readsBack hlayout item h.1, readsBack_items hlayout items h.2⟩

theorem readsBack_fields (hlayout : layout.IsBlank) : (fields : List (String × Json)) →
    areSoundFields fields → ∀ field ∈ fields, ReadsBack layout field.2
  | [], _ => by simp
  | (name, value) :: fields, h => by
    simp only [areSoundFields, Bool.and_eq_true] at h
    exact List.forall_mem_cons.mpr ⟨readsBack hlayout value h.1, readsBack_fields hlayout fields h.2⟩

end

/-- A value reads back from its text, with the fields of every object in the order of their names. -/
theorem read_write (hlayout : layout.IsBlank) (h : value.isSound) :
    read (value.write layout) = .ok value.normal := by
  have hback := readsBack hlayout value h
  obtain ⟨c, t, ht, hc⟩ := hback.starts 0
  obtain ⟨hspace, -, hmark⟩ := canStart_iff.mp hc
  have hread := hback.reads 0 (2 * (c :: t).length + 2) .nil (by rw [ht]; omega)
  rw [ht, List.append_nil] at hread
  have hall : readAll (c :: t) = .ok value.normal := by
    rw [readAll.eq_2 _ fun _ he => hmark (List.cons.inj he).1, skipSpaces_cons hspace, hread]
    rfl
  have htext : (value.write layout).toList = c :: t := ht
  rw [read, htext, hall]

end SchemaScript.Json
