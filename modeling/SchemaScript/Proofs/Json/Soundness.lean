import SchemaScript.Proofs.Effect.Gives
import SchemaScript.Proofs.Json.RoundTrip

/-!
# Read values are sound

Whatever the reader returns is sound (`isSound_of_read`), so the sound values are those that some text
holds (`isSound_iff_exists_read`).
-/

namespace SchemaScript.Json

variable {opening s r : List Char} {letters : List Letter} {n fuel : Nat} {value : Json}
  {fields : List (String × Json)}

/-! ## Texts -/

theorem startsLow_unitLetter (n : Nat) (letters : List Letter) :
    startsLow (unitLetter n :: letters) = isLowUnit n := by
  rw [unitLetter]
  split
  · rfl
  · next h =>
    have hlow : isLowUnit n = false := by
      simp only [Bool.and_eq_true, decide_eq_true_eq] at h
      simp only [isLowUnit, Bool.and_eq_false_iff, decide_eq_false_iff_not]
      omega
    rw [hlow]
    rfl

theorem areApart_unitLetter (h : areApart letters) (hn : isHighUnit n → startsLow letters = false) :
    areApart (unitLetter n :: letters) := by
  rw [unitLetter]
  split
  · next hrange =>
    simp only [Bool.and_eq_true, decide_eq_true_eq] at hrange
    simp only [areApart, Bool.and_eq_true, Bool.or_eq_true, Bool.not_eq_true', Bool.and_eq_false_iff]
    refine ⟨⟨?_, ?_⟩, h⟩
    · simp only [isHighUnit, isLowUnit, Bool.and_eq_true, decide_eq_true_eq]
      omega
    · cases hhigh : isHighUnit n
      · exact .inl rfl
      · exact .inr (hn hhigh)
  · exact h

/-- A text starts with a low half only if the escape for it is what comes first. -/
theorem exists_of_startsLow (h : readText opening s = .ok (letters, r)) (hlow : startsLow letters) :
    ∃ a b c d x t n, s = '\\' :: 'u' :: a :: b :: c :: d :: x :: t ∧
      fourDigits? a b c d = some n ∧ isLowUnit n := by
  fun_induction readText opening s with
  | case2 =>
    cases h
    cases hlow
  | case6 | case13 | case15 =>
    obtain ⟨⟨cs, t⟩, -, heq⟩ := exists_of_bind_eq_ok h
    cases heq
    cases hlow
  | case7 a b c d e f g h' x t n hn | case8 a b c d e f g h' x t n hn | case10 a b c d x t _ n hn =>
    obtain ⟨⟨cs, t⟩, -, heq⟩ := exists_of_bind_eq_ok h
    cases heq
    rw [startsLow_unitLetter] at hlow
    exact ⟨_, _, _, _, _, _, n, rfl, hn, hlow⟩
  | _ => cases h

/-- A high half with a low one behind it is read as one character, so what is left stands apart. -/
theorem areApart_of_readText (h : readText opening s = .ok (letters, r)) : areApart letters := by
  fun_induction readText opening s generalizing letters r with
  | case2 =>
    cases h
    rfl
  | case6 _ _ _ _ _ _ _ _ _ _ _ _ _ _ _ _ ih | case13 _ _ _ _ _ _ _ ih | case15 _ _ _ _ _ _ _ _ _ ih =>
    obtain ⟨⟨cs, t⟩, hread, heq⟩ := exists_of_bind_eq_ok h
    have hrest := ih hread
    cases heq
    exact hrest
  | case7 a b c d e f g h' x t n hn hhigh m hm hlow ih =>
    obtain ⟨⟨cs, t⟩, hread, heq⟩ := exists_of_bind_eq_ok h
    have hrest := ih hread
    cases heq
    refine areApart_unitLetter hrest fun _ => Bool.eq_false_iff.mpr fun hstarts => ?_
    -- What comes next is the second escape, and that is no low half.
    obtain ⟨_, _, _, _, _, _, k, hs, hk, hklow⟩ := exists_of_startsLow hread hstarts
    cases hs
    rw [hm] at hk
    cases hk
    exact hlow hklow
  | case8 a b c d e f g h' x t n hn hhigh ih =>
    obtain ⟨⟨cs, t⟩, hread, heq⟩ := exists_of_bind_eq_ok h
    have hrest := ih hread
    cases heq
    exact areApart_unitLetter hrest fun hn => absurd hn hhigh
  | case10 a b c d x t hpair n hn ih =>
    obtain ⟨⟨cs, t⟩, hread, heq⟩ := exists_of_bind_eq_ok h
    have hrest := ih hread
    cases heq
    refine areApart_unitLetter hrest fun _ => Bool.eq_false_iff.mpr fun hstarts => ?_
    -- A low half is an escape with a character behind it, which would have been read with this one.
    obtain ⟨_, _, _, _, _, _, k, hs, -⟩ := exists_of_startsLow hread hstarts
    cases hs
    exact hpair _ _ _ _ _ _ rfl rfl
  | _ => cases h

theorem areApart_singleton {letter : Letter} (h : areApart letters) (hmem : letter ∈ letters) :
    areApart [letter] := by
  induction letters with
  | nil => cases hmem
  | cons first letters ih =>
    have hrest : areApart letters := by
      cases first with
      | whole c => exact h
      | half unit =>
        simp only [areApart, Bool.and_eq_true] at h
        exact h.2
    rcases List.mem_cons.mp hmem with rfl | hmem
    · cases letter with
      | whole c => rfl
      | half unit =>
        simp only [areApart, Bool.and_eq_true] at h
        simp [areApart, startsLow, h.1.1]
    · exact ih hrest hmem

theorem isSound_ofLetters (h : areApart letters) : (ofLetters letters).isSound := by
  rw [ofLetters]
  split
  · simp only [isSound]
  · next hgap => simp [isSound, hgap, h]

@[simp] theorem isSound_null : null.isSound := by
  simp only [isSound]

@[simp] theorem isSound_flag (b : Bool) : (flag b).isSound := by
  simp only [isSound]

@[simp] theorem isSound_integer (n : Int) : (integer n).isSound := by
  simp only [isSound]

@[simp] theorem isSound_text (s : String) : (text s).isSound := by
  simp only [isSound]

/-! ## Numbers -/

theorem isSound_readUnsigned {negative : Bool} (h : readUnsigned negative s = some (value, r)) :
    value.isSound := by
  simp only [readUnsigned, Option.bind_eq_bind, Option.bind_eq_some_iff] at h
  obtain ⟨⟨whole, t⟩, -, h⟩ := h
  split at h
  · cases h
    simp [isSound]
  · cases h
    rw [isSound]
    exact Binary64.isDouble_ofDecimal negative _ _

theorem isSound_readNumber (h : readNumber s = some (value, r)) : value.isSound := by
  unfold readNumber at h
  split at h
  · cases h
    simp [isSound, Binary64.isDouble]
  · exact isSound_readUnsigned h
  · exact isSound_readUnsigned h

/-! ## Fields -/

theorem areSoundFields_iff : areSoundFields fields ↔ ∀ field ∈ fields, field.2.isSound := by
  induction fields with
  | nil => simp [areSoundFields]
  | cons field fields ih => rw [areSoundFields, Bool.and_eq_true, ih, List.forall_mem_cons]

theorem isSound_object : (object fields).isSound ↔
    (fields.map (·.1)).Nodup ∧ ∀ field ∈ fields, field.2.isSound := by
  rw [isSound, Bool.and_eq_true, decide_eq_true_eq, areSoundFields_iff]

theorem isSound_list {items : List Json} : (list items).isSound ↔ ∀ item ∈ items, item.isSound := by
  rw [isSound]
  induction items with
  | nil => simp [areSound]
  | cons item items ih => rw [areSound, Bool.and_eq_true, ih, List.forall_mem_cons]

@[simp] theorem isSound_ofTexts (items : List String) : (ofTexts items).isSound := by
  rw [ofTexts, isSound_list]
  exact List.forall_mem_map.mpr fun s _ => isSound_text s

theorem isSound_of_mem_setField (hfields : ∀ field ∈ fields, field.2.isSound) (hvalue : value.isSound)
    (key : String) : ∀ field ∈ setField key value fields, field.2.isSound := by
  intro field hmem
  rw [setField_eq_putPair] at hmem
  rcases Entries.mem_of_mem_putPair hmem with rfl | hmem
  · exact hvalue
  · exact hfields field hmem

theorem isSound_setField (hfields : (object fields).isSound) (hvalue : value.isSound) (key : String) :
    (object (setField key value fields)).isSound := by
  rw [isSound_object] at hfields ⊢
  refine ⟨?_, isSound_of_mem_setField hfields.2 hvalue key⟩
  rw [setField_eq_putPair]
  exact Entries.nodup_putPair hfields.1

/-! ## Values -/

/-- What is read with so many steps is sound. -/
structure ReadsSound (fuel : Nat) : Prop where
  value : ∀ {s value r}, readValue fuel s = .ok (value, r) → value.isSound
  items : ∀ {s items r}, readItems fuel s = .ok (items, r) → (list items).isSound
  fields : ∀ {done s fields r}, readFields fuel done s = .ok (fields, r) → (object done).isSound →
    (object fields).isSound

theorem ReadsSound.readValue (ih : ReadsSound fuel) (h : readValue (fuel + 1) s = .ok (value, r)) :
    value.isSound := by
  unfold Json.readValue at h
  split at h
  · obtain ⟨⟨letters, t⟩, hread, heq⟩ := exists_of_bind_eq_ok h
    cases heq
    exact isSound_ofLetters (areApart_of_readText hread)
  · split at h
    · cases h
      rfl
    · obtain ⟨⟨fields, t⟩, hread, heq⟩ := exists_of_bind_eq_ok h
      cases heq
      exact ih.fields hread rfl
  · split at h
    · cases h
      rfl
    · obtain ⟨⟨items, t⟩, hread, heq⟩ := exists_of_bind_eq_ok h
      cases heq
      exact ih.items hread
  · cases h; rfl
  · cases h; rfl
  · cases h; rfl
  · cases h; rfl
  · cases h; rfl
  · split at h
    · next hread =>
      cases h
      exact isSound_readNumber hread
    · cases h

theorem ReadsSound.readItems (ih : ReadsSound fuel) {items : List Json}
    (h : readItems (fuel + 1) s = .ok (items, r)) : (list items).isSound := by
  unfold Json.readItems at h
  obtain ⟨⟨first, t⟩, hfirst, h⟩ := exists_of_bind_eq_ok h
  have hsound := ih.value hfirst
  simp only at h
  split at h
  · cases h
    simp [isSound, areSound, hsound]
  · obtain ⟨⟨items, u⟩, hitems, heq⟩ := exists_of_bind_eq_ok h
    have hrest := ih.items hitems
    cases heq
    simpa [isSound, areSound, hsound] using hrest
  · cases h

theorem ReadsSound.readFields (ih : ReadsSound fuel) {done : List (String × Json)}
    (h : readFields (fuel + 1) done s = .ok (fields, r)) (hdone : (object done).isSound) :
    (object fields).isSound := by
  unfold Json.readFields at h
  split at h
  · obtain ⟨⟨name, t⟩, -, h⟩ := exists_of_bind_eq_ok h
    simp only at h
    split at h
    · obtain ⟨⟨value, u⟩, hvalue, h⟩ := exists_of_bind_eq_ok h
      have hset := isSound_setField hdone (ih.value hvalue) (Letter.mended name)
      simp only at h
      split at h
      · cases h
        exact hset
      · exact ih.fields h hset
      · cases h
    · cases h
  · cases h

theorem readsSound (fuel : Nat) : ReadsSound fuel := by
  induction fuel with
  | zero =>
    constructor
    · intro s value r h
      rw [Json.readValue] at h
      cases h
    · intro s items r h
      rw [Json.readItems] at h
      cases h
    · intro done s fields r h
      rw [Json.readFields] at h
      cases h
  | succ fuel ih => exact ⟨ih.readValue, ih.readItems, ih.readFields⟩

theorem isSound_of_readAll (h : readAll s = .ok value) : value.isSound := by
  unfold readAll at h
  split at h
  · cases h
  · split at h
    · cases h
    · next hread =>
      split at h
      · cases h
        exact (readsSound _).value hread
      · cases h

theorem isSound_of_read {text : String} (h : read text = .ok value) : value.isSound := by
  unfold read at h
  split at h
  · next hread =>
    cases h
    exact isSound_of_readAll hread
  · cases h

/-! ## Sound values are those that a text holds -/

mutual

theorem isSound_normal : (value : Json) → value.normal.isSound = value.isSound
  | null | flag _ | integer _ | real _ | text _ | torn _ => by simp only [normal]
  | list items => by
    rw [normal_list, isSound, isSound, areSound_normal items]
  | object fields => by
    have hnames : ((sortFields fields).map fun field => (field.1, field.2.normal)).map (·.1) =
        (sortFields fields).map (·.1) := by
      rw [List.map_map]
      rfl
    have hperm := sortFields_perm fields
    rw [normal_object, Bool.eq_iff_iff, isSound_object, isSound_object, hnames, (hperm.map _).nodup_iff,
      List.forall_mem_map]
    simp only [hperm.mem_iff]
    exact and_congr_right fun _ => forall₂_congr fun field hmem => by
      rw [isSound_normal_field fields field hmem]

theorem areSound_normal : (items : List Json) → areSound (items.map normal) = areSound items
  | [] => rfl
  | item :: items => by
    rw [List.map_cons, areSound, areSound, isSound_normal item, areSound_normal items]

theorem isSound_normal_field : (fields : List (String × Json)) → ∀ field ∈ fields,
    field.2.normal.isSound = field.2.isSound
  | [], _, hmem => by cases hmem
  | (name, value) :: fields, field, hmem => by
    rcases List.mem_cons.mp hmem with rfl | hmem
    · exact isSound_normal value
    · exact isSound_normal_field fields field hmem

end

/-- The sound values are those that some text is read as, up to the order of fields. -/
theorem isSound_iff_exists_read : value.isSound ↔ ∃ text, read text = .ok value.normal := by
  constructor
  · exact fun h => ⟨value.write .line, read_write trivial h⟩
  · rintro ⟨text, htext⟩
    rw [← isSound_normal]
    exact isSound_of_read htext

end SchemaScript.Json
