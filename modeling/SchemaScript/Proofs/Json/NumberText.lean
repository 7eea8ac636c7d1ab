import SchemaScript.Json.Reader
import SchemaScript.Json.Writer
import SchemaScript.Proofs.Text.Basic
import SchemaScript.Text.Integer

/-!
# Whole numbers read back

The digits of a number give the number again, without an upper bound (`readNumber_integer`). What follows
must not go on the number, which a comma, a bracket, a blank or the end never does (`EndsNumber`). A text that is
nothing but digits is read as their number, behind a sign as well (`Text.readInteger_writeInteger`).
-/

namespace SchemaScript.Json

variable {r digits : List Char} {n : Nat}

/-! ## Digits -/

theorem isDigit_of_mem_digits {c : Char} (h : c ∈ Text.digits n) : c.isDigit :=
  Nat.isDigit_of_mem_toDigits (by decide) (by decide) h

theorem digitsValue_digits (n : Nat) : digitsValue (Text.digits n) = n := by
  have hfold (l : List Char) (start : Nat) :
      l.foldl (fun n c => 10 * n + (c.toNat - 48)) start = Nat.ofDigitChars 10 l start := by
    induction l generalizing start with
    | nil => rfl
    | cons c l ih => rw [List.foldl_cons, Nat.ofDigitChars_cons, ih]; rfl
  rw [digitsValue, hfold, Text.digits, Nat.ofDigitChars_toDigits (by decide) (by decide)]

theorem digitChar_ne_zero : ∀ n < 10, 0 < n → n.digitChar ≠ '0' := by
  decide

/-- A number other than zero does not begin with a zero. -/
theorem digits_cons (h : 0 < n) : ∃ c cs, Text.digits n = c :: cs ∧ c ≠ '0' := by
  unfold Text.digits
  induction n using Nat.strongRecOn with
  | ind n ih =>
    by_cases hn : n < 10
    · exact ⟨n.digitChar, [], Nat.toDigits_of_lt_base hn, digitChar_ne_zero n hn h⟩
    · obtain ⟨c, cs, hc, hne⟩ := ih (n / 10) (by omega) (by omega)
      refine ⟨c, cs ++ [(n % 10).digitChar], ?_, hne⟩
      rw [Nat.toDigits_of_base_le (by decide) (by omega), hc, List.cons_append]

/-- No digit comes next. -/
def EndsDigits (r : List Char) : Prop :=
  ∀ c ∈ r.head?, c.isDigit = false

theorem readDigits_append (hdigits : ∀ c ∈ digits, c.isDigit) (hr : EndsDigits r) :
    readDigits (digits ++ r) = (digits, r) := by
  have htake : r.takeWhile Char.isDigit = [] := by
    rcases r with _ | ⟨c, r⟩
    · rfl
    · exact List.takeWhile_cons_of_neg (by simp [hr c (by simp)])
  have hdrop : r.dropWhile Char.isDigit = r := by
    rcases r with _ | ⟨c, r⟩
    · rfl
    · exact List.dropWhile_cons_of_neg (by simp [hr c (by simp)])
  rw [readDigits, List.takeWhile_append_of_pos hdigits, List.dropWhile_append_of_pos hdigits, htake,
    hdrop, List.append_nil]

/-- Digits before a point: a zero alone, or digits of which the first is no zero. -/
inductive IsWhole : List Char → Prop
  | zero : IsWhole ['0']
  | other {c : Char} {cs : List Char} (digits : ∀ d ∈ c :: cs, d.isDigit) (nonzero : c ≠ '0') :
    IsWhole (c :: cs)

theorem isWhole_digits (n : Nat) : IsWhole (Text.digits n) := by
  rcases Nat.eq_zero_or_pos n with rfl | hn
  · exact .zero
  · obtain ⟨c, cs, hc, hne⟩ := digits_cons hn
    rw [hc]
    exact .other (fun d hd => isDigit_of_mem_digits (hc ▸ hd)) hne

theorem IsWhole.isDigit (h : IsWhole digits) : ∀ c ∈ digits, c.isDigit := by
  cases h with
  | zero => exact List.forall_mem_singleton.mpr rfl
  | other hdigits => exact hdigits

theorem readWhole_append (h : IsWhole digits) (hr : EndsDigits r) :
    readWhole (digits ++ r) = some (digits, r) := by
  cases h with
  | zero => rfl
  | @other c cs hdigits hne =>
    have hfirst (t : List Char) : c :: cs ++ r ≠ '0' :: t := fun he => hne (List.cons.inj he).1
    rw [readWhole.eq_2 _ hfirst, readDigits_append hdigits hr]

/-! ## Whole numbers -/

/-- What comes next does not go on a number. -/
structure EndsNumber (r : List Char) : Prop where
  digits : EndsDigits r
  point : ∀ t, r ≠ '.' :: t
  exponent : ∀ t, r ≠ 'e' :: t ∧ r ≠ 'E' :: t

theorem EndsNumber.nil : EndsNumber [] :=
  ⟨by simp [EndsDigits], by simp, by simp⟩

theorem EndsNumber.cons {c : Char} (digit : c.isDigit = false) (point : c ≠ '.')
    (exponent : c ≠ 'e' ∧ c ≠ 'E') (r : List Char) : EndsNumber (c :: r) where
  digits := by simp [EndsDigits, digit]
  point := fun _ h => point (List.cons.inj h).1
  exponent := fun _ => ⟨fun h => exponent.1 (List.cons.inj h).1, fun h => exponent.2 (List.cons.inj h).1⟩

theorem readExponent_none (h : EndsNumber r) : readExponent r = (none, r) := by
  rcases r with _ | ⟨c, r⟩
  · rfl
  · have hc : (c == 'e' || c == 'E') = false := by
      simp only [Bool.or_eq_false_iff, beq_eq_false_iff_ne]
      exact ⟨fun hc => (h.exponent r).1 (hc ▸ rfl), fun hc => (h.exponent r).2 (hc ▸ rfl)⟩
    simp only [readExponent, hc, Bool.false_eq_true, if_false]

theorem readUnsigned_digits (negative : Bool) (n : Nat) (h : EndsNumber r) :
    readUnsigned negative (Text.digits n ++ r) =
      some (integer (if negative then -Int.ofNat n else Int.ofNat n), r) := by
  rw [readUnsigned, readWhole_append (isWhole_digits n) h.digits]
  simp only [Option.bind_eq_bind, Option.bind_some, readFraction.eq_2 r h.point, readExponent_none h,
    List.isEmpty_nil, Option.isNone_none, Bool.and_self, if_true, digitsValue_digits, Option.pure_def]

/-- A digit comes first. -/
theorem exists_digit_cons (h : IsWhole digits) (r : List Char) :
    ∃ c t, digits ++ r = c :: t ∧ c.isDigit := by
  cases h with
  | zero => exact ⟨'0', r, rfl, by decide⟩
  | @other c cs hdigits _ => exact ⟨c, cs ++ r, rfl, hdigits c (by simp)⟩

theorem ne_of_isDigit {c d : Char} (hc : c.isDigit) (hd : d.isDigit = false) : c ≠ d := by
  rintro rfl
  simp [hc] at hd

theorem readNumber_unsigned {t : List Char} {c : Char} (hc : c.isDigit) :
    readNumber (c :: t) = readUnsigned false (c :: t) :=
  readNumber.eq_3 _ (fun _ he => ne_of_isDigit hc (by decide) (List.cons.inj he).1)
    (fun _ he => ne_of_isDigit hc (by decide) (List.cons.inj he).1)

theorem readNumber_negative {t : List Char} {c : Char} (hc : c.isDigit) :
    readNumber ('-' :: c :: t) = readUnsigned true (c :: t) :=
  readNumber.eq_2 _ fun _ he => ne_of_isDigit hc (by decide) (List.cons.inj he).1

theorem readNumber_integer (n : Int) (h : EndsNumber r) :
    readNumber ((Text.writeInteger n).toList ++ r) = some (integer n, r) := by
  cases n with
  | ofNat n =>
    obtain ⟨c, t, ht, hc⟩ := exists_digit_cons (isWhole_digits n) r
    have hread := readUnsigned_digits false n h
    rw [ht] at hread
    rw [Text.writeInteger, Text.writeNatural, String.toList_ofList, ht, readNumber_unsigned hc, hread]
    rfl
  | negSucc n =>
    obtain ⟨c, t, ht, hc⟩ := exists_digit_cons (isWhole_digits (n + 1)) r
    have hread := readUnsigned_digits true (n + 1) h
    rw [ht] at hread
    rw [Text.writeInteger, Text.writeNatural, String.toList_append, String.toList_ofList,
      String.toList_ofList, List.append_assoc, ht]
    exact (readNumber_negative hc).trans hread

/-- A number begins with a digit or a sign. -/
theorem exists_integer_cons (n : Int) :
    ∃ c t, (Text.writeInteger n).toList = c :: t ∧ (c.isDigit ∨ c = '-') := by
  cases n with
  | ofNat n =>
    obtain ⟨c, t, ht, hc⟩ := exists_digit_cons (isWhole_digits n) []
    exact ⟨c, t, by simpa [Text.writeInteger, Text.writeNatural] using ht, .inl hc⟩
  | negSucc n => exact ⟨'-', Text.digits (n + 1), by simp [Text.writeInteger, Text.writeNatural], .inr rfl⟩

/-- What a number can begin with begins no other value. -/
theorem readValue_number {fuel : Nat} {c : Char} {t : List Char} (hc : c.isDigit ∨ c = '-') :
    readValue (fuel + 1) (c :: t) =
      match readNumber (c :: t) with
      | some found => .ok found
      | none => .error ⟨.valueExpected, c :: t⟩ := by
  have hne (d : Char) (hd : d.isDigit = false ∧ d ≠ '-') : c ≠ d := by
    rintro rfl
    rcases hc with hc | hc
    · simp [hc] at hd
    · exact hd.2 hc
  refine readValue.eq_10 _ _ ?_ ?_ ?_ ?_ ?_ ?_ ?_ ?_ <;>
    exact fun _ he => hne _ (by decide) (List.cons.inj he).1

end SchemaScript.Json

/-! ## Whole texts of digits -/

namespace SchemaScript.Text

theorem digit?_of_isDigit {c : Char} (h : c.isDigit) : digit? c = some (c.toNat - 48) := by
  have hrange : 48 ≤ c.toNat ∧ c.toNat ≤ 57 := Char.isDigit_iff_toNat.mp h
  unfold digit? zeros
  rw [List.find?_cons_of_pos (by simp [hrange])]
  rfl

theorem readDigits_eq {l : List Char} (h : ∀ c ∈ l, c.isDigit) (value : Nat) :
    readDigits value l = some (Nat.ofDigitChars 10 l value) := by
  induction l generalizing value with
  | nil => rfl
  | cons c l ih =>
    rw [List.forall_mem_cons] at h
    have hne : c ≠ '_' := Json.ne_of_isDigit h.1 rfl
    rw [readDigits.eq_3 _ _ _ fun _ _ heq _ => hne heq, digit?_of_isDigit h.1, Option.bind_some, ih h.2]
    rfl

theorem readNatural_digits (n : Nat) : readNatural (digits n) = some n := by
  have hdigits : ∀ c ∈ digits n, c.isDigit := fun c => Json.isDigit_of_mem_digits
  have hvalue : Nat.ofDigitChars 10 (digits n) 0 = n := Nat.ofDigitChars_toDigits (by decide) (by decide)
  cases hlist : digits n with
  | nil => exact absurd hlist Nat.toDigits_ne_nil
  | cons c r =>
    rw [hlist, List.forall_mem_cons] at hdigits
    rw [hlist] at hvalue
    unfold readNatural
    dsimp only
    rw [digit?_of_isDigit hdigits.1, Option.bind_some, readDigits_eq hdigits.2, ← hvalue]
    simp [Nat.ofDigitChars_cons]

theorem trim_of_not_blank {s : List Char} (h : ∀ c ∈ s, isBlank c = false) : trim s = s :=
  trim_eq_self (fun c hc => h c (List.mem_of_mem_head? hc)) fun c hc => h c (List.mem_of_mem_getLast? hc)

theorem not_blank_of_isDigit {c : Char} (h : c.isDigit) : isBlank c = false := by
  have hrange : 48 ≤ c.toNat ∧ c.toNat ≤ 57 := Char.isDigit_iff_toNat.mp h
  simp only [isBlank, Bool.or_eq_false_iff, Bool.and_eq_false_iff, decide_eq_false_iff_not, beq_eq_false_iff_ne]
  omega

/-- A number that is written is read again. -/
theorem readInteger_writeInteger (n : Int) : readInteger (writeInteger n) = some n := by
  have hblank (n : Nat) : ∀ c ∈ digits n, isBlank c = false := fun c hc =>
    not_blank_of_isDigit (Json.isDigit_of_mem_digits hc)
  cases n with
  | ofNat n =>
    have htrim : trim (writeInteger (.ofNat n)).toList = digits n := by
      show trim (String.ofList (digits n)).toList = _
      rw [String.toList_ofList, trim_of_not_blank (hblank n)]
    unfold readInteger
    rw [htrim]
    have hsign {c : Char} {r : List Char} (hlist : digits n = c :: r) : c.isDigit :=
      Json.isDigit_of_mem_digits (hlist ▸ List.mem_cons_self ..)
    split
    · next r hlist => exact absurd (hsign hlist) (by decide)
    · next r hlist => exact absurd (hsign hlist) (by decide)
    · rw [readNatural_digits]
      rfl
  | negSucc n =>
    have htrim : trim (writeInteger (.negSucc n)).toList = '-' :: digits (n + 1) := by
      have hletters : (writeInteger (.negSucc n)).toList = '-' :: digits (n + 1) := by
        simp [writeInteger, writeNatural]
      rw [hletters, trim_of_not_blank (List.forall_mem_cons.mpr ⟨by decide, hblank (n + 1)⟩)]
    unfold readInteger
    rw [htrim]
    simp only [readNatural_digits]
    rfl

end SchemaScript.Text
