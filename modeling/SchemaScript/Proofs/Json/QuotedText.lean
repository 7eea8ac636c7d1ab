import SchemaScript.Json.Reader
import SchemaScript.Json.Writer

/-!
# Quoted texts read back

Every letter is written in a form that reads as this letter, whatever follows. The one exception are
halves: a first half with a second half behind it reads as the character that the two make up. So a list
of letters reads back as it is if no two of them make up a pair (`readText_letters`), and a text always
does (`readText_quoted`).
-/

namespace SchemaScript.Json

variable {opening r t : List Char} {letters : List Letter} {n m : Nat} {c : Char}

/-! ## Four digits -/

theorem hexValue?_hexDigit (h : n < 16) : hexValue? (Text.hexDigit n) = some n := by
  revert n
  decide

theorem unitEscape_eq (n : Nat) :
    unitEscape n = ['\\', 'u', Text.hexDigit (n / 4096 % 16), Text.hexDigit (n / 256 % 16),
      Text.hexDigit (n / 16 % 16), Text.hexDigit (n % 16)] := by
  simp [unitEscape, Text.hex, Nat.div_div_eq_div_mul]

theorem fourDigits?_hexDigits (h : n < 0x10000) :
    fourDigits? (Text.hexDigit (n / 4096 % 16)) (Text.hexDigit (n / 256 % 16))
      (Text.hexDigit (n / 16 % 16)) (Text.hexDigit (n % 16)) = some n := by
  have hdigit (k : Nat) : hexValue? (Text.hexDigit (k % 16)) = some (k % 16) :=
    hexValue?_hexDigit (Nat.mod_lt k (by omega))
  simp only [fourDigits?, hdigit, Option.some.injEq]
  omega

/-! ## One unit -/

/-- What follows a unit `n` does not make up a pair with it. -/
inductive Unpaired (n : Nat) : List Char → Prop
  | plain {c : Char} {t : List Char} (h : c ≠ '\\') : Unpaired n (c :: t)
  | escape {c : Char} {t : List Char} (h : c ≠ 'u') : Unpaired n ('\\' :: c :: t)
  | unit {m : Nat} {c : Char} {t : List Char} (hm : m < 0x10000)
      (h : isHighUnit n = true → isLowUnit m = false) : Unpaired n (unitEscape m ++ c :: t)

theorem readText_unit (hn : n < 0x10000) (ht : Unpaired n t)
    (h : readText opening t = .ok (letters, r)) :
    readText opening (unitEscape n ++ t) = .ok (unitLetter n :: letters, r) := by
  rw [unitEscape_eq]
  simp only [List.cons_append, List.nil_append]
  cases ht with
  | plain hc =>
    rw [readText.eq_5 _ _ _ _ _ _ _ (fun _ _ _ _ _ _ he _ => hc he), fourDigits?_hexDigits hn, h]
    rfl
  | escape hc =>
    rw [readText.eq_5 _ _ _ _ _ _ _ (fun _ _ _ _ _ _ _ he => hc (List.cons.inj he).1),
      fourDigits?_hexDigits hn, h]
    rfl
  | unit hm hpair =>
    rw [unitEscape_eq] at h ⊢
    simp only [List.cons_append, List.nil_append] at h ⊢
    rw [readText.eq_4, fourDigits?_hexDigits hn, fourDigits?_hexDigits hm, h]
    by_cases hhigh : isHighUnit n
    · simp only [hhigh, hpair hhigh, if_true, Bool.false_eq_true, if_false]
      rfl
    · simp only [hhigh, Bool.false_eq_true, if_false]
      rfl

theorem readText_pair (hn : isHighUnit n) (hm : isLowUnit m)
    (h : readText opening (c :: t) = .ok (letters, r)) :
    readText opening (unitEscape n ++ (unitEscape m ++ c :: t)) =
      .ok (pairLetter n m :: letters, r) := by
  have hn' : n < 0x10000 := by
    simp only [isHighUnit, Bool.and_eq_true, decide_eq_true_eq] at hn
    omega
  have hm' : m < 0x10000 := by
    simp only [isLowUnit, Bool.and_eq_true, decide_eq_true_eq] at hm
    omega
  rw [unitEscape_eq n, unitEscape_eq m]
  simp only [List.cons_append, List.nil_append]
  rw [readText.eq_4, fourDigits?_hexDigits hn', fourDigits?_hexDigits hm', h]
  simp only [hn, hm, if_true]
  rfl

/-! ## One character -/

theorem readText_escape {e : Char} (he : e ≠ 'u') (hc : escaped? e = some c)
    (h : readText opening t = .ok (letters, r)) :
    readText opening ('\\' :: e :: t) = .ok (.whole c :: letters, r) := by
  rw [readText.eq_7 _ _ _ (fun _ _ _ _ _ _ _ _ _ _ hu _ => he hu) (fun _ _ _ _ _ _ hu _ => he hu) he,
    hc, h]
  rfl

theorem readText_plain (hquote : c ≠ '"') (hslash : c ≠ '\\') (hprint : 32 ≤ c.toNat)
    (h : readText opening t = .ok (letters, r)) :
    readText opening (c :: t) = .ok (.whole c :: letters, r) := by
  rw [readText.eq_8 _ _ _ hquote (fun hc => absurd hc hslash)
    (fun _ _ _ _ _ _ _ _ _ _ hc => absurd hc hslash) (fun _ _ _ _ _ _ hc => absurd hc hslash)
    (fun _ hc => absurd hc hslash) (fun _ _ hc => absurd hc hslash), if_neg (by omega), h]
  rfl

/-- A character is no half. -/
theorem not_surrogate (c : Char) : c.toNat < 0xD800 ∨ 0xDFFF < c.toNat ∧ c.toNat < 0x110000 := by
  have hvalid := c.valid
  simp only [UInt32.isValidChar, Nat.isValidChar] at hvalid
  exact hvalid

theorem unitLetter_toNat (c : Char) : unitLetter c.toNat = .whole c := by
  rw [unitLetter, if_neg, Char.ofNat_toNat]
  have := not_surrogate c
  simp only [Bool.and_eq_true, decide_eq_true_eq]
  omega

theorem isHighUnit_toNat (c : Char) : isHighUnit c.toNat = false := by
  have := not_surrogate c
  simp only [isHighUnit, Bool.and_eq_false_iff, decide_eq_false_iff_not]
  omega

theorem isLowUnit_toNat (c : Char) : isLowUnit c.toNat = false := by
  have := not_surrogate c
  simp only [isLowUnit, Bool.and_eq_false_iff, decide_eq_false_iff_not]
  omega

/-- The two units of a character beyond the basic plane. -/
theorem pairLetter_units (h : 0x10000 ≤ c.toNat) :
    isHighUnit (0xD800 + (c.toNat - 0x10000) / 0x400) ∧
      isLowUnit (0xDC00 + (c.toNat - 0x10000) % 0x400) ∧
      pairLetter (0xD800 + (c.toNat - 0x10000) / 0x400) (0xDC00 + (c.toNat - 0x10000) % 0x400) =
        .whole c := by
  have hc := not_surrogate c
  refine ⟨?_, ?_, ?_⟩
  · simp only [isHighUnit, Bool.and_eq_true, decide_eq_true_eq]
    omega
  · simp only [isLowUnit, Bool.and_eq_true, decide_eq_true_eq]
    omega
  · have hcode : 0x10000 + (0xD800 + (c.toNat - 0x10000) / 0x400 - 0xD800) * 0x400 +
        (0xDC00 + (c.toNat - 0x10000) % 0x400 - 0xDC00) = c.toNat := by
      omega
    rw [pairLetter, hcode, Char.ofNat_toNat]

/-- The letters that `charText` writes with a letter of their own behind a backslash. -/
theorem charText_cases (c : Char) :
    (∃ e, e ≠ 'u' ∧ escaped? e = some c ∧ charText c = ['\\', e]) ∨
    (c ≠ '"' ∧ c ≠ '\\' ∧ 32 ≤ c.toNat ∧ charText c = [c]) ∨
    (c.toNat < 0x10000 ∧ charText c = unitEscape c.toNat) ∨
    (0x10000 ≤ c.toNat ∧ charText c = unitEscape (0xD800 + (c.toNat - 0x10000) / 0x400) ++
      unitEscape (0xDC00 + (c.toNat - 0x10000) % 0x400)) := by
  unfold charText
  simp only [beq_iff_eq]
  split
  · next h => exact .inl ⟨'"', by decide, by rw [h]; rfl, rfl⟩
  split
  · next h => exact .inl ⟨'\\', by decide, by rw [h]; rfl, rfl⟩
  split
  · next h => exact .inl ⟨'n', by decide, by rw [h]; rfl, rfl⟩
  split
  · next h => exact .inl ⟨'r', by decide, by rw [h]; rfl, rfl⟩
  split
  · next h => exact .inl ⟨'t', by decide, by rw [h]; rfl, rfl⟩
  split
  · next h => exact .inl ⟨'b', by decide, by rw [h]; rfl, rfl⟩
  split
  · next h => exact .inl ⟨'f', by decide, by rw [h]; rfl, rfl⟩
  split
  · next hquote hslash _ _ _ _ _ hprint =>
    simp only [Bool.and_eq_true, decide_eq_true_eq] at hprint
    exact .inr (.inl ⟨hquote, hslash, hprint.1, rfl⟩)
  split
  · next h => exact .inr (.inr (.inl ⟨h, rfl⟩))
  · next h => exact .inr (.inr (.inr ⟨Nat.le_of_not_lt h, rfl⟩))

theorem readText_char (c : Char) (ht : Unpaired c.toNat t)
    (h : readText opening t = .ok (letters, r)) :
    readText opening (charText c ++ t) = .ok (.whole c :: letters, r) := by
  rcases charText_cases c with ⟨e, he, hescaped, hc⟩ | ⟨hquote, hslash, hprint, hc⟩ | ⟨hn, hc⟩ | ⟨hn, hc⟩
  · rw [hc]
    exact readText_escape he hescaped h
  · rw [hc]
    exact readText_plain hquote hslash hprint h
  · rw [hc, readText_unit hn ht h, unitLetter_toNat]
  · obtain ⟨hhigh, hlow, hpair⟩ := pairLetter_units hn
    obtain ⟨d, s, rfl⟩ : ∃ d s, t = d :: s := by
      rcases t with _ | ⟨d, s⟩
      · exact absurd h (by simp [readText])
      · exact ⟨d, s, rfl⟩
    rw [hc, List.append_assoc, readText_pair hhigh hlow h, hpair]

/-! ## All letters -/

def startsLow : List Letter → Bool
  | .half m :: _ => isLowUnit m
  | _ => false

/-- Every half is one of the units that make up pairs, and no two neighbours are a pair. -/
def areApart : List Letter → Bool
  | [] => true
  | .whole _ :: letters => areApart letters
  | .half n :: letters =>
    (isHighUnit n || isLowUnit n) && !(isHighUnit n && startsLow letters) && areApart letters

theorem unitLetter_half (h : isHighUnit n || isLowUnit n) :
    n < 0x10000 ∧ unitLetter n = .half n := by
  simp only [isHighUnit, isLowUnit, Bool.or_eq_true, Bool.and_eq_true, decide_eq_true_eq] at h
  refine ⟨by omega, ?_⟩
  rw [unitLetter, if_pos]
  simp only [Bool.and_eq_true, decide_eq_true_eq]
  omega

theorem areApart_ofText (s : String) : areApart (Letter.ofText s) := by
  unfold Letter.ofText
  induction s.toList with
  | nil => rfl
  | cons c cs ih => exact ih

/-- What letters are written as makes up a pair with a unit before it only if the first letter does. -/
theorem unpaired_letters (h : areApart letters) (hn : isHighUnit n = true → startsLow letters = false)
    (r : List Char) : Unpaired n (letters.flatMap letterText ++ '"' :: r) := by
  have hcons (l : List Letter) : ∃ c t, l.flatMap letterText ++ '"' :: r = c :: t := by
    rcases hl : l.flatMap letterText ++ '"' :: r with _ | ⟨c, t⟩
    · simp at hl
    · exact ⟨c, t, rfl⟩
  rcases letters with _ | ⟨a, letters⟩
  · exact .plain (by decide)
  obtain ⟨d, t, ht⟩ := hcons letters
  rw [List.flatMap_cons, List.append_assoc, ht]
  cases a with
  | half m =>
    have hm : isHighUnit m || isLowUnit m := by
      simp only [areApart, Bool.and_eq_true] at h
      exact h.1.1
    exact .unit (unitLetter_half hm).1 hn
  | whole c =>
    show Unpaired n (charText c ++ d :: t)
    rcases charText_cases c with ⟨e, he, -, hc⟩ | ⟨-, hslash, -, hc⟩ | ⟨hlt, hc⟩ | ⟨hle, hc⟩
    · rw [hc]
      exact .escape he
    · rw [hc]
      exact .plain hslash
    · rw [hc]
      exact .unit hlt fun _ => isLowUnit_toNat c
    · have hcode := not_surrogate c
      rw [hc, List.append_assoc, unitEscape_eq (0xDC00 + _)]
      refine .unit (by omega) fun _ => ?_
      simp only [isLowUnit, Bool.and_eq_false_iff, decide_eq_false_iff_not]
      omega

theorem readText_letters (h : areApart letters) (opening r : List Char) :
    readText opening (letters.flatMap letterText ++ '"' :: r) = .ok (letters, r) := by
  induction letters with
  | nil => rfl
  | cons a letters ih =>
    rw [List.flatMap_cons, List.append_assoc]
    cases a with
    | whole c =>
      have hrest : areApart letters := h
      have hunpaired := unpaired_letters (n := c.toNat) hrest (by simp [isHighUnit_toNat]) r
      exact readText_char c hunpaired (ih hrest)
    | half n =>
      simp only [areApart, Bool.and_eq_true, Bool.not_eq_true', Bool.and_eq_false_iff] at h
      obtain ⟨⟨hunit, hpair⟩, hrest⟩ := h
      obtain ⟨hn, hletter⟩ := unitLetter_half hunit
      have hunpaired := unpaired_letters hrest (n := n)
        (fun hhigh => hpair.resolve_left (by simp [hhigh])) r
      have hread := readText_unit hn hunpaired (ih hrest)
      rwa [hletter] at hread

theorem toList_quoted (s : String) :
    (quoted s).toList = '"' :: (Letter.ofText s).flatMap letterText ++ ['"'] := by
  simp [quoted, Letter.ofText, List.flatMap_map, letterText]

/-- A quoted text reads as its letters. -/
theorem readText_quoted (s : String) (opening r : List Char) :
    readText opening ((Letter.ofText s).flatMap letterText ++ '"' :: r) = .ok (Letter.ofText s, r) :=
  readText_letters (areApart_ofText s) opening r

end SchemaScript.Json
