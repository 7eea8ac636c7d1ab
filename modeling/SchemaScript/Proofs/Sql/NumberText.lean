import SchemaScript.Effect.Object
import SchemaScript.Proofs.Json.NumberText
import SchemaScript.Proofs.Sql.Writing

/-!
# Whole numbers in statements

A whole number is written in decimal, with its sign in front. The scanner takes the sign for a word of its own and
tells small numbers from large ones; the reader puts both together again (`number_tokens`, `wholeNumber_writtenNumber`).
-/

namespace SchemaScript.Sql

/-! ## Their tokens -/

/-- The token of a number without a sign. -/
def digitsToken (n : Nat) : Token :=
  integerToken n (Text.digits n)

def numberTokens : Int → List Token
  | .ofNat n => [digitsToken n]
  | .negSucc n => [.symbol "-", digitsToken (n + 1)]

/-- The character cannot go on a number. -/
def endsNumber (d : Char) : Bool :=
  !isNameContinue d && d != '.'

section

variable {d : Char} {rest : List Char} {more : List Token}

theorem digitRun_append {digits : List Char} (h : ∀ c ∈ digits, c.isDigit) (hd : d.isDigit = false) (hline : d ≠ '_') :
    digitRun Char.isDigit (digits ++ d :: rest) = digits := by
  induction digits with
  | nil =>
    rw [List.nil_append, digitRun, hd]
    · rfl
    · exact fun _ _ heq => absurd heq hline
  | cons c digits ih =>
    rw [List.forall_mem_cons] at h
    have hc : c ≠ '_' := Json.ne_of_isDigit h.1 rfl
    rw [List.cons_append, digitRun, if_pos h.1, ih h.2]
    exact fun _ _ heq => absurd heq hc

theorem digitsValue_digits (n : Nat) : digitsValue (Text.digits n) = n :=
  Json.digitsValue_digits n

theorem ne_of_endsNumber {e : Char} (hd : endsNumber d) (he : endsNumber e = false) : d ≠ e := by
  rintro rfl
  rw [hd] at he
  contradiction

theorem isDigit_of_endsNumber (hd : endsNumber d) : d.isDigit = false := by
  simp only [endsNumber, isNameContinue, Bool.and_eq_true, Bool.not_eq_true', Bool.or_eq_false_iff] at hd
  exact hd.1.1.2

theorem isNameStart_of_endsNumber (hd : endsNumber d) : isNameStart d = false := by
  simp only [endsNumber, isNameContinue, Bool.and_eq_true, Bool.not_eq_true', Bool.or_eq_false_iff] at hd
  exact hd.1.1.1

theorem isDigit_of_digits {n : Nat} {c : Char} {digits : List Char} (h : Text.digits n = c :: digits) : c.isDigit :=
  Json.isDigit_of_mem_digits (h ▸ List.mem_cons_self)

theorem exists_digits_cons (n : Nat) : ∃ c digits, Text.digits n = c :: digits :=
  List.exists_cons_of_ne_nil Nat.toDigits_ne_nil

theorem decimalNumber_digits (n : Nat) (hd : endsNumber d) (rest : List Char) :
    decimalNumber (Text.digits n ++ d :: rest) = .word (digitsToken n) (d :: rest) := by
  have hall : ∀ c ∈ Text.digits n, c.isDigit := fun c => Json.isDigit_of_mem_digits
  have hunderscores : (Text.digits n).filter (· != '_') = Text.digits n :=
    List.filter_eq_self.mpr fun c hc => bne_iff_ne.mpr (Json.ne_of_isDigit (hall c hc) rfl)
  have hrun : decimalRun (Text.digits n ++ d :: rest) = Text.digits n := by
    obtain ⟨c, digits, hlist⟩ := exists_digits_cons n
    have hdigits : digitRun Char.isDigit (Text.digits n ++ d :: rest) = Text.digits n :=
      digitRun_append hall (isDigit_of_endsNumber hd) (ne_of_endsNumber hd rfl)
    rw [hlist, List.cons_append] at hdigits ⊢
    rw [decimalRun, if_pos (isDigit_of_digits hlist), hdigits]
  have hpoint : d ≠ '.' := ne_of_endsNumber hd rfl
  have hexponent : exponentRun (d :: rest) = some [] := by
    have he : d ≠ 'e' ∧ d ≠ 'E' := ⟨ne_of_endsNumber hd rfl, ne_of_endsNumber hd rfl⟩
    unfold exponentRun
    simp [he]
  have hstart := isNameStart_of_endsNumber hd
  unfold decimalNumber
  simp [hrun, hpoint, hexponent, hstart, hunderscores, digitsValue_digits, digitsToken]

theorem numberWord_digits (n : Nat) (hd : endsNumber d) (rest : List Char) :
    numberWord (Text.digits n ++ d :: rest) = .word (digitsToken n) (d :: rest) := by
  have hdecimal := decimalNumber_digits n hd rest
  unfold numberWord
  split
  · next c tail heq =>
    -- Only zero begins with a zero, so what follows here is the character behind the number.
    obtain rfl : n = 0 := by
      by_contra hn
      obtain ⟨first, digits, hlist, hfirst⟩ := Json.digits_cons (Nat.pos_of_ne_zero hn)
      rw [hlist] at heq
      exact hfirst (List.cons.inj heq).1
    obtain rfl : d = c := (List.cons.inj (List.cons.inj heq).2).1
    have hother {e : Char} (he : endsNumber e = false) : (d == e) = false :=
      beq_eq_false_iff_ne.mpr (ne_of_endsNumber hd he)
    rw [hother rfl, hother rfl, hother rfl, hother rfl, hother rfl, hother rfl]
    exact hdecimal
  · exact hdecimal

theorem letteredWord?_digit {c : Char} (hc : c.isDigit) (r : List Char) : letteredWord? (c :: r) = none := by
  refine letteredWord?_other (fun hmem => ?_) r
  have hletters : ['e', 'E', 'b', 'B', 'x', 'X', 'n', 'N', 'u', 'U'].all fun e => !e.isDigit := by decide +kernel
  have hletter := List.all_eq_true.mp hletters c hmem
  rw [hc] at hletter
  contradiction

theorem isDigit_facts {c : Char} (hc : c.isDigit) :
    isNameStart c = false ∧ isSpace c = false ∧ isOperatorChar c = false := by
  have hrange : 48 ≤ c.toNat ∧ c.toNat ≤ 57 := Char.isDigit_iff_toNat.mp hc
  have hall : ∀ k < 10, isNameStart (Char.ofNat (48 + k)) = false ∧ isSpace (Char.ofNat (48 + k)) = false ∧
      isOperatorChar (Char.ofNat (48 + k)) = false := by
    decide
  have hfacts := hall (c.toNat - 48) (by omega)
  rwa [Nat.add_sub_cancel' hrange.1, Char.ofNat_toNat] at hfacts

theorem plainWord_digit {c : Char} (hc : c.isDigit) (r : List Char) : plainWord (c :: r) = numberWord (c :: r) := by
  have hother {e : Char} (he : e.isDigit = false) : c ≠ e := Json.ne_of_isDigit hc he
  have hstart : isNameStart c = false := (isDigit_facts hc).1
  unfold plainWord
  split <;> simp_all

/-- The digits of a number are one word. -/
theorem firstWord_digits (n : Nat) (hd : endsNumber d) (rest : List Char) :
    firstWord (Text.digits n ++ d :: rest) =
      (Text.digits n ++ d :: rest, some (.word (digitsToken n) (d :: rest))) := by
  have hnumber := numberWord_digits n hd rest
  obtain ⟨c, digits, hlist⟩ := exists_digits_cons n
  have hc := isDigit_of_digits hlist
  have hspace : isSpace c = false := (isDigit_facts hc).2.1
  rw [hlist, List.cons_append] at hnumber ⊢
  rw [firstWord_front hspace (Json.ne_of_isDigit hc rfl) (Json.ne_of_isDigit hc rfl), nextWord,
    letteredWord?_digit hc, Option.getD_none, plainWord_digit hc, hnumber]

/-- A sign in front of a number is a word of its own. -/
theorem firstWord_sign (n : Nat) (rest : List Char) :
    firstWord ('-' :: (Text.digits n ++ rest)) =
      ('-' :: (Text.digits n ++ rest), some (.word (.symbol "-") (Text.digits n ++ rest))) := by
  obtain ⟨c, digits, hlist⟩ := exists_digits_cons n
  have hc := isDigit_of_digits hlist
  have hdash : c ≠ '-' := Json.ne_of_isDigit hc rfl
  have hquote : c ≠ '\'' := Json.ne_of_isDigit hc rfl
  have hand : c ≠ '&' := Json.ne_of_isDigit hc rfl
  have hrun (r : List Char) : operatorRun ('-' :: c :: r) = ['-'] := by
    have hoperator : isOperatorChar '-' ∧ isOperatorChar c = false := ⟨rfl, (isDigit_facts hc).2.2⟩
    have hlast : allowsFinalSign '-' = false := rfl
    simp [operatorRun, hoperator, hlast, beforeComment, dropFinalSigns]
  have hword (r : List Char) : nextWord ('-' :: c :: r) = .word (.symbol "-") (c :: r) := by
    rw [nextWord, letteredWord?_name hquote hand, Option.getD_none]
    show operatorWord ('-' :: c :: r) = _
    rw [operatorWord, hrun]
    rfl
  have hgap (r : List Char) (steps : Nat) : skipGap (steps + 1) ('-' :: c :: r) = '-' :: c :: r := by
    have hspace : isSpace '-' = false := rfl
    rw [skipGap.eq_4 _ _ _ (fun _ _ heq => hdash (List.cons.inj heq).1) fun _ heq => absurd heq (by decide), hspace]
    rfl
  rw [hlist, List.cons_append, firstWord, List.length_cons, hgap]
  exact congrArg (fun w => ('-' :: c :: (digits ++ rest), some w)) (hword (digits ++ rest))

theorem scans_number (n : Int) (hd : endsNumber d) (hrest : Scans (d :: rest) more) :
    Scans ((Text.writeInteger n).toList ++ d :: rest) (numberTokens n ++ more) := by
  cases n with
  | ofNat n =>
    have hlist : (Text.writeInteger (.ofNat n)).toList = Text.digits n := String.toList_ofList
    rw [hlist]
    exact scans_cons (firstWord_digits n hd rest) hrest
  | negSucc n =>
    have hlist : (Text.writeInteger (.negSucc n)).toList = '-' :: Text.digits (n + 1) := by
      simp [Text.writeInteger, Text.writeNatural]
    rw [hlist]
    exact scans_cons (firstWord_sign (n + 1) _) (scans_cons (firstWord_digits (n + 1) hd rest) hrest)

theorem length_numberTokens_le (n : Int) : (numberTokens n).length ≤ (Text.writeInteger n).toList.length := by
  have hdigits (n : Nat) : 0 < (Text.digits n).length := Nat.length_toDigits_pos
  cases n with
  | ofNat n =>
    show 1 ≤ (String.ofList (Text.digits n)).toList.length
    rw [String.toList_ofList]
    exact hdigits n
  | negSucc n =>
    have hlist : (Text.writeInteger (.negSucc n)).toList = '-' :: Text.digits (n + 1) := by
      simp [Text.writeInteger, Text.writeNatural]
    rw [hlist]
    exact Nat.succ_le_succ (hdigits (n + 1))

theorem not_mem_writeInteger {c : Char} (hsign : c ≠ '-') (hdigit : c.isDigit = false) (n : Int) :
    c ∉ (Text.writeInteger n).toList := by
  have hdigits (n : Nat) : c ∉ Text.digits n := by
    intro hmem
    rw [Json.isDigit_of_mem_digits hmem] at hdigit
    contradiction
  cases n with
  | ofNat n => simpa [Text.writeInteger, Text.writeNatural] using hdigits n
  | negSucc n => simpa [Text.writeInteger, Text.writeNatural, hsign] using hdigits (n + 1)

theorem unjoined_number (n : Int) {more : List Token} (h : BeginsApart more) :
    BeginsApart (numberTokens n ++ more) := by
  have hdigits (n : Nat) : StandsApart (digitsToken n) := by
    unfold digitsToken integerToken
    split <;> (rintro (_ | _) <;> exact ⟨rfl, rfl⟩)
  cases n with
  | ofNat n => exact (hdigits n).begins h.1
  | negSucc n => exact (standsApart_symbol "-").begins ((hdigits (n + 1)).cons h.1)

end

/-! ## Their values -/

/-- A number without a sign as it is read. -/
def naturalNumber (n : Nat) : Number :=
  if n ≤ largestInteger then .integer n else .decimal (Text.writeNatural n)

/-- A number as it is read. -/
def writtenNumber : Int → Number
  | .ofNat n => naturalNumber n
  | .negSucc n => (naturalNumber (n + 1)).negate

theorem after?_sign_digits (n : Nat) : Text.after? ['-'] (Text.writeNatural n).toList = none := by
  obtain ⟨c, digits, hlist⟩ := exists_digits_cons n
  have hc : c ≠ '-' := Json.ne_of_isDigit (isDigit_of_digits hlist) rfl
  rw [Text.writeNatural, String.toList_ofList, hlist]
  simp [Text.after?, hc.symm]

/-- A number is shown as it is written. -/
theorem text_writtenNumber (n : Int) : (writtenNumber n).text = Text.writeInteger n := by
  cases n with
  | ofNat n =>
    unfold writtenNumber naturalNumber
    dsimp only
    split <;> rfl
  | negSucc n =>
    unfold writtenNumber naturalNumber
    dsimp only
    split
    · rfl
    · simp [Number.negate, after?_sign_digits, Number.text, Text.writeInteger]

/-- A number that is written has its own value, however large it is. -/
theorem wholeNumber_writtenNumber (n : Int) : Effect.wholeNumber (writtenNumber n) = .ok n := by
  cases n with
  | ofNat n =>
    unfold writtenNumber naturalNumber
    dsimp only
    split
    · rfl
    · have hread := Text.readInteger_writeInteger (.ofNat n)
      rw [Text.writeInteger] at hread
      simp [Effect.wholeNumber, hread]
  | negSucc n =>
    unfold writtenNumber naturalNumber
    dsimp only
    split
    · rfl
    · have hread := Text.readInteger_writeInteger (.negSucc n)
      rw [Text.writeInteger] at hread
      simp [Number.negate, after?_sign_digits, Effect.wholeNumber, hread]

namespace Reader

theorem number?_digits (n : Nat) (places : Nat → Nat × String) (more : List Token) :
    number? (lexemesAt places (digitsToken n :: more)) =
      .ok (some (naturalNumber n), lexemesAt (fun i => places (i + 1)) more) := by
  unfold digitsToken integerToken naturalNumber
  split <;> rfl

theorem acceptSymbol_digits (n : Nat) (sign : String) (places : Nat → Nat × String) (more : List Token) :
    acceptSymbol sign (lexemesAt places (digitsToken n :: more)) =
      .ok (false, lexemesAt places (digitsToken n :: more)) := by
  unfold digitsToken integerToken
  split <;> rfl

theorem number_tokens (n : Int) (places : Nat → Nat × String) (more : List Token) :
    ∃ places', number (lexemesAt places (numberTokens n ++ more)) =
      .ok (writtenNumber n, lexemesAt places' more) := by
  cases n with
  | ofNat n =>
    exact ⟨_, bind_ok (acceptSymbol_digits n "-" places more)
      (bind_ok (acceptSymbol_digits n "+" places more) (bind_ok (number?_digits n places more) rfl))⟩
  | negSucc n =>
    have hsign : acceptSymbol "-" (lexemesAt places (.symbol "-" :: digitsToken (n + 1) :: more)) =
        .ok (true, lexemesAt (fun i => places (i + 1)) (digitsToken (n + 1) :: more)) := rfl
    exact ⟨_, bind_ok hsign (bind_ok (number?_digits (n + 1) _ more) rfl)⟩

end Reader

end SchemaScript.Sql
