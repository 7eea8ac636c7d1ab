import SchemaScript.Proofs.Json.NumberText
import SchemaScript.Proofs.Number.Rounding

/-!
# Numbers with a fraction read back

Whichever way the digits of a number of double precision are set around the point, with an exponent or
without, they are read as this number (`readNumber_real`). Where the point stands only moves zeros between
the digits and the exponent, which does not change the number that is nearest.
-/

namespace SchemaScript.Json

open Binary64 (ofDecimal IsDouble)

variable {r whole fraction digits : List Char} {units mantissa : Nat} {unit exponent : Int}

/-! ## Values of digits -/

theorem digitsValue_append_zeros (digits : List Char) (k : Nat) :
    digitsValue (digits ++ List.replicate k '0') = digitsValue digits * 10 ^ k := by
  induction k with
  | zero => simp
  | succ k ih =>
    rw [List.replicate_succ', ← List.append_assoc, digitsValue, List.foldl_append, ← digitsValue, ih,
      Nat.pow_succ, ← Nat.mul_assoc]
    simp [Nat.mul_comm]

theorem digitsValue_zeros_append (k : Nat) (digits : List Char) :
    digitsValue (List.replicate k '0' ++ digits) = digitsValue digits := by
  rw [digitsValue, List.foldl_append]
  have hzeros : (List.replicate k '0').foldl (fun n c => 10 * n + (c.toNat - 48)) 0 = 0 := by
    induction k with
    | zero => rfl
    | succ k ih => rw [List.replicate_succ, List.foldl_cons]; exact ih
  rw [hzeros, digitsValue]

theorem digitsValue_pos {c : Char} {cs : List Char} (hc : c.isDigit) (hne : c ≠ '0') :
    0 < digitsValue (c :: cs) := by
  have hgrow (cs : List Char) (n : Nat) (hn : 0 < n) :
      0 < cs.foldl (fun n c => 10 * n + (c.toNat - 48)) n := by
    induction cs generalizing n with
    | nil => exact hn
    | cons c cs ih => exact ih (10 * n + (c.toNat - 48)) (by omega)
  have hcode : c.toNat ≠ 48 := fun h => hne (Char.toNat_inj.mp h)
  simp only [Char.isDigit, Bool.and_eq_true, decide_eq_true_eq] at hc
  have hlow : 48 ≤ c.toNat := hc.1
  exact hgrow cs (10 * 0 + (c.toNat - 48)) (by omega)

/-! ## The digits that are written -/

/-- There are digits, and the first of them is not zero. -/
structure IsProper (d : Decimal) : Prop where
  digits : ∀ c ∈ d.digits, c.isDigit
  first : ∃ c cs, d.digits = c :: cs ∧ c ≠ '0'

theorem exists_ofUnits (units : Nat) (unit : Int) :
    ∃ k, Text.digits units = (Decimal.ofUnits units unit).digits ++ List.replicate k '0' := by
  refine ⟨((Text.digits units).reverse.takeWhile (· == '0')).length, ?_⟩
  have hzeros : (Text.digits units).reverse.takeWhile (· == '0') =
      List.replicate ((Text.digits units).reverse.takeWhile (· == '0')).length '0' :=
    List.eq_replicate_iff.mpr ⟨rfl, fun c hc => beq_iff_eq.mp (List.all_eq_true.mp List.all_takeWhile c hc)⟩
  rw [← List.reverse_replicate, ← hzeros, Decimal.ofUnits, ← List.reverse_append,
    List.takeWhile_append_dropWhile, List.reverse_reverse]

theorem isProper_ofUnits (hunits : 0 < units) (unit : Int) : IsProper (Decimal.ofUnits units unit) := by
  obtain ⟨k, hk⟩ := exists_ofUnits units unit
  obtain ⟨c, cs, hfirst, hne⟩ := digits_cons hunits
  constructor
  · exact fun c hc => isDigit_of_mem_digits (n := units) (hk ▸ List.mem_append_left _ hc)
  · rcases hd : (Decimal.ofUnits units unit).digits with _ | ⟨d, ds⟩
    · rw [hd, List.nil_append, hfirst] at hk
      have hmem : c ∈ List.replicate k '0' := hk ▸ List.mem_cons_self
      exact absurd (List.mem_replicate.mp hmem).2 hne
    · rw [hd, hfirst, List.cons_append] at hk
      exact ⟨d, ds, rfl, (List.cons.inj hk).1 ▸ hne⟩

/-- The zeros that are left out stand in the place of the point. -/
theorem ofDecimal_ofUnits (hunits : 0 < units) (unit : Int) (negative : Bool) :
    ofDecimal negative (digitsValue (Decimal.ofUnits units unit).digits)
        ((Decimal.ofUnits units unit).point - (Decimal.ofUnits units unit).digits.length) =
      ofDecimal negative units unit := by
  obtain ⟨k, hk⟩ := exists_ofUnits units unit
  obtain ⟨hdigits, c, cs, hd, hne⟩ := isProper_ofUnits hunits unit
  have hpos : 0 < digitsValue (Decimal.ofUnits units unit).digits := by
    rw [hd] at hdigits ⊢
    exact digitsValue_pos (hdigits c List.mem_cons_self) hne
  have hvalue := digitsValue_append_zeros (Decimal.ofUnits units unit).digits k
  rw [← hk, digitsValue_digits] at hvalue
  have hpoint : (Decimal.ofUnits units unit).point = (Text.digits units).length + unit := rfl
  have hlength := congrArg List.length hk
  rw [List.length_append, List.length_replicate] at hlength
  have hplace : (Decimal.ofUnits units unit).point - (Decimal.ofUnits units unit).digits.length =
      unit + k := by
    omega
  rw [hplace, ← Binary64.ofDecimal_shift hpos negative k, ← hvalue]
  congr 1
  omega

/-! ## Numbers with a point or an exponent -/

theorem readFraction_append (fraction : List Char) (hne : fraction ≠ [])
    (h : ∀ c ∈ fraction, c.isDigit) (hr : EndsDigits r) :
    readFraction ('.' :: (fraction ++ r)) = (fraction, r) := by
  rw [readFraction.eq_1, readDigits_append h hr]
  cases fraction with
  | nil => exact absurd rfl hne
  | cons c cs => rfl

theorem readFraction_zero (hr : EndsNumber r) : readFraction ('.' :: (['0'] ++ r)) = (['0'], r) :=
  readFraction_append ['0'] (List.cons_ne_nil _ _) (List.forall_mem_singleton.mpr rfl) hr.digits

/-- The digits of an exponent, of which there are two at least. -/
theorem exists_exponentText (n : Int) : ∃ c cs, Decimal.exponentText n =
    'e' :: (if n < 0 then '-' else '+') :: c :: cs ∧ (∀ d ∈ c :: cs, d.isDigit) ∧
      digitsValue (c :: cs) = n.natAbs := by
  have hdigits := isWhole_digits n.natAbs
  have hvalue := digitsValue_digits n.natAbs
  by_cases hshort : (Text.digits n.natAbs).length < 2
  · refine ⟨'0', Text.digits n.natAbs, ?_, ?_, ?_⟩
    · simp only [Decimal.exponentText, if_pos hshort, List.cons_append, List.nil_append]
    · exact List.forall_mem_cons.mpr ⟨rfl, hdigits.isDigit⟩
    · exact (digitsValue_zeros_append 1 _).trans hvalue
  · rcases hcs : Text.digits n.natAbs with _ | ⟨c, cs⟩
    · simp [hcs] at hshort
    · refine ⟨c, cs, ?_, hcs ▸ hdigits.isDigit, hcs ▸ hvalue⟩
      rw [hcs] at hshort
      simp only [Decimal.exponentText, if_neg hshort, hcs, List.cons_append, List.nil_append]

/-- A sign and digits behind the letter. -/
theorem readExponent_exponentText (n : Int) (hr : EndsDigits r) :
    readExponent (Decimal.exponentText n ++ r) = (some n, r) := by
  obtain ⟨c, cs, htext, hdigits, hvalue⟩ := exists_exponentText n
  rw [htext]
  split
  · next hneg =>
    simp only [List.cons_append]
    rw [readExponent.eq_2, ← List.cons_append]
    simp only [readDigits_append hdigits hr, hvalue]
    simp only [beq_self_eq_true, Bool.true_or, if_true, Int.ofNat_eq_natCast, Prod.mk.injEq,
      Option.some.injEq, and_true]
    omega
  · next hpos =>
    simp only [List.cons_append]
    rw [readExponent.eq_1, ← List.cons_append]
    simp only [readDigits_append hdigits hr, hvalue]
    simp only [beq_self_eq_true, Bool.true_or, if_true, Bool.false_eq_true, if_false,
      Int.ofNat_eq_natCast, Prod.mk.injEq, Option.some.injEq, and_true]
    omega

theorem readUnsigned_real (negative : Bool) {s t : List Char} {exponent : Option Int}
    (hwhole : IsWhole whole) (hs : EndsDigits s) (hfraction : readFraction s = (fraction, t))
    (hexponent : readExponent t = (exponent, r)) (hreal : fraction ≠ [] ∨ exponent ≠ none) :
    readUnsigned negative (whole ++ s) =
      some (real (ofDecimal negative (digitsValue (whole ++ fraction))
        (exponent.getD 0 - fraction.length)), r) := by
  have htest : (fraction.isEmpty && exponent.isNone) = false := by
    rw [Bool.and_eq_false_iff]
    exact hreal.imp List.isEmpty_eq_false_iff.mpr (by simp [Option.ne_none_iff_isSome])
  rw [readUnsigned, readWhole_append hwhole hs]
  simp only [Option.bind_eq_bind, Option.bind_some, hfraction, hexponent, htest,
    Bool.false_eq_true, if_false, realOf, Option.pure_def, Int.ofNat_eq_natCast]

theorem endsDigits_cons {c : Char} (h : c.isDigit = false) (t : List Char) : EndsDigits (c :: t) := by
  simpa [EndsDigits] using h

variable {d : Decimal} {negative : Bool}

/-- The point stands before the digits. -/
theorem readUnsigned_small (hd : IsProper d) (hpoint : d.point ≤ 0) (hr : EndsNumber r) :
    readUnsigned negative (d.positional ++ r) =
      some (real (ofDecimal negative (digitsValue d.digits) (d.point - d.digits.length)), r) := by
  obtain ⟨hdigits, c, cs, hfirst, -⟩ := hd
  have htext : d.positional ++ r =
      ['0'] ++ '.' :: (List.replicate (-d.point).toNat '0' ++ d.digits ++ r) := by
    simp [Decimal.positional, hpoint]
  have hfraction : ∀ e ∈ List.replicate (-d.point).toNat '0' ++ d.digits, e.isDigit := by
    intro e he
    rcases List.mem_append.mp he with he | he
    · rw [(List.mem_replicate.mp he).2]
      rfl
    · exact hdigits e he
  have hread := readUnsigned_real negative .zero (endsDigits_cons rfl _)
    (readFraction_append _ (by simp [hfirst]) hfraction hr.digits) (readExponent_none hr)
    (.inl (by simp [hfirst]))
  have hvalue : digitsValue (['0'] ++ (List.replicate (-d.point).toNat '0' ++ d.digits)) =
      digitsValue d.digits := by
    rw [← List.append_assoc, ← List.replicate_one, List.replicate_append_replicate,
      digitsValue_zeros_append]
  rw [htext, hread, hvalue, List.length_append, List.length_replicate]
  congr 4
  simp only [Option.getD_none]
  omega

/-- The point stands among the digits or behind them. -/
theorem readUnsigned_large (hd : IsProper d) (hpoint : 0 < d.point) (hr : EndsNumber r) :
    readUnsigned negative (d.positional ++ r) =
      some (real (ofDecimal negative (digitsValue d.digits) (d.point - d.digits.length)), r) := by
  obtain ⟨hdigits, c, cs, hfirst, hne⟩ := hd
  obtain ⟨place, hplace⟩ : ∃ place : Nat, d.point = place + 1 := ⟨(d.point - 1).toNat, by omega⟩
  have hfirstDigit := hdigits c (hfirst ▸ List.mem_cons_self)
  have htoNat : d.point.toNat = place + 1 := by omega
  have hwhole (k : Nat) : IsWhole (d.digits.take (place + 1) ++ List.replicate k '0') := by
    rw [hfirst, List.take_succ_cons, List.cons_append]
    refine .other (fun e he => ?_) hne
    rcases List.mem_cons.mp he with rfl | he
    · exact hfirstDigit
    · rcases List.mem_append.mp he with he | he
      · exact hdigits e (hfirst ▸ List.mem_cons_of_mem c (List.mem_of_mem_take he))
      · rw [(List.mem_replicate.mp he).2]
        rfl
  by_cases hlong : place + 1 < d.digits.length
  · have hdrop : d.digits.drop (place + 1) ≠ [] := by
      rw [Ne, List.drop_eq_nil_iff]
      omega
    have htext : d.positional ++ r = (d.digits.take (place + 1) ++ List.replicate 0 '0') ++
        '.' :: (d.digits.drop (place + 1) ++ r) := by
      simp [Decimal.positional, not_le.mpr hpoint, htoNat, hlong.le, not_le.mpr hlong]
    have hread := readUnsigned_real negative (hwhole 0) (endsDigits_cons rfl _)
      (readFraction_append _ hdrop (fun e he => hdigits e (List.mem_of_mem_drop he)) hr.digits)
      (readExponent_none hr) (.inl hdrop)
    rw [htext, hread, List.replicate_zero, List.append_nil, List.take_append_drop, List.length_drop]
    congr 4
    simp only [Option.getD_none]
    omega
  · have htake : d.digits.take (place + 1) = d.digits := List.take_of_length_le (not_lt.mp hlong)
    have htext : d.positional ++ r =
        (d.digits.take (place + 1) ++ List.replicate (place + 1 - d.digits.length) '0') ++
          '.' :: (['0'] ++ r) := by
      simp [Decimal.positional, not_le.mpr hpoint, htoNat, not_lt.mp hlong]
    have hread := readUnsigned_real negative (hwhole (place + 1 - d.digits.length))
      (endsDigits_cons rfl _) (readFraction_zero hr) (readExponent_none hr) (.inl (by decide))
    have hpos : 0 < digitsValue d.digits := hfirst ▸ digitsValue_pos hfirstDigit hne
    have hzeros : List.replicate (place + 1 - d.digits.length) '0' ++ ['0'] =
        List.replicate (place + 1 - d.digits.length + 1) '0' := List.replicate_succ'.symm
    rw [htext, hread, htake, List.append_assoc, hzeros, digitsValue_append_zeros,
      ← Binary64.ofDecimal_shift hpos negative (place + 1 - d.digits.length + 1)]
    congr 4
    simp only [Option.getD_none, List.length_singleton]
    omega

theorem readUnsigned_scientific (hd : IsProper d) (hr : EndsNumber r) :
    readUnsigned negative (d.scientific ++ r) =
      some (real (ofDecimal negative (digitsValue d.digits) (d.point - d.digits.length)), r) := by
  obtain ⟨hdigits, c, cs, hfirst, hne⟩ := hd
  have hwhole : IsWhole [c] :=
    .other (by simpa using hdigits c (hfirst ▸ List.mem_cons_self)) hne
  have hexponent := readExponent_exponentText (d.point - 1) hr.digits
  have hends : EndsDigits (Decimal.exponentText (d.point - 1) ++ r) := endsDigits_cons rfl _
  cases cs with
  | nil =>
    have htext : d.scientific ++ r = [c] ++ (Decimal.exponentText (d.point - 1) ++ r) := by
      simp [Decimal.scientific, hfirst]
    have hnone : readFraction (Decimal.exponentText (d.point - 1) ++ r) =
        ([], Decimal.exponentText (d.point - 1) ++ r) :=
      readFraction.eq_2 _ fun _ he => absurd (List.cons.inj he).1 (by decide)
    have hread := readUnsigned_real negative hwhole hends hnone hexponent
      (.inr (by simp))
    rw [htext, hread, hfirst, List.append_nil]
    congr 4
    simp
  | cons f fs =>
    have htext : d.scientific ++ r =
        [c] ++ '.' :: (f :: fs ++ (Decimal.exponentText (d.point - 1) ++ r)) := by
      simp [Decimal.scientific, hfirst]
    have hread := readUnsigned_real negative hwhole (endsDigits_cons rfl _)
      (readFraction_append _ (by simp) (fun e he => hdigits e (hfirst ▸ List.mem_cons_of_mem c he)) hends)
      hexponent (.inl (by simp))
    rw [htext, hread, hfirst, List.singleton_append]
    congr 4
    simp only [Option.getD_some, List.length_cons]
    omega

/-- A decimal is read as the number nearest to it, however it is laid out. -/
theorem readUnsigned_text (hd : IsProper d) (hr : EndsNumber r) :
    readUnsigned negative (d.text ++ r) =
      some (real (ofDecimal negative (digitsValue d.digits) (d.point - d.digits.length)), r) := by
  unfold Decimal.text
  split
  · rcases lt_or_ge 0 d.point with hpoint | hpoint
    · exact readUnsigned_large hd hpoint hr
    · exact readUnsigned_small hd hpoint hr
  · exact readUnsigned_scientific hd hr

/-- What is read as a number without a sign begins with a digit. -/
theorem exists_digit_of_readUnsigned {s : List Char} {found : Json × List Char}
    (h : readUnsigned negative s = some found) : ∃ c t, s = c :: t ∧ c.isDigit := by
  rcases s with _ | ⟨c, t⟩
  · cases h
  · refine ⟨c, t, rfl, ?_⟩
    by_contra hc
    have hzero (u : List Char) : c :: t ≠ '0' :: u := fun he => hc ((List.cons.inj he).1 ▸ rfl)
    rw [readUnsigned, readWhole.eq_2 _ hzero, readDigits, List.takeWhile_cons_of_neg hc] at h
    cases h

/-- The text of a number without its sign. -/
def finiteText (mantissa : Nat) (exponent : Int) : List Char :=
  if mantissa == 0 then ['0', '.', '0'] else (Binary64.shortest mantissa exponent).text

theorem readUnsigned_finiteText (hdouble : IsDouble mantissa exponent) (negative : Bool)
    (hr : EndsNumber r) :
    readUnsigned negative (finiteText mantissa exponent ++ r) =
      some (real (.finite negative mantissa exponent), r) := by
  rcases Nat.eq_zero_or_pos mantissa with rfl | hm
  · have hleast : exponent = Binary64.leastExponent := hdouble.full.resolve_left (by decide)
    have hread := readUnsigned_real negative .zero (endsDigits_cons rfl _)
      (readFraction_zero hr) (readExponent_none hr) (.inl (by decide))
    rw [hleast]
    exact hread
  · obtain ⟨units, unit, hunits, hshortest, hvalue⟩ := Binary64.exists_shortest hdouble hm
    rw [finiteText, if_neg (by simpa using Nat.ne_of_gt hm), hshortest,
      readUnsigned_text (isProper_ofUnits hunits unit) hr, ofDecimal_ofUnits hunits,
      Binary64.ofDecimal_sign, hvalue]
    rfl

theorem toList_text_finite (negative : Bool) (mantissa : Nat) (exponent : Int)
    (infinity notNumber : String) :
    ((Binary64.finite negative mantissa exponent).text infinity notNumber).toList =
      if negative then '-' :: finiteText mantissa exponent else finiteText mantissa exponent :=
  String.toList_ofList

/-- A finite number of double precision is read back from its text. -/
theorem readNumber_finite (hdouble : IsDouble mantissa exponent) (negative : Bool)
    (infinity notNumber : String) (hr : EndsNumber r) :
    readNumber (((Binary64.finite negative mantissa exponent).text infinity notNumber).toList ++ r) =
      some (real (.finite negative mantissa exponent), r) := by
  have hread := readUnsigned_finiteText hdouble negative hr
  obtain ⟨c, t, ht, hc⟩ := exists_digit_of_readUnsigned hread
  rw [toList_text_finite]
  cases negative with
  | true =>
    rw [if_pos rfl, List.cons_append, ht]
    exact (readNumber_negative hc).trans (ht ▸ hread)
  | false =>
    rw [if_neg (by decide), ht]
    exact (readNumber_unsigned hc).trans (ht ▸ hread)

theorem exists_finite_cons (hdouble : IsDouble mantissa exponent) (negative : Bool)
    (infinity notNumber : String) :
    ∃ c t, ((Binary64.finite negative mantissa exponent).text infinity notNumber).toList = c :: t ∧
      (c.isDigit ∨ c = '-') := by
  rw [toList_text_finite]
  cases negative with
  | true => exact ⟨'-', finiteText mantissa exponent, rfl, .inr rfl⟩
  | false =>
    have hread := readUnsigned_finiteText hdouble false .nil
    obtain ⟨c, t, ht, hc⟩ := exists_digit_of_readUnsigned hread
    rw [List.append_nil] at ht
    exact ⟨c, t, ht, .inl hc⟩

end SchemaScript.Json
