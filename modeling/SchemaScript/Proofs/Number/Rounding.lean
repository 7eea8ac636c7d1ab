import SchemaScript.Number.Binary64
import Mathlib.Algebra.Order.Field.Power
import Mathlib.Data.Int.Log
import Mathlib.Data.Rat.Floor
import Mathlib.Tactic.FieldSimp
import Mathlib.Tactic.Positivity
import Mathlib.Tactic.Ring

/-!
# Rounding depends on the fraction alone

The number nearest to a fraction is the same whichever numerator and denominator write it
(`ofFraction_congr`), so zeros at the end of a decimal may be moved into its exponent (`ofDecimal_shift`).
A fraction that is a number of double precision itself is met exactly (`ofFraction_exact`), and every
other one gives such a number (`isDouble_ofFraction`). So the digits that are written for a number are read as this
number (`exists_shortest`).
-/

namespace SchemaScript.Binary64

variable {n d n' d' a b a' b' : Nat} {exponent : Int}

/-! ## The nearest whole number -/

theorem roundedQuotient_cases (a b : Nat) :
    roundedQuotient a b = a / b ∨ roundedQuotient a b = a / b + 1 := by
  unfold roundedQuotient
  simp only
  split
  · exact .inl rfl
  · exact .inr rfl

theorem roundedQuotient_mul {c : Nat} (hc : 0 < c) (a b : Nat) :
    roundedQuotient (c * a) (c * b) = roundedQuotient a b := by
  have hlt : (2 * (c * (a % b)) < c * b) ↔ 2 * (a % b) < b := by
    rw [Nat.mul_left_comm]
    exact Nat.mul_lt_mul_left hc
  have heq : 2 * (c * (a % b)) = c * b ↔ 2 * (a % b) = b := by
    rw [Nat.mul_left_comm]
    exact Nat.mul_right_inj (Nat.ne_of_gt hc)
  simp only [roundedQuotient, Nat.mul_div_mul_left a b hc, Nat.mul_mod_mul_left, hlt,
    Bool.beq_eq_decide_eq, heq]

theorem roundedQuotient_congr (hb : 0 < b) (hb' : 0 < b') (h : a * b' = a' * b) :
    roundedQuotient a b = roundedQuotient a' b' := by
  calc roundedQuotient a b = roundedQuotient (b' * a) (b' * b) := (roundedQuotient_mul hb' a b).symm
    _ = roundedQuotient (b * a') (b * b') := by
        rw [Nat.mul_comm b' a, h, Nat.mul_comm a' b, Nat.mul_comm b' b]
    _ = roundedQuotient a' b' := roundedQuotient_mul hb a' b'

/-! ## The exponent -/

theorem scaled_pos (hd : 0 < d) (n : Nat) (exponent : Int) : 0 < (scaled n d exponent).2 := by
  unfold scaled
  split
  · exact hd
  · simpa [Nat.shiftLeft_eq] using hd

/-- Scaling divides by a power of two. -/
theorem scaled_div (n d : Nat) (exponent : Int) :
    ((scaled n d exponent).1 : ℚ) / (scaled n d exponent).2 = n / d / 2 ^ exponent := by
  unfold scaled
  split
  · next h =>
    obtain ⟨k, rfl⟩ : ∃ k : ℕ, exponent = -k := ⟨(-exponent).toNat, by omega⟩
    simp only [Nat.shiftLeft_eq, neg_neg, Int.toNat_natCast, zpow_neg, zpow_natCast, div_inv_eq_mul]
    push_cast
    ring
  · next h =>
    obtain ⟨k, rfl⟩ : ∃ k : ℕ, exponent = k := ⟨exponent.toNat, by omega⟩
    simp only [Nat.shiftLeft_eq, Int.toNat_natCast, zpow_natCast, div_div]
    push_cast
    rfl

theorem div_lt_iff_scaled (hd : 0 < d) (n k : Nat) (exponent : Int) :
    (scaled n d exponent).1 / (scaled n d exponent).2 < 2 ^ k ↔ (n / d : ℚ) < 2 ^ (exponent + k) := by
  have hpos := scaled_pos hd n exponent
  have hpos' : (0 : ℚ) < (scaled n d exponent).2 := by exact_mod_cast hpos
  have htwo : (0 : ℚ) < (2 : ℚ) ^ exponent := by positivity
  rw [zpow_add₀ two_ne_zero, zpow_natCast, mul_comm, ← div_lt_iff₀ htwo, ← scaled_div,
    div_lt_iff₀ hpos', Nat.div_lt_iff_lt_mul hpos]
  exact_mod_cast Iff.rfl

/-- The place of the leading bit lies between those that the two sides of a fraction give. -/
theorem log_div_bounds (hn : 0 < n) (hd : 0 < d) :
    (n.log2 : Int) - d.log2 - 1 ≤ Int.log 2 (n / d : ℚ) ∧
      Int.log 2 (n / d : ℚ) ≤ (n.log2 : Int) - d.log2 := by
  have hn' : (0 : ℚ) < n := by exact_mod_cast hn
  have hd' : (0 : ℚ) < d := by exact_mod_cast hd
  have hq : (0 : ℚ) < n / d := div_pos hn' hd'
  have hnlow : (2 : ℚ) ^ n.log2 ≤ n := by exact_mod_cast Nat.log2_self_le (Nat.ne_of_gt hn)
  have hnhigh : (n : ℚ) < 2 ^ (n.log2 + 1) := by exact_mod_cast Nat.lt_log2_self
  have hdlow : (2 : ℚ) ^ d.log2 ≤ d := by exact_mod_cast Nat.log2_self_le (Nat.ne_of_gt hd)
  have hdhigh : (d : ℚ) < 2 ^ (d.log2 + 1) := by exact_mod_cast Nat.lt_log2_self
  constructor
  · rw [← Int.zpow_le_iff_le_log one_lt_two hq, le_div_iff₀ hd', Nat.cast_ofNat]
    calc (2 : ℚ) ^ ((n.log2 : Int) - d.log2 - 1) * d
        ≤ 2 ^ ((n.log2 : Int) - d.log2 - 1) * 2 ^ (d.log2 + 1) :=
          mul_le_mul_of_nonneg_left hdhigh.le (by positivity)
      _ = 2 ^ n.log2 := by
          rw [← zpow_natCast, ← zpow_natCast, ← zpow_add₀ two_ne_zero]
          congr 1
          push_cast
          ring
      _ ≤ n := hnlow
  · rw [← Int.lt_add_one_iff, ← Int.lt_zpow_iff_log_lt one_lt_two hq, div_lt_iff₀ hd', Nat.cast_ofNat]
    calc (n : ℚ) < 2 ^ (n.log2 + 1) := hnhigh
      _ = 2 ^ ((n.log2 : Int) - d.log2 + 1) * 2 ^ d.log2 := by
          rw [← zpow_natCast, ← zpow_natCast, ← zpow_add₀ two_ne_zero]
          congr 1
          push_cast
          ring
      _ ≤ 2 ^ ((n.log2 : Int) - d.log2 + 1) * d := mul_le_mul_of_nonneg_left hdlow (by positivity)

/-- The exponent is the place of the leading bit less 52, unless that is too small a one. -/
theorem exponentOf_eq (hn : 0 < n) (hd : 0 < d) :
    exponentOf n d = max (Int.log 2 (n / d : ℚ) - 52) leastExponent := by
  have hq : (0 : ℚ) < n / d := div_pos (by exact_mod_cast hn) (by exact_mod_cast hd)
  obtain ⟨hlow, hhigh⟩ := log_div_bounds hn hd
  have htest := div_lt_iff_scaled hd n 52 (Int.ofNat n.log2 - Int.ofNat d.log2 - 52)
  rw [show ((2 : ℚ) = (2 : ℕ)) from rfl, Int.lt_zpow_iff_log_lt one_lt_two hq] at htest
  have hguess : (if (scaled n d (Int.ofNat n.log2 - Int.ofNat d.log2 - 52)).1 /
      (scaled n d (Int.ofNat n.log2 - Int.ofNat d.log2 - 52)).2 < 1 <<< 52 then
        Int.ofNat n.log2 - Int.ofNat d.log2 - 52 - 1 else Int.ofNat n.log2 - Int.ofNat d.log2 - 52) =
      Int.log 2 (n / d : ℚ) - 52 := by
    rw [Nat.one_shiftLeft]
    simp only [Int.ofNat_eq_natCast] at htest ⊢
    split
    · next h =>
      have := htest.mp h
      omega
    · next h =>
      have := mt htest.mpr h
      omega
  rw [← hguess]
  rfl

/-! ## The nearest number -/

theorem scaled_cross (h : n * d' = n' * d) (exponent : Int) :
    (scaled n d exponent).1 * (scaled n' d' exponent).2 =
      (scaled n' d' exponent).1 * (scaled n d exponent).2 := by
  unfold scaled
  split
  · simp only [Nat.shiftLeft_eq]
    rw [Nat.mul_right_comm, h, Nat.mul_right_comm]
  · simp only [Nat.shiftLeft_eq]
    rw [← Nat.mul_assoc, h, Nat.mul_assoc]

theorem ofFraction_congr (hn : 0 < n) (hd : 0 < d) (hd' : 0 < d') (h : (n / d : ℚ) = n' / d')
    (negative : Bool) : ofFraction negative n d = ofFraction negative n' d' := by
  have hcross : n * d' = n' * d := by
    rw [div_eq_div_iff (by positivity) (by positivity)] at h
    exact_mod_cast h
  have hn' : 0 < n' := Nat.pos_of_mul_pos_right (hcross ▸ Nat.mul_pos hn hd')
  have hexp : exponentOf n d = exponentOf n' d' := by
    rw [exponentOf_eq hn hd, exponentOf_eq hn' hd', h]
  have hround : roundedQuotient (scaled n d (exponentOf n' d')).1 (scaled n d (exponentOf n' d')).2 =
      roundedQuotient (scaled n' d' (exponentOf n' d')).1 (scaled n' d' (exponentOf n' d')).2 :=
    roundedQuotient_congr (scaled_pos hd n _) (scaled_pos hd' n' _) (scaled_cross hcross _)
  simp only [ofFraction, beq_eq_false_iff_ne.mpr (Nat.ne_of_gt hn),
    beq_eq_false_iff_ne.mpr (Nat.ne_of_gt hn'), Bool.false_eq_true, if_false, hexp, hround]

/-- A mantissa of 53 bits and an exponent in range; the mantissa is shorter with the least exponent only. -/
structure IsDouble (mantissa : Nat) (exponent : Int) : Prop where
  short : mantissa < 2 ^ 53
  least : leastExponent ≤ exponent
  greatest : exponent ≤ greatestExponent
  full : 2 ^ 52 ≤ mantissa ∨ exponent = leastExponent

instance (mantissa : Nat) (exponent : Int) : Decidable (IsDouble mantissa exponent) :=
  decidable_of_iff (mantissa < 2 ^ 53 ∧ leastExponent ≤ exponent ∧ exponent ≤ greatestExponent ∧
      (2 ^ 52 ≤ mantissa ∨ exponent = leastExponent))
    ⟨fun h => ⟨h.1, h.2.1, h.2.2.1, h.2.2.2⟩, fun h => ⟨h.short, h.least, h.greatest, h.full⟩⟩

/-- A number of double precision, infinite or no number at all. -/
def isDouble : Binary64 → Bool
  | finite _ mantissa exponent => decide (IsDouble mantissa exponent)
  | infinite _ | nan => true

theorem roundedQuotient_mul_self (hb : 0 < b) (a : Nat) : roundedQuotient (a * b) b = a := by
  simp [roundedQuotient, Nat.mul_div_cancel a hb, hb]

/-- A number of double precision is its own nearest one. -/
theorem ofFraction_exact {mantissa : Nat} (hdouble : IsDouble mantissa exponent) (hm : 0 < mantissa)
    (hd : 0 < d) (h : (n / d : ℚ) = mantissa * 2 ^ exponent) (negative : Bool) :
    ofFraction negative n d = finite negative mantissa exponent := by
  have hm' : (0 : ℚ) < mantissa := by exact_mod_cast hm
  have hd' : (0 : ℚ) < d := by exact_mod_cast hd
  have hn : 0 < n := by
    have hq : (0 : ℚ) < n / d := by rw [h]; positivity
    exact_mod_cast (div_pos_iff_of_pos_right hd').mp hq
  have hshortQ : (mantissa : ℚ) * 2 ^ exponent < 2 ^ (exponent + 53) := by
    rw [zpow_add₀ two_ne_zero, mul_comm]
    exact mul_lt_mul_of_pos_left (by exact_mod_cast hdouble.short) (by positivity)
  have hhigh : Int.log 2 ((mantissa : ℚ) * 2 ^ exponent) < exponent + 53 :=
    (Int.lt_zpow_iff_log_lt one_lt_two (by positivity)).mp hshortQ
  have hexp : exponentOf n d = exponent := by
    rw [exponentOf_eq hn hd, h]
    rcases hdouble.full with hfull | hleast
    · have hfullQ : (2 : ℚ) ^ (exponent + 52) ≤ mantissa * 2 ^ exponent := by
        rw [zpow_add₀ two_ne_zero, mul_comm]
        exact mul_le_mul_of_nonneg_right (by exact_mod_cast hfull) (by positivity)
      have hlow : exponent + 52 ≤ Int.log 2 ((mantissa : ℚ) * 2 ^ exponent) :=
        (Int.zpow_le_iff_le_log one_lt_two (by positivity)).mp hfullQ
      have := hdouble.least
      omega
    · omega
  have hround : roundedQuotient (scaled n d exponent).1 (scaled n d exponent).2 = mantissa := by
    have hpos := scaled_pos hd n exponent
    have hquotient := scaled_div n d exponent
    rw [h, mul_div_cancel_right₀ _ (by positivity), div_eq_iff (by positivity)] at hquotient
    rw [show (scaled n d exponent).1 = mantissa * (scaled n d exponent).2 by exact_mod_cast hquotient,
      roundedQuotient_mul_self hpos]
  have hshort : (mantissa == 1 <<< 53) = false := by
    rw [Nat.one_shiftLeft]
    exact beq_eq_false_iff_ne.mpr (Nat.ne_of_lt hdouble.short)
  simp only [ofFraction, beq_eq_false_iff_ne.mpr (Nat.ne_of_gt hn), Bool.false_eq_true, if_false,
    hexp, hround, hshort, if_neg (not_lt.mpr hdouble.greatest)]

theorem isDouble_zero (negative : Bool) : (zero negative).isDouble := by
  cases negative <;> decide

/-- Rounding never leads out of double precision. -/
theorem isDouble_ofFraction (hd : 0 < d) (negative : Bool) (n : Nat) :
    (ofFraction negative n d).isDouble := by
  rcases Nat.eq_zero_or_pos n with rfl | hn
  · exact isDouble_zero negative
  have hexp := exponentOf_eq hn hd
  have hleast : leastExponent ≤ exponentOf n d := hexp ▸ le_max_right _ _
  have hplace (k : Nat) : (scaled n d (exponentOf n d)).1 / (scaled n d (exponentOf n d)).2 < 2 ^ k ↔
      Int.log 2 (n / d : ℚ) < exponentOf n d + k := by
    rw [div_lt_iff_scaled hd, show ((2 : ℚ) = (2 : ℕ)) from rfl,
      Int.lt_zpow_iff_log_lt one_lt_two (by positivity)]
  have hshort := (hplace 53).mpr (by omega)
  have hfull : 2 ^ 52 ≤ (scaled n d (exponentOf n d)).1 / (scaled n d (exponentOf n d)).2 ∨
      exponentOf n d = leastExponent := by
    have := mt (hplace 52).mp
    omega
  have hround := roundedQuotient_cases (scaled n d (exponentOf n d)).1 (scaled n d (exponentOf n d)).2
  simp only [ofFraction, beq_eq_false_iff_ne.mpr (Nat.ne_of_gt hn), Bool.false_eq_true, if_false,
    Nat.one_shiftLeft]
  revert hround hshort hfull
  generalize roundedQuotient (scaled n d (exponentOf n d)).1 (scaled n d (exponentOf n d)).2 = mantissa
  intro hshort hfull hround
  by_cases hcarry : mantissa = 2 ^ 53
  · simp only [hcarry, beq_self_eq_true, if_true]
    split
    · rfl
    · exact decide_eq_true ⟨by decide, by omega, by omega, .inl le_rfl⟩
  · simp only [beq_eq_false_iff_ne.mpr hcarry, Bool.false_eq_true, if_false]
    split
    · rfl
    · exact decide_eq_true ⟨by omega, hleast, by omega, by omega⟩

/-! ## Decimals -/

theorem tenTo_eq (n : Nat) : tenTo n = 10 ^ n := by
  induction n with
  | zero => rfl
  | succ n ih => rw [tenTo, ih, Nat.pow_succ, Nat.mul_comm]

theorem tenTo_pos (n : Nat) : 0 < tenTo n := by
  rw [tenTo_eq]
  positivity

theorem isDouble_ofDecimal (negative : Bool) (digits : Nat) (exponent : Int) :
    (ofDecimal negative digits exponent).isDouble := by
  unfold ofDecimal
  dsimp only
  split
  · exact isDouble_zero negative
  split
  · rfl
  split
  · exact isDouble_ofFraction (tenTo_pos _) negative digits
  · exact isDouble_ofFraction Nat.one_pos negative _

theorem digits_ten_mul (hn : 0 < n) : Text.digits (10 * n) = Text.digits n ++ ['0'] := by
  rw [Text.digits, Nat.toDigits_of_base_le (by decide) (by omega),
    Nat.mul_div_cancel_left n (by decide), Nat.mul_mod_right]
  rfl

theorem digits_mul_ten_pow (hn : 0 < n) (k : Nat) :
    Text.digits (n * 10 ^ k) = Text.digits n ++ List.replicate k '0' := by
  induction k with
  | zero => simp
  | succ k ih =>
    have hpos : 0 < n * 10 ^ k := by positivity
    rw [Nat.pow_succ, ← Nat.mul_assoc, Nat.mul_comm _ 10, digits_ten_mul hpos, ih, List.append_assoc,
      List.replicate_succ']

/-- A decimal between the bounds is rounded as the fraction that it is. -/
theorem exists_ofDecimal (exponent : Int) (hn : 0 < n)
    (hlow : -400 ≤ ((Text.digits n).length : Int) + exponent)
    (hhigh : ((Text.digits n).length : Int) + exponent ≤ 400) :
    ∃ a b : Nat, 0 < b ∧ (a / b : ℚ) = n * 10 ^ exponent ∧
      ∀ negative, ofDecimal negative n exponent = ofFraction negative a b := by
  have hzero : (n == 0 || decide ((Text.digits n).length + exponent < -400)) = false := by
    simp only [Bool.or_eq_false_iff, beq_eq_false_iff_ne, decide_eq_false_iff_not]
    omega
  have hinside (negative : Bool) : ofDecimal negative n exponent =
      if exponent < 0 then ofFraction negative n (tenTo (-exponent).toNat)
      else ofFraction negative (n * tenTo exponent.toNat) 1 := by
    simp only [ofDecimal, Int.ofNat_eq_natCast, hzero, Bool.false_eq_true, if_false,
      if_neg (not_lt.mpr hhigh)]
  by_cases hneg : exponent < 0
  · refine ⟨n, tenTo (-exponent).toNat, tenTo_pos _, ?_, fun negative => by rw [hinside, if_pos hneg]⟩
    obtain ⟨k, rfl⟩ : ∃ k : ℕ, exponent = -k := ⟨(-exponent).toNat, by omega⟩
    rw [tenTo_eq, neg_neg, Int.toNat_natCast, zpow_neg, zpow_natCast, div_eq_mul_inv]
    push_cast
    rfl
  · refine ⟨n * tenTo exponent.toNat, 1, Nat.one_pos, ?_, fun negative => by rw [hinside, if_neg hneg]⟩
    obtain ⟨k, rfl⟩ : ∃ k : ℕ, exponent = k := ⟨exponent.toNat, by omega⟩
    rw [tenTo_eq, Int.toNat_natCast, zpow_natCast]
    push_cast
    rw [div_one]

/-- Zeros at the end of the digits may as well stand in the exponent. -/
theorem ofDecimal_shift (hn : 0 < n) (negative : Bool) (k : Nat) (exponent : Int) :
    ofDecimal negative (n * 10 ^ k) (exponent - k) = ofDecimal negative n exponent := by
  have hshifted : 0 < n * 10 ^ k := by positivity
  have hlength : ((Text.digits (n * 10 ^ k)).length : Int) + (exponent - k) =
      (Text.digits n).length + exponent := by
    rw [digits_mul_ten_pow hn, List.length_append, List.length_replicate]
    push_cast
    ring
  rcases lt_or_ge ((Text.digits n).length + exponent) (-400) with hlow | hlow
  · simp only [ofDecimal, Int.ofNat_eq_natCast, hlength, hlow, decide_true, Bool.or_true, if_true]
  rcases lt_or_ge 400 ((Text.digits n).length + exponent) with hhigh | hhigh
  · simp only [ofDecimal, Int.ofNat_eq_natCast, hlength, not_lt.mpr hlow, decide_false, Bool.or_false,
      beq_eq_false_iff_ne.mpr (Nat.ne_of_gt hn), beq_eq_false_iff_ne.mpr (Nat.ne_of_gt hshifted),
      Bool.false_eq_true, if_false, hhigh, if_true]
  obtain ⟨a, b, hb, hq, hround⟩ := exists_ofDecimal exponent hn hlow hhigh
  obtain ⟨a', b', hb', hq', hround'⟩ := exists_ofDecimal (exponent - k) hshifted (by omega) (by omega)
  have ha' : 0 < a' := by
    have hpos : (0 : ℚ) < a' / b' := by rw [hq']; positivity
    exact_mod_cast (div_pos_iff_of_pos_right (by exact_mod_cast hb')).mp hpos
  rw [hround, hround']
  refine ofFraction_congr ha' hb' hb ?_ negative
  rw [hq, hq', zpow_sub₀ (by norm_num), zpow_natCast]
  push_cast
  field_simp

end SchemaScript.Binary64

/-!
## The fewest digits read back

The digits that are written for a number of double precision are read as this number
(`exists_shortest`): digits are only taken after a try, and the digits that are taken where no try
succeeds write the number exactly.
-/

namespace SchemaScript.Binary64

variable {n d units mantissa : Nat} {unit exponent : Int} {x : Binary64}

/-! ## Signs -/

def withSign (negative : Bool) : Binary64 → Binary64
  | finite _ mantissa exponent => finite negative mantissa exponent
  | infinite _ => infinite negative
  | nan => nan

theorem ofFraction_sign (negative : Bool) (n d : Nat) :
    ofFraction negative n d = (ofFraction false n d).withSign negative := by
  simp only [ofFraction, apply_ite (withSign negative)]
  rfl

/-- The sign has no part in rounding. -/
theorem ofDecimal_sign (negative : Bool) (units : Nat) (unit : Int) :
    ofDecimal negative units unit = (ofDecimal false units unit).withSign negative := by
  simp only [ofDecimal, apply_ite (withSign negative), ← ofFraction_sign]
  rfl

/-! ## Tried digits -/

theorem ofDecimal_of_unitsOn? (h : unitsOn? x n d unit = some units) :
    ofDecimal false units unit = x := by
  unfold unitsOn? at h
  simp only at h
  split at h
  · next hbelow habove =>
    rw [← Option.some.inj h]
    rcases roundedQuotient_cases _ _ with heq | heq <;> rw [heq]
    · exact beq_iff_eq.mp hbelow
    · exact beq_iff_eq.mp habove
  · next hbelow _ =>
    rw [← Option.some.inj h]
    exact beq_iff_eq.mp hbelow
  · next _ habove =>
    rw [← Option.some.inj h]
    exact beq_iff_eq.mp habove
  · cases h

/-! ## Exact digits -/

theorem length_digits_le_iff {k : Nat} (hk : 0 < k) (n : Nat) :
    (Text.digits n).length ≤ k ↔ n < 10 ^ k :=
  Nat.length_toDigits_le_iff (by decide) hk

theorem two_pow_lt_ten_pow {j k : Nat} (h : j < 3 * k) : 2 ^ j < 10 ^ k :=
  calc 2 ^ j < 2 ^ (3 * k) := Nat.pow_lt_pow_right (by decide) h
    _ = 8 ^ k := Nat.pow_mul 2 3 k
    _ ≤ 10 ^ k := Nat.pow_le_pow_left (by decide) k

/-- A number over a power of two is one over the same power of ten. -/
theorem mul_tenTo_div (mantissa k : Nat) : mantissa * tenTo k / 2 ^ k = mantissa * 5 ^ k := by
  rw [tenTo_eq, show 10 = 5 * 2 from rfl, Nat.mul_pow, ← Nat.mul_assoc,
    Nat.mul_div_cancel _ (Nat.two_pow_pos k)]

/-- Fifths have digits enough before the point for the number not to be too small. -/
theorem le_length_digits_fifths {j k : Nat} (hm : 0 < mantissa) (h : k < 3 * j) :
    k ≤ (Text.digits (mantissa * 5 ^ k)).length + j := by
  by_contra hshort
  have hlength : (Text.digits (mantissa * 5 ^ k)).length ≤ k - j := by omega
  have hbound := (length_digits_le_iff (by omega) _).mp hlength
  have hlarge : 10 ^ j * 5 ^ k < 2 ^ k * 5 ^ k :=
    calc 10 ^ j * 5 ^ k ≤ 10 ^ j * (mantissa * 5 ^ k) :=
          Nat.mul_le_mul_left _ (Nat.le_mul_of_pos_left _ hm)
      _ < 10 ^ j * 10 ^ (k - j) := Nat.mul_lt_mul_of_pos_left hbound (by positivity)
      _ = 2 ^ k * 5 ^ k := by
        rw [← Nat.pow_add, ← Nat.mul_pow]
        congr 1
        omega
  exact Nat.lt_asymm (Nat.lt_of_mul_lt_mul_right hlarge) (two_pow_lt_ten_pow h)

theorem length_digits_fifths_le {j : Nat} (hm : mantissa < 10 ^ j) (hj : 0 < j) (k : Nat) :
    (Text.digits (mantissa * 5 ^ k)).length ≤ j + k := by
  refine (length_digits_le_iff (by omega) _).mpr ?_
  rw [Nat.pow_add]
  exact Nat.mul_lt_mul_of_lt_of_le hm (Nat.pow_le_pow_left (by decide) k) (by positivity)

/-- A number of double precision is read from the digits that write it exactly. -/
theorem ofDecimal_exact (hdouble : IsDouble mantissa exponent) (hm : 0 < mantissa) (hunits : 0 < units)
    (hlow : -400 ≤ ((Text.digits units).length : Int) + unit)
    (hhigh : ((Text.digits units).length : Int) + unit ≤ 400)
    (h : (units * 10 ^ unit : ℚ) = mantissa * 2 ^ exponent) (negative : Bool) :
    ofDecimal negative units unit = finite negative mantissa exponent := by
  obtain ⟨a, b, hb, hq, hround⟩ := exists_ofDecimal unit hunits hlow hhigh
  rw [hround, ofFraction_exact hdouble hm hb (hq.trans h)]

theorem ofDecimal_of_fallback (hdouble : IsDouble mantissa exponent) (hm : 0 < mantissa) :
    let (n, d) := scaled mantissa 1 (-exponent)
    0 < n * tenTo d.log2 / d ∧
      ofDecimal false (n * tenTo d.log2 / d) (-Int.ofNat d.log2) = finite false mantissa exponent := by
  by_cases hexp : 0 < exponent
  · obtain ⟨k, rfl⟩ : ∃ k : ℕ, exponent = k := ⟨exponent.toNat, by omega⟩
    have hscaled : scaled mantissa 1 (-(k : Int)) = (mantissa * 2 ^ k, 1) := by
      simp [scaled, Nat.shiftLeft_eq]
      omega
    have hlog : Nat.log2 1 = 0 := by decide
    rw [hscaled]
    simp only [hlog, tenTo, Nat.mul_one, Nat.div_one, Int.ofNat_eq_natCast, Nat.cast_zero, neg_zero]
    have hpos : 0 < mantissa * 2 ^ k := by positivity
    have hk : k ≤ 971 := by
      have hgreatest := hdouble.greatest
      simp only [greatestExponent] at hgreatest
      omega
    have hbound : mantissa * 2 ^ k < 10 ^ 400 :=
      calc mantissa * 2 ^ k < 2 ^ 53 * 2 ^ k := Nat.mul_lt_mul_of_pos_right hdouble.short (by positivity)
        _ = 2 ^ (53 + k) := (Nat.pow_add 2 53 k).symm
        _ < 10 ^ 400 := two_pow_lt_ten_pow (by omega)
    have hlength := (length_digits_le_iff (by decide) _).mpr hbound
    exact ⟨hpos, ofDecimal_exact hdouble hm hpos (by omega) (by omega) (by simp) false⟩
  · obtain ⟨k, rfl⟩ : ∃ k : ℕ, exponent = -k := ⟨(-exponent).toNat, by omega⟩
    have hscaled : scaled mantissa 1 (- -(k : Int)) = (mantissa, 2 ^ k) := by
      simp [scaled, Nat.shiftLeft_eq]
    rw [hscaled]
    simp only [Nat.log2_two_pow, mul_tenTo_div, Int.ofNat_eq_natCast]
    have hpos : 0 < mantissa * 5 ^ k := by positivity
    have hk : k ≤ 1074 := by
      have hleast := hdouble.least
      simp only [leastExponent] at hleast
      omega
    refine ⟨hpos, ofDecimal_exact hdouble hm hpos ?_ ?_ ?_ false⟩
    · have := le_length_digits_fifths hm (j := 400) (k := k) (by omega)
      omega
    · have := length_digits_fifths_le (hdouble.short.trans (two_pow_lt_ten_pow (k := 400) (by decide)))
        (by decide) k
      omega
    · push_cast
      rw [zpow_neg, zpow_neg, zpow_natCast, zpow_natCast, mul_assoc]
      congr 1
      rw [show (10 : ℚ) = 5 * 2 by norm_num, mul_pow]
      field_simp

/-- The digits that are written for a number are the units of some place, and they read back. -/
theorem exists_shortest (hdouble : IsDouble mantissa exponent) (hm : 0 < mantissa) :
    ∃ units unit, 0 < units ∧ shortest mantissa exponent = Decimal.ofUnits units unit ∧
      ofDecimal false units unit = finite false mantissa exponent := by
  have hfallback := ofDecimal_of_fallback hdouble hm
  unfold shortest
  simp only at hfallback ⊢
  split
  · next decimal hfound =>
    obtain ⟨i, -, hi⟩ := List.exists_of_findSome?_eq_some hfound
    obtain ⟨units, hunits, rfl⟩ := Option.map_eq_some_iff.mp hi
    have hread := ofDecimal_of_unitsOn? hunits
    refine ⟨units, _, Nat.pos_of_ne_zero ?_, rfl, hread⟩
    rintro rfl
    have hzero : zero false = finite false mantissa exponent := hread
    rw [zero, finite.injEq] at hzero
    exact Nat.ne_of_lt hm hzero.2.1
  · exact ⟨_, _, hfallback.1, rfl, hfallback.2⟩

end SchemaScript.Binary64
