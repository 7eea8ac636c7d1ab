import SchemaScript.Text.Integer

/-!
# Floating-point numbers

The numbers of binary64, and their shortest decimal texts.
-/

/-!
## Numbers of double precision

Such a number is a whole number of at most 53 bits times a power of two with a sign, or it is infinite
or no number at all. Reading a decimal gives the number that is nearest to it, and of two that are
equally near the one with the even mantissa.
-/

namespace SchemaScript

inductive Binary64
  /-- The mantissa times two to the power of the exponent. -/
  | finite (negative : Bool) (mantissa : Nat) (exponent : Int)
  | infinite (negative : Bool)
  | nan
  deriving DecidableEq, Repr, Inhabited

namespace Binary64

def leastExponent : Int :=
  -1074

def greatestExponent : Int :=
  971

def zero (negative : Bool) : Binary64 :=
  finite negative 0 leastExponent

/-- Ten to the power of `n`. -/
def tenTo : Nat → Nat
  | 0 => 1
  | n + 1 => 10 * tenTo n

/-- The whole number nearest to `n / d`; a half goes to the even neighbour. -/
def roundedQuotient (n d : Nat) : Nat :=
  let twice := 2 * (n % d)
  if twice < d || (twice == d && n / d % 2 == 0) then n / d else n / d + 1

/-- The fraction `n / d` divided by two to the power of `exponent`. -/
def scaled (n d : Nat) (exponent : Int) : Nat × Nat :=
  if exponent < 0 then (n <<< (-exponent).toNat, d) else (n, d <<< exponent.toNat)

/-- The exponent with which the mantissa of `n / d` has 53 bits, unless that is too small a one. -/
def exponentOf (n d : Nat) : Int :=
  let guess := Int.ofNat n.log2 - Int.ofNat d.log2 - 52
  let (a, b) := scaled n d guess
  max (if a / b < 1 <<< 52 then guess - 1 else guess) leastExponent

/-- The number nearest to `n / d`. -/
def ofFraction (negative : Bool) (n d : Nat) : Binary64 :=
  if n == 0 then zero negative
  else
    let exponent := exponentOf n d
    let (a, b) := scaled n d exponent
    let mantissa := roundedQuotient a b
    let (mantissa, exponent) :=
      if mantissa == 1 <<< 53 then (1 <<< 52, exponent + 1) else (mantissa, exponent)
    if greatestExponent < exponent then infinite negative
    else finite negative mantissa exponent

/-- The number nearest to `digits` times ten to the power of `exponent`. Beyond these bounds it is
known without any reckoning. -/
def ofDecimal (negative : Bool) (digits : Nat) (exponent : Int) : Binary64 :=
  let point := Int.ofNat (Text.digits digits).length + exponent
  if digits == 0 || point < -400 then zero negative
  else if 400 < point then infinite negative
  else if exponent < 0 then ofFraction negative digits (tenTo (-exponent).toNat)
  else ofFraction negative (digits * tenTo exponent.toNat) 1

def isZero : Binary64 → Bool
  | finite _ mantissa _ => mantissa == 0
  | _ => false

/-- A numerator and a denominator. What is infinite is a fraction over zero. -/
def fraction? : Binary64 → Option (Int × Nat)
  | finite negative mantissa exponent =>
    let (n, d) := scaled mantissa 1 (-exponent)
    some (if negative then -Int.ofNat n else Int.ofNat n, d)
  | infinite negative => some (if negative then -1 else 1, 0)
  | nan => none

end Binary64
/-!
## Numbers written with the fewest digits

A finite number is written with as few digits as read back as the same number, and of those digits
with the ones that are nearest to it. The point stands among the digits where that takes no more than
sixteen digits before it and no more than four zeros after it, and an exponent follows otherwise.
-/

/-- The digits after `0.`, times ten to the power of `point`. -/
structure Decimal where
  digits : List Char
  point : Int
  deriving DecidableEq, Repr

namespace Decimal

/-- A whole number of units of ten to the power of `exponent`, without zeros at its end. -/
def ofUnits (units : Nat) (exponent : Int) : Decimal :=
  let digits := Text.digits units
  { digits := (digits.reverse.dropWhile (· == '0')).reverse
    point := Int.ofNat digits.length + exponent }

/-- The digits with the point among them; one digit at least stands on each side of it. -/
def positional (d : Decimal) : List Char :=
  if d.point ≤ 0 then ['0', '.'] ++ List.replicate (-d.point).toNat '0' ++ d.digits
  else
    let place := d.point.toNat
    let fraction := d.digits.drop place
    d.digits.take place ++ List.replicate (place - d.digits.length) '0' ++ ['.'] ++
      (if fraction.isEmpty then ['0'] else fraction)

/-- An exponent has a sign and two digits at least. -/
def exponentText (n : Int) : List Char :=
  let digits := Text.digits n.natAbs
  ['e', if n < 0 then '-' else '+'] ++ (if digits.length < 2 then ['0'] else []) ++ digits

/-- One digit before the point, if there is a need for a point, and the exponent behind. -/
def scientific (d : Decimal) : List Char :=
  d.digits.take 1 ++ (if d.digits.length ≤ 1 then [] else '.' :: d.digits.drop 1) ++
    exponentText (d.point - 1)

def text (d : Decimal) : List Char :=
  if -4 < d.point && d.point ≤ 16 then d.positional else d.scientific

end Decimal

namespace Binary64

/-- The least `k` for which the fraction `n / d` is below ten to the power of `k`. -/
def pointOf (n d : Nat) : Int :=
  if d ≤ n then Int.ofNat (Text.digits (n / d)).length
  else 1 - Int.ofNat (Text.digits ((d - 1) / n)).length

/-- The whole number of units nearest to `n / d` that reads back as `x`, where a unit is ten to the
power of `exponent`. -/
def unitsOn? (x : Binary64) (n d : Nat) (exponent : Int) : Option Nat :=
  let (a, b) := if exponent < 0 then (n * tenTo (-exponent).toNat, d) else (n, d * tenTo exponent.toNat)
  let below := a / b
  let isRead (units : Nat) : Bool := ofDecimal false units exponent == x
  match isRead below, isRead (below + 1) with
  | true, true => some (roundedQuotient a b)
  | true, false => some below
  | false, true => some (below + 1)
  | false, false => none

/-- The fewest digits that read back as the mantissa times two to the power of the exponent. -/
def shortest (mantissa : Nat) (exponent : Int) : Decimal :=
  let (n, d) := scaled mantissa 1 (-exponent)
  let point := pointOf n d
  let found := (List.range 17).findSome? fun i =>
    let unit := point - 1 - Int.ofNat i
    (unitsOn? (finite false mantissa exponent) n d unit).map fun units => Decimal.ofUnits units unit
  match found with
  | some decimal => decimal
  | none => Decimal.ofUnits (n * tenTo d.log2 / d) (-Int.ofNat d.log2)

/-- The number as a text; the two texts are for what is infinite and for what is no number. -/
def text (infinity notNumber : String) : Binary64 → String
  | finite negative mantissa exponent =>
    let digits :=
      if mantissa == 0 then ['0', '.', '0'] else (shortest mantissa exponent).text
    String.ofList (if negative then '-' :: digits else digits)
  | infinite negative => if negative then "-" ++ infinity else infinity
  | nan => notNumber

end Binary64
end SchemaScript
