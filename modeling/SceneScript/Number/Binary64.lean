/-!
# Binary64 numbers, exactly

Authored arguments may be fractional, and what the compiler does with them (splitting a
duration, comparing an operand with a table entry, quoting a bad value back to the author) must
not depend on the machine.  So a number of the binary64 format is held here as what it denotes:
a sign, a natural mantissa and a power of two.  Comparison, truncation and rounding are then
exact integer arithmetic.

`Canonical` picks, for each magnitude, the one mantissa and exponent with which the format
stores it; it is part of the type, so two finite numbers are the same number of the format
exactly when they are equal terms.  The one source of new numbers is `ofFraction`, which rounds
a quotient of naturals to the nearest number of the format, ties to the even mantissa.
-/

namespace SceneScript

/-- The mantissas and exponents with which the format stores a magnitude: at most 53 bits, and
all 53 of them in use unless the exponent is already the least one. -/
def Binary64.Canonical (mantissa : Nat) (exponent : Int) : Prop :=
  mantissa < Nat.pow 2 53 ∧ -1074 ≤ exponent ∧ exponent ≤ 971 ∧
    (Nat.pow 2 52 ≤ mantissa ∨ exponent = -1074)

instance (mantissa : Nat) (exponent : Int) : Decidable (Binary64.Canonical mantissa exponent) := by
  unfold Binary64.Canonical; infer_instance

/-- A number of the binary64 format: the undefined value, an infinity, or
`± mantissa * 2 ^ exponent`. -/
inductive Binary64 where
  | nan
  | infinite (negative : Bool)
  | finite (negative : Bool) (mantissa : Nat) (exponent : Int)
      (canonical : Binary64.Canonical mantissa exponent)
  deriving DecidableEq

namespace Binary64

/-! ## Rounding -/

/-- The natural number nearest to `num / den`; a tie goes to the even neighbour. -/
def roundQuotient (num den : Nat) : Nat :=
  let quotient := num / den
  let remainder := num % den
  if 2 * remainder < den then quotient
  else if den < 2 * remainder then quotient + 1
  else quotient + quotient % 2

/-- A mantissa and exponent as a number; a magnitude beyond the format is infinite. -/
def pack (negative : Bool) (mantissa : Nat) (exponent : Int) : Binary64 :=
  if h : Canonical mantissa exponent then .finite negative mantissa exponent h
  else .infinite negative

/-- Zero of either sign. -/
def zero (negative : Bool) : Binary64 := pack negative 0 (-1074)

/-- The exponent at which `num / den` (with `num` positive) has a mantissa of 53 bits, or the least
exponent of the format if that is larger. -/
def exponentFor (num den : Nat) : Int :=
  let guess : Int := (num.log2 : Int) - den.log2 - 53
  let quotient := num * Nat.pow 2 (-guess).toNat / (den * Nat.pow 2 guess.toNat)
  max (-1074) (if Nat.pow 2 53 ≤ quotient then guess + 1 else guess)

/-- The number of the format nearest to `± num / den`; a tie goes to the even mantissa. -/
def ofFraction (negative : Bool) (num den : Nat) : Binary64 :=
  if num = 0 then zero negative
  else
    let exponent := exponentFor num den
    let mantissa := roundQuotient (num * Nat.pow 2 (-exponent).toNat)
      (den * Nat.pow 2 exponent.toNat)
    if mantissa = Nat.pow 2 53 then pack negative (Nat.pow 2 52) (exponent + 1)
    else pack negative mantissa exponent

/-- The number nearest to `num / den` with the sign of `num`. -/
def ofRatio (num : Int) (den : Nat) : Binary64 :=
  ofFraction (decide (num < 0)) num.natAbs den

/-- The number nearest to `± digits * 10 ^ exponent`.  A decimal of more than 400 places before
or after the point is out of the format's reach, so its power of ten is never formed. -/
def ofDecimal (negative : Bool) (digits : Nat) (exponent : Int) : Binary64 :=
  let places : Int := (Nat.toDigits 10 digits).length + exponent
  if digits = 0 then zero negative
  else if 400 < places then .infinite negative
  else if places < -400 then zero negative
  else ofFraction negative (digits * Nat.pow 10 exponent.toNat) (Nat.pow 10 (-exponent).toNat)

/-! ## Exact views -/

/-- A finite number as a fraction: a signed numerator and a positive denominator. -/
def ratio? : Binary64 → Option (Int × Nat)
  | .finite negative mantissa exponent _ =>
    let magnitude : Int := (mantissa * Nat.pow 2 exponent.toNat : Nat)
    some (if negative then -magnitude else magnitude, Nat.pow 2 (-exponent).toNat)
  | _ => none

/-- Whether the number is a zero of either sign. -/
def isZero : Binary64 → Bool
  | .finite _ mantissa _ _ => mantissa == 0
  | _ => false

/-- Whether the number is not a number. -/
def isNaN : Binary64 → Bool
  | .nan => true
  | _ => false

/-- How the number compares with an integer; the undefined value compares with none. -/
def compareInt? (x : Binary64) (n : Int) : Option Ordering :=
  match x with
  | .nan => none
  | .infinite negative => some (if negative then .lt else .gt)
  | .finite .. => x.ratio?.map fun (num, den) => compare num (n * den)

/-- Whether the number is greater than zero. -/
def isPositive (x : Binary64) : Bool := x.compareInt? 0 == some .gt

/-- Whether the number has exactly the value of an integer. -/
def equalsInt (x : Binary64) (n : Int) : Bool := x.compareInt? n == some .eq

/-- Equality of value: the zeros are equal, and the undefined value differs from everything. -/
def equals (x y : Binary64) : Bool :=
  !x.isNaN && ((x.isZero && y.isZero) || x == y)

/-- The integer part, toward zero, of a finite number. -/
def truncate? (x : Binary64) : Option Int :=
  x.ratio?.map fun (num, den) => num.tdiv den

/-- The least integer not below a finite number. -/
def ceil? (x : Binary64) : Option Int :=
  x.ratio?.map fun (num, den) => -((-num).fdiv den)

/-! ## Arithmetic with integers -/

/-- The product with a natural number, rounded to the format. -/
def timesNat (k : Nat) (x : Binary64) : Binary64 :=
  match x.ratio? with
  | some (num, den) => ofRatio (k * num) den
  | none => x

/-- The difference with an integer, rounded to the format. -/
def minusInt (x : Binary64) (n : Int) : Binary64 :=
  match x.ratio? with
  | some (num, den) => ofRatio (num - n * den) den
  | none => x

end Binary64

end SceneScript
