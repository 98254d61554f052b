import SceneScript.Number.Binary64

/-!
# The shortest decimal of a binary64 number

A number of the binary64 format is written with the fewest significant digits that read back to
it.  The decimals that read back to `m * 2 ^ e` fill an interval: half a step below it and half
a step above, where the step below is only half as wide when `m` is the least 53-bit mantissa,
and where the ends belong to the interval exactly when `m` is even (a tie goes to the even
mantissa).  On the grid of `n`-digit decimals, if any point lies in the interval then one of the
value's two neighbours does, so it is enough to test those.

All quantities are counted in quarters of the last place, so the arithmetic is on naturals.
-/

namespace SceneScript

/-- The decimal `coefficient * 10 ^ exponent`. -/
structure Decimal where
  coefficient : Nat
  exponent : Int
  deriving DecidableEq

namespace Decimal

/-- The number of decimal digits of a natural number. -/
def digitCount (n : Nat) : Nat := if n = 0 then 0 else (Nat.toDigits 10 n).length

/-- The exponent of the leading decimal digit of the positive fraction `num / den`. -/
def leadingExponent (num den : Nat) : Int :=
  if den ≤ num then digitCount (num / den) - 1
  else -digitCount ((den + num - 1) / num - 1)

/-- The decimals that read back to a mantissa and exponent, measured in quarters of the last
place. -/
structure Interval where
  /-- Lower end, the value itself and upper end. -/
  low : Nat
  middle : Nat
  high : Nat
  /-- The quarter of the last place is `2 ^ unit`. -/
  unit : Int
  /-- Whether the ends belong to the interval. -/
  closed : Bool

/-- The interval of the decimals that read back to `mantissa * 2 ^ exponent`. -/
def Interval.of (mantissa : Nat) (exponent : Int) : Interval where
  low := 4 * mantissa - if mantissa = Nat.pow 2 52 ∧ -1074 < exponent then 1 else 2
  middle := 4 * mantissa
  high := 4 * mantissa + 2
  unit := exponent - 2
  closed := mantissa % 2 == 0

namespace Interval

/-- A count of quarters brought to the common scale on which it can be compared with multiples of
`10 ^ place`. -/
def scaleQuarters (i : Interval) (place : Int) (quarters : Nat) : Nat :=
  quarters * Nat.pow 2 i.unit.toNat * Nat.pow 10 (-place).toNat

/-- A multiple of `10 ^ place` brought to the same scale. -/
def scalePlaces (i : Interval) (place : Int) (count : Nat) : Nat :=
  count * Nat.pow 10 place.toNat * Nat.pow 2 (-i.unit).toNat

/-- Whether `count * 10 ^ place` reads back to the value. -/
def contains (i : Interval) (place : Int) (count : Nat) : Bool :=
  let x := i.scalePlaces place count
  let low := i.scaleQuarters place i.low
  let high := i.scaleQuarters place i.high
  if i.closed then low ≤ x && x ≤ high else low < x && x < high

/-- The multiple of `10 ^ place` below the value. -/
def below (i : Interval) (place : Int) : Nat :=
  i.scaleQuarters place i.middle / i.scalePlaces place 1

/-- Whether the value is nearer to `count * 10 ^ place` than to the next multiple; a tie goes to
the even count. -/
def lowerIsNearer (i : Interval) (place : Int) (count : Nat) : Bool :=
  let middle := 2 * i.scaleQuarters place i.middle
  let border := i.scalePlaces place count + i.scalePlaces place (count + 1)
  middle < border || (middle == border && count % 2 == 0)

/-- The multiple of `10 ^ place` nearest to the value among those that read back to it, if there
is one. -/
def hit? (i : Interval) (place : Int) : Option Decimal :=
  let count := i.below place
  match i.contains place count, i.contains place (count + 1) with
  | true, true => some ⟨if i.lowerIsNearer place count then count else count + 1, place⟩
  | true, false => some ⟨count, place⟩
  | false, true => some ⟨count + 1, place⟩
  | false, false => none

end Interval

/-- Ten of one place are one of the next: a hit on the one-digit grid can be the upper end of
its decade. -/
def carry (d : Decimal) : Decimal :=
  if d.coefficient = 10 then ⟨1, d.exponent + 1⟩ else d

/-- The decimal of fewest digits that reads back to `mantissa * 2 ^ exponent` (with `mantissa`
positive), and of those the nearest.  Seventeen digits always suffice. -/
def shortest (mantissa : Nat) (exponent : Int) : Decimal :=
  let interval := Interval.of mantissa exponent
  let lead := leadingExponent (mantissa * Nat.pow 2 exponent.toNat) (Nat.pow 2 (-exponent).toNat)
  (((List.range 17).findSome? fun (digits : Nat) => interval.hit? (lead - digits)).getD
    ⟨0, 0⟩).carry

end Decimal

end SceneScript
