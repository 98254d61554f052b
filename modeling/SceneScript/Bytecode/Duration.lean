import SceneScript.Fault

/-!
# Durations

The runtime counts sixty ticks a second and one tick operand covers at most a second, so a
duration is split into chunks: as long as time is left, a second or whatever is left is taken
off and rounded up to whole ticks.  Seconds may be whole or fractional; fractional ones follow
the rounding of binary64 arithmetic.
-/

namespace SceneScript

/-- An amount of time in seconds. -/
inductive Seconds where
  | whole (n : Int)
  | fractional (x : Binary64)

namespace Seconds

/-- Ticks of one second. -/
def ticksPerSecond : Nat := 60

/-- Whether any time is left. -/
def isPositive : Seconds → Bool
  | .whole n => 0 < n
  | .fractional x => x.isPositive

/-- Whether less than a second is left. -/
def isBelowOne : Seconds → Bool
  | .whole n => n < 1
  | .fractional x => x.compareInt? 1 == some .lt

/-- The ticks of a whole amount, rounded up. -/
def ticks : Seconds → Int
  | .whole n => ticksPerSecond * n
  | .fractional x => ((x.timesNat ticksPerSecond).ceil?).getD 0

/-- The first chunk: a second, or all that is left if that is less. -/
def firstChunk (s : Seconds) : Seconds := if s.isBelowOne then s else .whole 1

/-- What is left after the first chunk. -/
def afterFirst (s : Seconds) : Seconds :=
  if s.isBelowOne then .whole 0
  else match s with
    | .whole n => .whole (n - 1)
    | .fractional x => .fractional (x.minusInt 1)

/-- The chunks of a duration, at most as many as the first argument says. -/
def chunksUpTo : Nat → Seconds → List Int
  | 0, _ => []
  | count + 1, s =>
    if s.isPositive then s.firstChunk.ticks :: chunksUpTo count s.afterFirst else []

/-- The number of seconds, rounded up. -/
def roundedUp : Seconds → Nat
  | .whole n => n.toNat
  | .fractional x => (x.ceil?.getD 0).toNat

/-- The chunks of a duration, in ticks.  Each but the last takes a second, so there are no more
than the seconds rounded up.

A loop that takes off a second at a time does not end where a second less is no less: for infinity,
and for floats so large that they have no neighbour a second away.  Of these there are chunks all
the same here, none for infinity. -/
def chunks (s : Seconds) : List Int := chunksUpTo s.roundedUp s

/-- The amount of time that a number is; a truth value counts as one second or none. -/
def ofNumber : Value → Except Fault Seconds
  | .float x => .ok (.fractional x)
  | v =>
    match v.integer? with
    | some n => .ok (.whole n)
    | none => .error .wrongType

/-- The amount of time of an event's argument; half a second stands in for what is not a number. -/
def ofArgument : Value → Seconds
  | .int n => .whole n
  | .float x => .fractional x
  | _ => .fractional (Binary64.ofFraction false 1 2)

end Seconds

end SceneScript
