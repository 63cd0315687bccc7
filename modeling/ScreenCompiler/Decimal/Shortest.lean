import ScreenCompiler.Decimal.Dyadic

/-!
# Fewest digits that read back

The reals that round to a double form an interval around it.  The shortest decimal
is found by exact arithmetic: on ever finer decimal grids the two neighbours of the
value are tried, and the first grid with a neighbour inside the interval wins.  Of
two neighbours inside, the nearer is taken.
-/

namespace ScreenCompiler.Decimal

/-- Which neighbour stands for a value halfway between two. -/
inductive Tie where
  | up
  | even
  deriving DecidableEq, Repr

/-- A positive value and the ends of its interval, all in units of `2 ^ exponent`. -/
structure Interval where
  low : Nat
  value : Nat
  high : Nat
  exponent : Int
  /-- Whether the ends round to the value too. -/
  closed : Bool
  deriving Repr

/-- The interval of `significand * 2 ^ exponent`.  Right above a power of two the next smaller
double is only half as far away. -/
def Interval.ofFinite (significand : Nat) (exponent : Int) : Interval :=
  let narrow := significand = fractionBound ∧ -1074 < exponent
  { low := 4 * significand - (if narrow then 1 else 2)
    value := 4 * significand
    high := 4 * significand + 2
    exponent := exponent - 2
    closed := significand % 2 = 0 }

namespace Interval

/-- Scales that make `d * 10 ^ place` and `n * 2 ^ exponent` comparable: the first belongs to
`d`, the second to `n`. -/
def scales (interval : Interval) (place : Int) : Nat × Nat :=
  (Nat.pow 2 (-interval.exponent).toNat * Nat.pow 10 place.toNat,
    Nat.pow 2 interval.exponent.toNat * Nat.pow 10 (-place).toNat)

def contains (interval : Interval) (place : Int) (d : Nat) : Bool :=
  let (decimal, binary) := interval.scales place
  if interval.closed then
    interval.low * binary ≤ d * decimal && d * decimal ≤ interval.high * binary
  else
    interval.low * binary < d * decimal && d * decimal < interval.high * binary

/-- The multiple of `10 ^ place` nearest to the value. -/
def nearest (interval : Interval) (tie : Tie) (place : Int) : Nat :=
  let (decimal, binary) := interval.scales place
  let below := interval.value * binary / decimal
  let rest := interval.value * binary - below * decimal
  match compare (2 * rest) decimal, tie with
  | .lt, _ => below
  | .gt, _ => below + 1
  | .eq, .up => below + 1
  | .eq, .even => if below % 2 = 0 then below else below + 1

/-- A neighbour of the value on the grid of `10 ^ place`, if one lies inside. -/
def onGrid? (interval : Interval) (tie : Tie) (place : Int) : Option Nat :=
  let (decimal, binary) := interval.scales place
  let below := interval.value * binary / decimal
  match interval.contains place below, interval.contains place (below + 1) with
  | true, true => some (interval.nearest tie place)
  | true, false => some below
  | false, true => some (below + 1)
  | false, false => none

/-- The decimal exponent of the value's leading digit. -/
def leadingPlace (interval : Interval) : Int :=
  let (_, binary) := interval.scales 0
  let numerator := interval.value * binary
  let denominator := (interval.scales 0).1
  let guess : Int := (Nat.toDigits 10 numerator).length - (Nat.toDigits 10 denominator).length
  if denominator * Nat.pow 10 guess.toNat ≤ numerator * Nat.pow 10 (-guess).toNat then guess
  else guess - 1

/-- Digits and the place of the last one; seventeen digits always read back. -/
def shortest (interval : Interval) (tie : Tie) : Nat × Int :=
  let leading := interval.leadingPlace
  let found := (List.range 16).findSome? fun (count : Nat) =>
    (interval.onGrid? tie (leading - count)).map fun d => (d, leading - count)
  found.getD (interval.nearest tie (leading - 16), leading - 16)

end Interval

end ScreenCompiler.Decimal
