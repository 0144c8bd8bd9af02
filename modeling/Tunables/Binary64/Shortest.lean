import Tunables.Binary64.Basic

/-!
# The shortest decimal numeral of a binary64 number

A decimal numeral stands for a magnitude when it lies in the interval of the reals that round to it.
The ends of the interval belong to it when the significand is even.  `shortest` tries one digit,
then two, and so on: on the grid of numerals with that many digits only the two neighbours of the
magnitude can be nearest, so these are tested in exact arithmetic.  Of two that lie in the interval
the nearer is taken, and the larger when both are equally near.  Seventeen digits always suffice.
-/

namespace Tunables

/-- The number `digits * 10 ^ exponent`. -/
structure Decimal where
  digits : Nat
  exponent : Int
deriving DecidableEq, Repr

namespace Binary64

/-- The reals that round to a positive magnitude, in quarters of its last place: from `low` to
`high`, the magnitude itself at `middle`. -/
structure Interval where
  low : Nat
  middle : Nat
  high : Nat
  closed : Bool
deriving Repr

/-- The interval of a magnitude.  Below the least significand the neighbours are twice as close. -/
def Magnitude.interval (x : Magnitude) : Interval where
  low := if x.significand = twoPow 52 && x.exponent != -1074 then 4 * x.significand - 1
    else 4 * x.significand - 2
  middle := 4 * x.significand
  high := 4 * x.significand + 2
  closed := x.significand % 2 == 0

/-- The factors `(num, den)` with
`quarters * 2 ^ (exponent - 2) = quarters * num / den * 10 ^ place`. -/
def gridFactors (exponent place : Int) : Nat × Nat :=
  (twoPow (exponent - 2).toNat * tenPow (-place).toNat,
    twoPow (2 - exponent).toNat * tenPow place.toNat)

/-- A numeral `digits * 10 ^ place` lies in an interval whose unit has the given factors. -/
def Interval.holds (interval : Interval) (num den digits : Nat) : Bool :=
  if interval.closed then
    interval.low * num ≤ digits * den && digits * den ≤ interval.high * num
  else
    interval.low * num < digits * den && digits * den < interval.high * num

/-- The numeral at the given place that is nearest among those in the interval. -/
def numeralAt? (x : Magnitude) (place : Int) : Option Decimal :=
  let interval := x.interval
  let (num, den) := gridFactors x.exponent place
  let below := interval.middle * num / den
  let above := below + 1
  match interval.holds num den below, interval.holds num den above with
  | true, true =>
      if above * den - interval.middle * num ≤ interval.middle * num - below * den then
        some ⟨above, place⟩
      else
        some ⟨below, place⟩
  | true, false => some ⟨below, place⟩
  | false, true => some ⟨above, place⟩
  | false, false => none

/-- The exponent `p` with `10 ^ p ≤ x < 10 ^ (p + 1)`, found on a scale on which the least magnitude
has digits before the point. -/
def Magnitude.decimalExponent (x : Magnitude) : Int :=
  let scaled := x.significand * twoPow x.exponent.toNat * tenPow 400 / twoPow (-x.exponent).toNat
  (Nat.toDigits 10 scaled).length - 401

/-- Tries numerals with more and more digits. -/
def shortestFrom (x : Magnitude) (top : Int) : Nat → Nat → Decimal
  | _, 0 => ⟨x.significand, 0⟩
  | count, fuel + 1 =>
      match numeralAt? x (top + 1 - count) with
      | some numeral => numeral
      | none => shortestFrom x top (count + 1) fuel

/-- The shortest numeral that rounds to a magnitude. -/
def Magnitude.shortest (x : Magnitude) : Decimal :=
  if x.significand = 0 then ⟨0, 0⟩
  else shortestFrom x x.decimalExponent 1 17

end Binary64
end Tunables
