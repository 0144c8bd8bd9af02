/-!
# Binary floating-point numbers of 64 bits

A number of the format binary64 is a signed magnitude `significand * 2 ^ exponent`, a signed
infinity, or not a number. Each magnitude has one canonical representation, which the type asks
for, so that equality of values is equality of bits; the many bit patterns that are not a
number are one value.

* `ofBits` and `toBits` go between values and their 64 bits.
-/

namespace Tunables

/-- A power of two. -/
def twoPow (exponent : Nat) : Nat :=
  Nat.pow 2 exponent

/-- A power of ten. -/
def tenPow (exponent : Nat) : Nat :=
  Nat.pow 10 exponent

/-- The significands and exponents that the format has. -/
def Binary64.Canonical (significand : Nat) (exponent : Int) : Prop :=
  significand < twoPow 53 ∧ -1074 ≤ exponent ∧ exponent ≤ 971 ∧
    (twoPow 52 ≤ significand ∨ exponent = -1074)

instance (significand : Nat) (exponent : Int) :
    Decidable (Binary64.Canonical significand exponent) :=
  inferInstanceAs (Decidable (_ ∧ _))

/-- The finite number `significand * 2 ^ exponent` that is not negative. -/
structure Binary64.Magnitude where
  significand : Nat
  exponent : Int
  canonical : Binary64.Canonical significand exponent
deriving DecidableEq

/-- A number of the format. -/
inductive Binary64 where
  | nan
  | infinite (negative : Bool)
  | finite (negative : Bool) (magnitude : Binary64.Magnitude)
deriving DecidableEq

namespace Binary64

/-- The magnitude zero. -/
def Magnitude.zero : Magnitude :=
  ⟨0, -1074, by decide⟩

/-- Zero without a sign. -/
def zero : Binary64 :=
  .finite false .zero

/-- Positive infinity. -/
def infinity : Binary64 :=
  .infinite false

/-- Negative infinity. -/
def negInfinity : Binary64 :=
  .infinite true

/-- Not a number. -/
def isNaN : Binary64 → Bool
  | .nan => true
  | _ => false

/-- The finite number with the given parts; parts too large for the format give an infinity. -/
def ofParts (negative : Bool) (significand : Nat) (exponent : Int) : Binary64 :=
  if h : Canonical significand exponent then
    .finite negative ⟨significand, exponent, h⟩
  else
    .infinite negative

/-- The number that 64 bits stand for: sign, eleven bits of exponent and 52 bits of fraction. -/
def ofBits (bits : Nat) : Binary64 :=
  let negative := bits / twoPow 63 % 2 == 1
  let field : Nat := bits / twoPow 52 % twoPow 11
  let fraction := bits % twoPow 52
  if field = 2047 then
    if fraction = 0 then .infinite negative else .nan
  else if field = 0 then
    ofParts negative fraction (-1074)
  else
    ofParts negative (twoPow 52 + fraction) ((field : Int) - 1075)

/-- The sign bit. -/
def signBit (negative : Bool) : Nat :=
  if negative then twoPow 63 else 0

/-- The 64 bits of a number; a quiet pattern for one that is not a number. -/
def toBits : Binary64 → Nat
  | .nan => 2047 * twoPow 52 + twoPow 51
  | .infinite negative => signBit negative + 2047 * twoPow 52
  | .finite negative x =>
      if x.significand < twoPow 52 then
        signBit negative + x.significand
      else
        signBit negative + Int.toNat (x.exponent + 1075) * twoPow 52 + (x.significand - twoPow 52)

end Binary64
end Tunables
