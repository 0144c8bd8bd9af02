import Tunables.Binary64.Basic

/-!
# Rounding to binary64

The number of the format nearest to a quotient of natural numbers, the even one of two that
are equally near. Integers and decimal numerals are rounded through it, with exact
arithmetic throughout.
-/

namespace Tunables
namespace Binary64

/-- A quotient rounded to an integer, a tie to the even one. -/
def roundQuotient (num den : Nat) : Nat :=
  let quotient := num / den
  let rest := num % den
  if 2 * rest < den then quotient
  else if den < 2 * rest then quotient + 1
  else if quotient % 2 = 0 then quotient
  else quotient + 1

/-- The exponent of the numbers of the format around a positive quotient: the largest power of two
that leaves 53 bits before the point, but none below the least exponent of the format. -/
def gridExponent (num den : Nat) : Int :=
  let size : Int := num.log2 - den.log2
  let reaches := den * twoPow size.toNat ≤ num * twoPow (-size).toNat
  max (if reaches then size - 52 else size - 53) (-1074)

/-- The number nearest to a quotient, with the given sign. -/
def nearest (negative : Bool) (num den : Nat) : Binary64 :=
  if num = 0 then
    .finite negative .zero
  else
    let exponent := gridExponent num den
    let significand := roundQuotient (num * twoPow (-exponent).toNat) (den * twoPow exponent.toNat)
    if significand = twoPow 53 then
      ofParts negative (twoPow 52) (exponent + 1)
    else
      ofParts negative significand exponent

/-- The number nearest to an integer. -/
def ofInt (n : Int) : Binary64 :=
  nearest (n < 0) n.natAbs 1

/-- The number nearest to `digits * 10 ^ exponent`.  Beyond 10 ^ 400 and below its inverse the
answer is known without forming the power. -/
def ofDecimal (negative : Bool) (digits : Nat) (exponent : Int) : Binary64 :=
  let reach : Int := (Nat.toDigits 10 digits).length + exponent
  if digits = 0 || reach < -400 then
    .finite negative .zero
  else if 400 < reach then
    .infinite negative
  else
    nearest negative (digits * tenPow exponent.toNat) (tenPow (-exponent).toNat)

end Binary64
end Tunables
