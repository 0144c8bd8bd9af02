import Tunables.Binary64.Nearest
import Tunables.Text.Lines

/-!
# Numbers

The numbers of a document, as texts.  Single underscores may stand between digits.  A whole number
has no needless zero in front, unless it starts with one of the marks for the bases sixteen, eight
and two; it fits in 64 bits.  A number with a fraction or an exponent is rounded to the nearest one
of the format and must not be too large for it.

Some texts that break these rules still stand where a number may stand, as long as nobody asks for
their value (`isVoidNumber`).
-/

namespace Tunables
namespace Toml

/-- A sign, which may be missing, and the text behind it. -/
def splitSign : List Char → Option Bool × List Char
  | '-' :: cs => (some true, cs)
  | '+' :: cs => (some false, cs)
  | cs => (none, cs)

/-- The value of a digit. -/
def digitValue (c : Char) : Nat :=
  if c.isDigit then c.toNat - '0'.toNat
  else if c.isLower then c.toNat - 'a'.toNat + 10
  else c.toNat - 'A'.toNat + 10

/-- A character is a digit of a base up to sixteen. -/
def isDigitOf (base : Nat) (c : Char) : Bool :=
  c.isAlphanum && digitValue c < base

/-- The digits of a text that holds nothing else but single underscores between them. -/
def digits? (base : Nat) (cs : List Char) : Option (List Char) :=
  let groups := Text.cut '_' cs
  if groups.all fun group => !group.isEmpty && group.all (isDigitOf base) then some groups.flatten
  else none

/-- The number that digits write. -/
def ofDigits (base : Nat) (digits : List Char) : Nat :=
  digits.foldl (fun value c => base * value + digitValue c) 0

/-- The digits of a text that writes a decimal number without a needless zero in front. -/
def decimalDigits? (cs : List Char) : Option (List Char) :=
  match digits? 10 cs with
  | some ['0'] => some ['0']
  | some ('0' :: _) => none
  | found => found

/-- The integers of a document, which have 64 bits. -/
def FitsInteger (n : Int) : Prop :=
  -9223372036854775808 ≤ n ∧ n ≤ 9223372036854775807

instance (n : Int) : Decidable (FitsInteger n) :=
  inferInstanceAs (Decidable (_ ∧ _))

/-- A text as an integer of any size. -/
def wholeNumber? (cs : List Char) : Option Int :=
  match cs with
  | '0' :: 'x' :: cs => (digits? 16 cs).map fun digits => (ofDigits 16 digits : Int)
  | '0' :: 'o' :: cs => (digits? 8 cs).map fun digits => (ofDigits 8 digits : Int)
  | '0' :: 'b' :: cs => (digits? 2 cs).map fun digits => (ofDigits 2 digits : Int)
  | cs =>
      let (sign, cs) := splitSign cs
      (decimalDigits? cs).map fun digits =>
        if sign = some true then -(ofDigits 10 digits : Int) else ofDigits 10 digits

/-- A text as an integer. -/
def integer? (cs : List Char) : Option Int :=
  (wholeNumber? cs).filter fun n => FitsInteger n

/-- The exponent that stands behind an `e`. -/
def exponent? (cs : List Char) : Option Int :=
  let (sign, cs) := splitSign cs
  (digits? 10 cs).map fun digits =>
    if sign = some true then -(ofDigits 10 digits : Int) else ofDigits 10 digits

/-- The digits behind a point and the exponent of a number, at least one of which is there. -/
def fractionAndExponent? (fraction exponent : List Char) : Option (List Char × Int) :=
  match fraction, exponent with
  | [], [] => none
  | '.' :: fraction, [] => (digits? 10 fraction).map fun digits => (digits, 0)
  | '.' :: fraction, _ :: exponent =>
      match digits? 10 fraction, exponent? exponent with
      | some digits, some power => some (digits, power)
      | _, _ => none
  | _, _ :: exponent => (exponent? exponent).map fun power => ([], power)
  | _, [] => none

/-- A text without a sign as a number with a fraction or an exponent. -/
def decimalNumber? (negative : Bool) (cs : List Char) : Option Binary64 :=
  let mantissa := cs.takeWhile fun c => c != 'e' && c != 'E'
  let whole := mantissa.takeWhile fun c => c != '.'
  match decimalDigits? whole,
    fractionAndExponent? (mantissa.drop whole.length) (cs.drop mantissa.length) with
  | some digits, some (fraction, power) =>
      some (.ofDecimal negative (ofDigits 10 (digits ++ fraction)) (power - fraction.length))
  | _, _ => none

/-- A text as a floating-point number. -/
def double? (cs : List Char) : Option Binary64 :=
  let (sign, cs) := splitSign cs
  let negative := sign = some true
  if cs = "inf".toList then some (.infinite negative)
  else if cs = "nan".toList then some .nan
  else
    match decimalNumber? negative cs with
    | some (.infinite _) => none
    | found => found

/-! ## Numbers without a value -/

/-- A digit of base sixteen. -/
def isHexDigit (c : Char) : Bool :=
  isDigitOf 16 c

/-- The characters that show that a number has a fraction or an exponent. -/
def marksFraction (c : Char) : Bool :=
  c == '.' || c == 'e' || c == 'E'

/-- Digits without a needless zero in front, and further groups behind underscores, which
need not be digits but for their ends: the first character of each, and the last one where
another group follows. -/
def isLooselyGrouped (cs : List Char) : Bool :=
  match Text.cut '_' cs with
  | first :: group :: groups =>
      let others := group :: groups
      !first.isEmpty && first.head? != some '0' && first.all Char.isDigit &&
        (others.all fun other => other.head?.any isHexDigit && !other.any marksFraction) &&
        others.dropLast.all fun other => other.getLast?.any isHexDigit
  | _ => false

/-- A text that is written like a number but has no value: it is too large, it lacks the digits
behind the mark of its base, or it has other characters behind an underscore. -/
def isVoidNumber (cs : List Char) : Bool :=
  let (sign, digits) := splitSign cs
  (wholeNumber? cs).isSome || (decimalNumber? (sign = some true) digits).isSome ||
    cs == ['0', 'x'] || cs == ['0', 'o'] || cs == ['0', 'b'] || isLooselyGrouped digits

end Toml
end Tunables
