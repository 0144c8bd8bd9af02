import Tunables.Binary64.Shortest
import Tunables.Text.Shown

/-!
# The text of a binary64 number

A number is written with the digits of its shortest numeral, and always so that it is seen to be a
floating-point number: with a point, or with an exponent.

* `Layout` holds the choices of a format, `literal` and `plain` are the two formats in use;
* `text` writes a number.
-/

namespace Tunables

/-- Where a format writes numbers with a power of ten: when the exponent of the leading digit is
outside a range.  No range means never. -/
structure Layout where
  plainRange : Option (Int × Int)

namespace Layout

/-- Literals of a program: positional from 10 ^ -4 up to below 10 ^ 16. -/
def literal : Layout :=
  ⟨some (-4, 15)⟩

/-- Always positional. -/
def plain : Layout :=
  ⟨none⟩

/-- The layout writes a number positionally whose leading digit has the given exponent. -/
def isPlain (layout : Layout) (lead : Int) : Bool :=
  match layout.plainRange with
  | some (least, greatest) => least ≤ lead && lead ≤ greatest
  | none => true

/-- Digits with a point, the leading one at the given exponent. -/
def positional (digits : List Char) (lead : Int) : List Char :=
  if lead < 0 then
    ['0', '.'] ++ List.replicate (-lead - 1).toNat '0' ++ digits
  else if digits.length ≤ lead.toNat + 1 then
    digits ++ List.replicate (lead.toNat + 1 - digits.length) '0' ++ ['.', '0']
  else
    digits.take (lead.toNat + 1) ++ '.' :: digits.drop (lead.toNat + 1)

/-- Digits with a power of ten: the point, if any, stands after the leading digit. -/
def scientific (digits : List Char) (lead : Int) : List Char :=
  (match digits with
    | [] => []
    | [digit] => [digit]
    | digit :: rest => digit :: '.' :: rest) ++ 'e' :: Text.signedNumeral lead

end Layout

/-- Removes the zeros at the end of a list of digits, but not the first digit. -/
def trimZeros : List Char → List Char
  | [] => []
  | digit :: digits => digit :: (digits.reverse.dropWhile (· == '0')).reverse

namespace Binary64

/-- A magnitude in a layout. -/
def Magnitude.text (layout : Layout) (x : Magnitude) : List Char :=
  let numeral := x.shortest
  let written := Nat.toDigits 10 numeral.digits
  let lead := written.length - 1 + numeral.exponent
  let digits := trimZeros written
  if layout.isPlain lead then Layout.positional digits lead else Layout.scientific digits lead

/-- A minus sign for a negative number. -/
def signText (negative : Bool) : List Char :=
  if negative then ['-'] else []

/-- A number in a layout. -/
def text (layout : Layout) : Binary64 → List Char
  | .nan => "NaN".toList
  | .infinite negative => signText negative ++ "inf".toList
  | .finite negative x => signText negative ++ x.text layout

end Binary64
end Tunables
