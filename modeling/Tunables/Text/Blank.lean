/-!
# Blank characters

The characters of Unicode's property `White_Space`, and texts that consist of nothing else.
-/

namespace Tunables
namespace Text

/-- The characters with the property `White_Space`. -/
def isBlank (c : Char) : Bool :=
  let n := c.toNat
  (0x9 ≤ n && n ≤ 0xd) || n == 0x20 || n == 0x85 || n == 0xa0 || n == 0x1680 ||
    (0x2000 ≤ n && n ≤ 0x200a) || n == 0x2028 || n == 0x2029 || n == 0x202f || n == 0x205f ||
    n == 0x3000

/-- A text without any visible character. -/
def isBlankText (cs : List Char) : Bool :=
  cs.all isBlank

end Text
end Tunables
