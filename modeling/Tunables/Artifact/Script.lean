import Tunables.Parameter.Declaration
import Tunables.Text.Escape
import Tunables.Text.Lines

/-!
# Lists of lines

The generated files are put together from lines.  A statement that belongs to a declaration
takes two: a `#line` directive, by which the compiler reports errors at the declaration, and
the statement itself.
-/

namespace Tunables
namespace Script

/-- The directive that sets the place of the next line. -/
def lineDirective : List Char :=
  "#line".toList

/-- The directive that sets the place of the next line to a location. -/
def directive (location : Location) : List Char :=
  lineDirective ++ ' ' :: Text.numeral location.line ++ " \"".toList ++
    Text.escapeLinePath location.file.toList ++ ['"']

/-- A statement that belongs to the declaration at a location. -/
def attributed (location : Location) (statement : List Char) : List (List Char) :=
  [directive location, List.replicate 6 ' ' ++ statement]

/-- Lines as a file: each ends with a line feed. -/
def body (lines : List (List Char)) : List Char :=
  lines.flatMap fun line => line ++ ['\n']

/-- Lines as the value of a placeholder: a line feed stands between each two. -/
def fragment (lines : List (List Char)) : List Char :=
  Text.join ['\n'] lines

end Script
end Tunables
