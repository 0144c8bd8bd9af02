import Tunables.Binary64.Text
import Tunables.Text.Shown

/-!
# Values as written

A default or a bound as somebody wrote it, before it is held against the kind of its parameter.
-/

namespace Tunables

/-- A value of a declaration. -/
inductive Value where
  | text (value : String)
  | bool (value : Bool)
  | int (value : Int)
  | double (value : Binary64)
deriving DecidableEq

namespace Value

/-- What a message calls a value. -/
def kindName : Value → String
  | .text _ => "string"
  | .bool _ => "boolean"
  | .int _ => "integer"
  | .double _ => "float"

/-- A value as a message shows it. -/
def shown : Value → List Char
  | .text value => Text.shown value.toList
  | .bool value => (if value then "true" else "false").toList
  | .int value => Text.signedNumeral value
  | .double value => value.text .literal

end Value
end Tunables
