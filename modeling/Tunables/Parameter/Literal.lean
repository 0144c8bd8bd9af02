import Tunables.Binary64.Text
import Tunables.Text.Escape
import Tunables.Text.Shown

/-!
# Values in the generated files

A default or a bound that has been accepted, and how each of the three outputs writes it: the C++
header, the documentation and the Python module.

The limits of an `int` and the infinities have names in C++, and the documentation uses these names
too.
-/

namespace Tunables

/-- The least number of the C++ type `int`. -/
def intMin : Int :=
  -2147483648

/-- The greatest number of the C++ type `int`. -/
def intMax : Int :=
  2147483647

/-- A number fits in an `int`. -/
def FitsInt (n : Int) : Prop :=
  intMin ≤ n ∧ n ≤ intMax

instance (n : Int) : Decidable (FitsInt n) := by
  unfold FitsInt
  infer_instance

/-- A number that fits in an `int`. -/
abbrev MachineInt : Type :=
  { n : Int // FitsInt n }

/-- A value in a generated file. -/
inductive Literal where
  | text (value : String)
  | bool (value : Bool)
  | int (value : MachineInt)
  | double (value : Binary64)
deriving DecidableEq

namespace Literal

/-- The C++ expression for infinity. -/
def cppInfinity : List Char :=
  "std::numeric_limits<double>::infinity()".toList

/-- An `int` of C++. -/
def cppInt (n : MachineInt) : List Char :=
  if n.val = intMin then "INT_MIN".toList
  else if n.val = intMax then "INT_MAX".toList
  else Text.signedNumeral n

/-- A `double` of C++. -/
def cppDouble : Binary64 → List Char
  | .infinite negative => Binary64.signText negative ++ cppInfinity
  | x => x.text .literal

/-- A value in C++. -/
def cpp : Literal → List Char
  | .text value => Text.cLiteral value.toList
  | .bool value => if value then ['1'] else ['0']
  | .int value => cppInt value
  | .double value => cppDouble value

/-- A value in the documentation. -/
def doc : Literal → List Char
  | .text value => value.toList
  | .bool value => (if value then "true" else "false").toList
  | .int value => cppInt value
  | .double value => cppDouble value

/-- A value in Python. -/
def python : Literal → List Char
  | .text value => Text.pythonLiteral value.toList
  | .bool value => (if value then "True" else "False").toList
  | .int value => Text.signedNumeral value
  | .double (.infinite negative) => Binary64.signText negative ++ "float('inf')".toList
  | .double value => value.text .literal

end Literal
end Tunables
