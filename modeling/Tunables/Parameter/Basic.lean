import Tunables.Binary64.Nearest
import Tunables.Parameter.Declaration
import Tunables.Parameter.Literal

/-!
# Accepted parameters

`Parameter.accept` holds the values of a declaration against its kind and fills in the
values that were left out.

* A string has no bounds, and naming one is the first thing that is reported.
* Otherwise the default is looked at first, then the minimum, then the maximum.
* An integer may stand where a floating-point number is expected; nothing else is converted.
-/

namespace Tunables

/-- The default and the bounds of a parameter, by kind. -/
inductive Payload where
  | str (default : String)
  | bool (default min max : Bool)
  | int (default min max : MachineInt)
  | double (default min max : Binary64)
deriving DecidableEq

namespace Payload

/-- The kind of a payload. -/
def kind : Payload → Kind
  | .str .. => .str
  | .bool .. => .bool
  | .int .. => .int
  | .double .. => .double

/-- The default of a payload. -/
def default : Payload → Literal
  | .str default => .text default
  | .bool default .. => .bool default
  | .int default .. => .int default
  | .double default .. => .double default

/-- The least value of a payload; strings have none and show an empty one. -/
def min : Payload → Literal
  | .str _ => .text ""
  | .bool _ min _ => .bool min
  | .int _ min _ => .int min
  | .double _ min _ => .double min

/-- The greatest value of a payload; strings have none and show an empty one. -/
def max : Payload → Literal
  | .str _ => .text ""
  | .bool _ _ max => .bool max
  | .int _ _ max => .int max
  | .double _ _ max => .double max

end Payload

/-- A parameter whose values fit its kind. -/
structure Parameter where
  name : String
  payload : Payload
  level : Nat
  description : String
  editMethod : String
  location : Location
deriving DecidableEq

/-- A value as a string. -/
def Value.asText (mismatch : DeclarationFault) : Value → Except DeclarationFault String
  | .text value => .ok value
  | _ => .error mismatch

/-- A value as a boolean. -/
def Value.asBool (mismatch : DeclarationFault) : Value → Except DeclarationFault Bool
  | .bool value => .ok value
  | _ => .error mismatch

/-- A value as an `int`. -/
def Value.asInt (mismatch : DeclarationFault) (outOfRange : Int → DeclarationFault) :
    Value → Except DeclarationFault MachineInt
  | .int value => if h : FitsInt value then .ok ⟨value, h⟩ else .error (outOfRange value)
  | _ => .error mismatch

/-- A value as a `double`. -/
def Value.asDouble (mismatch : DeclarationFault) : Value → Except DeclarationFault Binary64
  | .double value => if value.isNaN then .error mismatch else .ok value
  | .int value => .ok (.ofInt value)
  | _ => .error mismatch

namespace Declaration

/-- The value of a field as it was written. -/
def value (declaration : Declaration) : Field → Option Value
  | .default => declaration.default
  | .min => declaration.min
  | .max => declaration.max

/-- The value of a field, read in some way, or the given one when it was left out. -/
def read (declaration : Declaration) {α : Type} (field : Field) (absent : α)
    (as : DeclarationFault → Value → Except DeclarationFault α) : Except DeclarationFault α :=
  match declaration.value field with
  | none => .ok absent
  | some value => as (.type declaration.name declaration.kind field value) value

/-- The values of a declaration held against its kind. -/
def payload (declaration : Declaration) : Except DeclarationFault Payload :=
  match declaration.kind with
  | .str => do
      if declaration.min.isSome || declaration.max.isSome then
        .error (.boundsOnText declaration.name)
      let default ← declaration.read .default "" Value.asText
      return .str default
  | .bool => do
      let default ← declaration.read .default false Value.asBool
      let min ← declaration.read .min false Value.asBool
      let max ← declaration.read .max true Value.asBool
      return .bool default min max
  | .int => do
      let number (field : Field) (absent : MachineInt) :=
        declaration.read field absent fun mismatch =>
          Value.asInt mismatch (.outOfRange declaration.name field)
      let default ← number .default ⟨0, by decide⟩
      let min ← number .min ⟨intMin, by decide⟩
      let max ← number .max ⟨intMax, by decide⟩
      return .int default min max
  | .double => do
      let default ← declaration.read .default .zero Value.asDouble
      let min ← declaration.read .min .negInfinity Value.asDouble
      let max ← declaration.read .max .infinity Value.asDouble
      return .double default min max

end Declaration

namespace Parameter

/-- Accepts a declaration whose values fit its kind. -/
def accept (declaration : Declaration) (location : Location) :
    Except DeclarationFault Parameter := do
  let payload ← declaration.payload
  return {
    name := declaration.name
    payload := payload
    level := declaration.level
    description := declaration.description
    editMethod := declaration.editMethod
    location := location }

/-- The kind of a parameter. -/
def kind (parameter : Parameter) : Kind :=
  parameter.payload.kind

/-- The type of the member that stores the value. -/
def cppType (parameter : Parameter) : String :=
  parameter.kind.cppType

/-- The default of a parameter. -/
def default (parameter : Parameter) : Literal :=
  parameter.payload.default

/-- The least value of a parameter. -/
def min (parameter : Parameter) : Literal :=
  parameter.payload.min

/-- The greatest value of a parameter. -/
def max (parameter : Parameter) : Literal :=
  parameter.payload.max

end Parameter
end Tunables
