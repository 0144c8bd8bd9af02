import Tunables.Parameter.Kind
import Tunables.Parameter.Value

/-!
# Declarations

A parameter as it is declared, where the declaration stands, and what can be wrong with its values.
-/

namespace Tunables

/-- A line of a file. -/
structure Location where
  file : String
  line : Nat
deriving DecidableEq, Repr

/-- A location as messages write it. -/
def Location.text (location : Location) : List Char :=
  location.file.toList ++ ':' :: Text.numeral location.line

/-- The fields of a declaration that hold a value. -/
inductive Field where
  | default
  | min
  | max
deriving DecidableEq, Repr

/-- The word for a field. -/
def Field.word : Field → String
  | .default => "default"
  | .min => "min"
  | .max => "max"

/-- A parameter as declared. -/
structure Declaration where
  name : String
  kind : Kind
  level : Nat
  description : String
  default : Option Value
  min : Option Value
  max : Option Value
  editMethod : String
deriving DecidableEq

/-- What is wrong with the values of a declaration. -/
inductive DeclarationFault where
  | type (name : String) (kind : Kind) (field : Field) (value : Value)
  | outOfRange (name : String) (field : Field) (value : Int)
  | boundsOnText (name : String)
deriving DecidableEq

/-- A fault in words. -/
def DeclarationFault.message : DeclarationFault → String
  | .type name kind field value =>
      "'" ++ name ++ "' has type " ++ kind.tag ++ ", but " ++ field.word ++ " is the " ++
        value.kindName ++ " " ++ String.ofList value.shown
  | .outOfRange name field value =>
      field.word ++ " of '" ++ name ++ "' is " ++ String.ofList (Text.signedNumeral value) ++
        ", which does not fit in an int"
  | .boundsOnText name => "max or min specified for '" ++ name ++ "', which is of string type"

end Tunables
