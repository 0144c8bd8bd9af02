/-!
# Kinds of parameters

The closed set of parameter types.  Each has a tag, which manifests and all generated files write,
and a type of C++, in which the generated class stores the value.
-/

namespace Tunables

/-- The type of a parameter. -/
inductive Kind where
  | str
  | bool
  | int
  | double
deriving DecidableEq, Repr

namespace Kind

/-- Every kind, in the order in which messages list them. -/
def all : List Kind :=
  [.str, .bool, .int, .double]

/-- The tag of a kind. -/
def tag : Kind → String
  | .str => "str"
  | .bool => "bool"
  | .int => "int"
  | .double => "double"

/-- The kind with a tag. -/
def ofTag? (tag : String) : Option Kind :=
  all.find? fun kind => kind.tag == tag

/-- The message about a tag that no kind has. -/
def unknownTag (tag : String) : String :=
  "unknown parameter type '" ++ tag ++ "'"

/-- The type of the member that stores a value. -/
def cppType : Kind → String
  | .str => "std::string"
  | .bool => "bool"
  | .int => "int"
  | .double => "double"

/-- The language of `cppType`. -/
def typeLanguage : String :=
  "cpp"

theorem ofTag?_tag (kind : Kind) : ofTag? kind.tag = some kind := by
  cases kind <;> decide

end Kind
end Tunables
