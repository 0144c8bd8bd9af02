import Tunables.Artifact.Scripting
import Tunables.Proofs.Binary64.Text
import Tunables.Proofs.Parameter
import Tunables.Proofs.Python.Value

/-!
# The records of the Python module

Python reads the records back: a list with one dictionary for each parameter, in the order of the
declarations, and in it what was declared.  No text of a parameter can get out of its place.

* `dictionary`: what the record of a parameter says.
* `read_records`: the records are read as the list of the dictionaries.
-/

namespace Tunables

/-- A value as Python has it. -/
def Literal.pythonValue : Literal → Python.Value
  | .text value => .text value.toList
  | .bool value => .truth value
  | .int value => .integer value
  | .double (.infinite negative) => .infinity negative
  | .double value => .float (value.text .literal)

/-- A value is read back, unless it is NaN, which is written as a name. -/
theorem Literal.writes_python {literal : Literal} (h : literal.isNaN = false) (depth : Nat) :
    Python.Writes (Python.value depth) literal.python literal.pythonValue := by
  cases literal with
  | text value =>
      exact Python.writes_text depth value.toList
  | bool value =>
      exact Python.writes_truth depth value
  | int value =>
      exact Python.writes_integer depth value
  | double value =>
      cases value with
      | nan => cases h
      | infinite negative => exact Python.writes_infinity depth negative
      | finite negative x => exact Python.writes_float depth negative (x.isFloatingText .literal)

namespace Scripting

/-- What the record of a parameter says. -/
def dictionary (parameter : Parameter) : Python.Value :=
  .dict [
    ("name".toList, .text parameter.name.toList),
    ("type".toList, .text parameter.kind.tag.toList),
    ("default".toList, parameter.default.pythonValue),
    ("level".toList, .integer parameter.level),
    ("description".toList, .text parameter.description.toList),
    ("min".toList, parameter.min.pythonValue),
    ("max".toList, parameter.max.pythonValue),
    ("srcline".toList, .integer parameter.location.line),
    ("srcfile".toList, .text parameter.location.file.toList),
    ("edit_method".toList, .text parameter.editMethod.toList),
    ("ctype".toList, .text parameter.cppType.toList)]

/-- The keys of every dictionary. -/
def keys : List String :=
  ["name", "type", "default", "level", "description", "min", "max", "srcline", "srcfile",
    "edit_method", "ctype"]

/-- No key needs an escape. -/
theorem pythonLiteral_of_mem_keys :
    ∀ key ∈ keys, Text.pythonLiteral key.toList = '\'' :: key.toList ++ ['\''] := by
  decide

section Records

variable {parameter : Parameter} {depth : Nat}

/-- A key and its value are read as an entry. -/
theorem writes_entry (key : String) {value : List Char} {v : Python.Value} (hkey : key ∈ keys)
    (h : Python.Writes (Python.value depth) value v) :
    Python.Writes (Python.entry (Python.value depth)) (entry key value) (key.toList, v) := by
  have hentry : entry key value = Text.pythonLiteral key.toList ++ ':' :: ' ' :: value := by
    simp [entry, pythonLiteral_of_mem_keys key hkey]
  rw [hentry]
  exact Python.writes_entry key.toList h

/-- A record is read as the dictionary of its parameter. -/
theorem writes_record (h : parameter.IsAccepted) :
    Python.Writes (Python.value (depth + 1)) (record parameter) (dictionary parameter) := by
  obtain ⟨hdefault, hmin, hmax⟩ := h.isNaN_eq_false
  have htext := fun text : String => Python.writes_text depth text.toList
  have hnumber := fun n : Nat => Python.writes_integer depth n
  exact Python.writes_dict <|
    .cons (writes_entry "name" (by decide) (htext _)) <|
    .cons (writes_entry "type" (by decide) (htext _)) <|
    .cons (writes_entry "default" (by decide) (Literal.writes_python hdefault depth)) <|
    .cons (writes_entry "level" (by decide) (hnumber _)) <|
    .cons (writes_entry "description" (by decide) (htext _)) <|
    .cons (writes_entry "min" (by decide) (Literal.writes_python hmin depth)) <|
    .cons (writes_entry "max" (by decide) (Literal.writes_python hmax depth)) <|
    .cons (writes_entry "srcline" (by decide) (hnumber _)) <|
    .cons (writes_entry "srcfile" (by decide) (htext _)) <|
    .cons (writes_entry "edit_method" (by decide) (htext _)) <|
    .cons (writes_entry "ctype" (by decide) (htext _)) .nil

/-- The records of accepted parameters are read as the list of their dictionaries. -/
theorem read_records {parameters : List Parameter}
    (h : ∀ parameter ∈ parameters, parameter.IsAccepted) :
    Python.read (records parameters) = some (.list (parameters.map dictionary)) := by
  refine Python.read_of_writes (Python.writes_list ?_)
  rw [List.forall₂_map_left_iff, List.forall₂_map_right_iff]
  exact List.forall₂_same.mpr fun parameter hmem => writes_record (h parameter hmem)

/-- A description that looks like the end of its record and the start of another one
stays a description. -/
theorem read_records_forged :
    Python.read (records
      [⟨"gain", .double .zero .negInfinity .infinity, 1, "'\x7d, \x7b'name': 'other", "",
        ⟨"a.toml", 3⟩⟩]) =
      some (.list [.dict [
        ("name".toList, .text "gain".toList),
        ("type".toList, .text "double".toList),
        ("default".toList, .float "0.0".toList),
        ("level".toList, .integer 1),
        ("description".toList, .text "'\x7d, \x7b'name': 'other".toList),
        ("min".toList, .infinity true),
        ("max".toList, .infinity false),
        ("srcline".toList, .integer 3),
        ("srcfile".toList, .text "a.toml".toList),
        ("edit_method".toList, .text []),
        ("ctype".toList, .text "double".toList)]]) := by
  refine read_records ?_
  intro parameter hmem
  rw [List.mem_singleton.mp hmem]
  exact ⟨⟨"gain", .double, 1, "'\x7d, \x7b'name': 'other", none, none, none, ""⟩,
    ⟨"a.toml", 3⟩, rfl⟩

end Records

end Scripting
end Tunables
