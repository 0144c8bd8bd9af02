import Tunables.Binary64.Text
import Tunables.Text.Shown
import Tunables.Toml.Readable

/-!
# The shape of a manifest

What the values of a document must be before anything is made of them, and what is said
about those that are not.

A record is written as a table with known keys, or else as an array with its fields in order.  The
keys of a table are looked at in alphabetical order, and the first thing that is wrong is reported,
together with its bytes.
-/

namespace Tunables
namespace Manifest

open Toml (Key Spanned Entries)

/-- What a value should have been. -/
inductive Expected where
  | text
  | level
  | path
  | list
  | generator
  | parameter
deriving DecidableEq, Repr

/-- What a value should have been, in words. -/
def Expected.words : Expected → String
  | .text => "a string"
  | .level => "u32"
  | .path => "path string"
  | .list => "a sequence"
  | .generator => "struct GeneratorConfig"
  | .parameter => "struct RawParam"

/-- What is wrong with the shape of a document. -/
inductive ShapeFault where
  | missing (field : String)
  | unknown (field : String) (known : List String)
  | type (found : Toml.Value) (expected : Expected)
  | level (found : Int)
  | length (found : Nat) (expected : Expected) (fields : Nat)

/-- A text between backticks. -/
def marked (cs : List Char) : List Char :=
  '\x60' :: cs ++ ['\x60']

/-- The fields of a record as a message lists them. -/
def fieldList : List String → List Char
  | [first, second] => marked first.toList ++ " or ".toList ++ marked second.toList
  | fields =>
      "one of ".toList ++ Text.join ", ".toList (fields.map fun field => marked field.toList)

/-- A value that was found, in words. -/
def foundWords : Toml.Value → List Char
  | .text value => "string ".toList ++ Text.shown value.toList
  | .integer value => "integer ".toList ++ marked (Text.signedNumeral value)
  | .double value => "floating point ".toList ++ marked (value.text .plain)
  | .voidNumber => "number".toList
  | .bool value => "boolean ".toList ++ marked (if value then "true" else "false").toList
  | .array .. => "sequence".toList
  | .datetime | .table .. => "map".toList

/-- A fault in words. -/
def ShapeFault.message : ShapeFault → List Char
  | .missing field => "missing field ".toList ++ marked field.toList
  | .unknown field known =>
      "unknown field ".toList ++ marked field.toList ++ ", expected ".toList ++ fieldList known
  | .type found expected =>
      "invalid type: ".toList ++ foundWords found ++ ", expected ".toList ++ expected.words.toList
  | .level found =>
      "invalid value: integer ".toList ++ marked (Text.signedNumeral found) ++
        ", expected ".toList ++ Expected.level.words.toList
  | .length found expected fields =>
      "invalid length ".toList ++ Text.numeral found ++ ", expected ".toList ++
        expected.words.toList ++ " with ".toList ++ Text.numeral fields ++ " elements".toList

/-- A shape that is right, or else the first fault and its bytes. -/
abbrev Shaped : Type → Type :=
  Except (Spanned ShapeFault)

/-- The fault of a value that should have been something else. -/
def mismatch {α : Type} (expected : Expected) (value : Spanned Toml.Value) : Shaped α :=
  .error ⟨value.span, .type value.value expected⟩

/-- A value as a text. -/
def asText (value : Spanned Toml.Value) : Shaped String :=
  match value.value with
  | .text text => .ok text
  | _ => mismatch .text value

/-- A value as a text with its bytes. -/
def asPlacedText (value : Spanned Toml.Value) : Shaped (Spanned String) := do
  let text ← asText value
  return ⟨value.span, text⟩

/-- A value as the text of a path. -/
def asPath (value : Spanned Toml.Value) : Shaped String :=
  match value.value with
  | .text text => .ok text
  | _ => mismatch .path value

/-- The greatest level; levels have 32 bits. -/
def maxLevel : Nat :=
  4294967295

/-- A value as a level. -/
def asLevel (value : Spanned Toml.Value) : Shaped Nat :=
  match value.value with
  | .integer n => if 0 ≤ n ∧ n ≤ maxLevel then .ok n.toNat else .error ⟨value.span, .level n⟩
  | _ => mismatch .level value

/-- A value as a list of values. -/
def asList (value : Spanned Toml.Value) : Shaped (List (Spanned Toml.Value)) :=
  match value.value with
  | .array _ items => .ok items
  | _ => mismatch .list value

/-- A field of a record, and whether an array may end in front of it. -/
structure RecordField where
  name : String
  mayEnd : Bool
deriving DecidableEq, Repr

/-- A record and its fields in order. -/
structure Record where
  expected : Expected
  fields : List RecordField
deriving DecidableEq, Repr

namespace Record

/-- The names of the fields. -/
def names (record : Record) : List String :=
  record.fields.map RecordField.name

/-- The fault of a key that is no field. -/
def unknown {α : Type} (record : Record) (key : Key) : Shaped α :=
  .error ⟨key.span, .unknown key.text record.names⟩

/-- The entries of a table in alphabetical order of their keys. -/
def sorted (entries : Entries) : Entries :=
  entries.mergeSort fun a b => decide (a.1.text ≤ b.1.text)

/-- The entries of a record in the order in which they are looked at.  A date is a table with
one key of its own. -/
def entries (record : Record) (value : Spanned Toml.Value) : Shaped Entries :=
  match value.value with
  | .table _ entries => .ok (sorted entries)
  | .array _ items =>
      .ok (List.zipWith (fun field item => (⟨field.name, item.span⟩, item)) record.fields items)
  | .datetime => record.unknown ⟨Toml.datetimeKey, value.span⟩
  | _ => mismatch record.expected value

/-- The position of the first field that an array of the given length lacks. -/
def lacks? (record : Record) (length : Nat) : Option Nat :=
  ((record.fields.zipIdx.drop length).find? fun field => !field.1.mayEnd).map Prod.snd

/-- Refuses an array that ends too early. -/
def checkLength (record : Record) (value : Spanned Toml.Value) : Shaped Unit :=
  match value.value with
  | .array _ items =>
      match record.lacks? items.length with
      | some position => .error ⟨value.span, .length position record.expected record.fields.length⟩
      | none => .ok ()
  | _ => .ok ()

/-- Collects the entries of a record. -/
def collect {α : Type} (record : Record) (put : α → Key → Spanned Toml.Value → Shaped α) (empty : α)
    (value : Spanned Toml.Value) : Shaped α := do
  let entries ← record.entries value
  let collected ← entries.foldlM (fun collected entry => put collected entry.1 entry.2) empty
  record.checkLength value
  return collected

end Record

/-- A field that must be there. -/
def require {α : Type} (span : Toml.Span) (field : String) : Option α → Shaped α
  | some value => .ok value
  | none => .error ⟨span, .missing field⟩

end Manifest
end Tunables
