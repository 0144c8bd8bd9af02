import Tunables.Binary64.Basic
import Tunables.Toml.Reader

/-!
# Values of a document

A document is a tree of tables and arrays over texts, numbers, truth values and dates.  Every value
and every key keeps the bytes it was read from.

A table remembers how it came into being, since that decides what may be added to it later
(`Origin`).  `within` walks along a path of keys and changes the table at its end, making the tables
that are missing on the way; `insert` adds a value below a path and never replaces one.
-/

namespace Tunables
namespace Toml

/-- How a table came into being. -/
inductive Origin where
  /-- Written between braces, and complete with them. -/
  | braces
  /-- Opened by its own header, or the document itself. -/
  | header
  /-- Passed through by the header of a table below it. -/
  | headerPath
  /-- Passed through by the dotted key of a value below it. -/
  | dottedKey
deriving DecidableEq, Repr

/-- A table that has not been opened by its own header or written out. -/
def Origin.isImplied : Origin → Bool
  | .headerPath | .dottedKey => true
  | .braces | .header => false

/-- A key and the bytes it was read from. -/
structure Key where
  text : String
  span : Span
deriving DecidableEq, Repr

/-- A value.  An array either was written between brackets or holds the tables that were opened
under its name by headers with two brackets. -/
inductive Value where
  | text (value : String)
  | integer (value : Int)
  | double (value : Binary64)
  /-- Written like a number, but without a value. -/
  | voidNumber
  | bool (value : Bool)
  | datetime
  | array (ofHeaders : Bool) (items : List (Spanned Value))
  | table (origin : Origin) (entries : List (Key × Spanned Value))

/-- The entries of a table. -/
abbrev Entries : Type :=
  List (Key × Spanned Value)

namespace Entries

/-- The value under a key. -/
def find? (entries : Entries) (key : String) : Option (Spanned Value) :=
  (List.find? (fun entry => entry.1.text == key) entries).map Prod.snd

/-- The entries with another value under a key that is among them. -/
def replace (entries : Entries) (key : String) (value : Spanned Value) : Entries :=
  entries.map fun entry => if entry.1.text == key then (entry.1, value) else entry

/-- The entries without a key. -/
def erase (entries : Entries) (key : String) : Entries :=
  entries.filter fun entry => entry.1.text != key

/-- The entries with one more at the end. -/
def push (entries : Entries) (key : Key) (value : Spanned Value) : Entries :=
  entries ++ [(key, value)]

end Entries

/-- A change of the entries of a table, which may be refused. -/
abbrev Change : Type :=
  Origin → Entries → Option Entries

/-- The change made inside the tables of an array that headers opened: in the last one. -/
def changeLast (change : Change) (items : List (Spanned Value)) : Option (List (Spanned Value)) :=
  match items.getLast? with
  | some ⟨span, .table origin entries⟩ => do
      let entries ← change origin entries
      return items.dropLast ++ [⟨span, .table origin entries⟩]
  | _ => none

/-- The change made inside a value that a path leads through.  A table between braces is complete,
and a dotted key does not lead into a table that has a header. -/
def changeInside (dotted : Bool) (change : Change) : Value → Option Value
  | .table origin entries =>
      if origin = .braces ∨ (dotted ∧ origin = .header) then none
      else do return .table origin (← change origin entries)
  | .array true items => do return .array true (← changeLast change items)
  | _ => none

/-- The change made in the table at the end of a path; the path belongs to a dotted key or to a
header. -/
def within (dotted : Bool) (change : Change) : List Key → Change
  | [], origin, entries => change origin entries
  | key :: path, _, entries =>
      match entries.find? key.text with
      | some ⟨span, value⟩ => do
          let value ← changeInside dotted (within dotted change path) value
          return entries.replace key.text ⟨span, value⟩
      | none => do
          let origin := if dotted then Origin.dottedKey else Origin.headerPath
          let below ← within dotted change path origin []
          return entries.push key ⟨key.span, .table origin below⟩

/-- Adds a value under a new key.  A table that dotted keys made takes values from dotted keys only,
and every other table takes them only directly. -/
def addValue (dotted : Bool) (key : Key) (value : Spanned Value) : Change := fun origin entries =>
  if dotted ≠ decide (origin = .dottedKey) ∨ (entries.find? key.text).isSome then none
  else some (entries.push key value)

/-- Adds a value under a key below a path. -/
def insert (path : List Key) (key : Key) (value : Spanned Value) : Change :=
  within true (addValue (!path.isEmpty) key value) path

/-- Values with the keys they are written under; a dotted key has a path in front. -/
structure Assignment where
  path : List Key
  key : Key
  value : Spanned Value

/-- Adds values one after the other. -/
def insertAll (assignments : List Assignment) : Change := fun origin entries =>
  assignments.foldlM (fun entries a => insert a.path a.key a.value origin entries) entries

/-- Opens the table of a header, with the values that follow it.  Only a table that other headers
passed through may be there already, and it keeps what it has. -/
def openTable (span : Span) (key : Key) (assignments : List Assignment) :
    Change := fun _ entries => do
  let before ← match entries.find? key.text with
    | none => some []
    | some ⟨_, .table .headerPath before⟩ => some before
    | some _ => none
  let inside ← insertAll assignments .header before
  return (entries.erase key.text).push key ⟨span, .table .header inside⟩

/-- Opens one more table under the name of a header with two brackets, with the values that follow
it. -/
def openItem (span : Span) (key : Key) (assignments : List Assignment) :
    Change := fun _ entries => do
  let item : Spanned Value := ⟨span, .table .header (← insertAll assignments .header [])⟩
  match entries.find? key.text with
  | none => return entries.push key ⟨span, .array true [item]⟩
  | some ⟨first, .array true items⟩ =>
      return entries.replace key.text ⟨first, .array true (items ++ [item])⟩
  | some _ => none

end Toml
end Tunables
