import Tunables.Toml.Datetime
import Tunables.Toml.Value

/-!
# Readable values

A value can be read if all numbers in it have a value and all tables in it that give themselves
out as dates are dates.  A table does so by its first key in alphabetical order, and its other
keys then do not matter.

A document that cannot be read is refused only if somebody has to look at what is wrong in it.
-/

namespace Tunables
namespace Toml

/-- The key under which a table gives the text of a date. -/
def datetimeKey : String :=
  "$__toml_private_datetime"

/-- The entry whose key is the first in alphabetical order. -/
def Entries.first? : Entries → Option (Key × Spanned Value)
  | [] => none
  | entry :: rest =>
      match first? rest with
      | none => some entry
      | some other => if other.1.text < entry.1.text then some other else some entry

/-- What a table that gives itself out as a date gives as its text. -/
def Entries.dateText? (entries : Entries) : Option Value :=
  match entries.first? with
  | some (key, value) => if key.text = datetimeKey then some value.value else none
  | none => none

/-- A value is the text of a date. -/
def Value.isDateText : Value → Bool
  | .text content => Datetime.isWritten content.toList
  | _ => false

mutual

/-- A value can be read. -/
def Value.isReadable : Value → Bool
  | .voidNumber => false
  | .array _ items => itemsReadable items
  | .table _ entries =>
      match Entries.dateText? entries with
      | some content => content.isDateText
      | none => entriesReadable entries
  | .text _ | .integer _ | .double _ | .bool _ | .datetime => true

/-- All items can be read. -/
def itemsReadable : List (Spanned Value) → Bool
  | [] => true
  | ⟨_, value⟩ :: rest => value.isReadable && itemsReadable rest

/-- All entries can be read. -/
def entriesReadable : List (Key × Spanned Value) → Bool
  | [] => true
  | (_, ⟨_, value⟩) :: rest => value.isReadable && entriesReadable rest

end

end Toml
end Tunables
