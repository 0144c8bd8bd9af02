import Mathlib.Data.List.Nodup
import Tunables.Toml.Document

/-!
# The keys of a document

A table in which no key stands twice gives what is under a key in one way only.

* `AreDistinct`, `IsTree`: entries, and values, in which no table has a key twice,
  however deep it lies.
-/

namespace Tunables
namespace Toml

/-- A value in which no table has a key twice. -/
inductive IsTree : Value → Prop
  | text (content : String) : IsTree (.text content)
  | integer (n : Int) : IsTree (.integer n)
  | double (x : Binary64) : IsTree (.double x)
  | voidNumber : IsTree .voidNumber
  | bool (b : Bool) : IsTree (.bool b)
  | datetime : IsTree .datetime
  | array {ofHeaders : Bool} {items : List (Spanned Value)} :
      (∀ item ∈ items, IsTree item.value) →
      IsTree (.array ofHeaders items)
  | table {origin : Origin} {entries : Entries} :
      (entries.map fun entry => entry.1.text).Nodup →
      (∀ entry ∈ entries, IsTree entry.2.value) →
      IsTree (.table origin entries)

/-- Entries of a table in which no table has a key twice. -/
structure AreDistinct (entries : Entries) : Prop where
  keys : (entries.map fun entry => entry.1.text).Nodup
  values : ∀ entry ∈ entries, IsTree entry.2.value

theorem isTree_table_iff {origin : Origin} {entries : Entries} :
    IsTree (.table origin entries) ↔ AreDistinct entries := by
  constructor
  · rintro (_ | _ | _ | _ | _ | _ | _ | ⟨hkeys, hvalues⟩)
    exact ⟨hkeys, hvalues⟩
  · rintro ⟨hkeys, hvalues⟩
    exact .table hkeys hvalues

theorem isTree_array_iff {ofHeaders : Bool} {items : List (Spanned Value)} :
    IsTree (.array ofHeaders items) ↔ ∀ item ∈ items, IsTree item.value := by
  constructor
  · rintro (_ | _ | _ | _ | _ | _ | hitems | _)
    exact hitems
  · exact .array

section Entries

variable {entries : Entries} {key : String} {value : Spanned Value}

theorem Entries.find?_eq_some (h : entries.find? key = some value) :
    ∃ k, k.text = key ∧ (k, value) ∈ entries := by
  obtain ⟨⟨k, found⟩, hfind, rfl⟩ := Option.map_eq_some_iff.mp h
  have hkey : k.text = key := by simpa using List.find?_some hfind
  exact ⟨k, hkey, List.mem_of_find?_eq_some hfind⟩

theorem Entries.find?_eq_none_iff :
    entries.find? key = none ↔ key ∉ entries.map fun entry => entry.1.text := by
  simp [Entries.find?]

/-- In a table without a key twice, what is under a key is found under it. -/
theorem AreDistinct.find?_eq (h : AreDistinct entries) {entry : Key × Spanned Value}
    (hmem : entry ∈ entries) :
    entries.find? entry.1.text = some entry.2 := by
  cases hfind : entries.find? entry.1.text with
  | none =>
      exact absurd (List.mem_map_of_mem hmem) (Entries.find?_eq_none_iff.mp hfind)
  | some value =>
      obtain ⟨k, hkey, hk⟩ := Entries.find?_eq_some hfind
      have hsame : (k, value) = entry := List.inj_on_of_nodup_map h.keys hk hmem hkey
      rw [← hsame]

theorem AreDistinct.isTree_of_find? (h : AreDistinct entries)
    (hfind : entries.find? key = some value) :
    IsTree value.value := by
  obtain ⟨k, _, hk⟩ := Entries.find?_eq_some hfind
  exact h.values _ hk

theorem Entries.find?_erase (entries : Entries) (key : String) :
    (entries.erase key).find? key = none := by
  rw [Entries.find?_eq_none_iff]
  simp [Entries.erase]

end Entries

end Toml
end Tunables
