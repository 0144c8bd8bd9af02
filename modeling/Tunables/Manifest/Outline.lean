import Tunables.Manifest.Shape
import Tunables.Target

/-!
# Outlines

The outline of a manifest is what a document of the right shape says, before names, types and
values are looked at.
-/

namespace Tunables
namespace Manifest

open Toml (Key Spanned Entries)

/-- The table about the target. -/
structure Generator where
  package : String
  node : String
  name : String
  templates : Option String
deriving DecidableEq, Repr

/-- The table about a parameter. -/
structure ParameterOutline where
  name : Spanned String
  type : Spanned String
  level : Nat
  description : String
  default : Option (Spanned Toml.Value)
  min : Option (Spanned Toml.Value)
  max : Option (Spanned Toml.Value)
  editMethod : String

/-- The values of a parameter can be read. -/
def ParameterOutline.isReadable (outline : ParameterOutline) : Bool :=
  [outline.default, outline.min, outline.max].all fun value => value.all fun value =>
    value.value.isReadable

/-- What a document of the right shape says. -/
structure Outline where
  generator : Generator
  parameters : List ParameterOutline

/-! ## The table about the target -/

namespace Generator

/-- The fields of the table. -/
def record : Record where
  expected := .generator
  fields := [⟨"package", false⟩, ⟨"node", false⟩, ⟨"name", false⟩, ⟨"templates", true⟩]

/-- The fields that were found so far. -/
structure Draft where
  package : Option String := none
  node : Option String := none
  name : Option String := none
  templates : Option String := none

/-- Notes one field. -/
def Draft.put (draft : Draft) (key : Key) (value : Spanned Toml.Value) : Shaped Draft :=
  match key.text with
  | "package" => do return { draft with package := some (← asText value) }
  | "node" => do return { draft with node := some (← asText value) }
  | "name" => do return { draft with name := some (← asText value) }
  | "templates" => do return { draft with templates := some (← asPath value) }
  | _ => record.unknown key

/-- Reads the table. -/
def ofValue (value : Spanned Toml.Value) : Shaped Generator := do
  let draft ← record.collect Draft.put {} value
  let package ← require value.span "package" draft.package
  let node ← require value.span "node" draft.node
  let name ← require value.span "name" draft.name
  return ⟨package, node, name, draft.templates⟩

end Generator

/-! ## The table about a parameter -/

namespace ParameterOutline

/-- The fields of the table. -/
def record : Record where
  expected := .parameter
  fields :=
    [⟨"name", false⟩, ⟨"type", false⟩, ⟨"level", true⟩, ⟨"description", true⟩, ⟨"default", false⟩,
      ⟨"min", false⟩, ⟨"max", false⟩, ⟨"edit_method", true⟩]

/-- The fields that were found so far. -/
structure Draft where
  name : Option (Spanned String) := none
  type : Option (Spanned String) := none
  level : Option Nat := none
  description : Option String := none
  default : Option (Spanned Toml.Value) := none
  min : Option (Spanned Toml.Value) := none
  max : Option (Spanned Toml.Value) := none
  editMethod : Option String := none

/-- Notes one field. -/
def Draft.put (draft : Draft) (key : Key) (value : Spanned Toml.Value) : Shaped Draft :=
  match key.text with
  | "name" => do return { draft with name := some (← asPlacedText value) }
  | "type" => do return { draft with type := some (← asPlacedText value) }
  | "level" => do return { draft with level := some (← asLevel value) }
  | "description" => do return { draft with description := some (← asText value) }
  | "default" => .ok { draft with default := some value }
  | "min" => .ok { draft with min := some value }
  | "max" => .ok { draft with max := some value }
  | "edit_method" => do return { draft with editMethod := some (← asText value) }
  | _ => record.unknown key

/-- Reads the table. -/
def ofValue (value : Spanned Toml.Value) : Shaped ParameterOutline := do
  let draft ← record.collect Draft.put {} value
  let name ← require value.span "name" draft.name
  let type ← require value.span "type" draft.type
  return {
    name := name
    type := type
    level := draft.level.getD 0
    description := draft.description.getD ""
    default := draft.default
    min := draft.min
    max := draft.max
    editMethod := draft.editMethod.getD "" }

end ParameterOutline

/-! ## The document -/

namespace Outline

/-- The keys of the document. -/
def known : List String :=
  ["generator", "param"]

/-- The tables that were found so far. -/
structure Draft where
  generator : Option Generator := none
  parameters : Option (List ParameterOutline) := none

/-- Notes the table or the tables under one key. -/
def Draft.put (draft : Draft) (key : Key) (value : Spanned Toml.Value) : Shaped Draft :=
  match key.text with
  | "generator" => do return { draft with generator := some (← Generator.ofValue value) }
  | "param" => do
      let items ← asList value
      return { draft with parameters := some (← items.mapM ParameterOutline.ofValue) }
  | _ => .error ⟨key.span, .unknown key.text known⟩

/-- Reads a document.  What it lacks is missing at its start. -/
def ofDocument (document : Entries) : Shaped Outline := do
  let draft ← (Record.sorted document).foldlM (fun draft entry => draft.put entry.1 entry.2)
      ({} : Draft)
  let generator ← require ⟨0, 0⟩ "generator" draft.generator
  return ⟨generator, draft.parameters.getD []⟩

end Outline
end Manifest
end Tunables
