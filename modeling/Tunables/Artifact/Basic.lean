import Tunables.Artifact.Documentation
import Tunables.Artifact.Header
import Tunables.Artifact.Scripting

/-!
# Generated files

The five files that are generated for a target, in the order in which they are written: where each
one lies, what happens to a file that is there already, and what it holds.
-/

namespace Tunables

/-- What happens to a file that is there already. -/
inductive Overwrite where
  | always
  | ifMissing
deriving DecidableEq, Repr

/-- A generated file. -/
inductive Artifact where
  | header
  | reference
  | usage
  | scripting
  | marker
deriving DecidableEq, Repr

namespace Artifact

/-- The generated files in the order in which they are written. -/
def all : List Artifact :=
  [.header, .reference, .usage, .scripting, .marker]

/-- Where a file lies, seen from the root of the package. -/
def path (target : Target) : Artifact → Path
  | .header => target.headerPath
  | .reference => target.referencePath
  | .usage => target.usagePath
  | .scripting => target.scriptingPath
  | .marker => target.markerPath

/-- Generated code replaces what is there; the package marker may have been filled by hand. -/
def overwrite : Artifact → Overwrite
  | .marker => .ifMissing
  | _ => .always

/-- What a file holds. -/
def render (target : Target) (parameters : List Parameter) (templates : Templates) :
    Artifact → Except Template.Fault (List Char)
  | .header => Header.render target parameters templates.header
  | .reference => .ok (Reference.render parameters)
  | .usage => .ok (Usage.render target parameters)
  | .scripting => Scripting.render target parameters templates.scripting
  | .marker => .ok []

/-- A file and what it would hold. -/
structure Preview where
  path : Path
  content : List Char
deriving DecidableEq

/-- A file and what it would hold. -/
def preview (target : Target) (parameters : List Parameter) (templates : Templates)
    (artifact : Artifact) :
    Except Template.Fault Preview := do
  let content ← artifact.render target parameters templates
  return ⟨artifact.path target, content⟩

/-- All files and what they would hold, or the first fault. -/
def previews (target : Target) (parameters : List Parameter) (templates : Templates) :
    Except Template.Fault (List Preview) :=
  all.mapM (preview target parameters templates)

end Artifact
end Tunables
