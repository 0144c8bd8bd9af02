import Tunables.Artifact.Basic
import Tunables.Files.Basic

/-!
# Writing generated files

A generated file is written in three steps: its directory is made, its text is rendered, and the
text is written.  Since the text is complete before the file is touched, a template that cannot be
filled leaves the file as it was.
-/

namespace Tunables

/-- Why a generated file was not written. -/
inductive WriteFault where
  | files (fault : FileFault)
  | template (fault : Template.Fault)
deriving DecidableEq

/-- What became of a generated file. -/
inductive Outcome where
  | written
  | skipped
deriving DecidableEq, Repr

namespace Files

open FileStore

variable {m : Type → Type} [Monad m] [FileStore m]

/-- Makes the directory of a file that is seen from a root. -/
def ensureDirectoryOf (root relative : Path) : ExceptT FileFault m Unit := do
  match relative.parent? with
  | some directory => ensureDirectory (root.join directory)
  | none => pure ()

/-- Renders a text and gives it to a file. -/
def writeRendered (path : Path) : Except Template.Fault (List Char) → ExceptT WriteFault m Unit
  | .ok text => ExceptT.adapt .files (write path text)
  | .error fault => throw (.template fault)

/-- Writes a generated file that is seen from a root. -/
def place (root relative : Path) (overwrite : Overwrite)
    (content : Except Template.Fault (List Char)) :
    ExceptT WriteFault m Outcome := do
  ExceptT.adapt .files (ensureDirectoryOf root relative)
  let path := root.join relative
  match overwrite with
  | .always =>
      writeRendered path content
      return .written
  | .ifMissing =>
      if ← isPresent path then
        return .skipped
      writeRendered path content
      return .written

end Files
end Tunables
