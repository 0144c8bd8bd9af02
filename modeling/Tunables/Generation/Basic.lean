import Tunables.Generation.Package
import Tunables.Generation.Write

/-!
# Generation

A run writes the generated files of a target one after the other, and then removes the files of the
older scheme.  It ends at the first fault, and what was written before stays.
-/

namespace Tunables

/-- What a run did below the root of the package. -/
structure Generated where
  root : Path
  written : List Path
  skipped : List Path
  removed : List Path
deriving DecidableEq

/-- Why a run ended. -/
inductive GenerationCause where
  | package (fault : PackageFault)
  | files (fault : FileFault)
  | template (fault : Template.Fault)
deriving DecidableEq

/-- The cause of a fault in writing a file. -/
def GenerationCause.ofWrite : WriteFault → GenerationCause
  | .files fault => .files fault
  | .template fault => .template fault

/-- A run that ended early: the configuration it was for, and why it ended. -/
structure GenerationFault where
  name : String
  cause : GenerationCause
deriving DecidableEq

/-- The fault in words, but for its cause. -/
def GenerationFault.message (fault : GenerationFault) : List Char :=
  "error building reconfiguration files for '".toList ++ fault.name.toList ++ ['\'']

namespace Generation

variable {m : Type → Type} [Monad m] [FileStore m]

/-- Removes the files at some paths below a root, as far as they are there, and answers
with their paths. -/
def removeAll (root : Path) : List Path → ExceptT FileFault m (List Path)
  | [] => return []
  | relative :: rest => do
      let isRemoved ← Files.removeIfPresent (root.join relative)
      let others ← removeAll root rest
      return if isRemoved then relative :: others else others

/-- Removes the files of the older scheme. -/
def removeObsolete (root : Path) (target : Target) : ExceptT FileFault m (List Path) :=
  removeAll root target.obsoletePaths

/-- Writes some generated files, and answers with their paths and what became of them. -/
def writeAll (root : Path) (target : Target) (parameters : List Parameter) (templates : Templates) :
    List Artifact → ExceptT WriteFault m (List (Path × Outcome))
  | [] => return []
  | artifact :: rest => do
      let path := artifact.path target
      let outcome ← Files.place root path artifact.overwrite
          (artifact.render target parameters templates)
      let others ← writeAll root target parameters templates rest
      return (path, outcome) :: others

/-- The paths with a given outcome. -/
def pathsWith (outcome : Outcome) (outcomes : List (Path × Outcome)) : List Path :=
  (outcomes.filter fun entry => entry.2 = outcome).map Prod.fst

/-- A whole run below a root. -/
def run (root : Path) (target : Target) (parameters : List Parameter) (templates : Templates) :
    ExceptT GenerationCause m Generated := do
  let outcomes ← ExceptT.adapt .ofWrite (writeAll root target parameters templates Artifact.all)
  let removed ← ExceptT.adapt .files (removeObsolete root target)
  return ⟨root, pathsWith .written outcomes, pathsWith .skipped outcomes, removed⟩

/-- Generates the files of a target below a root. -/
def generateInto (root : Path) (target : Target) (parameters : List Parameter)
    (templates : Templates) :
    ExceptT GenerationFault m Generated :=
  ExceptT.adapt (GenerationFault.mk target.name) (run root target parameters templates)

/-- Generates the files of a target in its package. -/
def generate (locator : Locator) (target : Target) (parameters : List Parameter)
    (templates : Templates) :
    ExceptT GenerationFault m Generated :=
  ExceptT.adapt (GenerationFault.mk target.name) do
    let root ← ExceptT.adapt .package (locator.resolve target.package)
    run root target parameters templates

end Generation
end Tunables
