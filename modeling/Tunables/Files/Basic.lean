import Tunables.Files.Store

/-!
# Directories and files

The few operations on files that a run is made of.

* `ensureDirectory` makes a directory and every directory above it that is missing.  Something that
  is no directory stands in the way, and a directory that somebody else made in between does not.
* `removeIfPresent` says whether there was something to remove.

A fault names the path at which it arose.
-/

namespace Tunables

/-- Why an operation on files failed. -/
inductive FileFault where
  | notADirectory (path : Path)
  | refused (path : Path) (cause : Refusal)
deriving DecidableEq

/-- A fault in words, but for its cause. -/
def FileFault.message : FileFault → List Char
  | .notADirectory path =>
      "error creating directory '".toList ++ path.text ++
        "', a file with the same name exists".toList
  | .refused path _ => "I/O error on '".toList ++ path.text ++ ['\'']

namespace Files

open FileStore

variable {m : Type → Type} [Monad m] [FileStore m]

/-- The outcome of a step on a path. -/
def settle {α : Type} (path : Path) : Except Refusal α → ExceptT FileFault m α
  | .ok value => pure value
  | .error cause => throw (.refused path cause)

/-- Makes a directory in a directory that is there already. -/
def createDirectory (path : Path) : ExceptT FileFault m Unit := do
  match ← makeDirectory path with
  | .ok () => pure ()
  | .error cause =>
      match ← kind? path with
      | some .directory => pure ()
      | some .file => throw (.notADirectory path)
      | none => throw (.refused path cause)

/-- Makes a directory and the directories above it, as far as they are missing. -/
def ensureDirectory (path : Path) : ExceptT FileFault m Unit := do
  match ← kind? path with
  | some .directory => pure ()
  | some .file => throw (.notADirectory path)
  | none =>
      match _h : path.parent? with
      | none => pure ()
      | some parent =>
          if !parent.text.isEmpty && !(← isDirectory parent) then
            ensureDirectory parent
      createDirectory path
termination_by path.text.length
decreasing_by exact Path.parent?_length _h

/-- Makes the directory with a path that is seen from another one, and answers with its path. -/
def ensureDirectoryIn (root relative : Path) : ExceptT FileFault m Path := do
  let path := root.join relative
  ensureDirectory path
  return path

/-- Gives a file its text. -/
def write (path : Path) (text : List Char) : ExceptT FileFault m Unit := do
  settle path (← writeText path text)

/-- The text of a file. -/
def read (path : Path) : ExceptT FileFault m (List Char) := do
  settle path (← readText path)

/-- Removes a file, if there is one. -/
def removeIfPresent (path : Path) : ExceptT FileFault m Bool := do
  match ← removeFile path with
  | .ok () => return true
  | .error .notFound => return false
  | .error cause => throw (.refused path cause)

end Files
end Tunables
