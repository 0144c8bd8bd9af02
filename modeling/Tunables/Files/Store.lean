import Tunables.Path

/-!
# File stores

What the library needs of a file system.  Everything that reads or writes files is written over a
`FileStore`, and so it says the same of a tree that is held as a value as of the disk.

A store says what a path leads to, links followed, and carries out single steps, each of
which it may refuse.
-/

namespace Tunables

/-- What a path can lead to. -/
inductive EntryKind where
  | file
  | directory
deriving DecidableEq, Repr

/-- Why a store refuses a step. -/
inductive Refusal where
  | notFound
  | alreadyExists
  | isDirectory
  | notDirectory
  | invalidName
  | linkLoop
  | invalidPath
  | notText
  | other (reason : String)
deriving DecidableEq, Repr

/-- The steps that a file system carries out. -/
class FileStore (m : Type → Type) where
  /-- What a path leads to, if anything, links followed. -/
  kind? : Path → m (Option EntryKind)
  /-- Makes a directory in a directory that is there already. -/
  makeDirectory : Path → m (Except Refusal Unit)
  /-- The text in a file. -/
  readText : Path → m (Except Refusal (List Char))
  /-- Makes a file with the given text, or gives it to the file that is there. -/
  writeText : Path → List Char → m (Except Refusal Unit)
  /-- Removes a file or a link. -/
  removeFile : Path → m (Except Refusal Unit)
  /-- The directory from which relative paths are seen. -/
  workingDirectory : m Path

namespace FileStore

instance {ε : Type} {m : Type → Type} [Monad m] [FileStore m] : FileStore (ExceptT ε m) where
  kind? path := ExceptT.lift (kind? path)
  makeDirectory path := ExceptT.lift (makeDirectory path)
  readText path := ExceptT.lift (readText path)
  writeText path text := ExceptT.lift (writeText path text)
  removeFile path := ExceptT.lift (removeFile path)
  workingDirectory := ExceptT.lift workingDirectory

variable {m : Type → Type} [Monad m] [FileStore m]

/-- A path leads to something. -/
def isPresent (path : Path) : m Bool := do
  return (← kind? path).isSome

/-- A path leads to a directory. -/
def isDirectory (path : Path) : m Bool := do
  return (← kind? path) == some .directory

/-- A path leads to a file. -/
def isFile (path : Path) : m Bool := do
  return (← kind? path) == some .file

end FileStore
end Tunables
