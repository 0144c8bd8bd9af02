import Tunables.Files.Store

/-!
# Packages

The root of a package is a directory that is given, or else the first one on a search path that
bears the name of the package: an entry of the path itself, or a directory inside an entry.
-/

namespace Tunables

/-- How the root of a package is found. -/
inductive Locator where
  | root (path : Path)
  | search (entries : List Path)
deriving DecidableEq

/-- A package that was not found, and where it was looked for. -/
structure PackageFault where
  package : String
  searched : List Path
deriving DecidableEq

/-- The fault in words. -/
def PackageFault.message (fault : PackageFault) : List Char :=
  let places :=
    if fault.searched.isEmpty then "nothing".toList
    else Text.join ", ".toList (fault.searched.map fun path => '\'' :: path.text ++ ['\''])
  "package '".toList ++ fault.package.toList ++ "' not found (searched ".toList ++ places ++ [')']

namespace Locator

open FileStore

/-- The variable with the search path. -/
def searchVariable : String :=
  "DYNPARAM_PACKAGE_PATH"

/-- The entries of a search path; colons stand between them, and empty ones do not count. -/
def entriesOf (searchPath : String) : List Path :=
  ((Text.cut ':' searchPath.toList).filter fun entry => !entry.isEmpty).map Path.mk

variable {m : Type → Type} [Monad m] [FileStore m]

/-- Searches the entries of a search path, or the working directory if it has none. -/
def ofSearchPath (searchPath : Option String) : m Locator := do
  match (searchPath.map entriesOf).getD [] with
  | [] => return .search [← workingDirectory]
  | entries => return .search entries

/-- The root of a package that an entry of a search path leads to. -/
def candidate (package : String) (entry : Path) : m (Option Path) := do
  let nested := entry.join (.ofString package)
  if entry.fileName? == some package.toList then
    if ← isDirectory entry then
      return some entry
  if ← isDirectory nested then
    return some nested
  return none

/-- The first root that the entries of a search path lead to. -/
def firstCandidate (package : String) : List Path → m (Option Path)
  | [] => return none
  | entry :: rest => do
      match ← candidate package entry with
      | some found => return some found
      | none => firstCandidate package rest

/-- The root of a package. -/
def resolve (locator : Locator) (package : String) : ExceptT PackageFault m Path := do
  match locator with
  | .root path =>
      if ← isDirectory path then return path else throw ⟨package, [path]⟩
  | .search entries =>
      match ← firstCandidate package entries with
      | some found => return found
      | none => throw ⟨package, entries⟩

end Locator
end Tunables
