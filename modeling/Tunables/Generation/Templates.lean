import Tunables.Files.Basic
import Tunables.Template.Builtin

/-!
# Templates from a directory

A directory may hold either of the two templates under its name; what it does not hold is
taken from the library.
-/

namespace Tunables
namespace Templates

open FileStore

/-- Why the templates of a directory cannot be had. -/
inductive Fault where
  | noDirectory (path : Path)
  | unreadable (fault : FileFault)
deriving DecidableEq

/-- A fault in words, but for its cause. -/
def Fault.message : Fault → List Char
  | .noDirectory path => "I/O error on '".toList ++ path.text ++ ['\'']
  | .unreadable fault => fault.message

variable {m : Type → Type} [Monad m] [FileStore m]

/-- The template in a file, or the given one if there is no such file. -/
def loadFile (path : Path) (fallback : TemplateSource) : ExceptT FileFault m TemplateSource := do
  if ← isPresent path then
    return ⟨path.toString, ← Files.read path⟩
  return fallback

/-- The templates of a directory. -/
def load (directory : Path) : ExceptT Fault m Templates := do
  if !(← isDirectory directory) then
    throw (.noDirectory directory)
  ExceptT.adapt .unreadable do
    let header ← loadFile (directory.join (.ofString headerFile)) builtin.header
    let scripting ← loadFile (directory.join (.ofString scriptingFile)) builtin.scripting
    return ⟨header, scripting⟩

end Templates
end Tunables
