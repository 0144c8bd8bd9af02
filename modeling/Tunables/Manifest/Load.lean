import Tunables.Files.Store
import Tunables.Manifest.Basic

/-!
# Manifests in files

A manifest that was read from a file refers to that file by the path under which it was found.
-/

namespace Tunables
namespace Manifest

/-- Why there is no manifest in a file. -/
inductive LoadFault where
  | unreadable (path : Path) (cause : Refusal)
  | invalid (fault : Fault)

namespace LoadFault

/-- A fault in words. -/
def message : LoadFault → String
  | .unreadable path _ => "failed to read '" ++ path.toString ++ "'"
  | .invalid fault => fault.message

/-- What to do about a fault. -/
def help : LoadFault → Option String
  | .unreadable .. => some "create a params.toml with a [generator] table and [[param]] entries"
  | .invalid fault => fault.help

end LoadFault

/-- The manifest in a file. -/
def load {m : Type → Type} [Monad m] [FileStore m] (path : Path) :
    ExceptT LoadFault m Manifest := do
  match ← FileStore.readText path with
  | .error cause => throw (.unreadable path cause)
  | .ok text =>
      match read text path.toString with
      | .ok manifest => return manifest
      | .error fault => throw (.invalid fault)

end Manifest
end Tunables
