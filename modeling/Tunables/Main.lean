import Tunables.Command.Run

/-!
# The executable

The disk as a file store, and the program on it.  A path is tried by opening it, which follows
links; a directory can be opened but not read.
-/

namespace Tunables
namespace Disk

/-- The number of an error of the operating system, which some steps report with a minus sign. -/
def code? : IO.Error → Option UInt32
  | .noFileOrDirectory _ code _ | .alreadyExists _ code _ | .inappropriateType _ code
      _ | .invalidArgument _ code _ |
      .otherError code _ =>
      some (if code < 0x80000000 then code else 0 - code)
  | _ => none

/-- An error of the operating system as a refusal. -/
def refusal (error : IO.Error) : Refusal :=
  match error, code? error with
  | .noFileOrDirectory .., _ => .notFound
  | _, some 2 => .notFound
  | _, some 17 => .alreadyExists
  | _, some 20 => .notDirectory
  | _, some 21 => .isDirectory
  | _, some 36 => .invalidName
  | _, some 40 => .linkLoop
  | _, _ => .other (toString error)

/-- The outcome of a step on the disk. -/
def attempt {α : Type} (path : Path) (step : String → IO α) : IO (Except Refusal α) := do
  if path.text.contains '\x00' then
    return .error .invalidPath
  match ← (step path.toString).toBaseIO with
  | .ok value => return .ok value
  | .error error => return .error (refusal error)

/-- What a path leads to. -/
def kindOf (path : String) : IO EntryKind := do
  let handle ← IO.FS.Handle.mk path .read
  match ← (handle.read 1).toBaseIO with
  | .ok _ => return .file
  | .error error => return if refusal error = .isDirectory then .directory else .file

/-- The text in a file, if it is one. -/
def textOf (path : String) : IO (Option (List Char)) := do
  return (String.fromUTF8? (← IO.FS.readBinFile path)).map String.toList

instance : FileStore IO where
  kind? path := do return (← attempt path kindOf).toOption
  makeDirectory path := attempt path fun path => IO.FS.createDir path
  readText path := do
    match ← attempt path textOf with
    | .ok (some text) => return .ok text
    | .ok none => return .error .notText
    | .error cause => return .error cause
  writeText path text := attempt path fun path => IO.FS.writeFile path (String.ofList text)
  removeFile path := attempt path fun path => IO.FS.removeFile path
  workingDirectory := do return .ofString (toString (← IO.currentDir))

/-- The variables of the environment that the program looks at. -/
def readVariables : List String :=
  Locator.searchVariable :: (Flag.all (some .generate)).filterMap Flag.environmentName?

/-- The values of those variables. -/
def environment : IO Environment := do
  let values ← readVariables.mapM fun name => do return (name, ← IO.getEnv name)
  return fun name => (values.lookup name).join

end Disk
end Tunables

/-- The program on the disk. -/
def main (arguments : List String) : IO UInt32 := do
  let result ← Tunables.Command.run (← Tunables.Disk.environment) arguments
  for line in result.remarks ++ result.complaints do
    IO.eprintln (String.ofList line)
  IO.print (String.ofList result.output)
  return result.exit.toUInt32
