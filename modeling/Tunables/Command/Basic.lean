import Tunables.Command.Fault
import Tunables.Command.Report
import Tunables.Lint
import Tunables.Manifest.Basic

/-!
# Commands

The three things that are done with a manifest: it is checked, its files are generated, or the files
of the older scheme are removed.  Each command answers with a report.
-/

namespace Tunables
namespace Command

open FileStore

/-- What the lints find, as it is printed. -/
def warnings (parameters : List Parameter) : List (List Char) :=
  (Lint.run Lint.builtin parameters).map Finding.text

/-- Checks a manifest.  A declaration that is not accepted is an error, and what the lints
find are warnings. -/
def check (manifest : Manifest) (config : Path) : CheckReport :=
  let found : List (List Char) × List (List Char) :=
    match manifest.parameters with
    | .ok parameters => ([], warnings parameters)
    | .error fault => ([fault.message.toList], [])
  { config := config
    configName := manifest.target.configName
    package := manifest.target.package
    count := manifest.entries.length
    errors := found.1
    warnings := found.2 }

/-- How the files of a manifest are generated. -/
structure GenerateOptions where
  /-- The path of the manifest; templates that it names are looked for from its directory. -/
  config : Path
  /-- The root of the package. -/
  packageDirectory : Option Path
  /-- A directory of templates, which goes before the one that the manifest names. -/
  templates : Option Path
  /-- Nothing is written. -/
  isDryRun : Bool
  /-- Where packages are looked for when no root is given. -/
  searchPath : Option String

/-- How obsolete files are removed. -/
structure CleanOptions where
  packageDirectory : Option Path
  isDryRun : Bool
  searchPath : Option String

/-- What is to be generated. -/
structure Plan where
  target : Target
  parameters : List Parameter
  templates : Templates

/-- The directory of templates that a run takes, if it takes one. -/
def templateDirectory? (manifest : Manifest) (options : GenerateOptions) : Option Path :=
  match options.templates, manifest.templates with
  | some directory, _ => some directory
  | none, some directory =>
      match options.config.parent? with
      | some base => some (base.join (.ofString directory))
      | none => some (.ofString directory)
  | none, none => none

variable {m : Type → Type} [Monad m] [FileStore m]

/-- Where a package is looked for. -/
def locator (packageDirectory : Option Path) (searchPath : Option String) : m Locator :=
  match packageDirectory with
  | some path => return .root path
  | none => Locator.ofSearchPath searchPath

/-- The templates of a run. -/
def templates (manifest : Manifest) (options : GenerateOptions) :
    ExceptT CommandFault m Templates :=
  match templateDirectory? manifest options with
  | some directory => ExceptT.adapt (.templates directory) (Templates.load directory)
  | none => return Templates.builtin

/-- What is to be generated from a manifest. -/
def plan (manifest : Manifest) (options : GenerateOptions) : ExceptT CommandFault m Plan := do
  match manifest.parameters with
  | .error fault => throw (.parameter manifest.file fault)
  | .ok parameters => return ⟨manifest.target, parameters, ← templates manifest options⟩

/-- Carries out a plan. -/
def Plan.execute (plan : Plan) (options : GenerateOptions) :
    ExceptT CommandFault m GenerateReport := do
  let found := warnings plan.parameters
  if options.isDryRun then
    match Artifact.previews plan.target plan.parameters plan.templates with
    | .ok files => return ⟨found, .previewed files⟩
    | .error fault => throw (.preview fault)
  else
    let locator ← locator options.packageDirectory options.searchPath
    let result ← ExceptT.adapt .generation
      (Generation.generate locator plan.target plan.parameters plan.templates)
    return ⟨found, .generated result⟩

/-- Generates the files of a manifest. -/
def generate (manifest : Manifest) (options : GenerateOptions) :
    ExceptT CommandFault m GenerateReport := do
  let plan ← plan manifest options
  plan.execute options

/-- What is shown before files are written, so that a run that fails has named its target. -/
def Plan.progress (plan : Plan) (options : GenerateOptions) : List Emission :=
  if options.isDryRun then []
  else [
    .block ("Generating reconfiguration files for ".toList ++ plan.target.name.toList ++
      " in ".toList ++ plan.target.package.toList),
    .blank]

/-- Removes the files of the older scheme, or finds those that would be removed. -/
def clean (manifest : Manifest) (options : CleanOptions) : ExceptT CommandFault m CleanReport := do
  let target := manifest.target
  let locator ← locator options.packageDirectory options.searchPath
  let root ← ExceptT.adapt .package (locator.resolve target.package)
  if options.isDryRun then
    let found ← target.obsoletePaths.filterM fun path => isFile (root.join path)
    return ⟨true, root, found⟩
  else
    let removed ← ExceptT.adapt .removal (Generation.removeObsolete root target)
    return ⟨false, root, removed⟩

/-- What a command showed, and why it failed if it did. -/
structure Shown where
  emissions : List Emission
  fault : Option CommandFault

/-- Generates the files of a manifest and shows how it went. -/
def showGenerate (manifest : Manifest) (options : GenerateOptions) : m Shown := do
  match ← (plan manifest options).run with
  | .error fault => return ⟨[], some fault⟩
  | .ok plan =>
      match ← (plan.execute options).run with
      | .error fault => return ⟨plan.progress options, some fault⟩
      | .ok report => return ⟨plan.progress options ++ report.emissions, none⟩

/-- Removes the files of the older scheme and shows how it went. -/
def showClean (manifest : Manifest) (options : CleanOptions) : m Shown := do
  match ← (clean manifest options).run with
  | .error fault => return ⟨[], some fault⟩
  | .ok report => return ⟨report.emissions, none⟩

end Command
end Tunables
