import Tunables.Command.Basic
import Tunables.Command.Help
import Tunables.Manifest.Load

/-!
# The program

What the program does with its arguments, over any file system: what it writes to its two streams,
and the number with which it ends.  That number is 0 if all went well, 2 if the arguments were not
understood, and 1 for every other failure.
-/

namespace Tunables

/-- A cause in words. -/
def Cause.text : Cause → List Char
  | .words text => text
  | .refusal cause => cause.words.toList

/-- What the program did. -/
structure RunResult where
  exit : Nat
  /-- What went to the stream for results. -/
  output : List Char
  /-- The warnings and errors of reports, which went to the stream for diagnostics. -/
  remarks : List (List Char)
  /-- Why the program failed, which went to the stream for diagnostics as well. -/
  complaints : List (List Char)

namespace RunResult

/-- Emissions on a terminal. -/
def ofEmissions (exit : Nat) (emissions : List Emission) (complaints : List (List Char)) :
    RunResult where
  exit := exit
  output := (emissions.filter fun emission => !emission.isDiagnostic).flatMap fun emission =>
    emission.line ++ ['\n']
  remarks := (emissions.filter Emission.isDiagnostic).map Emission.line
  complaints := complaints

/-- What a command showed. -/
def ofShown (shown : Command.Shown) : RunResult :=
  match shown.fault with
  | none => ofEmissions 0 shown.emissions []
  | some fault => ofEmissions 1 shown.emissions (fault.chain.map Cause.text)

/-- A text for whoever asked for it. -/
def ofText (text : List Char) : RunResult :=
  ⟨0, text, [], []⟩

/-- Arguments that were not understood. -/
def usage : RunResult :=
  ⟨2, [], [], ["unexpected arguments; for more information, try '--help'.".toList]⟩

/-- A manifest that could not be had. -/
def ofLoadFault (fault : Manifest.LoadFault) : RunResult :=
  ⟨1, [], [], fault.message.toList :: fault.help.toList.map String.toList⟩

end RunResult

namespace Command

variable {m : Type → Type} [Monad m] [FileStore m]

/-- Does something with the manifest in a file. -/
def withManifest (config : Path) (use : Manifest → m RunResult) : m RunResult := do
  match ← (Manifest.load config).run with
  | .ok manifest => use manifest
  | .error fault => return .ofLoadFault fault

/-- Does what was asked for. -/
def perform (environment : Environment) : Request → m RunResult
  | .help topic => return .ofText (Help.text environment topic)
  | .version => return .ofText Help.versionText
  | .check config =>
      withManifest config fun manifest => do
        let report := check manifest config
        return .ofEmissions (if report.isValid then 0 else 1) report.emissions []
  | .generate config packageDirectory templates isDryRun =>
      withManifest config fun manifest => do
        return .ofShown (← showGenerate manifest
          ⟨config, packageDirectory, templates, isDryRun, environment Locator.searchVariable⟩)
  | .clean config packageDirectory isDryRun =>
      withManifest config fun manifest => do
        return .ofShown
          (← showClean manifest ⟨packageDirectory, isDryRun, environment Locator.searchVariable⟩)

/-- The program. -/
def run (environment : Environment) (arguments : List String) : m RunResult :=
  match Arguments.read environment arguments with
  | some request => perform environment request
  | none => return .usage

end Command
end Tunables
