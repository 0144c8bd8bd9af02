import Tunables.Generation.Basic

/-!
# Reports

A report says what a command found or did, and is shown as a list of emissions.  An emission
says what kind of remark it is; on a terminal it is one line, and warnings and errors go to the
stream for diagnostics.
-/

namespace Tunables

/-- One remark of a report. -/
inductive Emission where
  | heading (title : List Char)
  | property (key value : List Char)
  | item (text : List Char)
  | added (text : List Char)
  | removed (text : List Char)
  | warning (text : List Char)
  | error (text : List Char)
  | divider (label : List Char)
  | block (text : List Char)
  | blank
deriving DecidableEq, Repr

namespace Emission

/-- An emission on a terminal. -/
def line : Emission → List Char
  | .heading title => title ++ [':']
  | .property key value => key ++ ": ".toList ++ value
  | .item text => "  - ".toList ++ text
  | .added text => "  + ".toList ++ text
  | .removed text => "  - ".toList ++ text
  | .warning text => "warning: ".toList ++ text
  | .error text => "error: ".toList ++ text
  | .divider label => "── ".toList ++ label ++ " ──".toList
  | .block text => text
  | .blank => []

/-- An emission goes to the stream for diagnostics. -/
def isDiagnostic : Emission → Bool
  | .warning _ | .error _ => true
  | _ => false

end Emission

/-- What a check of a manifest found. -/
structure CheckReport where
  config : Path
  configName : String
  package : String
  count : Nat
  errors : List (List Char)
  warnings : List (List Char)
deriving DecidableEq

namespace CheckReport

/-- The check found no error. -/
def isValid (report : CheckReport) : Bool :=
  report.errors.isEmpty

/-- What a valid manifest declares. -/
def summary (report : CheckReport) : List Emission := [
  .block ("✓ ".toList ++ report.config.text ++ " is valid".toList),
  .blank,
  .block ("  ".toList ++ report.configName.toList ++ " in ".toList ++ report.package.toList ++
    ", ".toList ++ Text.numeral report.count ++
      (if report.count = 1 then " parameter" else " parameters").toList)]

/-- The report as it is shown. -/
def emissions (report : CheckReport) : List Emission :=
  report.errors.map .error ++ report.warnings.map .warning ++
    (if report.errors.isEmpty && report.warnings.isEmpty then [] else [.blank]) ++
    (if report.isValid then report.summary else [])

end CheckReport

/-- What a run did, or would do. -/
inductive GenerationResult where
  | generated (result : Generated)
  | previewed (files : List Artifact.Preview)
deriving DecidableEq

/-- What the generation from a manifest did. -/
structure GenerateReport where
  warnings : List (List Char)
  result : GenerationResult
deriving DecidableEq

namespace GenerateReport

/-- What a run did, as it is shown. -/
def generatedEmissions (result : Generated) : List Emission :=
  [.property "Package".toList result.root.text, .heading "Generated".toList] ++
    result.written.map (fun path => .added path.text) ++
    (if result.skipped.isEmpty then []
      else .heading "Kept".toList :: result.skipped.map fun path => .item path.text) ++
    (if result.removed.isEmpty then []
      else .blank :: .heading "Removed obsolete".toList :: result.removed.map fun path =>
        .removed path.text)

/-- What a run would write, as it is shown. -/
def previewEmissions (files : List Artifact.Preview) : List Emission :=
  files.flatMap (fun file => [.divider file.path.text, .block file.content]) ++
    [.divider "Summary".toList,
      .block (Text.numeral files.length ++ " files would be generated".toList)]

/-- The report as it is shown. -/
def emissions (report : GenerateReport) : List Emission :=
  report.warnings.map .warning ++
    match report.result with
    | .generated result => generatedEmissions result
    | .previewed files => previewEmissions files

end GenerateReport

/-- What a removal of obsolete files did, or would do. -/
structure CleanReport where
  isDryRun : Bool
  root : Path
  deleted : List Path
deriving DecidableEq

/-- The report as it is shown. -/
def CleanReport.emissions (report : CleanReport) : List Emission :=
  if report.deleted.isEmpty then
    [.block "No obsolete files found.".toList]
  else
    .heading (if report.isDryRun then "Would delete" else "Deleted").toList ::
      report.deleted.map fun path => .removed (report.root.join path).text

end Tunables
