import Tunables.Generation.Basic
import Tunables.Generation.Templates

/-!
# Faults of commands

Why a command failed, from the step that it was at down to the last cause.
-/

namespace Tunables

/-- Why a store refused a step, in words. -/
def Refusal.words : Refusal → String
  | .notFound => "no such file or directory"
  | .alreadyExists => "file exists"
  | .isDirectory => "is a directory"
  | .notDirectory => "not a directory"
  | .invalidName => "file name too long"
  | .linkLoop => "too many levels of symbolic links"
  | .invalidPath => "file name contained an unexpected NUL byte"
  | .notText => "stream did not contain valid UTF-8"
  | .other reason => reason

/-- One cause in a chain: words, or what the file system refused. -/
inductive Cause where
  | words (text : List Char)
  | refusal (cause : Refusal)
deriving DecidableEq, Repr

namespace Cause

/-- A refusal as the last cause of a chain.  That a file holds no text and that a text is no path is
found by the program, not by the file system. -/
def ofRefusal (cause : Refusal) : Cause :=
  match cause with
  | .notText | .invalidPath => .words cause.words.toList
  | _ => .refusal cause

/-- The causes that a fault of an operation on files consists of. -/
def ofFile (fault : FileFault) : List Cause :=
  .words fault.message ::
    match fault with
    | .notADirectory _ => []
    | .refused _ cause => [ofRefusal cause]

/-- The causes that a fault in loading templates consists of. -/
def ofTemplates : Templates.Fault → List Cause
  | .noDirectory path =>
      [.words (Templates.Fault.noDirectory path).message,
        .words "template directory does not exist".toList]
  | .unreadable fault => ofFile fault

/-- The causes that an early end of a run consists of. -/
def ofGeneration (fault : GenerationFault) : List Cause :=
  .words fault.message ::
    match fault.cause with
    | .package cause => [.words cause.message]
    | .files cause => ofFile cause
    | .template cause => [.words cause.message.toList]

end Cause

/-- Why a command failed. -/
inductive CommandFault where
  | parameter (file : String) (fault : DeclarationFault)
  | templates (directory : Path) (fault : Templates.Fault)
  | preview (fault : Template.Fault)
  | generation (fault : GenerationFault)
  | package (fault : PackageFault)
  | removal (fault : FileFault)
deriving DecidableEq

namespace CommandFault

/-- The step at which a command failed. -/
def message : CommandFault → List Char
  | .parameter file _ => "Invalid parameter in ".toList ++ file.toList
  | .templates directory _ => "Failed to load templates from ".toList ++ directory.text
  | .preview _ => "Failed to render files".toList
  | .generation _ => "Failed to generate files".toList
  | .package _ => "Failed to locate package".toList
  | .removal _ => "Failed to remove obsolete files".toList

/-- The step at which a command failed, and why, down to the last cause. -/
def chain (fault : CommandFault) : List Cause :=
  .words fault.message ::
    match fault with
    | .parameter _ cause => [.words cause.message.toList]
    | .templates _ cause => Cause.ofTemplates cause
    | .preview cause => [.words cause.message.toList]
    | .generation cause => Cause.ofGeneration cause
    | .package cause => [.words cause.message]
    | .removal cause => Cause.ofFile cause

end CommandFault
end Tunables
