import Tunables.Artifact.Basic
import Tunables.Manifest.Basic

/-!
# The options of the command line

The commands and their options: how an option is written, what its value is called, which variable
of the environment stands in for it, and what is said about it.
-/

namespace Tunables

/-- A command. -/
inductive Verb where
  | generate
  | check
  | clean
deriving DecidableEq, Repr

namespace Verb

/-- The commands in the order in which they are listed. -/
def all : List Verb :=
  [.generate, .check, .clean]

/-- The word for a command. -/
def word : Verb → String
  | .generate => "generate"
  | .check => "check"
  | .clean => "clean"

/-- What a command does. -/
def about : Verb → String
  | .generate => "Generate the header, module and documentation from params.toml"
  | .check => "Validate params.toml without generating files"
  | .clean => "Remove files left over from the message based scheme"

/-- The command with a word. -/
def ofWord? (word : List Char) : Option Verb :=
  all.find? fun verb => verb.word.toList == word

end Verb

/-- An option of a command or of the program. -/
inductive Flag where
  | config
  | packageDirectory
  | templates
  | dryRun
  | verbose
  | help
  | version
deriving DecidableEq, Repr

namespace Flag

/-- The name of an option behind two dashes. -/
def long : Flag → String
  | .config => "config"
  | .packageDirectory => "package-dir"
  | .templates => "templates"
  | .dryRun => "dry-run"
  | .verbose => "verbose"
  | .help => "help"
  | .version => "version"

/-- The letter of an option behind one dash. -/
def short? : Flag → Option Char
  | .config => some 'c'
  | .verbose => some 'v'
  | .help => some 'h'
  | .version => some 'V'
  | .packageDirectory | .templates | .dryRun => none

/-- What the value of an option is called, if it has one. -/
def valueName? : Flag → Option String
  | .config => some "CONFIG"
  | .packageDirectory => some "PACKAGE_DIR"
  | .templates => some "TEMPLATES"
  | .dryRun | .verbose | .help | .version => none

/-- The option has a value. -/
def takesValue (flag : Flag) : Bool :=
  flag.valueName?.isSome

/-- The value of an option that is not given. -/
def default? : Flag → Option String
  | .config => some Manifest.defaultFile
  | _ => none

/-- The variable that stands in for an option that is not given. -/
def environmentName? : Flag → Option String
  | .packageDirectory => some "DYNPARAM_PACKAGE_DIR"
  | .templates => some "DYNPARAM_TEMPLATE_DIR"
  | _ => none

/-- What an option is for, with a command or with none. -/
def about (flag : Flag) (verb : Option Verb) : String :=
  match flag with
  | .config => "Path to params.toml (defaults to ./params.toml)"
  | .packageDirectory =>
      "Package root to " ++ (if verb = some .clean then "clean" else "write into") ++
        " (defaults to a search of DYNPARAM_PACKAGE_PATH)"
  | .templates => "Directory with ConfigType.h / ConfigType.py overrides"
  | .dryRun =>
      if verb = some .clean then "Preview what would be deleted without actually deleting"
      else "Preview generated files without writing to disk"
  | .verbose => "Log debug output to stderr"
  | .help => "Print help"
  | .version => "Print version"

/-- The options of a command, or those in front of the command, in the order in which they are
listed. -/
def all : Option Verb → List Flag
  | none => [.verbose, .help, .version]
  | some .generate => [.config, .verbose, .packageDirectory, .templates, .dryRun, .help]
  | some .check => [.config, .verbose, .help]
  | some .clean => [.config, .verbose, .packageDirectory, .dryRun, .help]

end Flag
end Tunables
