import Tunables.Command.Option
import Tunables.Path

/-!
# Arguments

The arguments of the program are options, a command, and the options of that command.  They are read
from left to right.  An option is given once, a path is never empty, and what starts with a dash is
no value unless it is written in one argument with its option.
-/

namespace Tunables

/-- The values of the variables of the environment. -/
abbrev Environment : Type :=
  String → Option String

/-- What help is asked about. -/
inductive Topic where
  | program
  | verb (verb : Verb)
  | help
deriving DecidableEq, Repr

/-- What the arguments ask for. -/
inductive Request where
  | help (topic : Topic)
  | version
  | generate (config : Path) (packageDirectory templates : Option Path) (isDryRun : Bool)
  | check (config : Path)
  | clean (config : Path) (packageDirectory : Option Path) (isDryRun : Bool)
deriving DecidableEq

namespace Arguments

/-- Why the reading of arguments ends early. -/
inductive Stop where
  | usage
  | help
  | version
deriving DecidableEq, Repr

/-- The options that were given, with their values. -/
abbrev Settings : Type :=
  List (Flag × List Char)

/-- Notes an option. -/
def note (settings : Settings) (flag : Flag) (value : List Char) : Except Stop Settings :=
  match flag with
  | .help => .error .help
  | .version => .error .version
  | _ =>
      if (settings.lookup flag).isSome then .error .usage
      else if flag.takesValue && value.isEmpty then .error .usage
      else .ok (settings ++ [(flag, value)])

/-- The options that were given, and an option whose value is the next argument, if any. -/
abbrev Progress : Type :=
  Settings × Option Flag

/-- Reads an argument with two dashes in front, which are not part of the text. -/
def readLong (flags : List Flag) (settings : Settings) (text : List Char) : Except Stop Progress :=
  let name := text.takeWhile (· != '=')
  match flags.find? fun flag => flag.long.toList == name, text.drop name.length with
  | none, _ => .error .usage
  | some flag, [] =>
      if flag.takesValue then .ok (settings, some flag) else (note settings flag []).map (·, none)
  | some flag, _ :: value =>
      if flag.takesValue then (note settings flag value).map (·, none) else .error .usage

/-- The value that is written right behind the letter of an option. -/
def attachedValue : List Char → List Char
  | '=' :: value => value
  | value => value

/-- Reads an argument with one dash in front, which is not part of the text. -/
def readShort (flags : List Flag) (settings : Settings) : List Char → Except Stop Progress
  | [] => .ok (settings, none)
  | letter :: rest =>
      match flags.find? fun flag => flag.short? == some letter with
      | none => .error .usage
      | some flag =>
          if !flag.takesValue then
            match note settings flag [] with
            | .ok settings => readShort flags settings rest
            | .error stop => .error stop
          else if rest.isEmpty then .ok (settings, some flag)
          else (note settings flag (attachedValue rest)).map (·, none)

/-- An argument can be the value of the option in front of it. -/
def isValue (argument : List Char) : Bool :=
  argument.head? != some '-' || argument == ['-']

/-- Reads options up to the first argument that is none.  The option whose value is due comes
first. -/
def scan (flags : List Flag) :
    Option Flag → Settings → List (List Char) → Except Stop (Settings × List (List Char))
  | none, settings, [] => .ok (settings, [])
  | some _, _, [] => .error .usage
  | some flag, settings, argument :: rest =>
      if isValue argument then
        match note settings flag argument with
        | .ok settings => scan flags none settings rest
        | .error stop => .error stop
      else .error .usage
  | none, settings, argument :: rest =>
      let progress : Option (Except Stop Progress) :=
        match argument with
        | ['-', '-'] | ['-'] => none
        | '-' :: '-' :: text => some (readLong flags settings text)
        | '-' :: text => some (readShort flags settings text)
        | _ => none
      match progress with
      | none => .ok (settings, argument :: rest)
      | some (.ok (settings, due)) => scan flags due settings rest
      | some (.error stop) => .error stop

/-- The value of an option: as given, from its variable, or by default. -/
def valueOf (environment : Environment) (settings : Settings) (flag : Flag) :
    Except Stop (Option Path) :=
  match settings.lookup flag, flag.environmentName?.bind environment with
  | some value, _ => .ok (some ⟨value⟩)
  | none, some value => if value.isEmpty then .error .usage else .ok (some (.ofString value))
  | none, none => .ok (flag.default?.map Path.ofString)

/-- The path of the manifest. -/
def configOf (settings : Settings) : Path :=
  match settings.lookup .config with
  | some value => ⟨value⟩
  | none => .ofString Manifest.defaultFile

/-- An option was given. -/
def isGiven (settings : Settings) (flag : Flag) : Bool :=
  (settings.lookup flag).isSome

/-- What a command with options is asked for. -/
def request (environment : Environment) (verb : Verb) (settings : Settings) :
    Except Stop Request := do
  let config := configOf settings
  match verb with
  | .check => return .check config
  | .generate =>
      let packageDirectory ← valueOf environment settings .packageDirectory
      let templates ← valueOf environment settings .templates
      return .generate config packageDirectory templates (isGiven settings .dryRun)
  | .clean =>
      let packageDirectory ← valueOf environment settings .packageDirectory
      return .clean config packageDirectory (isGiven settings .dryRun)

/-- What help is asked about by the words behind `help`. -/
def topic? : List (List Char) → Option Topic
  | [] => some .program
  | [word] => if word = "help".toList then some .help else (Verb.ofWord? word).map .verb
  | _ => none

/-- The end of a reading that stopped, in the given place. -/
def stopped (topic : Topic) : Stop → Option Request
  | .usage => none
  | .help => some (.help topic)
  | .version => some .version

/-- What a command is asked for by the arguments behind it. -/
def readCommand (environment : Environment) (verb : Verb) (arguments : List (List Char)) :
    Option Request :=
  let found : Except Stop Request := do
    match ← scan (Flag.all (some verb)) none [] arguments with
    | (settings, []) | (settings, [['-', '-']]) => request environment verb settings
    | _ => .error .usage
  match found with
  | .ok request => some request
  | .error stop => stopped (.verb verb) stop

/-- What the arguments ask for, if they can be understood. -/
def read (environment : Environment) (arguments : List String) : Option Request :=
  match scan (Flag.all none) none [] (arguments.map String.toList) with
  | .error stop => stopped .program stop
  | .ok (_, []) => none
  | .ok (_, word :: rest) =>
      if word = "help".toList then (topic? rest).map .help
      else (Verb.ofWord? word).bind fun verb => readCommand environment verb rest

end Arguments
end Tunables
