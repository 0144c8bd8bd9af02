import Tunables.Command.Arguments
import Tunables.Text.Sequence

/-!
# Help

What the program says about itself: what it does, how it is called, and its commands and options.
Options stand in two columns.  Where the right one spans lines, as the value of a variable may, the
further ones start in its column too.

Headings and the words to be typed are set off only if the environment asks for it.
-/

namespace Tunables
namespace Help

/-- The name of the program. -/
def program : String :=
  "dynparam"

/-- The version of the program. -/
def version : String :=
  "0.3.0"

/-- What the program does. -/
def about : String :=
  "Generate reconfigurable parameter definitions from params.toml"

/-- What the command for help does. -/
def aboutHelp : String :=
  "Print this message or the help of the given subcommand(s)"

/-- How headings and the words to be typed are set off. -/
structure Style where
  heading : List Char → List Char
  word : List Char → List Char

namespace Style

/-- Nothing is set off. -/
def plain : Style where
  heading := id
  word := id

/-- Both are bold, and headings are underlined as well. -/
def bold : Style where
  heading cs := "\x1b[1m\x1b[4m".toList ++ cs ++ "\x1b[0m".toList
  word cs := "\x1b[1m".toList ++ cs ++ "\x1b[0m".toList

end Style

/-- An option behind its letter, with the name of its value. -/
def option (style : Style) (flag : Flag) : List Char :=
  (match flag.short? with
    | some letter => style.word ['-', letter] ++ [',', ' ']
    | none => "    ".toList) ++
  style.word ("--".toList ++ flag.long.toList) ++
    match flag.valueName? with
    | some name => " <".toList ++ name.toList ++ ['>']
    | none => []

/-- What an option is for, and where its value comes from when it is not given. -/
def description (environment : Environment) (verb : Option Verb) (flag : Flag) : List Char :=
  (flag.about verb).toList ++
    (match flag.environmentName? with
      | some name =>
          " [env: ".toList ++ name.toList ++ '=' :: ((environment name).getD "").toList ++ [']']
      | none => []) ++
    match flag.default? with
    | some value => " [default: ".toList ++ value.toList ++ [']']
    | none => []

/-- A line in two columns, with further lines below the right one.  The left column has the given
width, and the text in it takes up as much of that as the given plain text. -/
def columns (width : Nat) (plain left right : List Char) : List (List Char) :=
  match Text.cut '\n' right with
  | [] => [left]
  | first :: rest =>
      (left ++ List.replicate (width - plain.length) ' ' ++ first) ::
        rest.map fun line => List.replicate width ' ' ++ line

/-- The length of the longest of some texts. -/
def longest (texts : List (List Char)) : Nat :=
  texts.foldl (fun most text => max most text.length) 0

/-- Lines in two columns: how the left texts are set off, and what is said about them.  Two blanks
stand on each side of the longest text on the left. -/
def table {α : Type} (style : Style) (left : Style → α → List Char) (right : α → List Char)
    (rows : List α) :
    List (List Char) :=
  let width := longest (rows.map (left .plain)) + 2
  rows.flatMap fun row => (columns width (left .plain row) (left style row) (right row)).map
    fun line => ' ' :: ' ' :: line

/-- The lines about the options of a command, or about those in front of it. -/
def options (style : Style) (environment : Environment) (verb : Option Verb) : List (List Char) :=
  style.heading "Options:".toList :: table style option (description environment verb)
    (Flag.all verb)

/-- The commands, with what they do. -/
def verbs : List (List Char × List Char) :=
  (Verb.all.map fun verb => (verb.word.toList, verb.about.toList)) ++
    [("help".toList, aboutHelp.toList)]

/-- The lines about the commands. -/
def commands (style : Style) : List (List Char) :=
  style.heading "Commands:".toList :: table style (fun style verb => style.word verb.1)
    Prod.snd verbs

/-- The line about how the program is called: the words in front of the arguments, and what
stands for these. -/
def usage (style : Style) (words arguments : String) : List Char :=
  style.heading "Usage:".toList ++ ' ' :: style.word words.toList ++ ' ' :: arguments.toList

/-- The lines of a help. -/
def lines (style : Style) (environment : Environment) : Topic → List (List Char)
  | .program =>
      [about.toList, [], usage style program "[OPTIONS] <COMMAND>", []] ++ commands style ++ [[]] ++
        options style environment none
  | .verb verb =>
      [verb.about.toList, [], usage style (program ++ " " ++ verb.word) "[OPTIONS]", []] ++
        options style environment (some verb)
  | .help =>
      [aboutHelp.toList, [], usage style (program ++ " help") "[COMMAND]...", [],
        style.heading "Arguments:".toList,
        "  [COMMAND]...  Print help for the subcommand(s)".toList]

/-- The environment asks for texts as they are for terminals. -/
def forcesStyle (environment : Environment) : Bool :=
  let value (name : String) := (environment name).getD ""
  value "NO_COLOR" == "" && value "CLICOLOR_FORCE" != ""

/-- A help.  What would steer a terminal is dropped again unless the environment asks for it, also
from the values of variables. -/
def text (environment : Environment) (topic : Topic) : List Char :=
  let styled := (lines .bold environment topic).flatMap fun line => line ++ ['\n']
  if forcesStyle environment then styled else Text.withoutSequences styled

/-- The program and its version. -/
def versionText : List Char :=
  program.toList ++ ' ' :: version.toList ++ ['\n']

end Help
end Tunables
