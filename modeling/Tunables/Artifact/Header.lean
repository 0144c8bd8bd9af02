import Tunables.Artifact.Script
import Tunables.Parameter.Basic
import Tunables.Target
import Tunables.Template.Source
import Tunables.Text.UpperCase

/-!
# The C++ header

The header is its template with the members of the class and the statements that register
the parameters put in.

The template is filled line by line, since two placeholders depend on the line: `linenum` is the
number of the next line of the template, and `filename` the path of the template.  With `doline`
they form a directive that refers the compiler back to the template for the lines that follow, after
lines that were attributed to declarations.
-/

namespace Tunables
namespace Header

/-- The declaration of the member that stores a parameter. -/
def member (parameter : Parameter) : List Char :=
  parameter.cppType.toList ++ ' ' :: parameter.name.toList ++ [';']

/-- The declarations of all members. -/
def members (parameters : List Parameter) : List (List Char) :=
  parameters.flatMap fun parameter => Script.attributed parameter.location (member parameter)

/-- The statement that sets the member of one of the static configurations. -/
def assignment (configuration : String) (parameter : Parameter) (value : Literal) : List Char :=
  configuration.toList ++ '.' :: parameter.name.toList ++ " = ".toList ++ value.cpp ++ [';']

/-- The statement that registers the description of a parameter. -/
def registration (target : Target) (parameter : Parameter) : List Char :=
  let config := target.configName.toList
  "__param_descriptions__.push_back(".toList ++ config ++
    "::AbstractParamDescriptionConstPtr(new ".toList ++ config ++
    "::ParamDescription<".toList ++ parameter.cppType.toList ++ ">(\"".toList ++
    parameter.name.toList ++ "\", \"".toList ++ parameter.kind.tag.toList ++ "\", ".toList ++
    Text.numeral parameter.level ++ ", ".toList ++ Text.cLiteral parameter.description.toList ++
    ", ".toList ++
    Text.cLiteral parameter.editMethod.toList ++ ", &".toList ++ config ++ "::".toList ++
    parameter.name.toList ++ ")));".toList

/-- The statements about one parameter. -/
def statements (target : Target) (parameter : Parameter) : List (List Char) := [
  assignment "__min__" parameter parameter.min,
  assignment "__max__" parameter parameter.max,
  assignment "__default__" parameter parameter.default,
  registration target parameter]

/-- The statements about all parameters. -/
def descriptions (target : Target) (parameters : List Parameter) : List (List Char) :=
  parameters.flatMap fun parameter =>
    (statements target parameter).flatMap (Script.attributed parameter.location)

/-- The values that are the same on every line of the template. -/
def sharedValues (target : Target) (parameters : List Parameter) : List (String × List Char) := [
  ("uname", Text.upperCase target.name.toList),
  ("configname", target.name.toList),
  ("pkgname", target.package.toList),
  ("members", Script.fragment (members parameters)),
  ("paramdescr", Script.fragment (descriptions target parameters)),
  ("doline", Script.lineDirective)]

/-- The values on the line of the template with the given number. -/
def lineValues (path : String) (shared : List (String × List Char)) (line : Nat) :
    Template.Values := fun name =>
  if name = "linenum".toList then some (Text.numeral (line + 1))
  else if name = "filename".toList then some (Text.escapeLinePath path.toList)
  else Template.Values.ofList shared name

/-- Fills the lines of a template, the first of which has the given number. -/
def fillLines (path : String) (shared : List (String × List Char)) :
    Nat → List (List Char) → Except Template.Fault (List Char)
  | _, [] => .ok []
  | number, line :: rest => do
      let filled ← Template.fill path number (lineValues path shared number) line
      let others ← fillLines path shared (number + 1) rest
      return filled ++ others

/-- The header. -/
def render (target : Target) (parameters : List Parameter) (template : TemplateSource) :
    Except Template.Fault (List Char) :=
  fillLines template.path (sharedValues target parameters) 1 (Text.lines template.text)

end Header
end Tunables
