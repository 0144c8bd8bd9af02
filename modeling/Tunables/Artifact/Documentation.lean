import Tunables.Artifact.Script
import Tunables.Parameter.Basic
import Tunables.Target

/-!
# The documentation

Two fragments for Doxygen: a reference, in which each parameter has one line, and an example of how
a launch file sets all parameters to their defaults.
-/

namespace Tunables

namespace Reference

/-- The line about one parameter. -/
def record (parameter : Parameter) : List Char :=
  "- \\b \"~".toList ++ parameter.name.toList ++ "\" : \\b [".toList ++ parameter.kind.tag.toList ++
    "] ".toList ++ Text.singleLine parameter.description.toList ++ " min: ".toList ++
    Text.singleLine parameter.min.doc ++
    ", default: ".toList ++ Text.singleLine parameter.default.doc ++ ", max: ".toList ++
    Text.singleLine parameter.max.doc

/-- The lines of the reference. -/
def lines (parameters : List Parameter) : List (List Char) :=
  ["\\subsubsection parameters ROS parameters".toList, [],
    "Reads and maintains the following parameters on the ROS server".toList, []] ++
  parameters.map record ++ [[]]

/-- The reference. -/
def render (parameters : List Parameter) : List Char :=
  Script.body (lines parameters)

end Reference

namespace Usage

/-- An attribute of an element, with a blank in front. -/
def property (name : String) (value : List Char) : List Char :=
  ' ' :: name.toList ++ "=\"".toList ++ Text.escapeXml value ++ ['"']

/-- The element that sets one parameter. -/
def element (parameter : Parameter) : List Char :=
  "  <param".toList ++ property "name" parameter.name.toList ++
    property "type" parameter.kind.tag.toList ++ property "value" parameter.default.doc ++
      " />".toList

/-- The opening tag of the node. -/
def opening (target : Target) : List Char :=
  "<node".toList ++ property "name" target.node.toList ++ property "pkg" target.package.toList ++
    property "type" target.node.toList ++ ['>']

/-- The lines of the example. -/
def lines (target : Target) (parameters : List Parameter) : List (List Char) :=
  ["\\subsubsection usage Usage".toList, "\\verbatim".toList, opening target] ++
  parameters.map element ++ ["</node>".toList, "\\endverbatim".toList, []]

/-- The example. -/
def render (target : Target) (parameters : List Parameter) : List Char :=
  Script.body (lines target parameters)

end Usage
end Tunables
