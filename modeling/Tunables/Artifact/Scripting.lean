import Tunables.Parameter.Basic
import Tunables.Target
import Tunables.Template.Source

/-!
# The Python module

The module is its template with the parameters put in as a list of dictionaries, one for each
parameter, in the order of the declarations.  The keys of a dictionary come in a fixed order.
-/

namespace Tunables
namespace Scripting

/-- The entries of the dictionary of a parameter: keys, and values as they are written. -/
def entries (parameter : Parameter) : List (String × List Char) := [
  ("name", Text.pythonLiteral parameter.name.toList),
  ("type", Text.pythonLiteral parameter.kind.tag.toList),
  ("default", parameter.default.python),
  ("level", Text.numeral parameter.level),
  ("description", Text.pythonLiteral parameter.description.toList),
  ("min", parameter.min.python),
  ("max", parameter.max.python),
  ("srcline", Text.numeral parameter.location.line),
  ("srcfile", Text.pythonLiteral parameter.location.file.toList),
  ("edit_method", Text.pythonLiteral parameter.editMethod.toList),
  ("ctype", Text.pythonLiteral parameter.cppType.toList)]

/-- One entry of a dictionary. -/
def entry (key : String) (value : List Char) : List Char :=
  '\'' :: key.toList ++ "': ".toList ++ value

/-- The dictionary of a parameter. -/
def record (parameter : Parameter) : List Char :=
  '\x7b' :: Text.join [',', ' ']
    ((entries parameter).map fun item => entry item.1 item.2) ++ ['\x7d']

/-- The list of all dictionaries. -/
def records (parameters : List Parameter) : List Char :=
  '[' :: Text.join [',', ' '] (parameters.map record) ++ [']']

/-- The values of the placeholders. -/
def values (target : Target) (parameters : List Parameter) : List (String × List Char) := [
  ("name", target.name.toList),
  ("pkgname", target.package.toList),
  ("pycfgdata", records parameters)]

/-- The module. -/
def render (target : Target) (parameters : List Parameter) (template : TemplateSource) :
    Except Template.Fault (List Char) :=
  Template.fill template.path 1 (.ofList (values target parameters)) template.text

end Scripting
end Tunables
