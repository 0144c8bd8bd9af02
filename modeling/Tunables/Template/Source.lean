import Tunables.Template.Basic

/-!
# The templates of a run

A run fills two templates, one for the C++ header and one for the Python module.  A template keeps
the path that it was read from: messages name it, and the header refers the compiler back to it.
-/

namespace Tunables

/-- A template and the path it was read from. -/
structure TemplateSource where
  path : String
  text : List Char
deriving DecidableEq

/-- The templates of a run. -/
structure Templates where
  header : TemplateSource
  scripting : TemplateSource
deriving DecidableEq

namespace Templates

/-- The name of the file with the header template. -/
def headerFile : String :=
  "ConfigType.h"

/-- The name of the file with the module template. -/
def scriptingFile : String :=
  "ConfigType.py"

end Templates
end Tunables
