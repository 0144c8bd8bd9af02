import Tunables.Path

/-!
# Targets and their paths

A target says for which package and node a configuration is generated, and what it is called.  All
paths are relative to the root of the package.  They are joined from names as they stand, so that a
package with slashes or dots in its name leads elsewhere.
-/

namespace Tunables

/-- What is generated: the package that owns the files, the node that the documentation names, and
the configuration. -/
structure Target where
  package : String
  node : String
  name : String
deriving DecidableEq, Repr

namespace Target

/-- The name of the generated class, which every generated file shares. -/
def configName (target : Target) : String :=
  target.name ++ "Config"

/-- A path of names, one below the other. -/
def below (names : List String) : Path :=
  names.foldl (fun path name => path.join (.ofString name)) ⟨[]⟩

/-- The C++ header. -/
def headerPath (target : Target) : Path :=
  below ["cfg", "cpp", target.package, target.configName ++ ".h"]

/-- The directory of the Python module. -/
def scriptingDirectory (target : Target) : Path :=
  below ["src", target.package, "cfg"]

/-- The Python module. -/
def scriptingPath (target : Target) : Path :=
  target.scriptingDirectory.join (.ofString (target.configName ++ ".py"))

/-- The empty file that makes the directory of the module a package of Python. -/
def markerPath (target : Target) : Path :=
  target.scriptingDirectory.join (.ofString "__init__.py")

/-- The reference of the parameters. -/
def referencePath (target : Target) : Path :=
  below ["dox", target.configName ++ ".dox"]

/-- The example of a launch file. -/
def usagePath (target : Target) : Path :=
  below ["dox", target.configName ++ "-usage.dox"]

/-- The files of the scheme with messages and services, which the generated files replace. -/
def obsoletePaths (target : Target) : List Path := [
  below ["msg", target.configName ++ ".msg"],
  below ["msg", "cpp", target.package, target.configName ++ ".h"],
  below ["srv", "Get" ++ target.configName ++ ".srv"],
  below ["srv", "cpp", target.package, "Get" ++ target.configName ++ ".h"],
  below ["srv", "Set" ++ target.configName ++ ".srv"],
  below ["srv", "cpp", target.package, "Set" ++ target.configName ++ ".h"]]

end Target
end Tunables
