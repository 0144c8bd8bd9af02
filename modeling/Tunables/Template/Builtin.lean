import Tunables.Template.Source

/-!
# The templates that come with the library

The header defines, inside the namespace of the package, the class of the configuration with one
member per parameter, and a class of statics that holds the bounds, the defaults and the
descriptions.  The module holds the same records as a list of dictionaries.
-/

namespace Tunables
namespace Templates

/-- The lines of the header. -/
def headerLines : List String := [
  "// *********************************************************",
  "//",
  "// File autogenerated for the $\x7bpkgname\x7d package",
  "// by the dynparam generator. Do not edit.",
  "//",
  "// *********************************************************",
  "",
  "#ifndef __$\x7bpkgname\x7d__$\x7buname\x7dCONFIG_H__",
  "#define __$\x7bpkgname\x7d__$\x7buname\x7dCONFIG_H__",
  "",
  "#include <climits>",
  "#include <limits>",
  "#include <string>",
  "#include <vector>",
  "",
  "#include <boost/shared_ptr.hpp>",
  "#include <ros/node_handle.h>",
  "",
  "namespace $\x7bpkgname\x7d",
  "\x7b",
  "  class $\x7bconfigname\x7dConfigStatics;",
  "",
  "  class $\x7bconfigname\x7dConfig",
  "  \x7b",
  "  public:",
  "    class AbstractParamDescription",
  "    \x7b",
  "    public:",
  "      AbstractParamDescription(std::string n, std::string t, unsigned l,",
  "          std::string d, std::string e)",
  "        : name(n), type(t), level(l), description(d), edit_method(e)",
  "      \x7b",
  "      \x7d",
  "",
  "      std::string name;",
  "      std::string type;",
  "      unsigned level;",
  "      std::string description;",
  "      std::string edit_method;",
  "",
  "      virtual ~AbstractParamDescription() \x7b\x7d",
  "      virtual void clamp($\x7bconfigname\x7dConfig &config, const $\x7bconfigname\x7dConfig " ++
    "&max, const $\x7bconfigname\x7dConfig &min) const = 0;",
  "      virtual void fromServer(const ros::NodeHandle &nh, $\x7bconfigname\x7dConfig &config) " ++
    "const = 0;",
  "      virtual void toServer(const ros::NodeHandle &nh, const $\x7bconfigname\x7dConfig " ++
    "&config) const = 0;",
  "    \x7d;",
  "",
  "    typedef boost::shared_ptr<AbstractParamDescription> AbstractParamDescriptionPtr;",
  "    typedef boost::shared_ptr<const AbstractParamDescription> AbstractParamDescriptionConstPtr;",
  "",
  "    template <class T>",
  "    class ParamDescription : public AbstractParamDescription",
  "    \x7b",
  "    public:",
  "      ParamDescription(std::string name, std::string type, uint32_t level,",
  "          std::string description, std::string edit_method, T $\x7bconfigname\x7dConfig::* f)",
  "        : AbstractParamDescription(name, type, level, description, edit_method), field(f)",
  "      \x7b",
  "      \x7d",
  "",
  "      T ($\x7bconfigname\x7dConfig::* field);",
  "",
  "      virtual void clamp($\x7bconfigname\x7dConfig &config, const $\x7bconfigname\x7dConfig " ++
    "&max, const $\x7bconfigname\x7dConfig &min) const",
  "      \x7b",
  "$\x7bdoline\x7d $\x7blinenum\x7d \"$\x7bfilename\x7d\"",
  "        if (config.*field > max.*field)",
  "          config.*field = max.*field;",
  "",
  "        if (config.*field < min.*field)",
  "          config.*field = min.*field;",
  "      \x7d",
  "",
  "      virtual void fromServer(const ros::NodeHandle &nh, $\x7bconfigname\x7dConfig &config) " ++
    "const",
  "      \x7b",
  "$\x7bdoline\x7d $\x7blinenum\x7d \"$\x7bfilename\x7d\"",
  "        nh.getParam(name, config.*field);",
  "      \x7d",
  "",
  "      virtual void toServer(const ros::NodeHandle &nh, const $\x7bconfigname\x7dConfig " ++
    "&config) const",
  "      \x7b",
  "$\x7bdoline\x7d $\x7blinenum\x7d \"$\x7bfilename\x7d\"",
  "        nh.setParam(name, config.*field);",
  "      \x7d",
  "    \x7d;",
  "",
  "$\x7bmembers\x7d",
  "",
  "    bool __fromServer__(const ros::NodeHandle &nh)",
  "    \x7b",
  "      const std::vector<AbstractParamDescriptionConstPtr> &__param_descriptions__ = " ++
    "__getParamDescriptions__();",
  "      for (std::vector<AbstractParamDescriptionConstPtr>::const_iterator i = " ++
    "__param_descriptions__.begin(); i != __param_descriptions__.end(); i++)",
  "        (*i)->fromServer(nh, *this);",
  "      return true;",
  "    \x7d",
  "",
  "    void __toServer__(const ros::NodeHandle &nh) const",
  "    \x7b",
  "      const std::vector<AbstractParamDescriptionConstPtr> &__param_descriptions__ = " ++
    "__getParamDescriptions__();",
  "      for (std::vector<AbstractParamDescriptionConstPtr>::const_iterator i = " ++
    "__param_descriptions__.begin(); i != __param_descriptions__.end(); i++)",
  "        (*i)->toServer(nh, *this);",
  "    \x7d",
  "",
  "    void __clamp__()",
  "    \x7b",
  "      const std::vector<AbstractParamDescriptionConstPtr> &__param_descriptions__ = " ++
    "__getParamDescriptions__();",
  "      const $\x7bconfigname\x7dConfig &__max__ = __getMax__();",
  "      const $\x7bconfigname\x7dConfig &__min__ = __getMin__();",
  "      for (std::vector<AbstractParamDescriptionConstPtr>::const_iterator i = " ++
    "__param_descriptions__.begin(); i != __param_descriptions__.end(); i++)",
  "        (*i)->clamp(*this, __max__, __min__);",
  "    \x7d",
  "",
  "    static const $\x7bconfigname\x7dConfig &__getDefault__();",
  "    static const $\x7bconfigname\x7dConfig &__getMax__();",
  "    static const $\x7bconfigname\x7dConfig &__getMin__();",
  "    static const std::vector<AbstractParamDescriptionConstPtr> &__getParamDescriptions__();",
  "",
  "  private:",
  "    static const $\x7bconfigname\x7dConfigStatics *__get_statics__();",
  "  \x7d;",
  "",
  "  class $\x7bconfigname\x7dConfigStatics",
  "  \x7b",
  "    friend class $\x7bconfigname\x7dConfig;",
  "",
  "    $\x7bconfigname\x7dConfigStatics()",
  "    \x7b",
  "$\x7bparamdescr\x7d",
  "    \x7d",
  "",
  "    std::vector<$\x7bconfigname\x7dConfig::AbstractParamDescriptionConstPtr> " ++
    "__param_descriptions__;",
  "    $\x7bconfigname\x7dConfig __max__;",
  "    $\x7bconfigname\x7dConfig __min__;",
  "    $\x7bconfigname\x7dConfig __default__;",
  "",
  "    static const $\x7bconfigname\x7dConfigStatics *get_instance()",
  "    \x7b",
  "      static $\x7bconfigname\x7dConfigStatics instance;",
  "      return &instance;",
  "    \x7d",
  "  \x7d;",
  "",
  "  inline const $\x7bconfigname\x7dConfig &$\x7bconfigname\x7dConfig::__getDefault__()",
  "  \x7b",
  "    return __get_statics__()->__default__;",
  "  \x7d",
  "",
  "  inline const $\x7bconfigname\x7dConfig &$\x7bconfigname\x7dConfig::__getMax__()",
  "  \x7b",
  "    return __get_statics__()->__max__;",
  "  \x7d",
  "",
  "  inline const $\x7bconfigname\x7dConfig &$\x7bconfigname\x7dConfig::__getMin__()",
  "  \x7b",
  "    return __get_statics__()->__min__;",
  "  \x7d",
  "",
  "  inline const std::vector<$\x7bconfigname\x7dConfig::AbstractParamDescriptionConstPtr> " ++
    "&$\x7bconfigname\x7dConfig::__getParamDescriptions__()",
  "  \x7b",
  "    return __get_statics__()->__param_descriptions__;",
  "  \x7d",
  "",
  "  inline const $\x7bconfigname\x7dConfigStatics *$\x7bconfigname\x7dConfig::__get_statics__()",
  "  \x7b",
  "    return $\x7bconfigname\x7dConfigStatics::get_instance();",
  "  \x7d",
  "\x7d",
  "",
  "#endif // __$\x7bpkgname\x7d__$\x7buname\x7dCONFIG_H__"]

/-- The lines of the module. -/
def moduleLines : List String := [
  "## *********************************************************",
  "##",
  "## $\x7bname\x7dConfig, autogenerated for the $\x7bpkgname\x7d package",
  "## by the dynparam generator. Do not edit.",
  "##",
  "## *********************************************************",
  "",
  "config_description = $\x7bpycfgdata\x7d",
  "",
  "min = \x7b\x7d",
  "max = \x7b\x7d",
  "defaults = \x7b\x7d",
  "level = \x7b\x7d",
  "type = \x7b\x7d",
  "",
  "for param in config_description:",
  "    min[param['name']] = param['min']",
  "    max[param['name']] = param['max']",
  "    defaults[param['name']] = param['default']",
  "    level[param['name']] = param['level']",
  "    type[param['name']] = param['type']",
  "",
  "all_level = 0",
  "for param in config_description:",
  "    all_level = all_level | param['level']",
  "",
  "__all__ = ['config_description', 'min', 'max', 'defaults', 'level', 'type', 'all_level']"]

/-- Lines as a text, each with a line feed behind it. -/
def ofLines (lines : List String) : List Char :=
  lines.flatMap fun line => line.toList ++ ['\n']

/-- The templates that come with the library. -/
def builtin : Templates where
  header := ⟨"<builtin>/" ++ headerFile, ofLines headerLines⟩
  scripting := ⟨"<builtin>/" ++ scriptingFile, ofLines moduleLines⟩

end Templates
end Tunables
