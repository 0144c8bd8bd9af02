import Mathlib
import Tunables.Proofs.Artifact.Header
import Tunables.Proofs.Cpp.Scope
import Tunables.Proofs.Lint
import Tunables.Proofs.Manifest

/-!
# The members of the generated class

The class in the header has a member for every parameter, next to the classes, types and functions
that every such class has.  The names that begin with two underscores are kept for the functions.
The nested classes have names that a parameter may have as well, and so has the class itself, and
then one name is declared twice.

* `classNames?`: the names that the class declares, by its template and the lines of the members.
* `ofClass?_builtin`, `memberNames_eq`: what the template declares, and what the members do;
  `fill_classSource`: the name of the class.
* `declares_once_iff`: when every name is declared once.
-/

namespace Tunables
namespace Header

/-- The placeholder for the members, as the template has it. -/
def membersSource : List Char :=
  "$\x7bmembers\x7d".toList

/-- The name of the class, as the template has it. -/
def classSource : List Char :=
  "$\x7bconfigname\x7dConfig".toList

/-- The classes and types inside the class. -/
def nestedNames : List String :=
  ["AbstractParamDescription", "AbstractParamDescriptionPtr", "AbstractParamDescriptionConstPtr",
    "ParamDescription"]

/-- The functions of the class. -/
def functionNames : List String :=
  ["__fromServer__", "__toServer__", "__clamp__", "__getDefault__", "__getMax__", "__getMin__",
    "__getParamDescriptions__", "__get_statics__"]

/-- The names that the members declare, in order.  The line of a directive declares none. -/
def memberNames (parameters : List Parameter) : List (List Char) :=
  (members parameters).flatMap fun line =>
    if line.head? = some '#' then []
    else Cpp.Scope.names membersSource (Cpp.Scope.tokens (line.map .char))

/-- The names that the class declares in its own scope: those of the template, and for the
placeholder those of the members. -/
def classNames? (parameters : List Parameter) : Option (List (List Char)) :=
  (Cpp.Scope.ofClass? membersSource classSource Templates.builtin.header.text).map fun names =>
    names.flatMap fun name => if name = membersSource then memberNames parameters else [name]

section Template

/-- The class of the template declares the nested classes and types, then the members, and
then the functions. -/
theorem ofClass?_builtin :
    Cpp.Scope.ofClass? membersSource classSource Templates.builtin.header.text =
      some (nestedNames.map String.toList ++ membersSource :: functionNames.map String.toList) := by
  have hlines : Cpp.Scope.ofClass? membersSource classSource Templates.builtin.header.text =
      (Cpp.Scope.body? classSource (Templates.headerLines.flatMap fun line =>
        Cpp.Scope.tokens (Template.pieces line.toList))).map (Cpp.Scope.names membersSource) := by
    rw [← Cpp.Scope.tokens_ofLines]
    rfl
  rw [hlines, Templates.headerLines]
  set_option maxRecDepth 2000 in
  simp only [List.flatMap_cons, List.flatMap_nil, String.toList_append]
  repeat rw [String.toList_ofList]
  decide +kernel

variable {path : String} {line : Nat} {target : Target} {parameters : List Parameter}

theorem lineValues_configname :
    lineValues path (sharedValues target parameters) line "configname".toList =
      some target.name.toList := by
  have hnumber : ¬ "configname".toList = "linenum".toList := by decide
  have hfile : ¬ "configname".toList = "filename".toList := by decide
  have huname : ("uname".toList == "configname".toList) = false := by decide
  simp only [lineValues, if_neg hnumber, if_neg hfile, Template.Values.ofList, sharedValues,
    List.find?_cons, huname, BEq.rfl, Option.map_some]

/-- The class has the name of the configuration. -/
theorem fill_classSource :
    Template.fill path line (lineValues path (sharedValues target parameters) line) classSource =
      .ok target.configName.toList := by
  have hpieces : Template.pieces classSource =
      .braced "configname".toList :: "Config".toList.map .char := by cbv
  rw [Template.fill, hpieces, Template.fillPieces, Template.Piece.value, lineValues_configname,
    Template.fillPieces_run, Target.configName, String.toList_append]
  rfl

end Template

section Members

/-- A type in front of a name is made of plain tokens, and it is none of the words that begin
other declarations. -/
theorem tokens_cppType (kind : Kind) :
    ∃ first type, Cpp.Scope.tokens (kind.cppType.toList.map .char) = first :: type ∧
      (first ≠ .word membersSource ∧ (∀ label ∈ Cpp.Scope.labels, first ≠ .word label) ∧
        first ≠ .word "class".toList ∧ first ≠ .word "template".toList) ∧
      ∀ token ∈ first :: type,
        (token ≠ .mark '\x7b' ∧ token ≠ .mark '\x7d' ∧ token ≠ .mark ';') ∧
          token ≠ .mark '(' := by
  cases kind with
  | str =>
      exact ⟨.word "std".toList, [.mark ':', .mark ':', .word "string".toList], by decide +kernel,
        by decide, by decide⟩
  | bool => exact ⟨.word "bool".toList, [], by decide +kernel, by decide, by decide⟩
  | int => exact ⟨.word "int".toList, [], by decide +kernel, by decide, by decide⟩
  | double => exact ⟨.word "double".toList, [], by decide +kernel, by decide, by decide⟩

/-- The line for a parameter declares the name of the parameter. -/
theorem names_member {parameter : Parameter} (h : IsIdentifier parameter.name.toList) :
    Cpp.Scope.names membersSource (Cpp.Scope.tokens ((member parameter).map .char)) =
      [parameter.name.toList] := by
  have hne : parameter.name.toList ≠ [] := by
    obtain ⟨c, hc, _⟩ := h.starts
    exact List.ne_nil_of_mem (List.mem_of_mem_head? hc)
  have htokens : Cpp.Scope.tokens ((member parameter).map .char) =
      Cpp.Scope.tokens (parameter.cppType.toList.map .char) ++
        [.word parameter.name.toList, .mark ';'] := by
    have hname : Cpp.Scope.tokens (parameter.name.toList.map .char ++ [.char ';']) =
        [.word parameter.name.toList, .mark ';'] := Cpp.Scope.tokens_word hne h.parts rfl
    rw [member, List.append_assoc, List.cons_append, List.map_append, List.map_cons,
      List.map_append, Cpp.Scope.tokens_append_blank (by decide) (by decide)]
    exact congrArg _ hname
  obtain ⟨first, type, htype, ⟨hhole, hlabel, hclass, htemplate⟩, hplain⟩ :=
    tokens_cppType parameter.kind
  have hsplit : first :: type ++ [.word parameter.name.toList, .mark ';'] =
      first :: (type ++ [.word parameter.name.toList]) ++ [.mark ';'] := by
    simp
  rw [htokens, Parameter.cppType, htype, hsplit]
  exact Cpp.Scope.names_variable hhole hlabel hclass htemplate hplain

/-- Blanks in front of a line are no tokens. -/
theorem tokens_replicate_append (count : Nat) (line : List Char) :
    Cpp.Scope.tokens ((List.replicate count ' ' ++ line).map .char) =
      Cpp.Scope.tokens (line.map .char) := by
  induction count with
  | zero => rfl
  | succ count ih =>
      have hblank : ∀ back, Cpp.Scope.tokens ([] ++ .char ' ' :: back) =
          Cpp.Scope.tokens [] ++ Cpp.Scope.tokens back :=
        fun back => Cpp.Scope.tokens_append_blank (by decide) (by decide)
      rw [List.replicate_succ, List.cons_append, List.map_cons, ← ih]
      exact hblank _

/-- Every parameter declares its name. -/
theorem memberNames_eq {parameters : List Parameter}
    (h : ∀ parameter ∈ parameters, IsIdentifier parameter.name.toList) :
    memberNames parameters = parameters.map fun parameter => parameter.name.toList := by
  induction parameters with
  | nil => rfl
  | cons parameter parameters ih =>
      have hrest : memberNames (parameter :: parameters) =
          memberNames [parameter] ++ memberNames parameters := by
        simp only [memberNames, members, List.flatMap_cons, List.flatMap_nil, List.flatMap_append,
          List.append_nil]
      have hfirst : memberNames [parameter] = [parameter.name.toList] := by
        have hdirective : (Script.directive parameter.location).head? = some '#' := rfl
        have hstatement : (List.replicate 6 ' ' ++ member parameter).head? ≠ some '#' := by
          change some ' ' ≠ some '#'
          decide
        simp only [memberNames, members, Script.attributed, List.flatMap_cons, List.flatMap_nil,
          List.append_nil]
        rw [if_pos hdirective, if_neg hstatement, List.nil_append, tokens_replicate_append,
          names_member (h parameter List.mem_cons_self)]
      rw [hrest, hfirst, ih fun other hother => h other (List.mem_cons_of_mem parameter hother),
        List.map_cons, List.singleton_append]

/-- The class declares the nested classes and types, the parameters, and the functions. -/
theorem classNames?_eq {parameters : List Parameter}
    (h : ∀ parameter ∈ parameters, IsIdentifier parameter.name.toList) :
    classNames? parameters =
      some ((nestedNames ++ parameters.map Parameter.name ++ functionNames).map String.toList) := by
  have hkept : ∀ {names : List String}, (∀ name ∈ names, name.toList ≠ membersSource) →
      ((names.map String.toList).flatMap fun name => if name = membersSource then
        memberNames parameters else [name]) =
        names.map String.toList := by
    intro names hnames
    rw [List.flatMap_map, List.map_eq_flatMap]
    exact List.flatMap_congr fun name hname => if_neg (hnames name hname)
  rw [classNames?, ofClass?_builtin, Option.map_some, List.flatMap_append, List.flatMap_cons,
    if_pos rfl, hkept (by decide +kernel), hkept (by decide +kernel), memberNames_eq h]
  simp only [List.map_append, List.map_map, List.append_assoc, Function.comp_def]

end Members

section Names

variable {text : List Char} {file : String} {manifest : Manifest} {parameters : List Parameter}

/-- The name of a class is no name of the template, and it is a name that a parameter may have. -/
theorem checked_configName {target : Target} (h : IsIdentifier target.name.toList) :
    target.configName ∉ nestedNames ++ functionNames ∧ isCppKeyword target.configName = false ∧
      IsIdentifier target.configName.toList := by
  have hsuffix : "Config".toList <:+ target.configName.toList := by
    rw [Target.configName, String.toList_append]
    exact List.suffix_append _ _
  have hnames : ∀ name ∈ nestedNames ++ functionNames ++ cppKeywords,
      ¬ "Config".toList <:+ name.toList := by decide +kernel
  have hnone : target.configName ∉ nestedNames ++ functionNames ++ cppKeywords :=
    fun hmem => hnames _ hmem hsuffix
  obtain ⟨htemplate, hkeyword⟩ := not_or.mp (mt List.mem_append.mpr hnone)
  refine ⟨htemplate, by simpa [isCppKeyword] using hkeyword, ?_⟩
  have hletters : "Config".toList.all isNamePart = true := by decide +kernel
  rw [Target.configName, String.toList_append]
  exact h.append (List.all_eq_true.mp hletters) (by decide)

/-- Nothing found by the lints means that no name stands twice. -/
theorem nodup_of_run_eq_nil (h : Lint.run Lint.builtin parameters = []) :
    (parameters.map Parameter.name).Nodup := by
  have hcheck : Lint.check .duplicateName parameters = [] := by
    rw [Lint.run, List.flatMap_eq_nil_iff] at h
    exact h .duplicateName (by decide)
  have hrepeats : Lint.repeats [] parameters = [] := by
    rw [← Lint.duplicates_eq_repeats fun _ => rfl]
    exact List.map_eq_nil_iff.mp hcheck
  have hlength := Lint.length_repeats parameters
  rw [hrepeats, List.length_nil, Nat.zero_add, ← List.length_map Parameter.name] at hlength
  exact List.dedup_eq_self.mp ((List.dedup_sublist _).eq_of_length hlength)

/-- **When every name is declared once.**  The class of a manifest declares its nested classes and
types, the parameters and its functions.  The functions have names that no parameter has, since
these begin with two underscores.  The nested classes and types have names that parameters may
have, and so has the class itself: where a parameter has one of them, the name is declared twice,
and nowhere else. -/
theorem declares_once_iff (hread : Manifest.read text file = .ok manifest)
    (hparameters : manifest.parameters = .ok parameters)
    (hlint : Lint.run Lint.builtin parameters = []) :
    (∀ path line, Template.fill path line
      (lineValues path (sharedValues manifest.target parameters) line) classSource =
      .ok manifest.target.configName.toList) ∧
    classNames? parameters =
      some ((nestedNames ++ parameters.map Parameter.name ++ functionNames).map String.toList) ∧
    (∀ parameter ∈ parameters, parameter.name ∉ functionNames) ∧
    ((manifest.target.configName ::
      (nestedNames ++ parameters.map Parameter.name ++ functionNames)).Nodup ↔
      ∀ parameter ∈ parameters, parameter.name ∉ manifest.target.configName :: nestedNames) ∧
    ∀ name ∈ manifest.target.configName :: nestedNames,
      Lint.nameFault? name = none ∧ ∀ span, Manifest.checkName ⟨span, name⟩ = .ok name := by
  have hnames : ∀ parameter ∈ parameters, IsIdentifier parameter.name.toList :=
    fun parameter hparameter =>
      ((Lint.nameFault?_eq_none_iff _).mp
        (Lint.nameFault?_of_read hread hparameters parameter hparameter)).2
  have hfunctions : ∀ parameter ∈ parameters, parameter.name ∉ functionNames := by
    have hreserved : ∀ name ∈ functionNames, ['_', '_'] <+: name.toList := by decide +kernel
    exact fun parameter hparameter hmem =>
      (hnames parameter hparameter).unreserved (hreserved _ hmem)
  obtain ⟨hconfig, hchecked⟩ := checked_configName (Manifest.read_isIdentifier hread)
  refine ⟨fun _ _ => fill_classSource, classNames?_eq hnames, hfunctions, ?_, ?_⟩
  -- The names of the parameters are compared with all others at once, wherever they
  -- stand in the class.
  · have hfixed : (manifest.target.configName :: (nestedNames ++ functionNames)).Nodup :=
      List.nodup_cons.mpr ⟨hconfig, by decide +kernel⟩
    have hperm :
        (manifest.target.configName ::
          (nestedNames ++ parameters.map Parameter.name ++ functionNames)).Perm
        (parameters.map Parameter.name ++
          manifest.target.configName :: (nestedNames ++ functionNames)) := by
      refine .trans (.cons _ (List.perm_append_comm.append_right functionNames)) ?_
      rw [List.append_assoc]
      exact List.perm_middle.symm
    rw [hperm.nodup_iff, List.nodup_append', and_iff_right (nodup_of_run_eq_nil hlint),
      and_iff_right hfixed, List.disjoint_left, List.forall_mem_map]
    refine forall₂_congr fun parameter hparameter => ?_
    simp [hfunctions parameter hparameter]
  · have hnested : ∀ name ∈ nestedNames, Lint.nameFault? name = none := by decide +kernel
    intro name hname
    have hname : isCppKeyword name = false ∧ IsIdentifier name.toList := by
      rcases List.mem_cons.mp hname with rfl | hname
      · exact hchecked
      · exact (Lint.nameFault?_eq_none_iff name).mp (hnested name hname)
    exact ⟨(Lint.nameFault?_eq_none_iff name).mpr hname,
      fun span => Manifest.checkName_eq_ok_iff.mpr ⟨rfl, hname⟩⟩

/-- A manifest whose only parameter has the name of a nested class. -/
def nestedText : List Char :=
  "[generator]\npackage='p'\nnode='n'\nname='N'\n[[param]]\n".toList ++
    "name='AbstractParamDescription'\ntype='str'\ndescription='x'\n".toList

/-- A parameter with the name of a nested class is accepted, nothing is found, and the class
declares its name twice. -/
theorem declares_once_iff_nested :
    ∃ manifest parameters,
      Manifest.read nestedText "m" = .ok manifest ∧
      manifest.parameters = .ok parameters ∧
      Lint.run Lint.builtin parameters = [] ∧
      classNames? parameters =
        some ((nestedNames ++ ["AbstractParamDescription"] ++ functionNames).map String.toList) ∧
      ¬ (manifest.target.configName ::
        (nestedNames ++ parameters.map Parameter.name ++ functionNames)).Nodup := by
  have hdocument : Toml.read nestedText = some [
      (⟨"generator", ⟨1, 10⟩⟩, ⟨⟨0, 11⟩, .table .header [
        (⟨"package", ⟨12, 19⟩⟩, ⟨⟨20, 23⟩, .text "p"⟩),
        (⟨"node", ⟨24, 28⟩⟩, ⟨⟨29, 32⟩, .text "n"⟩),
        (⟨"name", ⟨33, 37⟩⟩, ⟨⟨38, 41⟩, .text "N"⟩)]⟩),
      (⟨"param", ⟨44, 49⟩⟩, ⟨⟨42, 51⟩, .array true [
        ⟨⟨42, 51⟩, .table .header [
          (⟨"name", ⟨52, 56⟩⟩, ⟨⟨57, 83⟩, .text "AbstractParamDescription"⟩),
          (⟨"type", ⟨84, 88⟩⟩, ⟨⟨89, 94⟩, .text "str"⟩),
          (⟨"description", ⟨95, 106⟩⟩, ⟨⟨107, 110⟩, .text "x"⟩)]⟩]⟩)] := by
    cbv
  have hread : Manifest.read nestedText "m" =
      .ok ⟨⟨"p", "n", "N"⟩, none,
        [⟨⟨"AbstractParamDescription", .str, 0, "x", none, none, none, ""⟩, 6⟩], "m"⟩ := by
    refine (Manifest.read_eq_ok_iff hdocument ⟨?_, ?_⟩).mpr ⟨by decide, ?_, Or.inl ?_, rfl⟩
    · rintro _ ⟨⟩
      exact ⟨_, _, rfl⟩
    · rintro _ _ _ ⟨⟩ item hitem
      rw [List.mem_singleton.mp hitem]
      exact ⟨_, _, rfl⟩
    · exact ⟨_, _, _, rfl, by decide, ⟨_, rfl⟩, ⟨_, rfl⟩, ⟨_, rfl⟩, rfl,
        (IdentifierFault.of?_eq_none_iff _).mp (by decide)⟩
    · obtain ⟨hkeyword, hname⟩ :=
        (Lint.nameFault?_eq_none_iff "AbstractParamDescription").mp (by decide +kernel)
      exact ⟨_, _, _, rfl,
        .cons ⟨_, _, rfl, by decide, ⟨_, rfl, by decide +kernel⟩, hname, hkeyword, ⟨_, rfl⟩,
          Or.inr ⟨rfl, rfl⟩, ⟨some "x", ⟨_, rfl⟩, rfl⟩, rfl, rfl, rfl, none, rfl, rfl⟩ .nil⟩
  have hparameters : Manifest.parameters
      ⟨⟨"p", "n", "N"⟩, none,
        [⟨⟨"AbstractParamDescription", .str, 0, "x", none, none, none, ""⟩, 6⟩], "m"⟩ =
        .ok [⟨"AbstractParamDescription", .str "", 0, "x", "", ⟨"m", 6⟩⟩] := by
    rfl
  have hlint :
      Lint.run Lint.builtin [⟨"AbstractParamDescription", .str "", 0, "x", "", ⟨"m", 6⟩⟩] = [] := by
    decide +kernel
  obtain ⟨_, hnames, _, hnodup, _⟩ := declares_once_iff hread hparameters hlint
  refine ⟨_, _, hread, hparameters, hlint, hnames, mt hnodup.mp fun hfree => ?_⟩
  exact hfree _ (List.mem_singleton.mpr rfl) (by decide)

end Names

end Header
end Tunables
