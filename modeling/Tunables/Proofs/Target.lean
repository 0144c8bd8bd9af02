import Tunables.Artifact.Basic
import Tunables.Proofs.Files.Place

/-!
# Places of generated and obsolete files

Every generated file and every file of the older scheme has a name in a directory, and the names
tell these files apart: only the header and the header of the messages have the same one.

* `placeFrom_file`: a file lies below the place of its directory.
* `segments_below`, `placeFrom_below`, `passes_below_iff`, `parent?_below`: paths of plain names.
* `Target.Names`: the files of a run, whose names are plain.
* `fileName_injective`, `obsoleteNames_nodup`, `eq_header_of_fileName_eq`: which names are the same.
* `Target.Names.not_prefix`, `Target.Names.name_eq_or`: the files of two targets are not in each
  other's way, and they are the same only if the targets have one name, but for the marker.
-/

namespace Tunables

open Tunables.Tree (IsOrdinary Passes Place placeFrom)

/-- A text that names something in a directory. -/
structure IsEntryName (name : String) : Prop where
  ordinary : IsOrdinary name.toList
  slashless : '/' ∉ name.toList

section Names

variable {name : String} {names : List String} {left : Path}

theorem isEntryName_of_mem {c : Char} (hmem : c ∈ name.toList) (hc : c ≠ '.')
    (hslash : '/' ∉ name.toList) :
    IsEntryName name := by
  refine ⟨⟨?_, ?_, ?_⟩, hslash⟩
  · exact List.ne_nil_of_mem hmem
  · intro h
    rw [h] at hmem
    exact hc (by simpa using hmem)
  · intro h
    rw [h] at hmem
    exact hc (by simpa using hmem)

theorem IsEntryName.isAbsolute (h : IsEntryName name) :
    (Path.ofString name).isAbsolute = false := by
  refine Bool.eq_false_iff.mpr fun habs => h.slashless ?_
  have hhead : name.toList.head? = some '/' := by simpa [Path.isAbsolute, Path.ofString] using habs
  exact List.mem_of_mem_head? hhead

theorem IsEntryName.segments (h : IsEntryName name) :
    (Path.ofString name).segments = [name.toList] :=
  Text.cut_of_not_mem h.slashless

theorem IsEntryName.isComponent (h : IsEntryName name) : Path.isComponent name.toList = true := by
  simp [Path.isComponent, h.ordinary.ne_nil, h.ordinary.ne_dot]

/-- A file lies below the place of its directory. -/
theorem placeFrom_file (h : IsEntryName name) (working : Place) (root directory : Path) :
    placeFrom working (root.join (directory.join (.ofString name))) =
      placeFrom working (root.join directory) ++ [name.toList] := by
  rw [← Path.join_assoc, Tree.placeFrom_join h.isAbsolute, h.segments]
  exact Tree.advance_of_isOrdinary h.ordinary _

theorem segments_join_name (h : IsEntryName name) (hleft : left.segments.getLast? ≠ some []) :
    (left.join (.ofString name)).segments = left.segments ++ [name.toList] := by
  obtain ⟨front, hjoin, hfront | hfront⟩ := Path.segments_join left h.isAbsolute
  · rw [hjoin, hfront, h.segments]
  · simp [hfront] at hleft

end Names

namespace Target

section Below

variable {name : String} {names : List String}

theorem below_concat (names : List String) (name : String) :
    below (names ++ [name]) = (below names).join (.ofString name) := by
  simp [below]

/-- Names one below the other are the segments of their path. -/
theorem segments_below (hne : names ≠ []) (h : ∀ name ∈ names, IsEntryName name) :
    (below names).segments = names.map String.toList := by
  obtain ⟨reversed, rfl⟩ : ∃ reversed, names = reversed.reverse := ⟨names.reverse, by simp⟩
  induction reversed with
  | nil =>
      exact absurd rfl hne
  | cons name reversed ih =>
      rw [List.reverse_cons] at h ⊢
      have hname := h name (by simp)
      rw [below_concat]
      cases reversed with
      | nil =>
          have hjoin : (below []).join (.ofString name) = .ofString name := by
            simp [below, Path.join]
          exact (congrArg Path.segments hjoin).trans hname.segments
      | cons last before =>
          have hbefore := ih (by simp) fun other hother => h other (List.mem_append_left _ hother)
          rw [segments_join_name hname, hbefore]
          · simp
          · have hlast := h last (by simp)
            rw [hbefore, List.reverse_cons, List.map_append]
            simpa using hlast.ordinary.ne_nil

theorem isAbsolute_below (hne : names ≠ []) (h : ∀ name ∈ names, IsEntryName name) :
    (below names).isAbsolute = false := by
  refine Bool.eq_false_iff.mpr fun habs => ?_
  obtain ⟨rest, _, hsegments⟩ := Path.isAbsolute_iff.mp habs
  rw [segments_below hne h] at hsegments
  cases names with
  | nil =>
      exact hne rfl
  | cons name names =>
      exact (h name (by simp)).ordinary.ne_nil (List.cons.inj hsegments).1

theorem placeFrom_below (hne : names ≠ []) (h : ∀ name ∈ names, IsEntryName name) (working : Place)
    (root : Path) :
    placeFrom working (root.join (below names)) =
      placeFrom working root ++ names.map String.toList := by
  rw [Tree.placeFrom_join (isAbsolute_below hne h), segments_below hne h]
  refine Tree.follow_of_isOrdinary (fun segment hsegment => ?_) _
  obtain ⟨name, hname, rfl⟩ := List.mem_map.mp hsegment
  exact (h name hname).ordinary

theorem passes_below_iff (hne : names ≠ []) (h : ∀ name ∈ names, IsEntryName name)
    (working place : Place) (root : Path) :
    Passes working (root.join (below names)) place ↔ Passes working root place ∨
      ∃ front, front <+: names.map String.toList ∧ place = placeFrom working root ++ front := by
  have hordinary : ∀ segment ∈ names.map String.toList, IsOrdinary segment := by
    intro segment hsegment
    obtain ⟨name, hname, rfl⟩ := List.mem_map.mp hsegment
    exact (h name hname).ordinary
  rw [Tree.passes_join_iff (isAbsolute_below hne h), segments_below hne h,
    Tree.onWay_iff_of_isOrdinary hordinary]

/-- The directory of a path of names has all names but the last one. -/
theorem parent?_below (hne : names ≠ []) (h : ∀ name ∈ names, IsEntryName name)
    (hname : IsEntryName name) : (below (names ++ [name])).parent? = some (below names) := by
  have hall : ∀ other ∈ names ++ [name], IsEntryName other := by
    intro other hother
    rcases List.mem_append.mp hother with hother | hother
    · exact h other hother
    · rw [List.mem_singleton.mp hother]
      exact hname
  have htrim : ∀ (others : List String), (∀ other ∈ others, IsEntryName other) →
      Path.trimSegments (others.map String.toList) = others.map String.toList := by
    intro others hothers
    refine Path.trimSegments_of_isComponent fun segment hsegment => ?_
    obtain ⟨other, hother, rfl⟩ := List.mem_map.mp hsegment
    exact (hothers other hother).isComponent
  have hbelow : below names = ⟨Text.join ['/'] (names.map String.toList)⟩ := by
    rw [← segments_below hne h]
    exact congrArg Path.mk (Text.join_cut '/' _).symm
  rw [Path.parent?, segments_below (by simp) hall, htrim _ hall, List.map_append,
    List.reverse_append]
  simp [htrim names h, hbelow, hne]

end Below

/-- The header of the older scheme: the names of its directory, and its own name. -/
def obsoleteHeader (target : Target) : List String × String :=
  (["msg", "cpp", target.package], target.configName ++ ".h")

/-- The files of the older scheme. -/
def obsoleteFiles (target : Target) : List (List String × String) := [
  (["msg"], target.configName ++ ".msg"),
  target.obsoleteHeader,
  (["srv"], "Get" ++ target.configName ++ ".srv"),
  (["srv", "cpp", target.package], "Get" ++ target.configName ++ ".h"),
  (["srv"], "Set" ++ target.configName ++ ".srv"),
  (["srv", "cpp", target.package], "Set" ++ target.configName ++ ".h")]

/-- The path of a file that is given by the names of its directory and its own one. -/
def filePath (file : List String × String) : Path :=
  (below file.1).join (.ofString file.2)

theorem obsoletePaths_eq (target : Target) :
    target.obsoletePaths = target.obsoleteFiles.map filePath := by
  simp [obsoletePaths, obsoleteFiles, obsoleteHeader, filePath, below]

theorem mem_obsoletePaths_iff {target : Target} {path : Path} :
    path ∈ target.obsoletePaths ↔ ∃ file ∈ target.obsoleteFiles, filePath file = path := by
  rw [obsoletePaths_eq, List.mem_map]

theorem obsoleteHeader_mem (target : Target) : target.obsoleteHeader ∈ target.obsoleteFiles := by
  simp [obsoleteFiles]

end Target

namespace Artifact

/-- The names of the directory of a generated file, and its own name. -/
def file (target : Target) : Artifact → List String × String
  | .header => (["cfg", "cpp", target.package], target.configName ++ ".h")
  | .reference => (["dox"], target.configName ++ ".dox")
  | .usage => (["dox"], target.configName ++ "-usage.dox")
  | .scripting => (["src", target.package, "cfg"], target.configName ++ ".py")
  | .marker => (["src", target.package, "cfg"], "__init__.py")

theorem path_eq (target : Target) (artifact : Artifact) :
    artifact.path target = Target.filePath (artifact.file target) := by
  cases artifact <;> rfl

theorem mem_all (artifact : Artifact) : artifact ∈ all := by
  cases artifact <;> decide

end Artifact

/-- A file that a run writes or removes. -/
inductive Target.Names (target : Target) : List String × String → Prop
  | generated (artifact : Artifact) : Names target (artifact.file target)
  | obsolete {file : List String × String} (hfile : file ∈ target.obsoleteFiles) : Names target file

section Files

variable {target : Target} {file : List String × String}

/-- The names of the files are plain if the name of the configuration has no slashes. -/
theorem Target.Names.isEntryName (hfile : target.Names file) (h : '/' ∉ target.name.toList) :
    IsEntryName file.2 := by
  have hname : ∀ stem suffix, '/' ∉ stem.toList → '/' ∉ suffix.toList →
      IsEntryName (stem ++ target.configName ++ suffix) := by
    intro stem suffix hstem hsuffix
    refine isEntryName_of_mem (c := 'C') (by simp [Target.configName]) (by decide) ?_
    simp [Target.configName, h, hstem, hsuffix]
  cases hfile with
  | generated artifact =>
      cases artifact with
      | marker =>
          show IsEntryName "__init__.py"
          exact isEntryName_of_mem (c := 'n') (by decide) (by decide) (by decide)
      | header | reference | usage | scripting =>
          simpa [Artifact.file] using hname "" _ (by decide) (by decide)
  | obsolete hfile =>
      simp only [Target.obsoleteFiles, Target.obsoleteHeader, List.mem_cons, List.not_mem_nil,
        or_false] at hfile
      rcases hfile with rfl | rfl | rfl | rfl | rfl | rfl
      · simpa using hname "" ".msg" (by decide) (by decide)
      · simpa using hname "" ".h" (by decide) (by decide)
      · exact hname "Get" ".srv" (by decide) (by decide)
      · exact hname "Get" ".h" (by decide) (by decide)
      · exact hname "Set" ".srv" (by decide) (by decide)
      · exact hname "Set" ".h" (by decide) (by decide)

theorem Target.Names.text_ne_nil (hfile : target.Names file) (h : '/' ∉ target.name.toList) :
    (Target.filePath file).text ≠ [] :=
  Path.text_join_ne_nil (Or.inr (hfile.isEntryName h).ordinary.ne_nil)

theorem isEntryName_of_mem_fixed {name : String}
    (h : name ∈ ["cfg", "cpp", "dox", "msg", "src", "srv"]) :
    IsEntryName name := by
  simp only [List.mem_cons, List.not_mem_nil, or_false] at h
  rcases h with rfl | rfl | rfl | rfl | rfl | rfl <;>
    exact ⟨⟨by decide, by decide, by decide⟩, by decide⟩

/-- The directories have the name of the package and fixed names. -/
theorem Target.Names.mem_directory (hfile : target.Names file) :
    file.1 ≠ [] ∧ ∀ name ∈ file.1,
      name = target.package ∨ name ∈ ["cfg", "cpp", "dox", "msg", "src", "srv"] := by
  cases hfile with
  | generated artifact =>
      cases artifact <;> simp [Artifact.file]
  | obsolete hfile =>
      simp only [Target.obsoleteFiles, Target.obsoleteHeader, List.mem_cons, List.not_mem_nil,
        or_false] at hfile
      rcases hfile with rfl | rfl | rfl | rfl | rfl | rfl <;> simp

/-- The names of the directories are plain if that of the package is. -/
theorem Target.Names.directory (hfile : target.Names file) (h : IsEntryName target.package) :
    file.1 ≠ [] ∧ ∀ name ∈ file.1, IsEntryName name := by
  refine ⟨hfile.mem_directory.1, fun name hmem => ?_⟩
  rcases hfile.mem_directory.2 name hmem with rfl | hfixed
  · exact h
  · exact isEntryName_of_mem_fixed hfixed

theorem ne_marker_of_mem {name : String} (h : 'C' ∈ name.toList) : name ≠ "__init__.py" := by
  rintro rfl
  exact absurd h (by decide)

theorem append_ne_append {suffix suffix' : String} (hne : suffix ≠ "") (hne' : suffix' ≠ "")
    (h : suffix.toList.getLast? ≠ suffix'.toList.getLast?) (stem stem' : String) :
    stem ++ suffix ≠ stem' ++ suffix' := by
  intro hsame
  have hlast := congrArg (fun text => text.toList.getLast?) hsame
  have hlist : suffix.toList ≠ [] := by simpa using hne
  have hlist' : suffix'.toList ≠ [] := by simpa using hne'
  simp only [String.toList_append, List.getLast?_append, List.getLast?_eq_some_getLast hlist,
    List.getLast?_eq_some_getLast hlist', Option.some_or] at hlast h
  exact h hlast

theorem ne_append_self {stem : String} (h : stem ≠ "") (text : String) : text ≠ stem ++ text := by
  intro hsame
  have hlength := congrArg String.length hsame
  simp at hlength
  exact h hlength

/-- Different generated files have different names. -/
theorem fileName_injective {first second : Artifact}
    (h : (first.file target).2 = (second.file target).2) : first = second := by
  have hmarker : ∀ suffix, target.configName ++ suffix ≠ "__init__.py" :=
    fun suffix => ne_marker_of_mem (by simp [Target.configName])
  cases first <;> cases second <;> simp [Artifact.file, hmarker, Ne.symm (hmarker _)] at h ⊢

/-- Different obsolete files have different names. -/
theorem obsoleteNames_nodup (target : Target) : (target.obsoleteFiles.map Prod.snd).Nodup := by
  have hget := @ne_append_self "Get" (by decide) target.configName
  have hset := @ne_append_self "Set" (by decide) target.configName
  simp (disch := decide) [Target.obsoleteFiles, Target.obsoleteHeader, append_ne_append, hget, hset]

/-- Only the header has the name of an obsolete file. -/
theorem eq_header_of_fileName_eq {artifact : Artifact} (hfile : file ∈ target.obsoleteFiles)
    (h : (artifact.file target).2 = file.2) :
    artifact = .header ∧ file = target.obsoleteHeader := by
  have hget := @ne_append_self "Get" (by decide) target.configName
  have hset := @ne_append_self "Set" (by decide) target.configName
  simp only [Target.obsoleteFiles, Target.obsoleteHeader, List.mem_cons, List.not_mem_nil, or_false]
    at hfile ⊢
  cases artifact with
  | marker =>
      have hmem : 'C' ∈ file.2.toList := by
        rcases hfile with rfl | rfl | rfl | rfl | rfl | rfl <;> simp [Target.configName]
      exact absurd h.symm (ne_marker_of_mem hmem)
  | header | reference | usage | scripting =>
      rcases hfile with rfl | rfl | rfl | rfl | rfl | rfl <;>
        simp (disch := decide) [Artifact.file, append_ne_append, hget, hset] at h ⊢

/-- No obsolete file has a longer name than the example of a launch file. -/
theorem byteLength_obsolete_le (hfile : file ∈ target.obsoleteFiles) :
    Text.byteLength file.2.toList ≤ Text.byteLength (Artifact.file target .usage).2.toList := by
  have hstems : Text.byteLength "Get".toList = 3 ∧ Text.byteLength "Set".toList = 3 := by decide
  have hsuffixes : Text.byteLength ".msg".toList = 4 ∧ Text.byteLength ".srv".toList = 4 ∧
      Text.byteLength ".h".toList = 2 ∧ Text.byteLength "-usage.dox".toList = 10 := by decide
  simp only [Target.obsoleteFiles, Target.obsoleteHeader, List.mem_cons, List.not_mem_nil, or_false]
    at hfile
  rcases hfile with rfl | rfl | rfl | rfl | rfl | rfl <;>
    rw [Artifact.file] <;> simp only [String.toList_append, Text.byteLength_append] <;> omega

end Files

section Pairs

variable {first second : Target} {file other : List String × String}

/-- The directories of files are at most three names deep, and only in the directory of scripts does
the name of the package come second. -/
theorem Target.Names.directory_depth (hfile : first.Names file) :
    file.1.length ≤ 3 ∧ ∀ top next, [top, next] <+: file.1 → top = "src" ∨ next = "cpp" := by
  cases hfile with
  | generated artifact =>
      cases artifact <;> simp +contextual [Artifact.file, List.cons_prefix_cons]
  | obsolete hfile =>
      simp only [obsoleteFiles, obsoleteHeader, List.mem_cons, List.not_mem_nil, or_false] at hfile
      rcases hfile with rfl | rfl | rfl | rfl | rfl | rfl <;>
        simp +contextual [List.cons_prefix_cons]

/-- A file either lies three directories deep, or in one that is not the directory of scripts. -/
theorem Target.Names.directory_cases (hfile : first.Names file) :
    file.1.length = 3 ∨ ∃ top, file.1 = [top] ∧ top ≠ "src" ∧ 'C' ∈ file.2.toList := by
  cases hfile with
  | generated artifact =>
      cases artifact <;> simp [Artifact.file, configName]
  | obsolete hfile =>
      simp only [obsoleteFiles, obsoleteHeader, List.mem_cons, List.not_mem_nil, or_false] at hfile
      rcases hfile with rfl | rfl | rfl | rfl | rfl | rfl <;> simp [configName]

/-- No file has the path of a directory with files, be it that of another target. -/
theorem Target.Names.not_prefix (hfile : first.Names file) (hother : second.Names other) :
    ¬ file.1 ++ [file.2] <+: other.1 := by
  intro hprefix
  obtain ⟨hdepth, hnext⟩ := hother.directory_depth
  rcases hfile.directory_cases with hthree | ⟨top, htop, hsrc, hname⟩
  · have hlength := hprefix.length_le
    rw [List.length_append, hthree, List.length_singleton] at hlength
    omega
  · rw [htop] at hprefix
    rcases hnext top file.2 hprefix with rfl | hcpp
    · exact hsrc rfl
    · rw [hcpp] at hname
      exact absurd hname (by decide)

theorem dox_ne_usage (stem stem' : String) :
    stem ++ "Config" ++ ".dox" ≠ stem' ++ "Config" ++ "-usage.dox" := by
  intro hsame
  have hlist : stem.toList ++ "Config.dox".toList =
      (stem' ++ "Config").toList ++ "-usage.dox".toList := by
    simpa using congrArg String.toList hsame
  have hlast : "Config.dox".toList = "-usage.dox".toList := (List.append_inj' hlist (by decide)).2
  exact absurd hlast (by decide)

theorem get_ne_set (text text' : String) : "Get" ++ text ≠ "Set" ++ text' := by
  intro hsame
  have hhead := congrArg (fun name => name.toList.head?) hsame
  simp at hhead

/-- Targets with different names share no file but the marker. -/
theorem Target.Names.name_eq_or (hfile : first.Names file) (hother : second.Names other)
    (hsame : file = other) :
    first.name = second.name ∨ file = Artifact.file first .marker := by
  have hmarker : first.name ++ "Config" ++ ".py" ≠ "__init__.py" := ne_marker_of_mem (by simp)
  have hmarker' : "__init__.py" ≠ second.name ++ "Config" ++ ".py" :=
    Ne.symm (ne_marker_of_mem (by simp))
  cases hfile with
  | generated artifact =>
      cases hother with
      | generated other =>
          cases artifact <;> cases other <;>
            simp [Artifact.file, configName, dox_ne_usage, Ne.symm (dox_ne_usage _ _), hmarker,
              hmarker'] at hsame ⊢ <;>
            first | exact hsame | exact hsame.2
      | obsolete hfile =>
          simp only [obsoleteFiles, obsoleteHeader, List.mem_cons, List.not_mem_nil, or_false]
            at hfile
          rcases hfile with rfl | rfl | rfl | rfl | rfl | rfl <;> cases artifact <;>
            simp [Artifact.file] at hsame
  | obsolete hfile =>
      simp only [obsoleteFiles, obsoleteHeader, List.mem_cons, List.not_mem_nil, or_false] at hfile
      cases hother with
      | generated other =>
          rcases hfile with rfl | rfl | rfl | rfl | rfl | rfl <;> cases other <;>
            simp [Artifact.file] at hsame
      | obsolete hother =>
          simp only [obsoleteFiles, obsoleteHeader, List.mem_cons, List.not_mem_nil, or_false]
            at hother
          rcases hfile with rfl | rfl | rfl | rfl | rfl | rfl <;>
            rcases hother with rfl | rfl | rfl | rfl | rfl | rfl <;>
            simp [configName, get_ne_set, Ne.symm (get_ne_set _ _)] at hsame ⊢ <;>
            first | exact Or.inl hsame | exact Or.inl hsame.2

end Pairs

end Tunables
