import Mathlib
import Tunables.Proofs.Generation.Run
import Tunables.Proofs.Manifest
import Tunables.Proofs.Template.Positional

/-!
# When a run removes what it has written

The header has the same name as one of the obsolete files, and both lie in a directory with the name
of the package.  That name is not checked, so that it can lead both of them to one place: if it is
absolute, and if it climbs above the two directories in front of it.

* `follow_eq_iff_climbs`: where names lead from two places that differ.
* `headerPlace_eq_iff`: when the two headers have one place.
* `written_survives_iff`: when everything that was written is still there after the run.
-/

namespace Tunables

namespace Generation

open Tunables.Tree

/-- Names lead above a place that is as many directories up as the height says. -/
def climbs : Nat → List (List Char) → Bool
  | 0, _ => true
  | _ + 1, [] => false
  | height + 1, name :: rest =>
      if name = [] ∨ name = ['.'] then climbs (height + 1) rest
      else if name = ['.', '.'] then climbs height rest
      else climbs (height + 2) rest

section Climbing

variable {base first second : Place} {a b : List Char} {names : List (List Char)}

/-- From two directories names lead to one place if they climb above the point at which the
directories part, and not otherwise. -/
theorem follow_eq_iff_climbs (hne : a ≠ b) (hlength : first.length = second.length) :
    follow (base ++ a :: first) names = follow (base ++ b :: second) names ↔
      climbs (first.length + 1) names = true := by
  induction names generalizing first second with
  | nil =>
      simp [climbs, hne]
  | cons name names ih =>
      rw [follow_cons, follow_cons, climbs]
      rcases isOrdinary_or name with hordinary | hstay | hdots
      · have hdots : ¬ (name = [] ∨ name = ['.']) :=
          fun h => h.elim hordinary.ne_nil hordinary.ne_dot
        have hdeeper : (first ++ [name]).length = (second ++ [name]).length := by simp [hlength]
        have hboth := ih hdeeper
        rw [List.length_append, List.length_singleton] at hboth
        rw [advance_of_isOrdinary hordinary, advance_of_isOrdinary hordinary, if_neg hdots,
          if_neg hordinary.ne_dots, ← hboth]
        simp
      · rw [if_pos hstay, advance, if_pos hstay, advance, if_pos hstay]
        exact ih hlength
      · subst hdots
        rw [if_neg (by decide), if_pos rfl, advance, if_neg (by decide), if_pos rfl, advance,
          if_neg (by decide), if_pos rfl]
        cases first with
        | nil =>
            obtain rfl : second = [] := List.length_eq_zero_iff.mp hlength.symm
            simp [climbs]
        | cons c first =>
            obtain ⟨d, second, rfl⟩ := List.exists_cons_of_length_eq_add_one hlength.symm
            have hboth := @ih (c :: first).dropLast (d :: second).dropLast (by simpa using hlength)
            simpa using hboth

end Climbing

section Headers

variable {tree : Tree} {root : Path} {target : Target}

theorem header_file (target : Target) :
    Artifact.file target .header = (["cfg", "cpp", target.package], target.configName ++ ".h") :=
  rfl

theorem isEntryName_obsoleteHeader (hslash : '/' ∉ target.name.toList) :
    IsEntryName (target.configName ++ ".h") :=
  (Target.Names.obsolete target.obsoleteHeader_mem).isEntryName hslash

theorem placeOf_packageDirectory (hrelative : (Path.ofString target.package).isAbsolute = false)
    {first second : String} (hfirst : IsEntryName first) (hsecond : IsEntryName second) :
    tree.placeOf (root.join (Target.below [first, second, target.package])) =
      follow (tree.placeOf root ++ [first.toList, second.toList])
        (Path.ofString target.package).segments := by
  have hnames : ∀ name ∈ [first, second], IsEntryName name := by
    simp [hfirst, hsecond]
  have hbelow := Target.below_concat [first, second] target.package
  rw [List.cons_append, List.cons_append, List.nil_append] at hbelow
  rw [hbelow, ← Path.join_assoc, placeOf, placeFrom_join hrelative,
    Target.placeFrom_below (by simp) hnames]
  rfl

/-- If the name of the package is relative, the two headers have one place if the name climbs,
and not otherwise. -/
theorem headerPlace_eq_iff (hslash : '/' ∉ target.name.toList)
    (hrelative : (Path.ofString target.package).isAbsolute = false) :
    artifactPlace tree root target .header = placeIn tree root target.obsoleteHeader ↔
      climbs 2 (Path.ofString target.package).segments = true := by
  have hcfg : IsEntryName "cfg" := isEntryName_of_mem_fixed (by simp)
  have hmsg : IsEntryName "msg" := isEntryName_of_mem_fixed (by simp)
  have hcpp : IsEntryName "cpp" := isEntryName_of_mem_fixed (by simp)
  rw [artifactPlace_eq, placeIn_eq (.generated .header) hslash,
    placeIn_eq (.obsolete target.obsoleteHeader_mem) hslash, header_file, Target.obsoleteHeader,
    List.append_left_inj, placeOf_packageDirectory hrelative hcfg hcpp,
    placeOf_packageDirectory hrelative hmsg hcpp]
  exact follow_eq_iff_climbs (by decide) rfl

theorem filePath_eq_of_isAbsolute (habsolute : (Path.ofString target.package).isAbsolute = true) :
    Artifact.path target .header = Target.filePath target.obsoleteHeader := by
  simp [Artifact.path, Target.headerPath, Target.obsoleteHeader, Target.filePath, Target.below,
    Path.join_of_isAbsolute habsolute]

/-- The two headers have the same path only if the name of the package is absolute. -/
theorem filePath_ne (hslash : '/' ∉ target.name.toList)
    (hrelative : (Path.ofString target.package).isAbsolute = false) :
    Artifact.path target .header ≠ Target.filePath target.obsoleteHeader := by
  have hname := (isEntryName_obsoleteHeader hslash).isAbsolute
  rw [Artifact.path_eq, header_file]
  intro hsame
  have htext := congrArg Path.text hsame
  simp only [Target.filePath, Target.obsoleteHeader] at htext hname
  rw [Path.text_join _ hname, Path.text_join _ hname] at htext
  have hcfg : Target.below ["cfg", "cpp", target.package] =
      (Target.below ["cfg", "cpp"]).join (.ofString target.package) := rfl
  have hmsg : Target.below ["msg", "cpp", target.package] =
      (Target.below ["msg", "cpp"]).join (.ofString target.package) := rfl
  rw [hcfg, hmsg, Path.text_join _ hrelative, Path.text_join _ hrelative] at htext
  have hhead := congrArg List.head? htext
  have hfirst : (Target.below ["cfg", "cpp"]).text = "cfg/cpp".toList := by decide
  have hsecond : (Target.below ["msg", "cpp"]).text = "msg/cpp".toList := by decide
  rw [hfirst, hsecond] at hhead
  simp at hhead

end Headers

section Directories

variable {tree : Tree} {path : Path} {name : String}

/-- If a path leads to a name, then the path without the name leads to a directory. -/
theorem kind?_of_reaches (h : tree.IsPlain) (hname : IsEntryName name) (htext : path.text ≠ [])
    (hreaches : tree.Reaches (path.join (.ofString name))) : tree.kind? path = some .directory := by
  obtain ⟨hcheck, hpassable⟩ := hreaches
  have htexts : path.text <+: (path.join (.ofString name)).text := by
    rw [Path.text_join _ hname.isAbsolute, List.append_assoc]
    exact List.prefix_append _ _
  obtain ⟨front, hjoin, hfront⟩ := Path.segments_join path hname.isAbsolute
  rw [origin_eq_of_isAbsolute_eq (Path.isAbsolute_join hname.isAbsolute), hjoin] at hpassable
  have hdirectory := hpassable.directory (by simp [hname.segments])
  have hpassable := (isPassable_append.mp hpassable).1
  refine (kind?_eq_directory_iff h).mpr ⟨⟨checkPath_of_front htexts htext hcheck, ?_⟩, ?_⟩
  · rcases hfront with hfront | hfront
    · rw [hfront]
      exact hpassable
    · rw [hfront, isPassable_append]
      exact ⟨hpassable, isPassable_of_not_isComponent hdirectory (by decide)⟩
  · rw [placeOf, placeFrom]
    rcases hfront with hfront | hfront
    · rw [hfront]
      exact hdirectory
    · rw [hfront, follow_append, follow_cons, advance_nil, follow_nil]
      exact hdirectory

theorem join_obsoleteHeader (root : Path) (target : Target) :
    root.join (Target.filePath target.obsoleteHeader) =
      (root.join (Target.below ["msg", "cpp", target.package])).join
        (.ofString (target.configName ++ ".h")) := by
  rw [Path.join_assoc]
  rfl

theorem kind?_of_obsoleteHeader {root : Path} {target : Target} (h : tree.IsPlain)
    (hslash : '/' ∉ target.name.toList)
    (hreaches : tree.Reaches (root.join (Target.filePath target.obsoleteHeader))) :
    tree.kind? (root.join (Target.below ["msg", "cpp", target.package])) = some .directory := by
  have hname := isEntryName_obsoleteHeader hslash
  have hbelow : (Target.below ["msg", "cpp", target.package]).text ≠ [] :=
    Path.text_join_ne_nil (Or.inl (by decide))
  rw [join_obsoleteHeader] at hreaches
  exact kind?_of_reaches h hname (Path.text_join_ne_nil (Or.inr hbelow)) hreaches

end Directories

/-- A path still leads to the text that was rendered for it. -/
def Survives (after : Tree) (root : Path) (target : Target) (parameters : List Parameter)
    (templates : Templates) (path : Path) : Prop :=
  ∃ artifact text, Artifact.path target artifact = path ∧
    artifact.render target parameters templates = .ok text ∧
    after.readText (root.join path) = .ok text

/-- The name of the package leads the header and the header of the older scheme to one place, and
the directory of the latter can be reached. -/
def Overlaps (after : Tree) (root : Path) (package : String) : Prop :=
  (Path.ofString package).isAbsolute = true ∨
    climbs 2 (Path.ofString package).segments = true ∧
      after.kind? (root.join (Target.below ["msg", "cpp", package])) = some .directory

section Runs

variable {before middle after : Tree} {root path : Path} {target : Target}
  {parameters : List Parameter} {templates : Templates} {outcomes : List (Path × Outcome)}
  {removed : List Path} {artifact : Artifact}

/-- A file that was written is there after the run, unless it was removed as an obsolete one. -/
theorem IsRun.survives_or
    (h : IsRun before middle after root target parameters templates outcomes removed)
    (hwritten : (artifact.path target, .written) ∈ outcomes) :
    Survives after root target parameters templates (artifact.path target) ∨
      artifact = .header ∧ Target.filePath target.obsoleteHeader ∈ removed ∧
        artifactPlace before root target .header = placeIn before root target.obsoleteHeader := by
  by_cases hheader : artifact = .header ∧ Target.filePath target.obsoleteHeader ∈ removed ∧
      artifactPlace before root target .header = placeIn before root target.obsoleteHeader
  · exact Or.inr hheader
  · obtain ⟨text, hcontent, hread⟩ := h.readText_eq_ok hwritten fun file hfile hmem hplace => by
      obtain ⟨rfl, rfl⟩ := eq_header_of_place_eq h.slashless hfile hplace
      exact hheader ⟨rfl, hmem, hplace⟩
    exact Or.inl ⟨artifact, text, rfl, hcontent, hread⟩

theorem Survives.exists_file
    (h : Survives after root target parameters templates (artifact.path target))
    (hkeeps : Keeps before after) (hplain : after.IsPlain) :
    ∃ content, after.node? (artifactPlace before root target artifact) = some (.file content) := by
  obtain ⟨_, text, _, _, hread⟩ := h
  have hnode := ((readText_eq_ok_iff hplain).mp hread).2
  rw [hkeeps.placeOf_eq] at hnode
  exact ⟨_, hnode⟩

/-- A header that has the place of an obsolete file is gone when that file was removed. -/
theorem IsRun.not_survives
    (h : IsRun before middle after root target parameters templates outcomes removed)
    (hmem : Target.filePath target.obsoleteHeader ∈ removed)
    (hplace : artifactPlace before root target .header =
      placeIn before root target.obsoleteHeader) :
    ¬ Survives after root target parameters templates (Artifact.path target .header) := by
  intro hsurvives
  obtain ⟨content, hnode⟩ := hsurvives.exists_file h.keeps h.loses.isPlain
  have hgone := (h.gone hmem).2.2
  rw [← hplace, hnode] at hgone
  cases hgone

/-- If the two headers have one place, then the header is removed whenever the directory of the
obsolete one can be reached. -/
theorem IsRun.removes_header_iff
    (h : IsRun before middle after root target parameters templates outcomes removed)
    (hplace : artifactPlace before root target .header =
      placeIn before root target.obsoleteHeader) :
    Target.filePath target.obsoleteHeader ∈ removed ↔
      after.kind? (root.join (Target.below ["msg", "cpp", target.package])) = some .directory := by
  constructor
  · intro hmem
    exact kind?_of_obsoleteHeader h.loses.isPlain h.slashless (h.gone hmem).1
  · intro hkind
    refine Decidable.byContradiction fun hkept => ?_
    obtain ⟨place, hpass, hnone⟩ := h.missing target.obsoleteHeader_mem hkept
    have hname := isEntryName_obsoleteHeader h.slashless
    rw [join_obsoleteHeader, passes_join_iff hname.isAbsolute, hname.segments, onWay_singleton_iff,
      advance_of_isOrdinary hname.ordinary] at hpass
    rcases hpass with hpass | rfl | rfl
    · rw [← h.keeps.working] at hpass
      have hdirectory := directory_of_passes h.loses.isPlain hkind hpass
      simp [hnone] at hdirectory
    · have hdirectory := ((kind?_eq_directory_iff h.loses.isPlain).mp hkind).2
      rw [h.keeps.placeOf_eq, placeOf, hnone] at hdirectory
      cases hdirectory
    -- Where the obsolete header would be, there is the header.
    · rcases h.survives_or (h.written .header rfl) with hsurvives | ⟨_, hmem, _⟩
      · obtain ⟨content, hnode⟩ := hsurvives.exists_file h.keeps h.loses.isPlain
        rw [hplace, placeIn_eq (.obsolete target.obsoleteHeader_mem) h.slashless] at hnode
        rw [placeOf, Target.obsoleteHeader, hnone] at hnode
        cases hnode
      · exact hkept hmem

/-- If the name of the package is relative, no path was written and removed as well,
whatever the tree is. -/
theorem not_removed_of_relative {generated : Generated} (hslash : '/' ∉ target.name.toList)
    (hrelative : (Path.ofString target.package).isAbsolute = false)
    (hrun : before.perform (generateInto root target parameters templates) = (.ok generated, after))
    (hwritten : path ∈ generated.written) : path ∉ generated.removed := by
  intro hmem
  obtain ⟨outcomes, middle, hwrite, hremove, _, hpaths, _⟩ := generateInto_eq_ok hrun
  rw [hpaths, mem_pathsWith_iff] at hwritten
  obtain ⟨artifact, rfl⟩ := exists_artifact_of_mem hwrite hwritten
  obtain ⟨file, hfile, hpath⟩ := exists_file_of_mem hremove hmem
  obtain ⟨rfl, rfl⟩ := eq_header_of_path_eq hslash hfile hpath.symm
  exact filePath_ne hslash hrelative hpath.symm

/-- In a plain tree, what was written survives a run unless the obsolete header is removed from the
place of the header. -/
theorem IsRun.survive_iff
    (h : IsRun before middle after root target parameters templates outcomes removed) :
    (∀ path ∈ pathsWith .written outcomes, path ∉ removed ∧
      Survives after root target parameters templates path) ↔
      ¬ (Target.filePath target.obsoleteHeader ∈ removed ∧
        artifactPlace before root target .header = placeIn before root target.obsoleteHeader) := by
  constructor
  · rintro hall ⟨hmem, hplace⟩
    have hheader := hall _ (mem_pathsWith_iff.mpr (h.written .header rfl))
    exact h.not_survives hmem hplace hheader.2
  · intro hnot path hpath
    have hwritten := mem_pathsWith_iff.mp hpath
    obtain ⟨artifact, rfl⟩ := exists_artifact_of_mem h.writes hwritten
    refine ⟨fun hremoved => ?_,
      (h.survives_or hwritten).resolve_right fun hheader => hnot hheader.2⟩
    obtain ⟨file, hfile, hsame⟩ := exists_file_of_mem h.removes hremoved
    obtain ⟨rfl, rfl⟩ := eq_header_of_path_eq h.slashless hfile hsame.symm
    have hplace : artifactPlace before root target .header =
        placeIn before root target.obsoleteHeader := by
      rw [artifactPlace, placeIn, hsame]
    exact hnot ⟨hsame ▸ hremoved, hplace⟩

/-- In a plain tree, the header is removed again exactly when the paths overlap. -/
theorem IsRun.overlaps_iff
    (h : IsRun before middle after root target parameters templates outcomes removed) :
    (Target.filePath target.obsoleteHeader ∈ removed ∧
        artifactPlace before root target .header = placeIn before root target.obsoleteHeader) ↔
      Overlaps after root target.package := by
  unfold Overlaps
  cases habsolute : (Path.ofString target.package).isAbsolute with
  | true =>
      have hpath := filePath_eq_of_isAbsolute habsolute
      have hplace : artifactPlace before root target .header =
          placeIn before root target.obsoleteHeader := by
        rw [artifactPlace, placeIn, hpath]
      refine ⟨fun _ => Or.inl rfl, fun _ => ⟨?_, hplace⟩⟩
      rcases h.survives_or (h.written .header rfl) with ⟨_, text, _, _, hread⟩ | ⟨_, hmem, _⟩
      · -- The obsolete header is found where the header can be read.
        have hreaches := ((readText_eq_ok_iff h.loses.isPlain).mp hread).1
        rw [hpath] at hreaches
        exact (h.removes_header_iff hplace).mpr
          (kind?_of_obsoleteHeader h.loses.isPlain h.slashless hreaches)
      · exact hmem
  | false =>
      constructor
      · rintro ⟨hmem, hplace⟩
        exact Or.inr ⟨(headerPlace_eq_iff h.slashless habsolute).mp hplace,
          (h.removes_header_iff hplace).mp hmem⟩
      · rintro (hfalse | ⟨hclimbs, hkind⟩)
        · cases hfalse
        · have hplace : artifactPlace before root target .header =
              placeIn before root target.obsoleteHeader :=
            (headerPlace_eq_iff h.slashless habsolute).mpr hclimbs
          exact ⟨(h.removes_header_iff hplace).mpr hkind, hplace⟩

/-- Whatever the tree is, no path was written and removed as well unless the name of the package is
absolute.  In a plain tree, everything that was written is still there after the run if the paths do
not overlap, and not otherwise. -/
theorem written_survives_iff {text : List Char} {file : String} {manifest : Manifest}
    {generated : Generated} (hread : Manifest.read text file = .ok manifest)
    (hrun : before.perform (generateInto root manifest.target parameters templates) =
      (.ok generated, after)) :
    ((Path.ofString manifest.target.package).isAbsolute = false →
      ∀ path ∈ generated.written, path ∉ generated.removed) ∧
    (before.IsPlain →
      ((∀ path ∈ generated.written, path ∉ generated.removed ∧
          Survives after root manifest.target parameters templates path) ↔
        ¬ Overlaps after root manifest.target.package)) := by
  have hslash : '/' ∉ manifest.target.name.toList :=
    (Manifest.read_isIdentifier hread).not_mem (by decide)
  refine ⟨fun hrelative path hwritten => not_removed_of_relative hslash hrelative hrun hwritten,
    fun hplain => ?_⟩
  obtain ⟨outcomes, middle, hwrite, hremove, _, hpaths, _⟩ := generateInto_eq_ok hrun
  have hrun' : IsRun before middle after root manifest.target parameters templates outcomes
      generated.removed :=
    ⟨hplain, hslash, hwrite, hremove⟩
  rw [hpaths, hrun'.survive_iff, hrun'.overlaps_iff]

end Runs

set_option maxRecDepth 4000 in
/-- A header whose package has an absolute name does not survive. -/
theorem written_survives_iff_absolute :
    ∃ generated after,
      Manifest.read "generator=['/x','n','N']".toList "params.toml" =
        .ok ⟨⟨"/x", "n", "N"⟩, none, [], "params.toml"⟩ ∧
      perform ⟨[], []⟩ (generateInto ⟨['r']⟩ ⟨"/x", "n", "N"⟩ [] ⟨⟨"h", []⟩, ⟨"m", []⟩⟩) =
        (.ok generated, after) ∧
      ¬ ∀ path ∈ generated.written, path ∉ generated.removed ∧
        Survives after ⟨['r']⟩ ⟨"/x", "n", "N"⟩ [] ⟨⟨"h", []⟩, ⟨"m", []⟩⟩ path := by
  have hread : Manifest.read "generator=['/x','n','N']".toList "params.toml" =
      .ok ⟨⟨"/x", "n", "N"⟩, none, [], "params.toml"⟩ := by cbv
  obtain ⟨generated, after, hrun⟩ : ∃ generated after,
      perform ⟨[], []⟩ (generateInto ⟨['r']⟩ ⟨"/x", "n", "N"⟩ [] ⟨⟨"h", []⟩, ⟨"m", []⟩⟩) =
        (.ok generated, after) := by
    apply exists_perform_eq_ok
    simp only [generateInto, run, writeAll, Artifact.all, Artifact.render, Header.render,
      Scripting.render, Template.fill_nil]
    -- It does not matter what the documentation says.
    generalize Usage.render _ _ = usage
    generalize Reference.render _ = reference
    cbv
  refine ⟨generated, after, hread, hrun, ?_⟩
  rw [(written_survives_iff hread hrun).2 (isPlain_of_empty [])]
  exact fun hnot => hnot (Or.inl (by decide))

end Generation
end Tunables
