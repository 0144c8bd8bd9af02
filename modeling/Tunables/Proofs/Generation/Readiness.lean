import Tunables.Proofs.Files.Success
import Tunables.Proofs.Generation.Account

/-!
# When a run succeeds

A run in a plain tree succeeds if its files can be rendered, no path is too long, and nothing
stands in the way: no file where a directory is needed, and no directory where a file is needed.
The first two are matters of the target and the root (`IsFeasible`), and only the last one is a
matter of the tree (`IsFree`).

* `IsFree.extends`, `IsFree.loses`: what a run does to a tree does not stand in its own way.
* `place_of_isFree`, `writeAll_of_isFree`, `removeAll_of_isFree`: the parts of a run.
* `exists_run_iff`: a whole run.
-/

namespace Tunables
namespace Generation

open Tunables.Tree

/-- What a run needs of its target and its root: the files can be rendered, the paths are not too
long, and the way to the root does not lead through the place of a file, but for the marker,
which is skipped then. -/
structure IsFeasible (working : Place) (root : Path) (target : Target) (parameters : List Parameter)
    (templates : Templates) : Prop where
  rendered : ∀ artifact, ∃ text, Artifact.render target parameters templates artifact = .ok text
  checked : ∀ file, target.Names file → checkPath (root.join (Target.filePath file)) = .ok ()
  short : ∀ file, target.Names file → AreShort (root.join (Target.filePath file)).segments
  unpassed : ∀ file, target.Names file → file ≠ Artifact.file target .marker →
    ¬ Passes working root (placeFrom working (root.join (Target.filePath file)))

/-- What a run needs of a tree: no file on the ways to its files, and no directory at their places,
but for the marker, which is skipped then. -/
structure IsFree (tree : Tree) (root : Path) (target : Target) : Prop where
  start : tree.node? (origin tree.working root) = some .directory
  ways : ∀ file, target.Names file → ∀ place, Leads tree.working root (Target.filePath file) place →
    ∀ content, tree.node? place ≠ some (.file content)
  places : ∀ file, target.Names file → file ≠ Artifact.file target .marker →
    tree.node? (placeIn tree root file) ≠ some .directory

section Places

variable {tree : Tree} {root : Path} {target first second : Target}
  {file other : List String × String} {place : Place}

/-- The names of the path of a file: those of the path of its directory, and its own. -/
theorem segments_file (hfile : target.Names file) (hpackage : IsEntryName target.package)
    (hname : '/' ∉ target.name.toList) (root : Path) :
    ∃ front, (root.segments = front ∨ root.segments = front ++ [[]]) ∧
      (root.join (Target.below file.1)).segments = front ++ file.1.map String.toList ∧
      (root.join (Target.filePath file)).segments =
        front ++ file.1.map String.toList ++ [file.2.toList] := by
  obtain ⟨hne, hnames⟩ := hfile.directory hpackage
  obtain ⟨front, hjoin, hfront⟩ := Path.segments_join root (Target.isAbsolute_below hne hnames)
  rw [Target.segments_below hne hnames] at hjoin
  refine ⟨front, hfront, hjoin, ?_⟩
  rw [Target.filePath, ← Path.join_assoc, segments_join_name (hfile.isEntryName hname), hjoin]
  rw [hjoin]
  obtain ⟨before, last, hlast⟩ := List.eq_nil_or_concat file.1 |>.resolve_left hne
  rw [hlast, List.concat_eq_append, List.map_append]
  simpa using (hnames last (by simp [hlast])).ordinary.ne_nil

theorem origin_file (hfile : target.Names file) (hpackage : IsEntryName target.package)
    (hname : '/' ∉ target.name.toList) (working : Place) (root : Path) :
    origin working (root.join (Target.below file.1)) = origin working root ∧
      origin working (root.join (Target.filePath file)) = origin working root := by
  obtain ⟨hne, hnames⟩ := hfile.directory hpackage
  have hbelow := Target.isAbsolute_below hne hnames
  refine ⟨origin_eq_of_isAbsolute_eq (Path.isAbsolute_join hbelow), ?_⟩
  rw [Target.filePath, ← Path.join_assoc]
  refine origin_eq_of_isAbsolute_eq ?_
  rw [Path.isAbsolute_join (hfile.isEntryName hname).isAbsolute, Path.isAbsolute_join hbelow]

/-- No file lies where a directory with files lies below the same root, be it that of another
target. -/
theorem placeIn_ne_below (hfile : first.Names file) (hother : second.Names other)
    (hpackage : IsEntryName first.package) (hname : '/' ∉ first.name.toList)
    {names : List (List Char)} (hnames : names <+: other.1.map String.toList) :
    placeIn tree root file ≠ tree.placeOf root ++ names := by
  rw [placeIn_eq_append hfile hpackage hname, List.append_assoc]
  intro hsame
  rw [← List.append_cancel_left hsame] at hnames
  refine hfile.not_prefix hother ?_
  have hmap : (file.1 ++ [file.2]).map String.toList <+: other.1.map String.toList := by
    simpa using hnames
  exact (List.prefix_map_iff_of_injective fun _ _ => String.toList_injective).mp hmap

end Places

section Freedom

variable {tree after : Tree} {root : Path} {target : Target} {parameters : List Parameter}
  {templates : Templates} {file other : List String × String} {place : Place}

/-- The place of a file but for the marker is not on the way to any file. -/
theorem IsFeasible.not_leads (hfeasible : IsFeasible tree.working root target parameters templates)
    (hpackage : IsEntryName target.package) (hname : '/' ∉ target.name.toList)
    (hfile : target.Names file) (hmarker : file ≠ Artifact.file target .marker)
    (hother : target.Names other) :
    ¬ Leads tree.working root (Target.filePath other) (placeIn tree root file) := by
  rw [leads_file_iff hother hpackage hname]
  rintro (hpass | ⟨names, hnames, hplace⟩)
  · exact hfeasible.unpassed file hfile hmarker hpass
  · exact placeIn_ne_below hfile hother hpackage hname hnames hplace

/-- What a run writes does not stand in its way, as soon as the way to the root is there. -/
theorem IsFree.extends (hfree : IsFree tree root target)
    (hfeasible : IsFeasible tree.working root target parameters templates)
    (hpackage : IsEntryName target.package) (hname : '/' ∉ target.name.toList)
    (hextends : Extends tree after
      (fun place => ∃ artifact, place = artifactPlace tree root target artifact)
      (fun place => ∃ artifact, Leads tree.working root (Artifact.path target artifact) place))
    (hroot : ∀ place, Passes tree.working root place → after.node? place = some .directory) :
    IsFree after root target := by
  constructor
  case start =>
    rw [hextends.working]
    exact hextends.directory _ hfree.start
  case ways =>
    intro file hfile place hway content hnode
    rw [hextends.working] at hway
    rcases (leads_file_iff hfile hpackage hname).mp hway with hpass | ⟨names, hnames, rfl⟩
    · rw [hroot place hpass] at hnode
      cases hnode
    · refine hfree.ways file hfile _ hway content ((hextends.file_iff ?_ content).mp hnode)
      rintro ⟨artifact, hplace⟩
      rw [artifactPlace_eq] at hplace
      exact placeIn_ne_below (.generated artifact) hfile hpackage hname hnames hplace.symm
  case places =>
    intro file hfile hmarker hnode
    have hplace : placeIn after root file = placeIn tree root file := hextends.placeOf_eq _
    rw [hplace] at hnode
    rcases hextends.each (placeIn tree root file) with hsame | ⟨_, content, hfile'⟩ |
      ⟨⟨artifact, hway⟩, _, _⟩
    · exact hfree.places file hfile hmarker (hsame ▸ hnode)
    · rw [hnode] at hfile'
      cases hfile'
    · rw [Artifact.path_eq] at hway
      exact hfeasible.not_leads hpackage hname hfile hmarker (.generated artifact) hway

theorem IsFree.loses {gone : Place → Prop} (hfree : IsFree tree root target)
    (hloses : Loses tree after gone) :
    IsFree after root target := by
  constructor
  case start =>
    rw [hloses.working]
    exact hloses.directory _ hfree.start
  case ways =>
    intro file hfile place hway content hnode
    rw [hloses.working] at hway
    rcases hloses.each place with hsame | ⟨_, _, hnone⟩
    · exact hfree.ways file hfile place hway content (hsame ▸ hnode)
    · rw [hnode] at hnone
      cases hnone
  case places =>
    intro file hfile hmarker hnode
    have hplace : placeIn after root file = placeIn tree root file := hloses.placeOf_eq _
    rw [hplace, hloses.directory_iff] at hnode
    exact hfree.places file hfile hmarker hnode

end Freedom

section Steps

variable {tree after : Tree} {root : Path} {target : Target} {parameters : List Parameter}
  {templates : Templates} {file : List String × String}

/-- The directory of a file can be made. -/
theorem isOpen_of_isFree (hfeasible : IsFeasible tree.working root target parameters templates)
    (hfree : IsFree tree root target) (hpackage : IsEntryName target.package)
    (hname : '/' ∉ target.name.toList) (hfile : target.Names file) :
    tree.IsOpen (root.join (Target.below file.1)) := by
  obtain ⟨hdirectory, _⟩ := origin_file hfile hpackage hname tree.working root
  obtain ⟨front, _, hsegments, hsegments'⟩ := segments_file hfile hpackage hname root
  have htext : (root.join (Target.below file.1)).text <+:
      (root.join (Target.filePath file)).text := by
    rw [Target.filePath, ← Path.join_assoc, Path.text_join _ (hfile.isEntryName hname).isAbsolute,
      List.append_assoc]
    exact List.prefix_append _ _
  have hne : (root.join (Target.below file.1)).text ≠ [] := by
    obtain ⟨hne, hnames⟩ := hfile.directory hpackage
    obtain ⟨before, last, hlast⟩ := (List.eq_nil_or_concat file.1).resolve_left hne
    rw [hlast, List.concat_eq_append, Target.below_concat]
    exact Path.text_join_ne_nil
      (Or.inr (Path.text_join_ne_nil (Or.inr (hnames last (by simp [hlast])).ordinary.ne_nil)))
  refine ⟨checkPath_of_front htext hne (hfeasible.checked file hfile), ?_,
    hdirectory ▸ hfree.start, ?_⟩
  · refine (hfeasible.short file hfile).of_subset ?_
    rw [hsegments, hsegments']
    exact List.subset_append_left _ _
  · intro place hpass
    exact hfree.ways file hfile place ⟨_, parent?_filePath hfile hpackage hname, hpass⟩

/-- The directory of a file can be made, and it does not stand in the way of the run. -/
theorem ensureDirectoryOf_of_isFree (h : tree.IsPlain)
    (hfeasible : IsFeasible tree.working root target parameters templates)
    (hfree : IsFree tree root target) (hpackage : IsEntryName target.package)
    (hname : '/' ∉ target.name.toList) (artifact : Artifact) :
    ∃ after, tree.perform (Files.ensureDirectoryOf root (Artifact.path target artifact)) =
      (.ok (), after) ∧
      IsFree after root target := by
  have hfile : target.Names (artifact.file target) := .generated artifact
  obtain ⟨hne, hnames⟩ := hfile.directory hpackage
  obtain ⟨before, last, hlast⟩ := (List.eq_nil_or_concat (artifact.file target).1).resolve_left hne
  obtain ⟨front, _, hsegments, _⟩ := segments_file hfile hpackage hname root
  have hconcat : (root.join (Target.below (artifact.file target).1)).segments =
      front ++ before.map String.toList ++ [last.toList] := by
    rw [hsegments, hlast]
    simp
  obtain ⟨after, hrun⟩ :=
    ensureDirectory_of_isOpen h (isOpen_of_isFree hfeasible hfree hpackage hname hfile) hconcat
      (hnames last (by simp [hlast])).isComponent
  have hrun' : tree.perform (Files.ensureDirectoryOf root (artifact.path target)) =
      (.ok (), after) := by
    rw [Files.ensureDirectoryOf, parent?_path hpackage hname]
    exact hrun
  obtain ⟨hextends, hkind⟩ := ensureDirectory_eq_ok h hrun
  refine ⟨after, hrun',
    hfree.extends hfeasible hpackage hname (hextends.weaken (fun _ hfalse => hfalse.elim) ?_) ?_⟩
  · exact fun place hpass => ⟨artifact, _, parent?_path hpackage hname artifact, hpass⟩
  · intro place hpass
    refine directory_of_passes hextends.isPlain hkind ?_
    rw [hextends.working]
    exact (Target.passes_below_iff hne hnames _ _ _).mpr (Or.inl hpass)

/-- If the directory of a file is there, the path of the file can be passed through. -/
theorem isPassable_file (h : tree.IsPlain) (hpackage : IsEntryName target.package)
    (hname : '/' ∉ target.name.toList) (hfile : target.Names file)
    (hkind : tree.kind? (root.join (Target.below file.1)) = some .directory) :
    tree.IsPassable (origin tree.working (root.join (Target.filePath file)))
      ((root.join (Target.below file.1)).segments ++ [[]]) := by
  obtain ⟨⟨_, hpassable⟩, hdirectory⟩ := (kind?_eq_directory_iff h).mp hkind
  obtain ⟨horigin, horigin'⟩ := origin_file hfile hpackage hname tree.working root
  rw [horigin', ← horigin, isPassable_append]
  exact ⟨hpassable, isPassable_of_not_isComponent hdirectory (by decide)⟩

/-- A file can be written once its directory is there, unless there is a directory at its place. -/
theorem writeContent_file (h : tree.IsPlain)
    (hfeasible : IsFeasible tree.working root target parameters templates)
    (hpackage : IsEntryName target.package) (hname : '/' ∉ target.name.toList)
    (hfile : target.Names file)
    (hkind : tree.kind? (root.join (Target.below file.1)) = some .directory)
    (hnode : tree.node? (placeIn tree root file) ≠ some .directory) (content : Content) :
    ∃ after, tree.writeContent (root.join (Target.filePath file)) content = .ok after := by
  obtain ⟨front, _, hsegments, hsegments'⟩ := segments_file hfile hpackage hname root
  exact writeContent_of_isPassable h (hfeasible.checked file hfile) (hsegments ▸ hsegments')
    (hfile.isEntryName hname).ordinary (hfeasible.short file hfile)
    (isPassable_file h hpackage hname hfile hkind) hnode
    content

/-- If the directory of a file is there and nothing can be found at its path, there is nothing. -/
theorem eq_none_of_kind?_file (h : tree.IsPlain)
    (hfeasible : IsFeasible tree.working root target parameters templates)
    (hpackage : IsEntryName target.package) (hname : '/' ∉ target.name.toList)
    (hfile : target.Names file)
    (hkind : tree.kind? (root.join (Target.below file.1)) = some .directory)
    (hnone : tree.kind? (root.join (Target.filePath file)) = none) :
    tree.node? (placeIn tree root file) = none := by
  obtain ⟨front, _, hsegments, hsegments'⟩ := segments_file hfile hpackage hname root
  have hpassable := isPassable_file h hpackage hname hfile hkind
  have hreaches : tree.Reaches (root.join (Target.filePath file)) := by
    refine ⟨hfeasible.checked file hfile, ?_⟩
    rw [hsegments', ← hsegments, isPassable_append]
    exact ⟨(isPassable_append.mp hpassable).1, hpassable.directory (by simp),
      hfeasible.short file hfile _ (by simp [hsegments']), trivial⟩
  refine Decidable.byContradiction fun hthere => ?_
  have hsome := (isSome_kind?_iff h).mpr ⟨hreaches, hthere⟩
  simp [hnone] at hsome

/-- A file is written or skipped if its directory can be made and the file can be written
unless it is skipped. -/
theorem place_of_writable {middle : Tree} {relative : Path} {overwrite : Overwrite}
    {content : Except Template.Fault (List Char)}
    (hmake : tree.perform (Files.ensureDirectoryOf root relative) = (.ok (), middle))
    (hwrite : (overwrite = .ifMissing → middle.kind? (root.join relative) = none) →
      ∃ after, middle.perform (Files.writeRendered (root.join relative) content) =
        (.ok (), after)) :
    ∃ outcome after, tree.perform (Files.place root relative overwrite content) =
      (.ok outcome, after) := by
  have hmake :
      tree.perform (ExceptT.adapt WriteFault.files (Files.ensureDirectoryOf root relative)) =
      (.ok (), middle) := perform_adapt_eq_ok_iff.mpr hmake
  unfold Files.place
  cases overwrite with
  | always =>
      obtain ⟨after, hafter⟩ := hwrite (by simp)
      exact ⟨.written, after, perform_bind_eq_ok_iff.mpr ⟨(), middle, hmake,
        perform_bind_eq_ok_iff.mpr ⟨(), after, hafter, rfl⟩⟩⟩
  | ifMissing =>
      cases hthere : (middle.kind? (root.join relative)).isSome with
      | true =>
          refine ⟨.skipped, middle, perform_bind_eq_ok_iff.mpr ⟨(), middle, hmake,
            perform_bind_eq_ok_iff.mpr ⟨_, middle, perform_isPresent middle _, ?_⟩⟩⟩
          rw [hthere]
          rfl
      | false =>
          obtain ⟨after, hafter⟩ := hwrite fun _ => by simpa using hthere
          refine ⟨.written, after, perform_bind_eq_ok_iff.mpr ⟨(), middle, hmake,
            perform_bind_eq_ok_iff.mpr ⟨_, middle, perform_isPresent middle _, ?_⟩⟩⟩
          rw [hthere]
          exact perform_bind_eq_ok_iff.mpr ⟨(), after, hafter, rfl⟩

/-- Nothing is in the way of a generated file, and after it was written nothing is in the
way of the others. -/
theorem place_of_isFree (h : tree.IsPlain)
    (hfeasible : IsFeasible tree.working root target parameters templates)
    (hfree : IsFree tree root target) (hpackage : IsEntryName target.package)
    (hname : '/' ∉ target.name.toList) (artifact : Artifact) :
    ∃ outcome after, tree.perform (Files.place root (artifact.path target) artifact.overwrite
        (artifact.render target parameters templates)) = (.ok outcome, after) ∧
          IsFree after root target := by
  have hfile : target.Names (artifact.file target) := .generated artifact
  have hparent := parent?_path hpackage hname artifact
  obtain ⟨middle, hmake, hfree'⟩ :=
    ensureDirectoryOf_of_isFree h hfeasible hfree hpackage hname artifact
  obtain ⟨hways, hkind⟩ := ensureDirectoryOf_eq_ok h hmake
  obtain ⟨text, htext⟩ := hfeasible.rendered artifact
  have hfeasible' : IsFeasible middle.working root target parameters templates :=
    hways.working ▸ hfeasible
  have hwrite :
      (artifact.overwrite = .ifMissing → middle.kind? (root.join (artifact.path target)) = none) →
      ∃ after, middle.perform (Files.writeRendered (root.join (artifact.path target))
        (artifact.render target parameters templates)) = (.ok (), after) := by
    intro hmissing
    have hnode : middle.node? (placeIn middle root (artifact.file target)) ≠ some .directory := by
      by_cases hmarker : artifact = .marker
      · rw [Artifact.path_eq] at hmissing
        rw [eq_none_of_kind?_file hways.isPlain hfeasible' hpackage hname hfile (hkind _ hparent)
          (hmissing (by rw [hmarker]; rfl))]
        simp
      · exact hfree'.places _ hfile fun hsame =>
          hmarker (fileName_injective (congrArg Prod.snd hsame))
    obtain ⟨after, hafter⟩ :=
      writeContent_file hways.isPlain hfeasible' hpackage hname hfile (hkind _ hparent) hnode
        (.text text)
    refine ⟨after, ?_⟩
    rw [htext, Files.writeRendered, perform_adapt, perform_write, Artifact.path_eq, hafter]
    rfl
  obtain ⟨outcome, after, hrun⟩ := place_of_writable hmake hwrite
  obtain ⟨hextends, hkind, _⟩ := place_eq_ok h hrun
  refine ⟨outcome, after, hrun, hfree.extends hfeasible hpackage hname (hextends.weaken ?_ ?_) ?_⟩
  · exact fun place hplace => ⟨artifact, hplace⟩
  · exact fun place hway => ⟨artifact, hway⟩
  · intro place hpass
    refine directory_of_passes hextends.isPlain (hkind _ hparent) ?_
    obtain ⟨hne, hnames⟩ := hfile.directory hpackage
    rw [hextends.working]
    exact (Target.passes_below_iff hne hnames _ _ _).mpr (Or.inl hpass)

/-- All generated files can be written, and nothing is in the way of the removal. -/
theorem writeAll_of_isFree (h : tree.IsPlain)
    (hfeasible : IsFeasible tree.working root target parameters templates)
    (hfree : IsFree tree root target) (hpackage : IsEntryName target.package)
    (hname : '/' ∉ target.name.toList) (artifacts : List Artifact) :
    ∃ outcomes after, tree.perform (writeAll root target parameters templates artifacts) =
      (.ok outcomes, after) ∧
      IsFree after root target := by
  induction artifacts generalizing tree with
  | nil =>
      exact ⟨[], tree, rfl, hfree⟩
  | cons artifact artifacts ih =>
      obtain ⟨outcome, middle, hplace, hfree'⟩ :=
        place_of_isFree h hfeasible hfree hpackage hname artifact
      obtain ⟨hextends, _⟩ := place_eq_ok h hplace
      obtain ⟨outcomes, after, hrest, hfree''⟩ :=
        ih hextends.isPlain (hextends.working ▸ hfeasible) hfree'
      refine ⟨(artifact.path target, outcome) :: outcomes, after, ?_, hfree''⟩
      rw [writeAll]
      exact perform_bind_eq_ok_iff.mpr ⟨outcome, middle, hplace,
        perform_bind_eq_ok_iff.mpr ⟨outcomes, after, hrest, rfl⟩⟩

/-- All obsolete files can be removed, or are not there. -/
theorem removeAll_of_isFree (h : tree.IsPlain)
    (hfeasible : IsFeasible tree.working root target parameters templates)
    (hfree : IsFree tree root target) (hpackage : IsEntryName target.package)
    (hname : '/' ∉ target.name.toList) :
    ∃ removed after, tree.perform (removeAll root target.obsoletePaths) = (.ok removed, after) := by
  refine @removeAll_of_removable root target.obsoletePaths tree h (fun _ => True)
    (fun _ _ => trivial)
    fun path hpath middle hloses => ?_
  obtain ⟨file, hobsolete, rfl⟩ := Target.mem_obsoletePaths_iff.mp hpath
  have hfile : target.Names file := .obsolete hobsolete
  have hfree' := hfree.loses hloses
  obtain ⟨front, _, hsegments, hsegments'⟩ := segments_file hfile hpackage hname root
  obtain ⟨horigin, horigin'⟩ := origin_file hfile hpackage hname middle.working root
  refine removeFile_of_fileless hloses.isPlain (hfeasible.checked file hfile) hsegments'
    (hfile.isEntryName hname).ordinary (hfeasible.short file hfile) ?_ ?_
  · rw [horigin', ← horigin, ← hsegments]
    intro place hway
    exact hfree'.ways file hfile place ⟨_, parent?_filePath hfile hpackage hname, hway⟩
  · refine hfree'.places file hfile fun hmarker => ?_
    have hsame : (Artifact.file target .marker).2 = file.2 := (congrArg Prod.snd hmarker).symm
    cases (eq_header_of_fileName_eq hobsolete hsame).1

/-- A run succeeds if nothing is in its way. -/
theorem generateInto_of_isFree (h : tree.IsPlain)
    (hfeasible : IsFeasible tree.working root target parameters templates)
    (hfree : IsFree tree root target) (hpackage : IsEntryName target.package)
    (hname : '/' ∉ target.name.toList) :
    ∃ generated after, tree.perform (generateInto root target parameters templates) =
      (.ok generated, after) := by
  obtain ⟨outcomes, middle, hwrite, hfree'⟩ :=
    writeAll_of_isFree h hfeasible hfree hpackage hname Artifact.all
  have hextends := writeAll_eq_ok h hwrite
  obtain ⟨removed, after, hremove⟩ :=
    removeAll_of_isFree hextends.isPlain (hextends.working ▸ hfeasible) hfree' hpackage
      hname
  refine ⟨⟨root, pathsWith .written outcomes, pathsWith .skipped outcomes, removed⟩, after,
    perform_adapt_eq_ok_iff.mpr ?_⟩
  exact perform_bind_eq_ok_iff.mpr ⟨outcomes, middle, perform_adapt_eq_ok_iff.mpr hwrite,
    perform_bind_eq_ok_iff.mpr ⟨removed, after, perform_adapt_eq_ok_iff.mpr hremove, rfl⟩⟩

end Steps

section Outcomes

variable {tree after : Tree} {root relative directory : Path} {target : Target}
  {parameters : List Parameter} {templates : Templates} {overwrite : Overwrite}
  {content : Except Template.Fault (List Char)} {outcome : Outcome}
  {artifact : Artifact} {artifacts : List Artifact} {outcomes : List (Path × Outcome)}
  {file : List String × String}

theorem isOpen_of_place (h : tree.IsPlain)
    (hrun : tree.perform (Files.place root relative overwrite content) = (.ok outcome, after))
    (hparent : relative.parent? = some directory) : tree.IsOpen (root.join directory) := by
  unfold Files.place at hrun
  obtain ⟨⟨⟩, middle, hmake, _⟩ := perform_bind_eq_ok_iff.mp hrun
  have hmake := perform_adapt_eq_ok_iff.mp hmake
  rw [Files.ensureDirectoryOf, hparent] at hmake
  exact isOpen_of_ensureDirectory h hmake

/-- The path of a file that was written or skipped leads there. -/
theorem reaches_of_place (h : tree.IsPlain)
    (hrun : tree.perform (Files.place root relative overwrite content) = (.ok outcome, after)) :
    after.Reaches (root.join relative) := by
  cases (place_eq_ok h hrun).2.2 with
  | written _ _ hreaches _ _ =>
      exact hreaches
  | skipped hoverwrite _ _ =>
      subst hoverwrite
      unfold Files.place at hrun
      obtain ⟨⟨⟩, middle, hmake, hrun⟩ := perform_bind_eq_ok_iff.mp hrun
      have hways := (ensureDirectoryOf_eq_ok h (perform_adapt_eq_ok_iff.mp hmake)).1
      obtain ⟨isThere, last, hpresent, hrun⟩ := perform_bind_eq_ok_iff.mp hrun
      rw [perform_isPresent] at hpresent
      cases hpresent
      split at hrun
      · next hthere =>
          cases hrun
          exact ((isSome_kind?_iff hways.isPlain).mp hthere).1
      · obtain ⟨⟨⟩, _, _, hpure⟩ := perform_bind_eq_ok_iff.mp hrun
        cases hpure

theorem reaches_of_writeAll (h : tree.IsPlain)
    (hrun : tree.perform (writeAll root target parameters templates artifacts) =
      (.ok outcomes, after))
    (hartifact : artifact ∈ artifacts) : after.Reaches (root.join (artifact.path target)) := by
  induction artifacts generalizing tree outcomes with
  | nil =>
      simp at hartifact
  | cons first artifacts ih =>
      obtain ⟨outcome, others, middle, rfl, hplace, hrest⟩ := writeAll_cons_eq_ok hrun
      obtain ⟨hextends, _⟩ := place_eq_ok h hplace
      rcases List.mem_cons.mp hartifact with rfl | hartifact
      · exact (reaches_of_place h hplace).mono (writeAll_eq_ok hextends.isPlain hrest).toKeeps
      · exact ih hextends.isPlain hrest hartifact

/-- The names on the way to a file are short if those of the root are, and those of its
directories and its own. -/
theorem areShort_file_iff (hfile : target.Names file) (hpackage : IsEntryName target.package)
    (hname : '/' ∉ target.name.toList) (root : Path) :
    AreShort (root.join (Target.filePath file)).segments ↔
      AreShort root.segments ∧ AreShort (file.1.map String.toList) ∧ AreShort [file.2.toList] := by
  obtain ⟨front, hfront, _, hsegments⟩ := segments_file hfile hpackage hname root
  have hroot : AreShort front ↔ AreShort root.segments := by
    rcases hfront with hfront | hfront
    · rw [hfront]
    · have hempty : AreShort [[]] := by simp [AreShort, Text.byteLength]
      rw [hfront, areShort_append]
      exact (and_iff_left hempty).symm
  rw [hsegments, areShort_append, areShort_append, hroot, and_assoc]

/-- A file is not removed when another one is on the way from the root to it. -/
theorem removeFile_below_file (h : tree.IsPlain)
    (hcheck : checkPath (root.join (Target.filePath file)) = .ok ())
    (hshort : AreShort (root.join (Target.filePath file)).segments)
    (hpackage : IsEntryName target.package) (hname : '/' ∉ target.name.toList)
    (hfile : target.Names file)
    (hroot : ∀ place, Passes tree.working root place → tree.node? place = some .directory)
    {names : List (List Char)} (hnames : names <+: file.1.map String.toList) {text : Content}
    (hnode : tree.node? (tree.placeOf root ++ names) = some (.file text)) :
    tree.removeFile (root.join (Target.filePath file)) = .error .notDirectory := by
  obtain ⟨front, hfront, _, hsegments⟩ := segments_file hfile hpackage hname root
  have horigin := (origin_file hfile hpackage hname tree.working root).2
  have hfollow : follow (origin tree.working root) front = tree.placeOf root := by
    rw [placeOf, placeFrom]
    rcases hfront with hfront | hfront
    · rw [hfront]
    · rw [hfront, follow_append, follow_cons, advance_nil, follow_nil]
  have hordinary : ∀ name ∈ names, IsOrdinary name := by
    intro segment hsegment
    obtain ⟨name, hmem, rfl⟩ := List.mem_map.mp (hnames.subset hsegment)
    exact ((hfile.directory hpackage).2 name hmem).ordinary
  obtain ⟨rest, hrest⟩ := hnames
  rw [hsegments, ← hrest, areShort_append, areShort_append, areShort_append] at hshort
  have hpassable : tree.IsPassable (origin tree.working (root.join (Target.filePath file)))
      (front ++ names) := by
    rw [horigin, isPassable_append, hfollow]
    refine ⟨isPassable_of_directories hshort.1.1 fun place hway => hroot place (hway.of_front ?_),
      isPassable_of_exists h hordinary hshort.1.2.1 (by simp [hnode])⟩
    rcases hfront with hfront | hfront
    · exact hfront ▸ List.prefix_rfl
    · exact hfront ▸ List.prefix_append _ _
  have hplace : follow (origin tree.working (root.join (Target.filePath file))) (front ++ names) =
      tree.placeOf root ++ names := by
    rw [horigin, follow_append, hfollow, follow_of_isOrdinary hordinary]
  have hsplit : (root.join (Target.filePath file)).segments =
      front ++ names ++ rest ++ [file.2.toList] := by
    rw [hsegments, ← hrest, ← List.append_assoc]
  exact removeFile_of_file h hcheck hsplit (hfile.isEntryName hname).ordinary hpassable
    (hplace ▸ hnode)

end Outcomes

section Runs

variable {before middle after : Tree} {root : Path} {target : Target} {parameters : List Parameter}
  {templates : Templates} {outcomes : List (Path × Outcome)} {removed : List Path}
  {artifact : Artifact}
  {file : List String × String}

theorem IsRun.reaches
    (h : IsRun before middle after root target parameters templates outcomes removed)
    (artifact : Artifact) : after.Reaches (root.join (artifact.path target)) :=
  (reaches_of_writeAll h.isPlain h.writes artifact.mem_all).mono h.loses.toKeeps

theorem IsRun.attempt
    (h : IsRun before middle after root target parameters templates outcomes removed)
    (hfile : file ∈ target.obsoleteFiles) :
    ∃ last, Loses middle last
      (fun place => ∃ other ∈ target.obsoletePaths, place = middle.placeOf (root.join other)) ∧
      ((∃ next, last.removeFile (root.join (Target.filePath file)) = .ok next) ∨
        last.removeFile (root.join (Target.filePath file)) = .error .notFound) :=
  removeAll_attempt h.extends.isPlain h.removes
    (Target.mem_obsoletePaths_iff.mpr ⟨file, hfile, rfl⟩)

theorem IsRun.checked
    (h : IsRun before middle after root target parameters templates outcomes removed)
    (hfile : target.Names file) : checkPath (root.join (Target.filePath file)) = .ok () := by
  have htext := hfile.text_ne_nil h.slashless
  cases hfile with
  | generated artifact =>
      rw [← Artifact.path_eq]
      exact (h.reaches artifact).1
  | obsolete hfile =>
      obtain ⟨last, _, hattempt⟩ := h.attempt hfile
      exact checkPath_of_removeFile (Path.text_join_ne_nil (Or.inr htext)) hattempt

theorem IsRun.areShort
    (h : IsRun before middle after root target parameters templates outcomes removed)
    (hpackage : IsEntryName target.package) (hfile : target.Names file) :
    AreShort (root.join (Target.filePath file)).segments := by
  have hgenerated : ∀ artifact,
      AreShort (root.join (Target.filePath (Artifact.file target artifact))).segments := by
    intro artifact
    rw [← Artifact.path_eq]
    exact (h.reaches artifact).2.areShort
  cases hfile with
  | generated artifact =>
      exact hgenerated artifact
  | obsolete hfile =>
      obtain ⟨hroot, hdirectories, _⟩ :=
        (areShort_file_iff (.generated .header) hpackage h.slashless root).mp (hgenerated .header)
      have husage :=
        ((areShort_file_iff (.generated .usage) hpackage h.slashless root).mp
          (hgenerated .usage)).2.2
      refine (areShort_file_iff (.obsolete hfile) hpackage h.slashless root).mpr ⟨hroot, ?_, ?_⟩
      · intro segment hsegment
        obtain ⟨name, hmem, rfl⟩ := List.mem_map.mp hsegment
        rcases (Target.Names.obsolete hfile).mem_directory.2 name hmem with rfl | hfixed
        · exact hdirectories _ (by simp [Artifact.file])
        · have hall : ∀ name ∈ ["cfg", "cpp", "dox", "msg", "src", "srv"],
              Text.byteLength name.toList ≤ maxName := by decide
          exact hall name hfixed
      · intro segment hsegment
        rw [List.mem_singleton.mp hsegment]
        exact (byteLength_obsolete_le hfile).trans (husage _ (List.mem_singleton_self _))

/-- After a run every generated file but for the marker holds its text. -/
theorem IsRun.node?_artifact
    (h : IsRun before middle after root target parameters templates outcomes removed)
    (hpackage : IsEntryName target.package) (hmarker : artifact ≠ .marker) :
    ∃ text, artifact.render target parameters templates = .ok text ∧
      after.node? (artifactPlace before root target artifact) = some (.file (.text text)) := by
  have halways : artifact.overwrite = .always := by
    cases artifact with
    | marker => exact absurd rfl hmarker
    | header | reference | usage | scripting => rfl
  obtain ⟨text, hrender, hread⟩ := h.readText_eq_ok (h.written artifact halways) fun file hfile _ =>
    artifactPlace_ne_placeIn hpackage h.slashless hfile artifact
  have hnode := ((readText_eq_ok_iff h.loses.isPlain).mp hread).2
  rw [h.keeps.placeOf_eq] at hnode
  exact ⟨text, hrender, hnode⟩

/-- After a run there is no directory at the place of a file, but for the marker. -/
theorem IsRun.not_directory
    (h : IsRun before middle after root target parameters templates outcomes removed)
    (hpackage : IsEntryName target.package) (hfile : target.Names file)
    (hmarker : file ≠ Artifact.file target .marker) :
    after.node? (placeIn before root file) ≠ some .directory := by
  intro hdirectory
  cases hfile with
  | generated artifact =>
      have hartifact : artifact ≠ .marker := fun hsame => hmarker (by rw [hsame])
      obtain ⟨text, _, hnode⟩ := h.node?_artifact hpackage hartifact
      rw [artifactPlace_eq, hdirectory] at hnode
      cases hnode
  | obsolete hfile =>
      rw [h.obsolete_eq_none hpackage hfile] at hdirectory
      cases hdirectory

theorem IsRun.isFeasible
    (h : IsRun before middle after root target parameters templates outcomes removed)
    (hpackage : IsEntryName target.package) :
    IsFeasible before.working root target parameters templates := by
  refine ⟨h.exists_render, fun file => h.checked, fun file => h.areShort hpackage,
    fun file hfile hmarker hpass => ?_⟩
  exact h.not_directory hpackage hfile hmarker
    (h.leads ((leads_iff hpackage h.slashless .header).mpr (Or.inl hpass)))

/-- No file was on the way to an obsolete file when the removal began. -/
theorem IsRun.ways_obsolete
    (h : IsRun before middle after root target parameters templates outcomes removed)
    (hpackage : IsEntryName target.package) (hfile : file ∈ target.obsoleteFiles)
    {names : List (List Char)} (hnames : names <+: file.1.map String.toList) (content : Content) :
    middle.node? (before.placeOf root ++ names) ≠ some (.file content) := by
  intro hnode
  have hnamed : target.Names file := .obsolete hfile
  obtain ⟨last, hloses, hattempt⟩ := h.attempt hfile
  have hkeeps : Keeps before last := h.extends.toKeeps.trans hloses.toKeeps
  -- The file is still there when the removal of this one is attempted.
  have hlast : last.node? (last.placeOf root ++ names) = some (.file content) := by
    rw [hkeeps.placeOf_eq, hloses.stays, hnode]
    rintro ⟨path, hpath, hplace⟩
    obtain ⟨other, hother, rfl⟩ := Target.mem_obsoletePaths_iff.mp hpath
    rw [h.extends.placeOf_eq] at hplace
    exact placeIn_ne_below (.obsolete hother) hnamed hpackage h.slashless hnames hplace.symm
  have hroot : ∀ place, Passes last.working root place → last.node? place = some .directory := by
    intro place hpass
    rw [hkeeps.working] at hpass
    refine hloses.directory place (writeAll_leads h.isPlain h.writes (Artifact.mem_all .header) ?_)
    exact (leads_iff hpackage h.slashless .header).mpr (Or.inl hpass)
  have hrefused :=
    removeFile_below_file hloses.isPlain (h.checked hnamed) (h.areShort hpackage hnamed) hpackage
      h.slashless hnamed hroot hnames hlast
  rcases hattempt with ⟨next, hattempt⟩ | hattempt
  · rw [hrefused] at hattempt
    cases hattempt
  · rw [hrefused] at hattempt
    cases hattempt

theorem IsRun.isFree
    (h : IsRun before middle after root target parameters templates outcomes removed)
    (hpackage : IsEntryName target.package) : IsFree before root target := by
  constructor
  case start =>
    obtain ⟨outcome, others, next, _, hplace, _⟩ := writeAll_cons_eq_ok h.writes
    have hnamed : target.Names (Artifact.file target .header) := .generated .header
    have hopen := isOpen_of_place h.isPlain hplace (parent?_path hpackage h.slashless .header)
    rw [← (origin_file hnamed hpackage h.slashless before.working root).1]
    exact hopen.start
  case ways =>
    have hgenerated : ∀ artifact place,
        Leads before.working root (Artifact.path target artifact) place →
        ∀ content, before.node? place ≠ some (.file content) := by
      intro artifact place hway content hnode
      have hdirectory := writeAll_leads h.isPlain h.writes artifact.mem_all hway
      rcases h.extends.each place with hsame | ⟨_, other, hfile⟩ | ⟨_, hnone, _⟩
      · rw [hdirectory, hnode] at hsame
        cases hsame
      · rw [hdirectory] at hfile
        cases hfile
      · rw [hnode] at hnone
        cases hnone
    intro file hfile place hway content hnode
    rcases (leads_file_iff hfile hpackage h.slashless).mp hway with hpass | ⟨names, hnames, rfl⟩
    · exact hgenerated .header place ((leads_iff hpackage h.slashless .header).mpr (Or.inl hpass))
        content hnode
    · cases hfile with
      | generated artifact =>
          rw [← Artifact.path_eq] at hway
          exact hgenerated artifact _ hway content hnode
      | obsolete hfile =>
          refine h.ways_obsolete hpackage hfile hnames content
            ((h.extends.file_iff ?_ content).mpr hnode)
          rintro ⟨artifact, hplace⟩
          rw [artifactPlace_eq] at hplace
          exact placeIn_ne_below (.generated artifact) (.obsolete hfile) hpackage h.slashless hnames
            hplace.symm
  case places =>
    intro file hfile hmarker hdirectory
    exact h.not_directory hpackage hfile hmarker (h.keeps.directory _ hdirectory)

/-- **When a run succeeds.**  A run in a plain tree succeeds exactly if its target and its root
allow for it and nothing in the tree is in its way. -/
theorem exists_run_iff (h : before.IsPlain) (hpackage : IsEntryName target.package)
    (hname : '/' ∉ target.name.toList) :
    (∃ generated after, before.perform (generateInto root target parameters templates) =
      (.ok generated, after)) ↔
      IsFeasible before.working root target parameters templates ∧ IsFree before root target := by
  constructor
  · rintro ⟨generated, after, hrun⟩
    obtain ⟨_, _, hrun, _⟩ := exists_isRun h hname hrun
    exact ⟨hrun.isFeasible hpackage, hrun.isFree hpackage⟩
  · rintro ⟨hfeasible, hfree⟩
    exact generateInto_of_isFree h hfeasible hfree hpackage hname

end Runs

end Generation
end Tunables
