import Tunables.Proofs.Files.Erasure
import Tunables.Proofs.Generation.Readiness
import Tunables.Proofs.Manifest

/-!
# What a removal removes

Paths are removed one after the other from a plain tree.  As long as no path passes through the
place of a file that was removed before, it does not matter when its turn comes: the files to which
the paths lead in the beginning are removed, up to the first path that is refused in the beginning.

* `removeAll_front`: the paths that are not refused; `removeAll_of_unrefused`,
  `removeAll_of_refused`: all of them, and the first one that is; `removeAll_outcome`: both
  together.
* `removeAll_of_notFound`: nothing happens where no path leads to anything; `find_of_removed`: so
  it is after a removal.
* `isApart_obsolete`: the obsolete files of a target are not in each other's way.
* `removeObsolete_outcome`: what becomes of them.
-/

namespace Tunables
namespace Generation

open Tunables.Tree

/-- The places of the files to which some paths lead below a root. -/
def filePlaces (tree : Tree) (root : Path) (paths : List Path) : List Place :=
  (leadingToFiles tree root paths).map fun path => tree.placeOf (root.join path)

/-- If the first path leads to a file, the second one does not pass through its place. -/
def IsApart (tree : Tree) (root first second : Path) : Prop :=
  tree.kind? (root.join first) = some .file →
    ¬ Passes tree.working (root.join second) (tree.placeOf (root.join first))

section Removals

variable {tree other : Tree} {root path : Path} {paths front back : List Path}

theorem mem_leadingToFiles_iff :
    path ∈ leadingToFiles tree root paths ↔
      path ∈ paths ∧ tree.kind? (root.join path) = some .file := by
  rw [leadingToFiles, List.mem_filter, beq_iff_eq]

theorem leadingToFiles_congr
    (hfind : ∀ path ∈ paths, other.find (root.join path) = tree.find (root.join path)) :
    leadingToFiles other root paths = leadingToFiles tree root paths := by
  refine List.filter_congr fun path hmem => ?_
  rw [kind?, kind?, hfind path hmem]

theorem filePlaces_congr (hworking : other.working = tree.working)
    (hfind : ∀ path ∈ paths, other.find (root.join path) = tree.find (root.join path)) :
    filePlaces other root paths = filePlaces tree root paths := by
  rw [filePlaces, filePlaces, leadingToFiles_congr hfind]
  refine List.map_congr_left fun path _ => ?_
  rw [placeOf, placeOf, hworking]

theorem not_passes_of_isApart (hapart : ∀ earlier ∈ front, IsApart tree root earlier path)
    {place : Place} (hmem : place ∈ filePlaces tree root front) :
    ¬ Passes tree.working (root.join path) place := by
  obtain ⟨earlier, hearlier, rfl⟩ := List.mem_map.mp hmem
  obtain ⟨hearlier, hkind⟩ := mem_leadingToFiles_iff.mp hearlier
  exact hapart earlier hearlier hkind

/-- As long as nothing is refused, the files are removed, and the removal goes on with the other
paths. -/
theorem removeAll_front (h : tree.IsPlain)
    (hnames : ∀ path ∈ front, ∃ names name, (root.join path).segments = names ++ [name] ∧
      IsOrdinary name)
    (hapart : front.Pairwise (IsApart tree root))
    (hrefusal : ∀ path ∈ front, tree.refusal? (root.join path) = none) (back : List Path) :
    tree.perform (removeAll root (front ++ back)) =
      (((tree.without (filePlaces tree root front)).perform (removeAll root back)).1.map
        (leadingToFiles tree root front ++ ·),
        ((tree.without (filePlaces tree root front)).perform (removeAll root back)).2) := by
  induction front generalizing tree with
  | nil =>
      simp only [List.nil_append, filePlaces, leadingToFiles, List.filter_nil, List.map_nil,
        without_nil]
      rcases tree.perform (removeAll root back) with ⟨_ | removed, last⟩ <;> rfl
  | cons path front ih =>
      obtain ⟨names, name, hsegments, hname⟩ := hnames path (by simp)
      have hnames : ∀ other ∈ front, _ :=
        fun other hother => hnames other (List.mem_cons_of_mem _ hother)
      have hrest : ∀ other ∈ front, _ :=
        fun other hother => hrefusal other (List.mem_cons_of_mem _ hother)
      rw [List.pairwise_cons] at hapart
      rw [List.cons_append]
      by_cases hkind : tree.kind? (root.join path) = some .file
      · obtain ⟨content, hfile⟩ := exists_file_of_kind? h hkind
        have herase := h.erase hfile
        have hfind : ∀ other ∈ front,
            (tree.erase (tree.placeOf (root.join path))).find (root.join other) =
              tree.find (root.join other) :=
          fun other hother => find_erase h hfile (hapart.1 other hother hkind)
        have hplaces : filePlaces (tree.erase (tree.placeOf (root.join path))) root front =
            filePlaces tree root front :=
          filePlaces_congr rfl hfind
        have hfirst := removeIfPresent_of_file h hsegments hname hkind
        rw [perform_removeAll_cons hfirst, ih herase hnames, hplaces, leadingToFiles_congr hfind]
        · simp only [filePlaces, leadingToFiles_cons, hkind, beq_self_eq_true, if_true,
            List.map_cons, without_cons]
          rcases Tree.perform _ (removeAll root back) with ⟨_ | removed, last⟩ <;> rfl
        · refine hapart.2.imp_of_mem fun {first second} hmem _ hpass hkind => hpass ?_
          rwa [kind?, hfind first hmem] at hkind
        · intro other hother
          obtain ⟨_, _, hsegments, hname⟩ := hnames other hother
          rw [refusal?_congr h herase hsegments hname (hfind other hother), hrest other hother]
      · have hfind := find_of_refusal?_eq_none h hsegments hname (hrefusal path (by simp)) hkind
        have hfirst : tree.perform (Files.removeIfPresent (root.join path)) =
            (.ok false, tree) := by
          rw [perform_removeIfPresent, removeFile_eq_find h hsegments hname, hfind]
        have hkind : (tree.kind? (root.join path) == some .file) = false :=
          beq_eq_false_iff_ne.mpr hkind
        rw [perform_removeAll_cons hfirst, ih h hnames hapart.2 hrest]
        simp only [filePlaces, leadingToFiles_cons, hkind, Bool.false_eq_true, if_false]
        rcases Tree.perform _ (removeAll root back) with ⟨_ | removed, last⟩ <;> rfl

theorem removeAll_of_unrefused (h : tree.IsPlain)
    (hnames : ∀ path ∈ paths, ∃ names name, (root.join path).segments = names ++ [name] ∧
      IsOrdinary name)
    (hapart : paths.Pairwise (IsApart tree root))
    (hrefusal : ∀ path ∈ paths, tree.refusal? (root.join path) = none) :
    tree.perform (removeAll root paths) =
      (.ok (leadingToFiles tree root paths), tree.without (filePlaces tree root paths)) := by
  have hrun := removeAll_front h hnames hapart hrefusal []
  rw [List.append_nil] at hrun
  rw [hrun]
  exact congrArg (fun removed => (Except.ok removed, _)) (List.append_nil _)

theorem loses_filePlaces (h : tree.IsPlain)
    (hnames : ∀ path ∈ paths, ∃ names name, (root.join path).segments = names ++ [name] ∧
      IsOrdinary name)
    (hapart : paths.Pairwise (IsApart tree root))
    (hrefusal : ∀ path ∈ paths, tree.refusal? (root.join path) = none) :
    Loses tree (tree.without (filePlaces tree root paths))
      (fun place => ∃ path ∈ paths, place = tree.placeOf (root.join path)) := by
  have hloses := removeAll_loses h root paths
  rwa [removeAll_of_unrefused h hnames hapart hrefusal] at hloses

/-- The removal ends at the first path that is refused. -/
theorem removeAll_of_refused {cause : Refusal} (h : tree.IsPlain)
    (hnames : ∀ other ∈ front ++ path :: back, ∃ names name,
      (root.join other).segments = names ++ [name] ∧ IsOrdinary name)
    (hapart : (front ++ path :: back).Pairwise (IsApart tree root))
    (hfront : ∀ earlier ∈ front, tree.refusal? (root.join earlier) = none)
    (hcause : tree.refusal? (root.join path) = some cause) :
    tree.perform (removeAll root (front ++ path :: back)) =
      (.error (.refused (root.join path) cause), tree.without (filePlaces tree root front)) := by
  rw [List.pairwise_append] at hapart
  have hnames' : ∀ earlier ∈ front, _ :=
    fun earlier hearlier => hnames earlier (List.mem_append_left _ hearlier)
  obtain ⟨_, _, hsegments, hname⟩ := hnames path (by simp)
  have hloses := loses_filePlaces h hnames' hapart.1 hfront
  have hfind : (tree.without (filePlaces tree root front)).find (root.join path) =
      tree.find (root.join path) :=
    find_without h hloses.isPlain fun _ =>
      not_passes_of_isApart fun earlier hearlier => hapart.2.2 earlier hearlier path (by simp)
  have hrefusal := (refusal?_congr h hloses.isPlain hsegments hname hfind).trans hcause
  rw [removeAll_front h hnames' hapart.1 hfront, removeAll, perform_bind,
    removeIfPresent_of_refusal hrefusal]
  rfl

/-- All files are removed, or the removal ends at the first path that is refused. -/
theorem removeAll_outcome (h : tree.IsPlain)
    (hnames : ∀ path ∈ paths, ∃ names name, (root.join path).segments = names ++ [name] ∧
      IsOrdinary name)
    (hapart : paths.Pairwise (IsApart tree root)) :
    (∀ path ∈ paths, tree.refusal? (root.join path) = none) ∧
        tree.perform (removeAll root paths) =
          (.ok (leadingToFiles tree root paths), tree.without (filePlaces tree root paths)) ∨
      ∃ front path back cause, paths = front ++ path :: back ∧
        (∀ earlier ∈ front, tree.refusal? (root.join earlier) = none) ∧
        tree.refusal? (root.join path) = some cause ∧
        tree.perform (removeAll root paths) =
          (.error (.refused (root.join path) cause),
            tree.without (filePlaces tree root front)) := by
  rcases hfirst : paths.find? fun path => (tree.refusal? (root.join path)).isSome with _ | path
  · have hrefusal : ∀ path ∈ paths, tree.refusal? (root.join path) = none := by
      simpa using List.find?_eq_none.mp hfirst
    exact Or.inl ⟨hrefusal, removeAll_of_unrefused h hnames hapart hrefusal⟩
  · obtain ⟨hrefused, front, back, rfl, hfront⟩ := List.find?_eq_some_iff_append.mp hfirst
    obtain ⟨cause, hcause⟩ := Option.isSome_iff_exists.mp hrefused
    have hfront : ∀ earlier ∈ front, tree.refusal? (root.join earlier) = none := by
      simpa using hfront
    exact Or.inr ⟨front, path, back, cause, rfl, hfront, hcause,
      removeAll_of_refused h hnames hapart hfront hcause⟩

/-- After a removal without refusals, nothing is found at any of the paths, if none of them passes
through another one. -/
theorem find_of_removed (h : tree.IsPlain)
    (hnames : ∀ path ∈ paths, ∃ names name, (root.join path).segments = names ++ [name] ∧
      IsOrdinary name)
    (hapart : paths.Pairwise (IsApart tree root))
    (hrefusal : ∀ path ∈ paths, tree.refusal? (root.join path) = none)
    (hothers : ∀ other ∈ paths, other ≠ path → IsApart tree root other path) (hmem : path ∈ paths) :
    (tree.without (filePlaces tree root paths)).find (root.join path) = .error .notFound := by
  have hloses := loses_filePlaces h hnames hapart hrefusal
  by_cases hkind : tree.kind? (root.join path) = some .file
  · obtain ⟨content, hfind⟩ := exists_find_of_kind? hkind
    obtain ⟨hreaches, hnode⟩ := (find_eq_ok_iff h).mp hfind
    refine find_of_reaches hloses.isPlain (hreaches.mono hloses.toKeeps) ?_
    rw [hloses.placeOf_eq]
    refine node?_without_of_mem (List.mem_map_of_mem (mem_leadingToFiles_iff.mpr ⟨hmem, hkind⟩))
      fun hroot => ?_
    rw [hroot, node?_root] at hnode
    cases hnode
  · obtain ⟨_, _, hsegments, hname⟩ := hnames path hmem
    rw [find_without h hloses.isPlain]
    · exact find_of_refusal?_eq_none h hsegments hname (hrefusal path hmem) hkind
    · intro place hplace
      obtain ⟨other, hother, rfl⟩ := List.mem_map.mp hplace
      obtain ⟨hother, hfile⟩ := mem_leadingToFiles_iff.mp hother
      refine hothers other hother (fun hsame => hkind ?_) hfile
      rwa [← hsame]

/-- There is nothing to be done if nothing is found. -/
theorem removeAll_of_notFound (h : tree.IsPlain)
    (hnames : ∀ path ∈ paths, ∃ names name, (root.join path).segments = names ++ [name] ∧
      IsOrdinary name)
    (hfind : ∀ path ∈ paths, tree.find (root.join path) = .error .notFound) :
    tree.perform (removeAll root paths) = (.ok [], tree) := by
  have hkind : ∀ path ∈ paths, tree.kind? (root.join path) ≠ some .file := by
    intro path hmem hfile
    rw [kind?, hfind path hmem] at hfile
    cases hfile
  have hapart : paths.Pairwise (IsApart tree root) :=
    List.pairwise_of_forall_mem_list fun first hfirst _ _ hfile => absurd hfile (hkind first hfirst)
  have hrefusal : ∀ path ∈ paths, tree.refusal? (root.join path) = none := by
    intro path hmem
    obtain ⟨_, _, hsegments, hname⟩ := hnames path hmem
    rw [refusal?, removeFile_eq_find h hsegments hname, hfind path hmem]
  have hfiles : leadingToFiles tree root paths = [] :=
    List.filter_eq_nil_iff.mpr fun path hmem hfile => hkind path hmem (beq_iff_eq.mp hfile)
  rw [removeAll_of_unrefused h hnames hapart hrefusal, filePlaces, hfiles, List.map_nil,
    without_nil]

end Removals

section Obsolete

variable {tree : Tree} {root : Path} {target : Target} {file other : List String × String}
  {place : Place}

/-- Whoever reaches a file comes through directories on the way to the root. -/
theorem directory_of_reaches_file (hfile : target.Names file)
    (hpackage : IsEntryName target.package) (hname : '/' ∉ target.name.toList)
    (hreaches : tree.Reaches (root.join (Target.filePath file)))
    (hpass : Passes tree.working root place) : tree.node? place = some .directory := by
  obtain ⟨hne, hnames⟩ := hfile.directory hpackage
  obtain ⟨front, _, hdirectory, hsegments⟩ := segments_file hfile hpackage hname root
  obtain ⟨hbelow, hwhole⟩ := origin_file hfile hpackage hname tree.working root
  have hpass := (Target.passes_below_iff hne hnames tree.working place root).mpr (Or.inl hpass)
  rw [Passes, hbelow, hdirectory] at hpass
  obtain ⟨part, ⟨back, hback⟩, rfl⟩ := hpass
  have hpassable := hreaches.2
  rw [hwhole, hsegments, ← hback, List.append_assoc] at hpassable
  exact hpassable.directory (by simp)

/-- An obsolete file is not in the way of another one. -/
theorem isApart_obsolete (h : tree.IsPlain) (hpackage : IsEntryName target.package)
    (hname : '/' ∉ target.name.toList) (hfile : file ∈ target.obsoleteFiles)
    (hother : other ∈ target.obsoleteFiles) (hne : file ≠ other) :
    IsApart tree root (Target.filePath file) (Target.filePath other) := by
  intro hkind hpass
  obtain ⟨content, hfind⟩ := exists_find_of_kind? hkind
  obtain ⟨hreaches, hnode⟩ := (find_eq_ok_iff h).mp hfind
  rcases passes_or_above (.obsolete hother) hpackage hname hpass with hroot | habove
  · rw [directory_of_reaches_file (.obsolete hfile) hpackage hname hreaches hroot] at hnode
    cases hnode
  · have hplace : tree.placeOf (root.join (Target.filePath file)) = placeIn tree root file := rfl
    rw [hplace, placeIn_eq_append (.obsolete hother) hpackage hname, List.prefix_concat_iff]
      at habove
    rcases habove with hsame | habove
    · have hsame := hsame.trans (placeIn_eq_append (.obsolete hother) hpackage hname).symm
      exact hne (obsoletePlace_injective hname hfile hother hsame)
    · rw [placeIn_eq_append (.obsolete hfile) hpackage hname, List.append_assoc,
        List.prefix_append_right_inj] at habove
      have hbelow : placeIn tree root file ≠
          tree.placeOf root ++ (file.1.map String.toList ++ [file.2.toList]) :=
        placeIn_ne_below (.obsolete hfile) (.obsolete hother) hpackage hname habove
      rw [← List.append_assoc] at hbelow
      exact hbelow (placeIn_eq_append (.obsolete hfile) hpackage hname)

theorem pairwise_isApart (h : tree.IsPlain) (hpackage : IsEntryName target.package)
    (hname : '/' ∉ target.name.toList) (root : Path) :
    target.obsoletePaths.Pairwise (IsApart tree root) := by
  rw [Target.obsoletePaths_eq, List.pairwise_map]
  have hnodup : target.obsoleteFiles.Nodup := (obsoleteNames_nodup target).of_map
  exact hnodup.imp_of_mem fun hfile hother hne => isApart_obsolete h hpackage hname hfile hother hne

theorem segments_obsolete (hpackage : IsEntryName target.package) (hname : '/' ∉ target.name.toList)
    (root : Path) :
    ∀ path ∈ target.obsoletePaths, ∃ names name, (root.join path).segments = names ++ [name] ∧
      IsOrdinary name := by
  intro path hmem
  obtain ⟨file, hfile, rfl⟩ := Target.mem_obsoletePaths_iff.mp hmem
  obtain ⟨_, _, _, hsegments⟩ := segments_file (.obsolete hfile) hpackage hname root
  exact ⟨_, _, hsegments, ((Target.Names.obsolete hfile).isEntryName hname).ordinary⟩

/-- **What becomes of the obsolete files.**  Either none of them is refused.  Then those that are
there are removed, the answer lists them in order, and nothing else changes; nothing is found at any
of the six paths afterwards, and a second attempt finds nothing to do.  Or the first one that is
refused is named, and exactly the files in front of it are gone. -/
theorem removeObsolete_outcome (h : tree.IsPlain) (hpackage : IsEntryName target.package)
    (hname : IsIdentifier target.name.toList) (root : Path) :
    match tree.perform (removeObsolete root target) with
    | (.ok removed, after) =>
        removed = leadingToFiles tree root target.obsoletePaths ∧
          after = tree.without (filePlaces tree root target.obsoletePaths) ∧
          (∀ path ∈ target.obsoletePaths, tree.refusal? (root.join path) = none ∧
            after.kind? (root.join path) = none) ∧
          after.perform (removeObsolete root target) = (.ok [], after)
    | (.error fault, after) =>
        ∃ front path back cause, target.obsoletePaths = front ++ path :: back ∧
          (∀ earlier ∈ front, tree.refusal? (root.join earlier) = none) ∧
          tree.refusal? (root.join path) = some cause ∧ fault = .refused (root.join path) cause ∧
          after = tree.without (filePlaces tree root front) := by
  have hname : '/' ∉ target.name.toList := hname.not_mem (by decide)
  have hnames := segments_obsolete hpackage hname root
  have hapart := pairwise_isApart h hpackage hname root
  rw [removeObsolete]
  rcases removeAll_outcome h hnames hapart with ⟨hrefusal, hrun⟩ |
    ⟨front, path, back, cause, hpaths, hfront, hcause, hrun⟩
  · have hplain := (loses_filePlaces h hnames hapart hrefusal).isPlain
    have hfind : ∀ path ∈ target.obsoletePaths,
        (tree.without (filePlaces tree root target.obsoletePaths)).find (root.join path) =
          .error .notFound := by
      intro path hmem
      refine find_of_removed h hnames hapart hrefusal (fun other hother hne => ?_) hmem
      obtain ⟨file, hfile, rfl⟩ := Target.mem_obsoletePaths_iff.mp hmem
      obtain ⟨first, hfirst, rfl⟩ := Target.mem_obsoletePaths_iff.mp hother
      exact isApart_obsolete h hpackage hname hfirst hfile fun hsame => hne (congrArg _ hsame)
    rw [hrun]
    refine ⟨rfl, rfl, fun path hmem => ⟨hrefusal path hmem, ?_⟩,
      removeAll_of_notFound hplain hnames hfind⟩
    rw [kind?, hfind path hmem]
  · rw [hrun]
    exact ⟨front, path, back, cause, hpaths, hfront, hcause, rfl, rfl⟩

/-- A tree with an obsolete file, and with something in the place of another one. -/
def withService (node : Node) : Tree :=
  ((((⟨[], []⟩ : Tree).put ["msg".toList] .directory).put ["msg".toList, "NConfig.msg".toList]
    (.file (.text []))).put
    ["srv".toList] .directory).put ["srv".toList, "SetNConfig.srv".toList] node

theorem isPlain_withService {node : Node} (hlink : ∀ target, node ≠ .link target) :
    IsPlain (withService node) := by
  have hmsg : IsPlain ((⟨[], []⟩ : Tree).put ["msg".toList] .directory) :=
    @IsPlain.put _ [] "msg".toList _ (isPlain_of_empty []) rfl (by simp) fun _ => rfl
  have hfile :=
    @IsPlain.put _ ["msg".toList] "NConfig.msg".toList (.file (.text [])) hmsg (by decide) (by simp)
      (by decide)
  have hsrv := @IsPlain.put _ [] "srv".toList .directory hfile rfl (by simp) fun _ => rfl
  refine @IsPlain.put _ ["srv".toList] "SetNConfig.srv".toList node hsrv (by decide) hlink
    fun hdirectory => ?_
  exact absurd hdirectory (by decide)

/-- Two obsolete files are removed, and only the first one if there is a directory in the place
of the second one. -/
theorem removeObsolete_outcome_withService :
    (∃ after,
      (withService (.file (.text []))).perform (removeObsolete ⟨[]⟩ ⟨"p", "n", "N"⟩) =
        (.ok [⟨"msg/NConfig.msg".toList⟩, ⟨"srv/SetNConfig.srv".toList⟩], after) ∧
      after = (withService (.file (.text []))).without
        [["msg".toList, "NConfig.msg".toList], ["srv".toList, "SetNConfig.srv".toList]] ∧
      after.perform (removeObsolete ⟨[]⟩ ⟨"p", "n", "N"⟩) = (.ok [], after)) ∧
    (withService .directory).perform (removeObsolete ⟨[]⟩ ⟨"p", "n", "N"⟩) =
      (.error (.refused ⟨"srv/SetNConfig.srv".toList⟩ .isDirectory),
        (withService .directory).without [["msg".toList, "NConfig.msg".toList]]) := by
  have hpackage : IsEntryName "p" :=
    isEntryName_of_mem (c := 'p') (by decide) (by decide) (by decide)
  have hname : IsIdentifier "N".toList := (IdentifierFault.of?_eq_none_iff _).mp (by decide)
  constructor
  · have houtcome :=
      @removeObsolete_outcome _ ⟨"p", "n", "N"⟩ (@isPlain_withService (.file (.text [])) (by simp))
        hpackage hname ⟨[]⟩
    have hok :
        (perform (withService (.file (.text []))) (removeObsolete ⟨[]⟩ ⟨"p", "n", "N"⟩)).1.isOk =
          true := by cbv
    rcases hrun : perform (withService (.file (.text [])))
      (removeObsolete ⟨[]⟩ ⟨"p", "n", "N"⟩) with ⟨fault | removed, after⟩
    · rw [hrun] at hok
      cases hok
    · rw [hrun] at houtcome
      obtain ⟨hremoved, hafter, _, hagain⟩ := houtcome
      have hfiles : leadingToFiles (withService (.file (.text []))) ⟨[]⟩
          (Target.obsoletePaths ⟨"p", "n", "N"⟩) =
          [⟨"msg/NConfig.msg".toList⟩, ⟨"srv/SetNConfig.srv".toList⟩] := by cbv
      refine ⟨after, by rw [hremoved, hfiles], ?_, hagain⟩
      rw [hafter, filePlaces, hfiles]
      cbv
  · have houtcome :=
      @removeObsolete_outcome _ ⟨"p", "n", "N"⟩ (@isPlain_withService .directory (by simp)) hpackage
        hname ⟨[]⟩
    have hfault : (perform (withService .directory) (removeObsolete ⟨[]⟩ ⟨"p", "n", "N"⟩)).1 =
        .error (.refused ⟨"srv/SetNConfig.srv".toList⟩ .isDirectory) := by cbv
    rcases hrun : perform (withService .directory) (removeObsolete ⟨[]⟩ ⟨"p", "n", "N"⟩) with
      ⟨fault | removed, after⟩
    · rw [hrun] at houtcome hfault
      obtain ⟨front, path, back, cause, hpaths, hfront, hcause, _, rfl⟩ := houtcome
      have htake : (Target.obsoletePaths ⟨"p", "n", "N"⟩).takeWhile
          (fun path => ((withService .directory).refusal? (Path.join ⟨[]⟩ path)).isNone) =
            front := by
        rw [hpaths, List.takeWhile_append_of_pos (by simpa using hfront),
          List.takeWhile_cons_of_neg (by simp [hcause]), List.append_nil]
      have hplaces : filePlaces (withService .directory) ⟨[]⟩ front =
          [["msg".toList, "NConfig.msg".toList]] := by
        rw [← htake]
        cbv
      exact Prod.ext hfault (congrArg (withService .directory).without hplaces)
    · rw [hrun] at hfault
      cases hfault

end Obsolete

end Generation
end Tunables
