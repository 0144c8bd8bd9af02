import Mathlib
import Tunables.Command.Basic
import Tunables.Proofs.Files.Links
import Tunables.Proofs.Generation.Removal
import Tunables.Proofs.Manifest
import Tunables.Proofs.Target

/-!
# What a dry run says about a removal

A dry run looks for files, links followed, and a removal tries to remove whatever is there.  They
agree as long as the removal finds a file, or nothing, each time it comes to a path; a link that
leads to no file is removed although no dry run lists it, and a removal stops at a directory in the
place of a file, or at a file in the place of a directory.

* `removeAll_of_settled`: a removal that finds files or nothing removes what leads to files in the
  beginning, also by links and although other files are gone by then.
* `foreseen_of_settled`, `not_foreseen_of_isOccupied`: what can be said before anything is removed.
* `clean_eq_dryRun_iff_foreseen`: when a removal does what the dry run says.
-/

namespace Tunables

open Tunables.Tree

namespace Generation

/-- Each path leads to a file, or nothing is found by the removal once the paths before it were
removed. -/
def Foreseen (tree : Tree) (root : Path) (paths : List Path) : Prop :=
  ∀ front path back, paths = front ++ path :: back →
    tree.kind? (root.join path) = some .file ∨
      (tree.perform (removeAll root front)).2.removeFile (root.join path) = .error .notFound

/-- At the end of a path lies something that is no file and no link to one. -/
def IsOccupied (tree : Tree) (path : Path) : Prop :=
  tree.kind? path ≠ some .file ∧ ∃ handle, tree.handle .isDirectory path = .ok handle ∧
    tree.node? handle.place ≠ none

section Removals

variable {tree after : Tree} {root : Path} {paths : List Path} {files : List (List String × String)}
  {file : List String × String} {gone : List (List Char)}

theorem segments_filePath (h : IsEntryName file.2) (root : Path) :
    ∃ front, (root.join (Target.filePath file)).segments = front ++ [file.2.toList] := by
  obtain ⟨front, hsegments, _⟩ := Path.segments_join (root.join (Target.below file.1)) h.isAbsolute
  refine ⟨front, ?_⟩
  rw [Target.filePath, ← Path.join_assoc, hsegments, h.segments]

/-- The first attempt of a removal, in a tree from which files with other names are gone. -/
theorem removeIfPresent_of_settled (hcleared : Cleared tree after gone) (hname : IsEntryName file.2)
    (hnew : file.2.toList ∉ gone)
    (hsettled : tree.kind? (root.join (Target.filePath file)) = some .file ∨
      after.removeFile (root.join (Target.filePath file)) = .error .notFound) :
    ∃ last, after.perform (Files.removeIfPresent (root.join (Target.filePath file))) =
        (.ok (tree.kind? (root.join (Target.filePath file)) == some .file), last) ∧
      Cleared tree last (file.2.toList :: gone) := by
  obtain ⟨front, hsegments⟩ := segments_filePath hname root
  by_cases hkind : tree.kind? (root.join (Target.filePath file)) = some .file
  · obtain ⟨last, hremove, hlast⟩ :=
      hcleared.removeFile_of_kind? hsegments hname.ordinary hnew hkind
    refine ⟨last, ?_, hlast⟩
    rw [perform_removeIfPresent, hremove, hkind]
    rfl
  · refine ⟨after, ?_, hcleared.mono fun other => List.mem_cons_of_mem _⟩
    rw [perform_removeIfPresent, hsettled.resolve_left hkind, beq_eq_false_iff_ne.mpr hkind]

/-- A removal that comes to files, or to nothing, removes the paths that lead to files in the
beginning. -/
theorem removeAll_of_settled (hcleared : Cleared tree after gone)
    (hnames : ∀ file ∈ files, IsEntryName file.2) (hnodup : (files.map Prod.snd).Nodup)
    (hnew : ∀ file ∈ files, file.2.toList ∉ gone)
    (hsettled : ∀ front file back others, files = front ++ file :: back →
      Cleared tree (after.perform (removeAll root (front.map Target.filePath))).2 others →
      tree.kind? (root.join (Target.filePath file)) = some .file ∨
        (after.perform (removeAll root (front.map Target.filePath))).2.removeFile
          (root.join (Target.filePath file)) =
          .error .notFound) :
    ∃ last, after.perform (removeAll root (files.map Target.filePath)) =
        (.ok (leadingToFiles tree root (files.map Target.filePath)), last) ∧
      Cleared tree last ((files.map fun file => file.2.toList) ++ gone) := by
  induction files generalizing after gone with
  | nil => exact ⟨after, rfl, hcleared⟩
  | cons file files ih =>
      rw [List.map_cons, List.nodup_cons] at hnodup
      obtain ⟨middle, hfirst, hmiddle⟩ :=
        removeIfPresent_of_settled hcleared (hnames file (by simp)) (hnew file (by simp))
          (hsettled [] file files gone rfl hcleared)
      have hnew' : ∀ other ∈ files, other.2.toList ∉ file.2.toList :: gone := by
        intro other hother hmem
        rcases List.mem_cons.mp hmem with hsame | hgone
        · exact hnodup.1 (String.toList_inj.mp hsame ▸ List.mem_map_of_mem hother)
        · exact hnew other (by simp [hother]) hgone
      obtain ⟨last, hrest, hlast⟩ :=
        ih hmiddle (fun other hother => hnames other (by simp [hother])) hnodup.2 hnew' <| by
          intro front other back others hfiles hcleared'
          have hturn :=
            hsettled (file :: front) other back others (by rw [hfiles, List.cons_append])
          rw [List.map_cons, perform_removeAll_cons hfirst] at hturn
          exact hturn hcleared'
      refine ⟨last, ?_, hlast.mono fun name hname => ?_⟩
      · rw [List.map_cons, perform_removeAll_cons hfirst, hrest, leadingToFiles_cons]
        rfl
      · simp only [List.mem_append, List.map_cons, List.mem_cons] at hname ⊢
        tauto

theorem Foreseen.removeAll_eq_ok (h : Foreseen tree root (files.map Target.filePath))
    (hnames : ∀ file ∈ files, IsEntryName file.2) (hnodup : (files.map Prod.snd).Nodup) :
    ∃ last, tree.perform (removeAll root (files.map Target.filePath)) =
        (.ok (leadingToFiles tree root (files.map Target.filePath)), last) ∧
      Cleared tree last (files.map fun file => file.2.toList) := by
  rw [← List.append_nil (files.map fun file => file.2.toList)]
  refine removeAll_of_settled (Cleared.refl tree []) hnames hnodup (by simp)
    fun front file back _ hfiles _ => ?_
  exact h _ _ (back.map Target.filePath) (by rw [hfiles, List.map_append, List.map_cons])

/-- A removal is foreseen exactly if it removes the paths that lead to files in the beginning. -/
theorem removeAll_eq_ok_iff_foreseen (hnames : ∀ file ∈ files, IsEntryName file.2)
    (hnodup : (files.map Prod.snd).Nodup) :
    (tree.perform (removeAll root (files.map Target.filePath))).1 =
        .ok (leadingToFiles tree root (files.map Target.filePath)) ↔
      Foreseen tree root (files.map Target.filePath) := by
  constructor
  · intro hrun front path back hpaths
    rcases hresult : tree.perform (removeAll root (files.map Target.filePath)) with ⟨outcome, last⟩
    rw [hresult] at hrun
    rw [hpaths] at hresult
    refine (removeAll_turn (hresult.trans (congrArg (·, last) hrun))).imp_left fun hmem => ?_
    exact beq_iff_eq.mp (List.mem_filter.mp hmem).2
  · intro hforeseen
    obtain ⟨last, hrun, _⟩ := hforeseen.removeAll_eq_ok hnames hnodup
    rw [hrun]

/-- It is enough to look once, before anything is removed. -/
theorem foreseen_of_settled (hnames : ∀ file ∈ files, IsEntryName file.2)
    (hnodup : (files.map Prod.snd).Nodup) (hsettled : ∀ path ∈ files.map Target.filePath,
      tree.kind? (root.join path) = some .file ∨
      tree.removeFile (root.join path) = .error .notFound) :
    Foreseen tree root (files.map Target.filePath) := by
  obtain ⟨last, hrun, _⟩ :=
    removeAll_of_settled (Cleared.refl tree []) hnames hnodup (by simp) <| by
      intro front file back _ hfiles hmiddle
      have hmem : file ∈ files := by simp [hfiles]
      obtain ⟨segments, hsegments⟩ := segments_filePath (hnames file hmem) root
      exact (hsettled _ (List.mem_map_of_mem hmem)).imp_right
        (hmiddle.removeFile_of_notFound hsegments (hnames file hmem).ordinary)
  exact (removeAll_eq_ok_iff_foreseen hnames hnodup).mp (congrArg Prod.fst hrun)

/-- What lies at the end of a path stays there until its turn comes. -/
theorem not_foreseen_of_isOccupied (hnames : ∀ file ∈ files, IsEntryName file.2)
    (hnodup : (files.map Prod.snd).Nodup) (hfile : file ∈ files)
    (hoccupied : IsOccupied tree (root.join (Target.filePath file))) :
    ¬ Foreseen tree root (files.map Target.filePath) := by
  intro hforeseen
  obtain ⟨hkind, handle, hhandle, hnode⟩ := hoccupied
  obtain ⟨front, back, rfl⟩ := List.append_of_mem hfile
  have hmissing :=
    (hforeseen (front.map Target.filePath) (Target.filePath file) (back.map Target.filePath)
      (by simp)).resolve_left hkind
  have hfront : Foreseen tree root (front.map Target.filePath) := by
    intro before path others hpaths
    exact hforeseen before path (others ++ (file :: back).map Target.filePath) (by simp [hpaths])
  obtain ⟨last, hrun, hcleared⟩ :=
    hfront.removeAll_eq_ok (fun other hother => hnames other (by simp [hother]))
      (by rw [List.map_append] at hnodup; exact hnodup.of_append_left)
  obtain ⟨segments, hsegments⟩ := segments_filePath (hnames file hfile) root
  have hhandle' : last.handle .isDirectory (root.join (Target.filePath file)) = .ok handle := by
    rw [hcleared.handle_eq hsegments (hnames file hfile).ordinary (by simp [hhandle])
      (by simp [hhandle]), hhandle]
  rw [hrun] at hmissing
  rcases removeFile_eq_notFound_iff.mp hmissing with hnone | ⟨other, hother, _, hnone⟩
  · rw [hhandle'] at hnone
    cases hnone
  · rw [hhandle'] at hother
    cases hother
    rcases hcleared.each handle.place with hsame | ⟨_, _, directory, name, hgone, hplace⟩
    · exact hnode (hsame ▸ hnone)
    · have hlast : file.2.toList = name := by
        rw [← name_of_handle hsegments (hnames file hfile).ordinary hhandle]
        exact (List.cons.inj (List.append_inj_right' hplace rfl)).1
      obtain ⟨earlier, hearlier, hname⟩ := List.mem_map.mp hgone
      rw [List.map_append, List.nodup_append] at hnodup
      exact hnodup.2.2 earlier.2 (List.mem_map_of_mem hearlier) file.2 (by simp)
        (String.toList_inj.mp (hname.trans hlast.symm))

end Removals

end Generation

namespace Command

open Generation

section Locating

theorem reads_locator {ε : Type} (packageDirectory : Option Path) (searchPath : Option String) :
    Reads (locator packageDirectory searchPath : ExceptT ε (StateM Tree) Locator) := by
  cases packageDirectory with
  | some path => exact reads_pure _
  | none =>
      rw [locator, Locator.ofSearchPath]
      split
      · exact reads_workingDirectory.bind fun _ => reads_pure _
      · exact reads_pure _

theorem reads_candidate {ε : Type} (package : String) (entry : Path) :
    Reads (Locator.candidate package entry : ExceptT ε (StateM Tree) (Option Path)) := by
  have hnested : Reads (do
      if ← FileStore.isDirectory (entry.join (.ofString package)) then
        return some (entry.join (.ofString package))
      return none : ExceptT ε (StateM Tree) (Option Path)) := by
    refine (reads_isDirectory _).bind fun isThere => ?_
    split
    · exact reads_pure _
    · exact reads_pure _
  rw [Locator.candidate]
  split
  · refine (reads_isDirectory _).bind fun isThere => ?_
    split
    · exact reads_pure _
    · exact hnested
  · exact hnested

theorem reads_firstCandidate {ε : Type} (package : String) (entries : List Path) :
    Reads (Locator.firstCandidate package entries : ExceptT ε (StateM Tree) (Option Path)) := by
  induction entries with
  | nil => exact reads_pure _
  | cons entry entries ih =>
      rw [Locator.firstCandidate]
      refine (reads_candidate package entry).bind fun found => ?_
      cases found with
      | some root => exact reads_pure _
      | none => exact ih

/-- The root of a package is looked for, and nothing is changed. -/
theorem reads_resolve (locator : Locator) (package : String) :
    Reads (locator.resolve package : ExceptT PackageFault (StateM Tree) Path) := by
  cases locator with
  | root path =>
      refine (reads_isDirectory path).bind fun isThere => ?_
      split
      · exact reads_pure _
      · exact reads_throw _
  | search entries =>
      refine (reads_firstCandidate package entries).bind fun found => ?_
      cases found with
      | some root => exact reads_pure _
      | none => exact reads_throw _

end Locating

section Cleaning

variable {manifest : Manifest} {packageDirectory : Option Path} {searchPath : Option String}
  {tree : Tree} {root : Path}

/-- The root of the package of a manifest. -/
def packageRoot (manifest : Manifest) (packageDirectory : Option Path)
    (searchPath : Option String) :
    ExceptT CommandFault (StateM Tree) Path := do
  let locator ← locator packageDirectory searchPath
  ExceptT.adapt .package (locator.resolve manifest.target.package)

theorem reads_packageRoot : Reads (packageRoot manifest packageDirectory searchPath) :=
  (reads_locator _ _).bind fun locator => (reads_resolve locator _).adapt _

theorem clean_eq (isDryRun : Bool) :
    (clean manifest ⟨packageDirectory, isDryRun, searchPath⟩ : ExceptT CommandFault
      (StateM Tree) CleanReport) =
      packageRoot manifest packageDirectory searchPath >>= fun root =>
        if isDryRun then
          (fun found => ⟨true, root, found⟩) <$>
            manifest.target.obsoletePaths.filterM fun path => FileStore.isFile (root.join path)
        else
          (fun removed => ⟨false, root, removed⟩) <$>
            ExceptT.adapt .removal (removeObsolete root manifest.target) := by
  rw [clean, packageRoot, bind_assoc]
  simp only [map_eq_pure_bind]

theorem clean_of_error {fault : CommandFault}
    (h : (tree.perform (packageRoot manifest packageDirectory searchPath)).1 = .error fault)
    (isDryRun : Bool) :
    tree.perform (clean manifest ⟨packageDirectory, isDryRun, searchPath⟩) =
      (.error fault, tree) := by
  rw [clean_eq, perform_bind, reads_packageRoot.perform_eq, h]

/-- A dry run lists what leads to files, and changes nothing. -/
theorem clean_dryRun
    (h : (tree.perform (packageRoot manifest packageDirectory searchPath)).1 = .ok root) :
    tree.perform (clean manifest ⟨packageDirectory, true, searchPath⟩) =
      (.ok ⟨true, root, leadingToFiles tree root manifest.target.obsoletePaths⟩, tree) := by
  rw [clean_eq, perform_bind, reads_packageRoot.perform_eq, h]
  simp only [if_true]
  rw [perform_map, perform_filterM fun path => perform_isFile tree (root.join path)]
  rfl

/-- A removal succeeds below the root of the package, with the paths that were removed. -/
theorem clean_eq_ok_iff
    (h : (tree.perform (packageRoot manifest packageDirectory searchPath)).1 = .ok root)
    {paths : List Path} : (tree.perform (clean manifest ⟨packageDirectory, false, searchPath⟩)).1 =
      .ok ⟨false, root, paths⟩ ↔
      (tree.perform (removeObsolete root manifest.target)).1 = .ok paths := by
  rw [clean_eq, perform_bind, reads_packageRoot.perform_eq, h]
  simp only [Bool.false_eq_true, if_false]
  rw [perform_map, perform_adapt]
  rcases tree.perform (removeObsolete root manifest.target) with ⟨fault | removed, after⟩
  · exact iff_of_false (fun hsame => by cases hsame) (fun hsame => by cases hsame)
  · constructor
    · intro hsame
      cases hsame
      rfl
    · intro hsame
      cases hsame
      rfl

/-- **When a removal does what the dry run says.**  A dry run changes nothing.  If it fails, then so
does the removal, for the same fault and before anything is removed.  Otherwise the removal succeeds
with the root and the list of the dry run exactly if each of the paths led to a file in the
beginning or nothing is found there when the removal comes to it.  For this it is enough that in the
beginning each path leads to a file or there is nothing to be removed, and it is not so if at the
end of a path lies something else, such as a directory or a link that leads to no file. -/
theorem clean_eq_dryRun_iff_foreseen {text : List Char} {file : String}
    (hread : Manifest.read text file = .ok manifest) (packageDirectory : Option Path)
    (searchPath : Option String) (tree : Tree) :
    (tree.perform (clean manifest ⟨packageDirectory, true, searchPath⟩)).2 = tree ∧
      (∀ fault, (tree.perform (clean manifest ⟨packageDirectory, true, searchPath⟩)).1 =
        .error fault →
        tree.perform (clean manifest ⟨packageDirectory, false, searchPath⟩) =
          (.error fault, tree)) ∧
      ∀ report, (tree.perform (clean manifest ⟨packageDirectory, true, searchPath⟩)).1 =
        .ok report →
        ((tree.perform (clean manifest ⟨packageDirectory, false, searchPath⟩)).1 =
            .ok ⟨false, report.root, report.deleted⟩ ↔
          Foreseen tree report.root manifest.target.obsoletePaths) ∧
        ((∀ path ∈ manifest.target.obsoletePaths, tree.kind? (report.root.join path) = some .file ∨
            tree.removeFile (report.root.join path) = .error .notFound) →
          Foreseen tree report.root manifest.target.obsoletePaths) ∧
        ((∃ path ∈ manifest.target.obsoletePaths, IsOccupied tree (report.root.join path)) →
          ¬ Foreseen tree report.root manifest.target.obsoletePaths) := by
  have hnames : ∀ file ∈ manifest.target.obsoleteFiles, IsEntryName file.2 := fun file hfile =>
    (Target.Names.obsolete hfile).isEntryName
      ((Manifest.read_isIdentifier hread).not_mem (by decide))
  rcases hroot : (tree.perform (packageRoot manifest packageDirectory searchPath)).1 with
    fault | root
  · rw [clean_of_error hroot, clean_of_error hroot]
    refine ⟨rfl, fun _ hfault => ?_, fun _ hreport => ?_⟩
    · cases hfault
      rfl
    · cases hreport
  · rw [clean_dryRun hroot, Target.obsoletePaths_eq]
    refine ⟨rfl, fun _ hfault => ?_, fun _ hreport => ?_⟩
    · cases hfault
    · cases hreport
      refine ⟨?_, foreseen_of_settled hnames (obsoleteNames_nodup _), ?_⟩
      · rw [clean_eq_ok_iff hroot, removeObsolete, Target.obsoletePaths_eq]
        exact removeAll_eq_ok_iff_foreseen hnames (obsoleteNames_nodup _)
      · rintro ⟨path, hpath, hoccupied⟩
        obtain ⟨file, hfile, rfl⟩ := List.mem_map.mp hpath
        exact not_foreseen_of_isOccupied hnames (obsoleteNames_nodup _) hfile hoccupied

end Cleaning

/-- A package with something at the path of its first obsolete file. -/
def tidied (node : Node) : Tree :=
  ⟨[([['r']], .directory), ([['r'], "msg".toList], .directory),
    ([['r'], "msg".toList, "NConfig.msg".toList], node)], []⟩

/-- The path of that file. -/
def tidiedPath : Path :=
  Target.below ["msg", "NConfig.msg"]

set_option maxRecDepth 4000 in
/-- A file is listed and removed.  A link that leads nowhere is removed although it is not
listed. -/
theorem clean_eq_dryRun_iff_foreseen_link :
    ∃ manifest, Manifest.read "generator=['p','n','N']".toList "params.toml" = .ok manifest ∧
      (((tidied (.file (.text []))).perform (clean manifest ⟨some ⟨['r']⟩, true, none⟩)).1 =
          .ok ⟨true, ⟨['r']⟩, [tidiedPath]⟩ ∧
        ((tidied (.file (.text []))).perform (clean manifest ⟨some ⟨['r']⟩, false, none⟩)).1 =
          .ok ⟨false, ⟨['r']⟩, [tidiedPath]⟩) ∧
      ((tidied (.link ⟨['x']⟩)).perform (clean manifest ⟨some ⟨['r']⟩, true, none⟩)).1 =
        .ok ⟨true, ⟨['r']⟩, []⟩ ∧
        ((tidied (.link ⟨['x']⟩)).perform (clean manifest ⟨some ⟨['r']⟩, false, none⟩)).1 =
          .ok ⟨false, ⟨['r']⟩, [tidiedPath]⟩ ∧
        ¬ Foreseen (tidied (.link ⟨['x']⟩)) ⟨['r']⟩ manifest.target.obsoletePaths := by
  have hread : Manifest.read "generator=['p','n','N']".toList "params.toml" =
      .ok ⟨⟨"p", "n", "N"⟩, none, [], "params.toml"⟩ := by cbv
  have hfile :
      ((tidied (.file (.text []))).perform (clean ⟨⟨"p", "n", "N"⟩, none, [], "params.toml"⟩
      ⟨some ⟨['r']⟩, true, none⟩)).1 = .ok ⟨true, ⟨['r']⟩, [tidiedPath]⟩ := by cbv
  have hlink : ((tidied (.link ⟨['x']⟩)).perform (clean ⟨⟨"p", "n", "N"⟩, none, [], "params.toml"⟩
      ⟨some ⟨['r']⟩, true, none⟩)).1 = .ok ⟨true, ⟨['r']⟩, []⟩ := by cbv
  have hremoved :
      ((tidied (.link ⟨['x']⟩)).perform (clean ⟨⟨"p", "n", "N"⟩, none, [], "params.toml"⟩
      ⟨some ⟨['r']⟩, false, none⟩)).1 = .ok ⟨false, ⟨['r']⟩, [tidiedPath]⟩ := by cbv
  refine ⟨_, hread, ⟨hfile, ?_⟩, hlink, hremoved, fun hforeseen => ?_⟩
  · obtain ⟨hiff, hlook, _⟩ :=
      (clean_eq_dryRun_iff_foreseen hread (some ⟨['r']⟩) none _).2.2 _ hfile
    refine hiff.mpr (hlook fun path hpath => ?_)
    simp only [Target.obsoletePaths, List.mem_cons, List.not_mem_nil, or_false] at hpath
    rcases hpath with rfl | hpath
    · exact Or.inl (by cbv)
    · rcases hpath with rfl | rfl | rfl | rfl | rfl <;> exact Or.inr (by cbv)
  · have hagree :=
      ((clean_eq_dryRun_iff_foreseen hread (some ⟨['r']⟩) none _).2.2 _ hlink).1.mpr hforeseen
    rw [hremoved] at hagree
    cases hagree

end Command
end Tunables
