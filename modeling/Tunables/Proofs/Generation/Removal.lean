import Tunables.Generation.Basic
import Tunables.Proofs.Files.Directory

/-!
# Removing obsolete files

Files are removed from a plain tree one after the other.  What was removed was a file and is gone,
what was not removed was not to be found, and everything else stays.  Nothing else ever changes,
even if a removal is refused (`removeAll_loses`).

* `removeAll_attempt`, `removeAll_of_removable`: a removal succeeds if and only if no file is
  refused when its turn comes.
* `removeAll_eq_ok`, `removeAll_missing`: what it means that a path was removed, and that it was
  not.
* `removeAll_eq_error`: a file that was refused, and those in front of it.
-/

namespace Tunables
namespace Generation

open Tunables.Tree

/-- The paths that lead to files below a root. -/
def leadingToFiles (tree : Tree) (root : Path) (paths : List Path) : List Path :=
  paths.filter fun path => tree.kind? (root.join path) == some .file

theorem leadingToFiles_cons (tree : Tree) (root path : Path) (paths : List Path) :
    leadingToFiles tree root (path :: paths) =
      if tree.kind? (root.join path) == some .file then path :: leadingToFiles tree root paths
      else leadingToFiles tree root paths :=
  List.filter_cons

variable {root path : Path} {paths removed : List Path} {tree after : Tree}

theorem removeIfPresent_eq_ok {isRemoved : Bool}
    (hrun : tree.perform (Files.removeIfPresent path) = (.ok isRemoved, after)) :
    isRemoved = true ∧ tree.removeFile path = .ok after ∨
      isRemoved = false ∧ tree.removeFile path = .error .notFound ∧ after = tree := by
  rw [perform_removeIfPresent] at hrun
  split at hrun
  · next made hremove =>
      cases hrun
      exact Or.inl ⟨rfl, hremove⟩
  · next hremove =>
      cases hrun
      exact Or.inr ⟨rfl, hremove, rfl⟩
  · cases hrun

theorem removeIfPresent_loses (h : tree.IsPlain) (path : Path) :
    Loses tree (tree.perform (Files.removeIfPresent path)).2
      (fun place => place = tree.placeOf path) := by
  rw [perform_removeIfPresent]
  split
  · next made hremove => exact (removeFile_eq_ok h hremove).1
  · exact Loses.refl h _
  · exact Loses.refl h _

/-- Whatever comes of an attempt to remove files, nothing else changes. -/
theorem removeAll_loses (h : tree.IsPlain) (root : Path) (paths : List Path) :
    Loses tree (tree.perform (removeAll root paths)).2
      (fun place => ∃ path ∈ paths, place = tree.placeOf (root.join path)) := by
  induction paths generalizing tree with
  | nil =>
      exact Loses.refl h _
  | cons path paths ih =>
      rw [removeAll]
      refine Loses.bind ?_ fun isRemoved middle _ hmiddle => Loses.bind ?_ fun _ _ _ hlast => hlast
      · exact (removeIfPresent_loses h (root.join path)).weaken fun place hplace =>
          ⟨path, by simp, hplace⟩
      · refine hmiddle.trans ((ih hmiddle.isPlain).weaken ?_)
        rintro place ⟨other, hother, rfl⟩
        exact ⟨other, by simp [hother], hmiddle.placeOf_eq _⟩

theorem removeAll_cons_eq_ok
    (hrun : tree.perform (removeAll root (path :: paths)) = (.ok removed, after)) :
    ∃ isRemoved others middle,
      tree.perform (Files.removeIfPresent (root.join path)) = (.ok isRemoved, middle) ∧
      middle.perform (removeAll root paths) = (.ok others, after) ∧
      removed = if isRemoved then path :: others else others := by
  rw [removeAll] at hrun
  obtain ⟨isRemoved, middle, hremove, hrun⟩ := perform_bind_eq_ok_iff.mp hrun
  obtain ⟨others, last, hrest, hpure⟩ := perform_bind_eq_ok_iff.mp hrun
  cases hpure
  exact ⟨isRemoved, others, middle, hremove, hrest, rfl⟩

theorem perform_removeAll_cons {isRemoved : Bool} {middle : Tree}
    (h : tree.perform (Files.removeIfPresent (root.join path)) = (.ok isRemoved, middle)) :
    tree.perform (removeAll root (path :: paths)) =
      ((middle.perform (removeAll root paths)).1.map fun others => if isRemoved then path :: others
        else others,
        (middle.perform (removeAll root paths)).2) := by
  rw [removeAll, perform_bind, h]
  simp only
  rw [perform_bind]
  rcases middle.perform (removeAll root paths) with ⟨_ | others, last⟩ <;> rfl

/-- When its turn comes, a path is removed, or there is nothing to be found. -/
theorem removeAll_turn {front back : List Path}
    (hrun : tree.perform (removeAll root (front ++ path :: back)) = (.ok removed, after)) :
    path ∈ removed ∨ (tree.perform (removeAll root front)).2.removeFile (root.join path) =
      .error .notFound := by
  induction front generalizing tree removed with
  | nil =>
      obtain ⟨isRemoved, others, middle, hfirst, _, rfl⟩ := removeAll_cons_eq_ok hrun
      rcases removeIfPresent_eq_ok hfirst with ⟨rfl, _⟩ | ⟨_, hmissing, _⟩
      · exact Or.inl List.mem_cons_self
      · exact Or.inr hmissing
  | cons first front ih =>
      obtain ⟨isRemoved, others, middle, hfirst, hrest, rfl⟩ := removeAll_cons_eq_ok hrun
      rw [perform_removeAll_cons hfirst]
      refine (ih hrest).imp_left fun hmem => ?_
      cases isRemoved with
      | true => exact List.mem_cons_of_mem _ hmem
      | false => exact hmem

/-- Every attempt to remove a file is made in a tree that has only lost other files, and the file is
removed or is not there. -/
theorem removeAll_attempt (h : tree.IsPlain)
    (hrun : tree.perform (removeAll root paths) = (.ok removed, after)) (hmem : path ∈ paths) :
    ∃ middle,
      Loses tree middle (fun place => ∃ other ∈ paths, place = tree.placeOf (root.join other)) ∧
      ((∃ last, middle.removeFile (root.join path) = .ok last) ∨
        middle.removeFile (root.join path) = .error .notFound) := by
  induction paths generalizing tree removed with
  | nil =>
      simp at hmem
  | cons first paths ih =>
      obtain ⟨isRemoved, others, next, hfirst, hrest, _⟩ := removeAll_cons_eq_ok hrun
      rcases List.mem_cons.mp hmem with rfl | hmem
      · refine ⟨tree, Loses.refl h _, ?_⟩
        rcases removeIfPresent_eq_ok hfirst with ⟨_, hremove⟩ | ⟨_, hremove, _⟩
        · exact Or.inl ⟨next, hremove⟩
        · exact Or.inr hremove
      · have hloses := removeIfPresent_loses h (root.join first)
        rw [hfirst] at hloses
        obtain ⟨middle, hmiddle, hattempt⟩ := ih hloses.isPlain hrest hmem
        refine ⟨middle, (hloses.weaken ?_).trans (hmiddle.weaken ?_), hattempt⟩
        · exact fun place hplace => ⟨first, by simp, hplace⟩
        · rintro place ⟨other, hother, rfl⟩
          exact ⟨other, by simp [hother], hloses.placeOf_eq _⟩

/-- A removal succeeds if every file can be removed, or is not there, whichever of the others are
gone. -/
theorem removeAll_of_removable (h : tree.IsPlain) {gone : Place → Prop}
    (hgone : ∀ path ∈ paths, gone (tree.placeOf (root.join path)))
    (hremovable : ∀ path ∈ paths, ∀ middle, Loses tree middle gone →
      (∃ last, middle.removeFile (root.join path) = .ok last) ∨
        middle.removeFile (root.join path) = .error .notFound) :
    ∃ removed after, tree.perform (removeAll root paths) = (.ok removed, after) := by
  induction paths generalizing tree with
  | nil =>
      exact ⟨[], tree, rfl⟩
  | cons path paths ih =>
      obtain ⟨isRemoved, next, hfirst⟩ : ∃ isRemoved next,
          tree.perform (Files.removeIfPresent (root.join path)) = (.ok isRemoved, next) := by
        rw [perform_removeIfPresent]
        rcases hremovable path (by simp) tree (Loses.refl h _) with ⟨last, hremove⟩ | hremove
        · rw [hremove]
          exact ⟨true, last, rfl⟩
        · rw [hremove]
          exact ⟨false, tree, rfl⟩
      have hloses := removeIfPresent_loses h (root.join path)
      rw [hfirst] at hloses
      have hloses : Loses tree next gone :=
        hloses.weaken fun place hplace => hplace ▸ hgone path (by simp)
      obtain ⟨others, after, hrest⟩ := ih hloses.isPlain
        (fun other hother => hloses.placeOf_eq _ ▸ hgone other (by simp [hother]))
        fun other hother middle hmiddle =>
          hremovable other (by simp [hother]) middle (hloses.trans hmiddle)
      refine ⟨if isRemoved then path :: others else others, after, ?_⟩
      rw [perform_removeAll_cons hfirst, hrest]
      rfl

theorem removeAll_sublist (hrun : tree.perform (removeAll root paths) = (.ok removed, after)) :
    removed.Sublist paths := by
  induction paths generalizing tree removed with
  | nil =>
      cases hrun
      exact List.Sublist.refl _
  | cons path paths ih =>
      obtain ⟨isRemoved, others, middle, _, hrest, rfl⟩ := removeAll_cons_eq_ok hrun
      cases isRemoved with
      | true => exact (ih hrest).cons_cons path
      | false => exact (ih hrest).cons path

/-- Some of the paths were removed: each of them led to a file that is gone now. -/
theorem removeAll_eq_ok (h : tree.IsPlain)
    (hrun : tree.perform (removeAll root paths) = (.ok removed, after)) :
    Loses tree after (fun place => ∃ path ∈ removed, place = tree.placeOf (root.join path)) ∧
      ∀ path ∈ removed, after.Reaches (root.join path) ∧
        (∃ content, tree.node? (tree.placeOf (root.join path)) = some (.file content)) ∧
        after.node? (tree.placeOf (root.join path)) = none := by
  induction paths generalizing tree removed with
  | nil =>
      cases hrun
      exact ⟨Loses.refl h _, by simp⟩
  | cons path paths ih =>
      obtain ⟨isRemoved, others, middle, hfirst, hrest, rfl⟩ := removeAll_cons_eq_ok hrun
      rcases removeIfPresent_eq_ok hfirst with ⟨rfl, hremove⟩ | ⟨rfl, _, rfl⟩
      · obtain ⟨hloses, hreaches, hfile, hgone⟩ := removeFile_eq_ok h hremove
        obtain ⟨hloses', hothers⟩ := ih hloses.isPlain hrest
        simp only [if_true]
        refine ⟨?_, ?_⟩
        · refine (hloses.weaken ?_).trans (hloses'.weaken ?_)
          · exact fun place hplace => ⟨path, by simp, hplace⟩
          · rintro place ⟨other, hother, rfl⟩
            exact ⟨other, by simp [hother], hloses.placeOf_eq _⟩
        · intro other hother
          rcases List.mem_cons.mp hother with rfl | hother
          · have hkeeps := hloses.toKeeps.trans hloses'.toKeeps
            exact ⟨hreaches.mono hkeeps, hfile, hloses'.eq_none hgone⟩
          · obtain ⟨hreaches', ⟨content, hfile'⟩, hgone'⟩ := hothers other hother
            rw [hloses.placeOf_eq] at hfile' hgone'
            refine ⟨hreaches', ⟨content, ?_⟩, hgone'⟩
            rcases hloses.each (tree.placeOf (root.join other)) with hsame | ⟨_, _, hnone⟩
            · rw [← hsame, hfile']
            · simp [hnone] at hfile'
      · exact ih h hrest

/-- On the way to what was not removed something is missing, be it at the end of the way. -/
theorem removeAll_missing (h : tree.IsPlain)
    (hrun : tree.perform (removeAll root paths) = (.ok removed, after)) (hmem : path ∈ paths)
    (htext : (root.join path).text ≠ []) (hkept : path ∉ removed) :
    ∃ place, Passes tree.working (root.join path) place ∧ after.node? place = none := by
  induction paths generalizing tree removed with
  | nil =>
      simp at hmem
  | cons first paths ih =>
      obtain ⟨isRemoved, others, middle, hfirst, hrest, rfl⟩ := removeAll_cons_eq_ok hrun
      rcases removeIfPresent_eq_ok hfirst with ⟨rfl, hremove⟩ | ⟨rfl, hremove, rfl⟩
      · obtain ⟨hloses, _⟩ := removeFile_eq_ok h hremove
        simp only [if_true, List.mem_cons, not_or] at hkept
        have hrest' :=
          ih hloses.isPlain hrest ((List.mem_cons.mp hmem).resolve_left hkept.1) hkept.2
        rw [hloses.working] at hrest'
        exact hrest'
      · rcases List.mem_cons.mp hmem with rfl | hmem
        · obtain ⟨place, hpass, hnone⟩ := missing_of_removeFile h htext hremove
          obtain ⟨hloses, _⟩ := removeAll_eq_ok h hrest
          exact ⟨place, hpass, hloses.eq_none hnone⟩
        · exact ih h hrest hmem hkept

/-- If some files were not removed, then those in front of one of them were removed or not to be
found, and that one was refused. -/
theorem removeAll_eq_error {fault : FileFault}
    (hrun : tree.perform (removeAll root paths) = (.error fault, after)) :
    ∃ front path back removed cause, paths = front ++ path :: back ∧
      tree.perform (removeAll root front) = (.ok removed, after) ∧
      after.removeFile (root.join path) = .error cause ∧ cause ≠ .notFound ∧
      fault = .refused (root.join path) cause := by
  induction paths generalizing tree with
  | nil =>
      cases hrun
  | cons path paths ih =>
      rw [removeAll] at hrun
      rcases perform_bind_eq_error hrun with hfirst | ⟨isRemoved, middle, hfirst, hrun⟩
      · rw [perform_removeIfPresent] at hfirst
        split at hfirst
        · cases hfirst
        · cases hfirst
        · next cause hcause hremove =>
            cases hfirst
            exact ⟨[], path, paths, [], cause, rfl, rfl, hremove, hcause, rfl⟩
      rcases perform_bind_eq_error hrun with hrest | ⟨_, _, _, hpure⟩
      · obtain ⟨front, failed, back, removed, cause, rfl, hfront, hfailed⟩ := ih hrest
        refine ⟨path :: front, failed, back, if isRemoved then path :: removed else removed, cause,
          rfl, ?_, hfailed⟩
        rw [perform_removeAll_cons hfirst, hfront]
        rfl
      · cases hpure

end Generation
end Tunables
