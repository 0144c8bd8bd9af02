import Tunables.Proofs.Files.Action
import Tunables.Proofs.Files.Change

/-!
# Making directories

A directory is made together with all that is missing above it.  Nothing happens to a plain tree but
that directories appear on the way, whether the attempt succeeds or not (`ensureDirectory_extends`).
If it succeeds, there is a directory wherever the path passes through.
-/

namespace Tunables
namespace Tree

section

variable {ε α β : Type} {before tree : Tree} {files ways gone : Place → Prop}
  {first : ExceptT ε (StateM Tree) α} {next : α → ExceptT ε (StateM Tree) β}

theorem Extends.bind (hfirst : Extends before (tree.perform first).2 files ways)
    (hnext : ∀ a middle, tree.perform first = (.ok a, middle) → Extends before middle files ways →
      Extends before (middle.perform (next a)).2 files ways) :
    Extends before (tree.perform (first >>= next)).2 files ways :=
  perform_bind_snd (P := fun left => Extends before left files ways) hfirst hnext

theorem Loses.bind (hfirst : Loses before (tree.perform first).2 gone)
    (hnext : ∀ a middle, tree.perform first = (.ok a, middle) → Loses before middle gone →
      Loses before (middle.perform (next a)).2 gone) :
    Loses before (tree.perform (first >>= next)).2 gone :=
  perform_bind_snd (P := fun left => Loses before left gone) hfirst hnext

end

section

variable {tree after : Tree} {path : Path}

theorem directory_of_passes (h : tree.IsPlain) (hkind : tree.kind? path = some .directory)
    {place : Place} (hpass : Passes tree.working path place) :
    tree.node? place = some .directory := by
  obtain ⟨⟨_, hpassable⟩, hnode⟩ := (kind?_eq_directory_iff h).mp hkind
  obtain ⟨front, ⟨back, hsegments⟩, rfl⟩ := hpass
  by_cases hback : back = []
  · rw [hback, List.append_nil] at hsegments
    rw [hsegments]
    exact hnode
  · rw [← hsegments] at hpassable
    exact hpassable.directory hback

theorem createDirectory_extends (h : tree.IsPlain) (path : Path) :
    Extends tree (tree.perform (Files.createDirectory path)).2 (fun _ => False)
      (Passes tree.working path) := by
  rw [perform_createDirectory]
  split
  · next made hmake =>
      refine (makeDirectory_eq_ok h hmake).1.weaken (fun _ hfalse => hfalse) fun place hplace => ?_
      rw [hplace]
      exact passes_placeOf tree path
  · split <;> exact Extends.refl h _ _

theorem createDirectory_eq_ok (h : tree.IsPlain)
    (hrun : tree.perform (Files.createDirectory path) = (.ok (), after)) :
    after.kind? path = some .directory := by
  rw [perform_createDirectory] at hrun
  split at hrun
  · next made hmake =>
      cases hrun
      exact (makeDirectory_eq_ok h hmake).2
  · split at hrun
    · next hkind =>
        cases hrun
        exact hkind
    · cases hrun
    · cases hrun

end

/-- Whatever comes of an attempt to make a directory, nothing happens but that directories
appear on the way. -/
theorem ensureDirectory_extends {tree : Tree} (h : tree.IsPlain) (path : Path) :
    Extends tree (tree.perform (Files.ensureDirectory path)).2 (fun _ => False)
      (Passes tree.working path) := by
  rw [perform_ensureDirectory]
  split
  · exact Extends.refl h _ _
  · exact Extends.refl h _ _
  · split
    · exact createDirectory_extends h path
    · next parent hparent =>
        split
        · have hways : ∀ place, Passes tree.working parent place → Passes tree.working path place :=
            fun place hpass => hpass.of_parent? hparent
          have habove := (ensureDirectory_extends h parent).weaken (fun _ hfalse => hfalse) hways
          refine habove.bind fun _ middle _ hmiddle => ?_
          have hself := createDirectory_extends hmiddle.isPlain path
          rw [hmiddle.working] at hself
          exact hmiddle.trans hself
        · exact createDirectory_extends h path
termination_by path.text.length
decreasing_by exact Path.parent?_length ‹_›

/-- Directories appear on the way, and in the end the path leads to a directory. -/
theorem ensureDirectory_eq_ok {tree after : Tree} {path : Path} (h : tree.IsPlain)
    (hrun : tree.perform (Files.ensureDirectory path) = (.ok (), after)) :
    Extends tree after (fun _ => False) (Passes tree.working path) ∧
      after.kind? path = some .directory := by
  have hextends := ensureDirectory_extends h path
  rw [hrun] at hextends
  refine ⟨hextends, ?_⟩
  rw [perform_ensureDirectory] at hrun
  split at hrun
  · next hkind =>
      cases hrun
      exact hkind
  · cases hrun
  · split at hrun
    · exact createDirectory_eq_ok h hrun
    · next parent _ =>
        split at hrun
        · obtain ⟨⟨⟩, middle, habove, hself⟩ := perform_bind_eq_ok_iff.mp hrun
          have hmiddle := ensureDirectory_extends h parent
          rw [habove] at hmiddle
          exact createDirectory_eq_ok hmiddle.isPlain hself
        · exact createDirectory_eq_ok h hrun

end Tree
end Tunables
