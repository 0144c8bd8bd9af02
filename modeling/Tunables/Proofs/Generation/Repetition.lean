import Tunables.Proofs.Generation.Effect

/-!
# Runs repeated

A run that has succeeded once succeeds again, and then it changes nothing: what it writes is there
already, the marker is kept, and there is nothing left to remove.

* `IsRun.isFree_after`: a run leaves nothing in its own way.
* `generateInto_again`: what the second run does and reports.
-/

namespace Tunables
namespace Generation

open Tunables.Tree

section Runs

variable {before middle after : Tree} {root : Path} {target : Target} {parameters : List Parameter}
  {templates : Templates} {outcomes : List (Path × Outcome)} {removed : List Path}
  {generated : Generated}

/-- What a run leaves behind is not in its own way. -/
theorem IsRun.isFree_after
    (h : IsRun before middle after root target parameters templates outcomes removed)
    (hpackage : IsEntryName target.package) : IsFree after root target := by
  have hroot : ∀ place, Passes before.working root place → middle.node? place = some .directory :=
    fun place hpass =>
      writeAll_leads h.isPlain h.writes (Artifact.mem_all .header)
        (leads_of_passes hpackage h.slashless .header hpass)
  exact ((h.isFree hpackage).extends (h.isFeasible hpackage) hpackage h.slashless h.extends
    hroot).loses h.loses

theorem IsRun.node?_marker_ne_none
    (h : IsRun before middle after root target parameters templates outcomes removed)
    (hpackage : IsEntryName target.package) :
    after.node? (artifactPlace before root target .marker) ≠ none := by
  by_cases hroot : Passes before.working root (artifactPlace before root target .marker)
  · simp [h.leads (leads_of_passes hpackage h.slashless .header hroot)]
  · simp [h.node?_marker hpackage hroot]

/-- A second run in what the first one left behind leaves the same behind. -/
theorem IsRun.alike_again {middle' last : Tree} {outcomes' : List (Path × Outcome)}
    {removed' : List Path}
    (h : IsRun before middle after root target parameters templates outcomes removed)
    (hagain : IsRun after middle' last root target parameters templates outcomes' removed')
    (hpackage : IsEntryName target.package) : Alike after last := by
  refine ⟨hagain.keeps.working, fun place => ?_⟩
  obtain ⟨role, hrole⟩ := exists_hasRole (h.isFeasible hpackage) hpackage h.slashless place
  have hrole' : HasRole after.working root target parameters templates place role :=
    h.keeps.working.symm ▸ hrole
  rw [hagain.apply_role hpackage hrole', h.apply_role hpackage hrole, Role.apply_apply]

/-- **A run can be repeated.**  In a plain tree, a run that has succeeded succeeds again with the
same inputs.  The second run leaves everything as it was, and it reports that it has written all
generated files but the marker, that it has skipped the marker, and that it has removed nothing. -/
theorem generateInto_again (hplain : before.IsPlain) (hpackage : IsEntryName target.package)
    (hname : IsEntryName target.name)
    (hrun : before.perform (generateInto root target parameters templates) =
      (.ok generated, after)) :
    ∃ last, after.perform (generateInto root target parameters templates) =
        (.ok ⟨root,
          [target.headerPath, target.referencePath, target.usagePath, target.scriptingPath],
          [target.markerPath], []⟩, last) ∧
      Alike after last := by
  obtain ⟨_, _, h, _⟩ := exists_isRun hplain hname.slashless hrun
  obtain ⟨again, last, hrun'⟩ :=
    generateInto_of_isFree h.loses.isPlain (h.keeps.working.symm ▸ h.isFeasible hpackage)
      (h.isFree_after hpackage) hpackage hname.slashless
  obtain ⟨_, outcomes, hagain, hreport⟩ := exists_isRun h.loses.isPlain hname.slashless hrun'
  obtain ⟨outcome, houtcomes⟩ := hagain.outcomes_eq
  have hkept : outcome = .skipped := by
    refine (hagain.marker_skipped_iff hpackage (by simp [houtcomes])).mpr (Or.inl ?_)
    rw [artifactPlace, h.keeps.placeOf_eq]
    exact h.node?_marker_ne_none hpackage
  have hremoved : again.removed = [] := by
    rw [hagain.removed_eq hpackage, List.filter_eq_nil_iff]
    intro path hpath
    obtain ⟨file, hfile, rfl⟩ := Target.mem_obsoletePaths_iff.mp hpath
    have hnone := h.obsolete_eq_none hpackage hfile
    rw [h.keeps.placeOf_eq, holdsFile_iff]
    rintro ⟨content, hnode⟩
    rw [placeIn, hnode] at hnone
    cases hnone
  rw [hremoved, houtcomes, hkept] at hreport
  exact ⟨last, hreport ▸ hrun', h.alike_again hagain hpackage⟩

end Runs

set_option maxRecDepth 4000 in
/-- The first run removes an obsolete file, and the second one finds nothing to remove. -/
theorem generateInto_again_furnished :
    ∃ generated after last,
      furnished.IsPlain ∧ IsEntryName "p" ∧ IsEntryName "N" ∧
      furnished.perform (generateInto ⟨['.']⟩ ⟨"p", "n", "N"⟩ [frame] Templates.builtin) =
        (.ok generated, after) ∧
      generated.removed = [⟨"msg/NConfig.msg".toList⟩] ∧
      after.perform (generateInto ⟨['.']⟩ ⟨"p", "n", "N"⟩ [frame] Templates.builtin) =
        (.ok ⟨⟨['.']⟩,
          [Target.headerPath ⟨"p", "n", "N"⟩, Target.referencePath ⟨"p", "n", "N"⟩,
            Target.usagePath ⟨"p", "n", "N"⟩, Target.scriptingPath ⟨"p", "n", "N"⟩],
          [Target.markerPath ⟨"p", "n", "N"⟩], []⟩, last) ∧
      Alike after last := by
  have hpackage : IsEntryName "p" := ⟨⟨by decide, by decide, by decide⟩, by decide⟩
  have hname : IsEntryName "N" := ⟨⟨by decide, by decide, by decide⟩, by decide⟩
  obtain ⟨header, hheader⟩ := Header.exists_render Header.isCovered_of_mem_builtin
    ⟨"p", "n", "N"⟩ [frame]
  obtain ⟨script, hscript⟩ := Scripting.exists_render Scripting.isCovered_of_mem_builtin
    ⟨"p", "n", "N"⟩ [frame]
  have hremoved : (furnished.perform (generateInto ⟨['.']⟩ ⟨"p", "n", "N"⟩ [frame]
      Templates.builtin)).1.toOption.map Generated.removed =
        some [⟨"msg/NConfig.msg".toList⟩] := by
    simp only [generateInto, run, writeAll, Artifact.all, Artifact.render, hheader, hscript]
    clear hheader hscript
    generalize Usage.render _ _ = usage
    generalize Reference.render _ = reference
    cbv
  rcases hrun : furnished.perform
      (generateInto ⟨['.']⟩ ⟨"p", "n", "N"⟩ [frame] Templates.builtin) with
    ⟨_ | generated, after⟩
  · rw [hrun] at hremoved
    cases hremoved
  · rw [hrun] at hremoved
    obtain ⟨last, hagain, halike⟩ := generateInto_again isPlain_furnished hpackage hname hrun
    exact ⟨generated, after, last, isPlain_furnished, hpackage, hname, rfl,
      Option.some.inj hremoved, hagain, halike⟩

end Generation
end Tunables
