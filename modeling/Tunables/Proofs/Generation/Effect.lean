import Tunables.Proofs.Generation.Readiness

/-!
# What a run makes of each place

To a run every place has a role: a generated file is written there, an obsolete file is removed
from there, it is a directory on the way to a file, it is the place of the marker, or it is none of
its business.  What lies at a place after the run depends on its role and on what lay there before,
and on nothing else.

* `Role.apply`: what becomes of a place.
* `exists_hasRole`: every place has a role.
* `IsRun.apply_role`: a run makes of a place what its role says.
-/

namespace Tunables
namespace Generation

open Tunables.Tree

/-- What a run means to do at a place. -/
inductive Role where
  | written (text : List Char)
  | removed
  | directory
  | marker
  | none
deriving DecidableEq

/-- What lies at a place after a run that has meant to do something there. -/
def Role.apply : Role → Option Node → Option Node
  | .written text, _ => some (.file (.text text))
  | .removed, _ => Option.none
  | .directory, _ => some .directory
  | .marker, before => some (before.getD (.file (.text [])))
  | .none, before => before

/-- The role of a place in a run. -/
inductive HasRole (working : Place) (root : Path) (target : Target) (parameters : List Parameter)
    (templates : Templates) (place : Place) : Role → Prop
  | written (artifact : Artifact) (text : List Char) (hmarker : artifact ≠ .marker)
      (hrender : artifact.render target parameters templates = .ok text)
      (hplace : place = placeFrom working (root.join (Target.filePath (artifact.file target)))) :
      HasRole working root target parameters templates place (.written text)
  | removed (file : List String × String) (hfile : file ∈ target.obsoleteFiles)
      (hplace : place = placeFrom working (root.join (Target.filePath file))) :
      HasRole working root target parameters templates place .removed
  | directory (artifact : Artifact) (hway : Leads working root (artifact.path target) place) :
      HasRole working root target parameters templates place .directory
  | marker (hroot : ¬ Passes working root place)
      (hplace : place = placeFrom working
        (root.join (Target.filePath (Artifact.file target .marker)))) :
      HasRole working root target parameters templates place .marker
  | none (hfiles : ∀ file, target.Names file →
      place ≠ placeFrom working (root.join (Target.filePath file)))
      (hways : ∀ artifact, ¬ Leads working root (Artifact.path target artifact) place) :
      HasRole working root target parameters templates place .none

section Roles

variable {first second : Role}

/-- To do it again changes nothing. -/
theorem Role.apply_apply (role : Role) (before : Option Node) :
    role.apply (role.apply before) = role.apply before := by
  cases role <;> rfl

theorem Role.apply_comm (h : first = second ∨ first = .none ∨ second = .none)
    (before : Option Node) :
    first.apply (second.apply before) = second.apply (first.apply before) := by
  rcases h with rfl | rfl | rfl <;> rfl

end Roles

section Places

variable {working place : Place} {root : Path} {target : Target} {parameters : List Parameter}
  {templates : Templates} {role : Role} {artifact : Artifact}

theorem leads_of_passes (hpackage : IsEntryName target.package) (hname : '/' ∉ target.name.toList)
    (artifact : Artifact) (hpass : Passes working root place) :
    Leads working root (artifact.path target) place :=
  (@leads_iff ⟨[], working⟩ root target place hpackage hname artifact).mpr (Or.inl hpass)

theorem exists_hasRole (hfeasible : IsFeasible working root target parameters templates)
    (hpackage : IsEntryName target.package) (hname : '/' ∉ target.name.toList) (place : Place) :
    ∃ role, HasRole working root target parameters templates place role := by
  by_cases hway : ∃ artifact, Leads working root (Artifact.path target artifact) place
  · obtain ⟨artifact, hway⟩ := hway
    exact ⟨.directory, .directory artifact hway⟩
  by_cases hfile : ∃ file, target.Names file ∧
    place = placeFrom working (root.join (Target.filePath file))
  · obtain ⟨file, hfile, hplace⟩ := hfile
    cases hfile with
    | generated artifact =>
        by_cases hmarker : artifact = .marker
        · subst hmarker
          exact ⟨.marker, .marker
            (fun hpass => hway ⟨.header, leads_of_passes hpackage hname .header hpass⟩) hplace⟩
        · obtain ⟨text, hrender⟩ := hfeasible.rendered artifact
          exact ⟨.written text, .written artifact text hmarker hrender hplace⟩
    | obsolete hfile =>
        exact ⟨.removed, .removed file hfile hplace⟩
  · exact ⟨.none, .none (fun file hnamed hplace => hfile ⟨file, hnamed, hplace⟩)
      fun artifact hleads => hway ⟨artifact, hleads⟩⟩

/-- A place that has a role is that of a file, or on a way, or that of the marker. -/
theorem HasRole.cases_file (h : HasRole working root target parameters templates place role) :
    (∃ file, target.Names file ∧ file ≠ Artifact.file target .marker ∧
        place = placeFrom working (root.join (Target.filePath file))) ∨
      (role = .directory ∧ ∃ file, target.Names file ∧
        Leads working root (Target.filePath file) place) ∨
      (role = .marker ∧ ¬ Passes working root place ∧
        place = placeFrom working (root.join (Target.filePath (Artifact.file target .marker)))) ∨
          role = .none := by
  cases h with
  | written artifact text hmarker _ hplace =>
      exact Or.inl ⟨_, .generated artifact,
        fun hsame => hmarker (fileName_injective (congrArg Prod.snd hsame)), hplace⟩
  | removed file hfile hplace =>
      refine Or.inl ⟨file, .obsolete hfile, fun hmarker => ?_, hplace⟩
      have hsame : (Artifact.file target .marker).2 = file.2 := (congrArg Prod.snd hmarker).symm
      cases (eq_header_of_fileName_eq hfile hsame).1
  | directory artifact hway =>
      exact Or.inr (Or.inl ⟨rfl, _, .generated artifact, Artifact.path_eq target artifact ▸ hway⟩)
  | marker hroot hplace =>
      exact Or.inr (Or.inr (Or.inl ⟨rfl, hroot, hplace⟩))
  | none _ _ =>
      exact Or.inr (Or.inr (Or.inr rfl))

end Places

section Runs

variable {before middle after : Tree} {root : Path} {target : Target} {parameters : List Parameter}
  {templates : Templates} {outcomes : List (Path × Outcome)} {removed : List Path} {place : Place}
  {role : Role}

/-- The marker keeps what was there, and is an empty file if nothing was. -/
theorem IsRun.node?_marker
    (h : IsRun before middle after root target parameters templates outcomes removed)
    (hpackage : IsEntryName target.package)
    (hroot : ¬ Passes before.working root (artifactPlace before root target .marker)) :
    after.node? (artifactPlace before root target .marker) =
      some ((before.node? (artifactPlace before root target .marker)).getD (.file (.text []))) := by
  cases hnode : before.node? (artifactPlace before root target .marker) with
  | some node =>
      have hthere : before.node? (artifactPlace before root target .marker) ≠ none := by
        simp [hnode]
      rw [h.marker_stays hpackage hthere, hnode]
      rfl
  | none =>
      obtain ⟨outcome, hmem⟩ := h.exists_outcome .marker
      have hwritten : outcome = .written := by
        have hskipped := h.marker_skipped_iff hpackage hmem
        cases outcome with
        | written => rfl
        | skipped => exact absurd hnode ((hskipped.mp rfl).resolve_right hroot)
      subst hwritten
      obtain ⟨text, hrender, hread⟩ := h.readText_eq_ok hmem fun file hfile _ =>
        artifactPlace_ne_placeIn hpackage h.slashless hfile .marker
      have hfile := ((readText_eq_ok_iff h.loses.isPlain).mp hread).2
      cases hrender
      rw [h.keeps.placeOf_eq] at hfile
      exact hfile

/-- A run makes of every place what its role says. -/
theorem IsRun.apply_role
    (h : IsRun before middle after root target parameters templates outcomes removed)
    (hpackage : IsEntryName target.package)
    (hrole : HasRole before.working root target parameters templates place role) :
    after.node? place = role.apply (before.node? place) := by
  cases hrole with
  | written artifact text hmarker hrender hplace =>
      obtain ⟨other, hother, hnode⟩ := h.node?_artifact hpackage hmarker
      rw [hrender] at hother
      cases hother
      rw [artifactPlace_eq] at hnode
      rw [hplace]
      exact hnode
  | removed file hfile hplace =>
      rw [hplace]
      exact h.obsolete_eq_none hpackage hfile
  | directory artifact hway =>
      exact h.leads hway
  | marker hroot hplace =>
      subst hplace
      exact h.node?_marker hpackage hroot
  | none hfiles hways =>
      have hwritten : ∀ path ∈ pathsWith .written outcomes,
          place ≠ before.placeOf (root.join path) := by
        intro path hpath
        obtain ⟨artifact, rfl⟩ := exists_artifact_of_mem h.writes (mem_pathsWith_iff.mp hpath)
        rw [Artifact.path_eq]
        exact hfiles _ (.generated artifact)
      have hobsolete : ∀ path ∈ target.obsoletePaths, place ≠ before.placeOf (root.join path) := by
        intro path hpath
        obtain ⟨file, hfile, rfl⟩ := Target.mem_obsoletePaths_iff.mp hpath
        exact hfiles file (.obsolete hfile)
      refine (h.others hwritten hobsolete).resolve_right ?_
      rintro ⟨_, _, artifact, hway⟩
      exact hways artifact hway

end Runs

end Generation
end Tunables
