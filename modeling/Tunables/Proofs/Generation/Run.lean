import Mathlib.Data.List.Nodup
import Tunables.Proofs.Generation.Delivery
import Tunables.Proofs.Generation.Removal
import Tunables.Proofs.Target

/-!
# Runs

A run that succeeds has written its files and removed the obsolete ones after that.  If the
name of the configuration has no slashes, the generated files have different places, and so
have the obsolete files.
-/

namespace Tunables
namespace Generation

open Tunables.Tree

/-- The place of a file below a root. -/
def placeIn (tree : Tree) (root : Path) (file : List String × String) : Place :=
  tree.placeOf (root.join (Target.filePath file))

section Places

variable {tree : Tree} {root : Path} {target : Target} {file file' : List String × String}
  {artifact : Artifact}

theorem artifactPlace_eq (tree : Tree) (root : Path) (target : Target) (artifact : Artifact) :
    artifactPlace tree root target artifact = placeIn tree root (artifact.file target) := by
  rw [artifactPlace, Artifact.path_eq, placeIn]

theorem placeIn_eq (hfile : target.Names file) (h : '/' ∉ target.name.toList) (tree : Tree)
    (root : Path) :
    placeIn tree root file = tree.placeOf (root.join (Target.below file.1)) ++ [file.2.toList] :=
  placeFrom_file (hfile.isEntryName h) _ _ _

/-- Files at one place have one name. -/
theorem fileName_eq_of_placeIn_eq (h : '/' ∉ target.name.toList) (hfile : target.Names file)
    (hfile' : target.Names file') (hsame : placeIn tree root file = placeIn tree root file') :
    file.2 = file'.2 := by
  rw [placeIn_eq hfile h, placeIn_eq hfile' h] at hsame
  have hname := List.append_inj_right' hsame rfl
  exact String.toList_injective (List.cons.inj hname).1

theorem artifactPlace_injective (h : '/' ∉ target.name.toList) {first second : Artifact}
    (hsame : artifactPlace tree root target first = artifactPlace tree root target second) :
    first = second := by
  rw [artifactPlace_eq, artifactPlace_eq] at hsame
  exact fileName_injective
    (fileName_eq_of_placeIn_eq h (.generated first) (.generated second) hsame)

theorem obsoletePlace_injective (h : '/' ∉ target.name.toList) (hfile : file ∈ target.obsoleteFiles)
    (hfile' : file' ∈ target.obsoleteFiles)
    (hsame : placeIn tree root file = placeIn tree root file') :
    file = file' :=
  List.inj_on_of_nodup_map (obsoleteNames_nodup target) hfile hfile'
    (fileName_eq_of_placeIn_eq h (.obsolete hfile) (.obsolete hfile') hsame)

/-- Only the header can lie where an obsolete file lies. -/
theorem eq_header_of_place_eq (h : '/' ∉ target.name.toList) (hfile : file ∈ target.obsoleteFiles)
    (hsame : artifactPlace tree root target artifact = placeIn tree root file) :
    artifact = .header ∧ file = target.obsoleteHeader := by
  rw [artifactPlace_eq] at hsame
  exact eq_header_of_fileName_eq hfile
    (fileName_eq_of_placeIn_eq h (.generated artifact) (.obsolete hfile) hsame)

theorem eq_header_of_path_eq (h : '/' ∉ target.name.toList) (hfile : file ∈ target.obsoleteFiles)
    (hsame : artifact.path target = Target.filePath file) :
    artifact = .header ∧ file = target.obsoleteHeader := by
  have hplace : artifactPlace ⟨[], []⟩ ⟨[]⟩ target artifact = placeIn ⟨[], []⟩ ⟨[]⟩ file := by
    rw [artifactPlace, placeIn, hsame]
  exact eq_header_of_place_eq h hfile hplace

theorem path_injective (h : '/' ∉ target.name.toList) {first second : Artifact}
    (hsame : first.path target = second.path target) : first = second := by
  have hplace : artifactPlace ⟨[], []⟩ ⟨[]⟩ target first =
      artifactPlace ⟨[], []⟩ ⟨[]⟩ target second := by
    rw [artifactPlace, artifactPlace, hsame]
  exact artifactPlace_injective h hplace

theorem artifactPlace_pairwise (h : '/' ∉ target.name.toList) (tree : Tree) (root : Path) :
    Artifact.all.Pairwise fun first second =>
      artifactPlace tree root target first ≠ artifactPlace tree root target second := by
  have hall : Artifact.all.Nodup := by decide
  exact hall.imp fun hne hsame => hne (artifactPlace_injective h hsame)

end Places

/-- The two halves of a run in a plain tree: what was written, and what was removed then. -/
structure IsRun (before middle after : Tree) (root : Path) (target : Target)
    (parameters : List Parameter) (templates : Templates) (outcomes : List (Path × Outcome))
    (removed : List Path) : Prop where
  isPlain : before.IsPlain
  slashless : '/' ∉ target.name.toList
  writes : before.perform (writeAll root target parameters templates Artifact.all) =
    (.ok outcomes, middle)
  removes : middle.perform (removeAll root target.obsoletePaths) = (.ok removed, after)

section Runs

variable {before middle after : Tree} {root path : Path} {target : Target}
  {parameters : List Parameter} {templates : Templates} {generated : Generated} {outcome : Outcome}
  {outcomes : List (Path × Outcome)}
  {removed : List Path} {artifact : Artifact} {file : List String × String} {place : Place}

theorem mem_pathsWith_iff : path ∈ pathsWith outcome outcomes ↔ (path, outcome) ∈ outcomes := by
  simp [pathsWith]

/-- A run that succeeds writes its files first, and then it removes the obsolete ones. -/
theorem generateInto_eq_ok
    (hrun : before.perform (generateInto root target parameters templates) =
      (.ok generated, after)) :
    ∃ outcomes middle,
      before.perform (writeAll root target parameters templates Artifact.all) =
        (.ok outcomes, middle) ∧
      middle.perform (removeAll root target.obsoletePaths) = (.ok generated.removed, after) ∧
      generated.root = root ∧ generated.written = pathsWith .written outcomes ∧
      generated.skipped = pathsWith .skipped outcomes := by
  unfold generateInto run at hrun
  obtain ⟨outcomes, middle, hwrite, hrun⟩ :=
    perform_bind_eq_ok_iff.mp (perform_adapt_eq_ok_iff.mp hrun)
  obtain ⟨removed, last, hremove, hpure⟩ := perform_bind_eq_ok_iff.mp hrun
  cases hpure
  exact ⟨outcomes, middle, perform_adapt_eq_ok_iff.mp hwrite, perform_adapt_eq_ok_iff.mp hremove,
    rfl, rfl, rfl⟩

/-- A run that succeeds has two halves. -/
theorem exists_isRun (hplain : before.IsPlain) (hname : '/' ∉ target.name.toList)
    (hrun : before.perform (generateInto root target parameters templates) =
      (.ok generated, after)) :
    ∃ middle outcomes,
      IsRun before middle after root target parameters templates outcomes generated.removed ∧
      generated = ⟨root, pathsWith .written outcomes, pathsWith .skipped outcomes,
        generated.removed⟩ := by
  obtain ⟨outcomes, middle, hwrite, hremove, hroot, hwritten, hskipped⟩ := generateInto_eq_ok hrun
  refine ⟨middle, outcomes, ⟨hplain, hname, hwrite, hremove⟩, ?_⟩
  rw [← hroot, ← hwritten, ← hskipped]

/-- Whatever comes of a run, its files are written first, and after that obsolete files are removed
and nothing else. -/
theorem generateInto_changes (h : before.IsPlain) (root : Path) (target : Target)
    (parameters : List Parameter) (templates : Templates) :
    ∃ middle,
      Extends before middle
        (fun place => ∃ artifact, place = artifactPlace before root target artifact)
        (fun place => ∃ artifact, Leads before.working root (Artifact.path target artifact) place) ∧
      Loses middle (before.perform (generateInto root target parameters templates)).2
        (fun place => ∃ path ∈ target.obsoletePaths, place = before.placeOf (root.join path)) := by
  have hwrite :
      Extends before (before.perform (writeAll root target parameters templates Artifact.all)).2
      (fun place => ∃ artifact, place = artifactPlace before root target artifact)
      (fun place =>
        ∃ artifact, Leads before.working root (Artifact.path target artifact) place) := by
    refine (writeAll_extends h Artifact.all).weaken ?_ ?_
    · exact fun place ⟨artifact, _, hplace⟩ => ⟨artifact, hplace⟩
    · exact fun place ⟨artifact, _, hway⟩ => ⟨artifact, hway⟩
  rw [generateInto, perform_adapt, run, perform_bind, perform_adapt]
  rcases hrun : before.perform (writeAll root target parameters templates Artifact.all) with
    ⟨fault | outcomes, middle⟩
  · rw [hrun] at hwrite
    exact ⟨middle, hwrite, Loses.refl hwrite.isPlain _⟩
  · rw [hrun] at hwrite
    have hremove : Loses middle (middle.perform (removeAll root target.obsoletePaths)).2
        (fun place => ∃ path ∈ target.obsoletePaths, place = before.placeOf (root.join path)) := by
      refine (removeAll_loses hwrite.isPlain root target.obsoletePaths).weaken ?_
      rintro place ⟨path, hpath, rfl⟩
      exact ⟨path, hpath, hwrite.placeOf_eq _⟩
    refine ⟨middle, hwrite, ?_⟩
    exact Loses.bind hremove fun _ _ _ hlast => hlast

theorem exists_artifact_of_mem
    (hwrite : before.perform (writeAll root target parameters templates Artifact.all) =
      (.ok outcomes, middle))
    (hmem : (path, outcome) ∈ outcomes) : ∃ artifact, Artifact.path target artifact = path := by
  have hpath : path ∈ Artifact.all.map (Artifact.path target) := by
    rw [← writeAll_paths hwrite]
    exact List.mem_map_of_mem hmem
  obtain ⟨artifact, _, hartifact⟩ := List.mem_map.mp hpath
  exact ⟨artifact, hartifact⟩

theorem exists_file_of_mem
    (hremove : middle.perform (removeAll root target.obsoletePaths) = (.ok removed, after))
    (hmem : path ∈ removed) : ∃ file ∈ target.obsoleteFiles, Target.filePath file = path :=
  Target.mem_obsoletePaths_iff.mp ((removeAll_sublist hremove).subset hmem)

/-- Nothing changes in the first half of a run but at the places of the generated files and on
the ways to them. -/
theorem IsRun.extends
    (h : IsRun before middle after root target parameters templates outcomes removed) :
    Extends before middle
      (fun place => ∃ artifact, place = artifactPlace before root target artifact)
      (fun place =>
        ∃ artifact, Leads before.working root (Artifact.path target artifact) place) := by
  refine (writeAll_eq_ok h.isPlain h.writes).weaken ?_ ?_
  · exact fun place ⟨artifact, _, hplace⟩ => ⟨artifact, hplace⟩
  · exact fun place ⟨artifact, _, hway⟩ => ⟨artifact, hway⟩

/-- Nothing changes in the second half of a run but at the places of the obsolete files
that were removed. -/
theorem IsRun.loses
    (h : IsRun before middle after root target parameters templates outcomes removed) :
    Loses middle after fun place => ∃ file ∈ target.obsoleteFiles, Target.filePath file ∈ removed ∧
      place = placeIn before root file := by
  refine (removeAll_eq_ok h.extends.isPlain h.removes).1.weaken ?_
  rintro place ⟨path, hpath, rfl⟩
  obtain ⟨file, hfile, rfl⟩ := exists_file_of_mem h.removes hpath
  exact ⟨file, hfile, hpath, h.extends.placeOf_eq _⟩

theorem IsRun.keeps
    (h : IsRun before middle after root target parameters templates outcomes removed) :
    Keeps before after :=
  h.extends.toKeeps.trans h.loses.toKeeps

theorem IsRun.exists_outcome
    (h : IsRun before middle after root target parameters templates outcomes removed)
    (artifact : Artifact) : ∃ outcome, (artifact.path target, outcome) ∈ outcomes := by
  have hmem : artifact.path target ∈ outcomes.map Prod.fst := by
    rw [writeAll_paths h.writes]
    exact List.mem_map_of_mem artifact.mem_all
  obtain ⟨⟨path, outcome⟩, hentry, rfl⟩ := List.mem_map.mp hmem
  exact ⟨outcome, hentry⟩

theorem IsRun.settled
    (h : IsRun before middle after root target parameters templates outcomes removed)
    (hmem : (artifact.path target, outcome) ∈ outcomes) :
    Settled before middle (root.join (artifact.path target)) artifact.overwrite
      (artifact.render target parameters templates) outcome := by
  obtain ⟨other, _, hpath, hsettled⟩ :=
    writeAll_settled h.isPlain h.writes (artifactPlace_pairwise h.slashless before root) hmem
  rw [path_injective h.slashless hpath] at hsettled ⊢
  exact hsettled

/-- Only the marker can be skipped. -/
theorem IsRun.eq_written
    (h : IsRun before middle after root target parameters templates outcomes removed)
    (artifact : Artifact) (halways : artifact.overwrite = .always)
    (hmem : (artifact.path target, outcome) ∈ outcomes) :
    outcome = .written := by
  cases h.settled hmem with
  | written _ _ _ _ _ =>
      rfl
  | skipped hoverwrite _ _ =>
      rw [halways] at hoverwrite
      cases hoverwrite

theorem IsRun.written
    (h : IsRun before middle after root target parameters templates outcomes removed)
    (artifact : Artifact) (halways : artifact.overwrite = .always) :
    (artifact.path target, .written) ∈ outcomes := by
  obtain ⟨outcome, hmem⟩ := h.exists_outcome artifact
  rw [h.eq_written artifact halways hmem] at hmem
  exact hmem

theorem IsRun.leads
    (h : IsRun before middle after root target parameters templates outcomes removed)
    (hway : Leads before.working root (artifact.path target) place) :
    after.node? place = some .directory :=
  h.loses.directory place (writeAll_leads h.isPlain h.writes artifact.mem_all hway)

/-- What was removed was a file, and it is gone. -/
theorem IsRun.gone (h : IsRun before middle after root target parameters templates outcomes removed)
    (hmem : Target.filePath file ∈ removed) :
    after.Reaches (root.join (Target.filePath file)) ∧
      (∃ content, middle.node? (placeIn before root file) = some (.file content)) ∧
      after.node? (placeIn before root file) = none := by
  have hgone := (removeAll_eq_ok h.extends.isPlain h.removes).2 _ hmem
  rw [h.extends.placeOf_eq] at hgone
  exact hgone

/-- On the way to what was not removed something is missing, be it at the end of the way. -/
theorem IsRun.missing
    (h : IsRun before middle after root target parameters templates outcomes removed)
    (hfile : file ∈ target.obsoleteFiles) (hkept : Target.filePath file ∉ removed) :
    ∃ place, Passes before.working (root.join (Target.filePath file)) place ∧
      after.node? place = none := by
  have hobsolete : Target.filePath file ∈ target.obsoletePaths :=
    Target.mem_obsoletePaths_iff.mpr ⟨file, hfile, rfl⟩
  have htext : (root.join (Target.filePath file)).text ≠ [] :=
    Path.text_join_ne_nil (Or.inr ((Target.Names.obsolete hfile).text_ne_nil h.slashless))
  have hmissing := removeAll_missing h.extends.isPlain h.removes hobsolete htext hkept
  rw [h.extends.working] at hmissing
  exact hmissing

/-- A file that was written can be read after the run if it does not lie where an obsolete
file was removed. -/
theorem IsRun.readText_eq_ok
    (h : IsRun before middle after root target parameters templates outcomes removed)
    (hwritten : (artifact.path target, .written) ∈ outcomes)
    (hapart : ∀ file ∈ target.obsoleteFiles, Target.filePath file ∈ removed →
      artifactPlace before root target artifact ≠ placeIn before root file) :
    ∃ text, artifact.render target parameters templates = .ok text ∧
      after.readText (root.join (artifact.path target)) = .ok text := by
  cases h.settled hwritten with
  | written text hcontent hreaches hnode _ =>
      refine ⟨text, hcontent,
        (readText_eq_ok_iff h.loses.isPlain).mpr ⟨hreaches.mono h.loses.toKeeps, ?_⟩⟩
      have hstays : ¬ ∃ file ∈ target.obsoleteFiles, Target.filePath file ∈ removed ∧
          artifactPlace before root target artifact = placeIn before root file :=
        fun ⟨file, hfile, hmem, hplace⟩ => hapart file hfile hmem hplace
      rw [h.keeps.placeOf_eq]
      exact (h.loses.stays hstays).trans hnode

end Runs

end Generation
end Tunables
