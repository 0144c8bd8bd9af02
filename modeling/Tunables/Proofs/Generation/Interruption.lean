import Tunables.Proofs.Generation.Account

/-!
# Runs that fail

A run that fails in a plain tree leaves a clean beginning of its work.  Some of the generated
files, counted from the first, are as after a run that succeeds, and the others are as they were.
Obsolete files are removed only if all generated files were delivered, and then those in front of
the first that is refused.

* `HoldsSame`: a place holds the file that it held before; `IsDelivered`: a run did with a
  file what it was to do.
* `Remainder`: what a failed run leaves; `remainder_of_writeAll`,
  `remainder_of_removeAll`: its two halves.
* `Remainder.count_le_of_render`: no file behind one that cannot be rendered is delivered.
* `generateInto_remainder`: every run that fails leaves a remainder.
-/

namespace Tunables
namespace Generation

open Tunables.Tree

/-- A place holds the same file as before, or none if it held none before. -/
def HoldsSame (before after : Tree) (place : Place) : Prop :=
  ∀ content, after.node? place = some (.file content) ↔ before.node? place = some (.file content)

/-- A generated file is what a run makes of it: it was written, or it is the marker, and something
was at its place before or has become a directory on the way to the root. -/
inductive IsDelivered (before after : Tree) (root : Path) (target : Target)
    (parameters : List Parameter) (templates : Templates) (artifact : Artifact) : Prop
  | written (text : List Char) (hrender : artifact.render target parameters templates = .ok text)
      (hread : after.readText (root.join (artifact.path target)) = .ok text)
      (hmissing : artifact = .marker →
        before.node? (artifactPlace before root target artifact) = none)
  | kept (hmarker : artifact = .marker)
      (hthere : before.node? (artifactPlace before root target artifact) ≠ none)
      (hsame : after.node? (artifactPlace before root target artifact) =
        before.node? (artifactPlace before root target artifact))
  | onWay (hmarker : artifact = .marker)
      (hnone : before.node? (artifactPlace before root target artifact) = none)
      (hpass : Passes before.working root (artifactPlace before root target artifact))
      (hdirectory : after.node? (artifactPlace before root target artifact) = some .directory)

/-- What is left of a run that failed for a cause after it had delivered some of the five files. -/
structure Remainder (before after : Tree) (root : Path) (target : Target)
    (parameters : List Parameter) (templates : Templates) (cause : GenerationCause) (count : Nat) :
    Prop where
  count_le : count ≤ 5
  delivered : ∀ artifact ∈ Artifact.all.take count,
    IsDelivered before after root target parameters templates artifact
  later : ∀ artifact ∈ Artifact.all.drop count,
    HoldsSame before after (artifactPlace before root target artifact)
  /-- Nothing is removed before everything is delivered. -/
  early : count < 5 → ∀ path ∈ target.obsoletePaths,
    HoldsSame before after (before.placeOf (root.join path))
  /-- The obsolete files in front of the one that was refused are gone, and the others are there. -/
  refused : count = 5 → ∃ front path back refusal, target.obsoletePaths = front ++ path :: back ∧
    cause = .files (.refused (root.join path) refusal) ∧
    after.removeFile (root.join path) = .error refusal ∧ refusal ≠ .notFound ∧
    (∀ other ∈ front, after.node? (before.placeOf (root.join other)) = none) ∧
    ∀ other ∈ path :: back, HoldsSame before after (before.placeOf (root.join other))
  others : ∀ place,
    (∀ artifact ∈ Artifact.all.take count, place ≠ artifactPlace before root target artifact) →
    (∀ path ∈ target.obsoletePaths, place ≠ before.placeOf (root.join path)) →
    HoldsSame before after place

variable {before middle after : Tree} {root : Path} {target : Target} {parameters : List Parameter}
  {templates : Templates} {artifact : Artifact} {place : Place}

section Files

variable {files ways gone : Place → Prop} {outcome : Outcome} {outcomes : List (Path × Outcome)}
  {artifacts : List Artifact}

theorem HoldsSame.trans (h : HoldsSame before middle place) (h' : HoldsSame middle after place) :
    HoldsSame before after place :=
  fun content => (h' content).trans (h content)

theorem holdsSame_of_extends (h : Extends before after files ways) (hfiles : ¬ files place) :
    HoldsSame before after place :=
  h.file_iff hfiles

theorem holdsSame_of_loses (h : Loses before after gone) (hgone : ¬ gone place) :
    HoldsSame before after place := by
  intro content
  rw [h.stays hgone]

/-- Every file that was written or skipped has its outcome. -/
theorem exists_settled (h : before.IsPlain) (hname : '/' ∉ target.name.toList)
    (hwrite : before.perform (writeAll root target parameters templates artifacts) =
      (.ok outcomes, middle))
    (hsublist : artifacts.Sublist Artifact.all) (hmem : artifact ∈ artifacts) :
    ∃ outcome, Settled before middle (root.join (artifact.path target)) artifact.overwrite
      (artifact.render target parameters templates) outcome := by
  have hpath : artifact.path target ∈ outcomes.map Prod.fst := by
    rw [writeAll_paths hwrite]
    exact List.mem_map_of_mem hmem
  obtain ⟨⟨path, outcome⟩, hentry, rfl⟩ := List.mem_map.mp hpath
  obtain ⟨other, _, hsame, hsettled⟩ :=
    writeAll_settled h hwrite ((artifactPlace_pairwise hname before root).sublist hsublist) hentry
  rw [← path_injective hname hsame] at hsettled
  exact ⟨outcome, hsettled⟩

/-- A file with an outcome was delivered, if new directories are on the ways to the
generated files only. -/
theorem isDelivered_of_settled (h : after.IsPlain) (hworking : after.working = before.working)
    (hways : before.node? (artifactPlace before root target .marker) = none →
      after.node? (artifactPlace before root target .marker) = some .directory →
      Passes before.working root (artifactPlace before root target .marker))
    (hsettled : Settled before after (root.join (artifact.path target)) artifact.overwrite
      (artifact.render target parameters templates) outcome) :
    IsDelivered before after root target parameters templates artifact := by
  have hmarker : artifact.overwrite = .ifMissing ↔ artifact = .marker := by
    cases artifact <;> simp [Artifact.overwrite]
  cases hsettled with
  | written text hcontent hreaches hnode hmissing =>
      refine IsDelivered.written text hcontent ((readText_eq_ok_iff h).mpr ⟨hreaches, ?_⟩) ?_
      · rw [placeOf, hworking]
        exact hnode
      · exact fun hsame => hmissing (hmarker.mpr hsame)
  | skipped hoverwrite hstays hnew =>
      obtain rfl := hmarker.mp hoverwrite
      by_cases hnone : before.node? (artifactPlace before root target .marker) = none
      · exact IsDelivered.onWay rfl hnone (hways hnone (hnew hnone)) (hnew hnone)
      · exact IsDelivered.kept rfl hnone (hstays hnone)

/-- If the marker's place became a directory, then because the way to the root leads through it. -/
theorem passes_of_marker_directory (hpackage : IsEntryName target.package)
    (hname : '/' ∉ target.name.toList) (h : Extends before after files fun place =>
      ∃ artifact ∈ Artifact.all, Leads before.working root (artifact.path target) place)
    (hnone : before.node? (artifactPlace before root target .marker) = none)
    (hdirectory : after.node? (artifactPlace before root target .marker) = some .directory) :
    Passes before.working root (artifactPlace before root target .marker) := by
  rcases h.each (artifactPlace before root target .marker) with hsame | ⟨_, content, hfile⟩ |
    ⟨⟨_, _, hway⟩, _, _⟩
  · rw [hdirectory, hnone] at hsame
    cases hsame
  · rw [hdirectory] at hfile
    cases hfile
  · exact passes_of_leads_marker hpackage hname hway

end Files

section Halves

variable (h : before.IsPlain) (hpackage : IsEntryName target.package)
  (hname : '/' ∉ target.name.toList)

include h hpackage hname

/-- A file could not be written: those in front of it were, and the others were not touched. -/
theorem remainder_of_writeAll {fault : WriteFault} (cause : GenerationCause)
    (hrun : before.perform (writeAll root target parameters templates Artifact.all) =
      (.error fault, after)) :
    ∃ count, Remainder before after root target parameters templates cause count := by
  obtain ⟨front, failed, back, outcomes, middle, hall, hfront, hfailed⟩ := writeAll_eq_error hrun
  have hextends := writeAll_eq_ok h hfront
  have hways := place_eq_error hextends.isPlain hfailed
  rw [hextends.working] at hways
  -- All in all, the files in front were written, and directories were made on the ways
  -- to generated files.
  have hboth : Extends before after
      (fun place => ∃ artifact ∈ front, place = artifactPlace before root target artifact)
      (fun place =>
        ∃ artifact ∈ Artifact.all, Leads before.working root (artifact.path target) place) := by
    refine (hextends.weaken (fun _ hfile => hfile) ?_).trans
      (hways.weaken (fun _ hfalse => hfalse.elim) ?_)
    · exact fun place ⟨artifact, _, hway⟩ => ⟨artifact, artifact.mem_all, hway⟩
    · exact fun place hway => ⟨failed, failed.mem_all, hway⟩
  have hlength : front.length < 5 := by
    have hlengths := congrArg List.length hall
    simp [Artifact.all] at hlengths
    omega
  have htake : Artifact.all.take front.length = front := by
    rw [hall, List.take_left]
  have hdrop : Artifact.all.drop front.length = failed :: back := by
    rw [hall, List.drop_left]
  refine ⟨front.length, ?_⟩
  constructor
  case count_le =>
    omega
  case delivered =>
    intro artifact hmem
    rw [htake] at hmem
    obtain ⟨outcome, hsettled⟩ :=
      exists_settled h hname hfront (hall ▸ List.sublist_append_left front (failed :: back)) hmem
    exact isDelivered_of_settled hboth.isPlain hboth.working
      (passes_of_marker_directory hpackage hname hboth)
      (hsettled.extends hways fun hfalse => hfalse)
  case later =>
    intro artifact hmem
    rw [hdrop] at hmem
    refine holdsSame_of_extends hboth ?_
    rintro ⟨other, hother, hsame⟩
    have hnodup : (front ++ failed :: back).Nodup := by
      rw [← hall]
      decide
    rw [artifactPlace_injective hname hsame] at hmem
    exact List.disjoint_of_nodup_append hnodup hother hmem
  case early =>
    intro _ path hpath
    obtain ⟨file, hfile, rfl⟩ := Target.mem_obsoletePaths_iff.mp hpath
    refine holdsSame_of_extends hboth ?_
    rintro ⟨artifact, _, hsame⟩
    exact artifactPlace_ne_placeIn hpackage hname hfile artifact hsame.symm
  case refused =>
    omega
  case others =>
    intro place hapart _
    refine holdsSame_of_extends hboth ?_
    rintro ⟨artifact, hmem, hsame⟩
    exact hapart artifact (htake.symm ▸ hmem) hsame

/-- An obsolete file was refused: those in front of it are gone, and the others were not touched. -/
theorem remainder_of_removeAll {outcomes : List (Path × Outcome)} {fault : FileFault}
    (hwrite : before.perform (writeAll root target parameters templates Artifact.all) =
      (.ok outcomes, middle))
    (hrun : middle.perform (removeAll root target.obsoletePaths) = (.error fault, after)) :
    Remainder before after root target parameters templates (.files fault) 5 := by
  have hextends := writeAll_eq_ok h hwrite
  obtain ⟨front, path, back, removed, refusal, hpaths, hfront, hrefused, hpresent, rfl⟩ :=
    removeAll_eq_error hrun
  have hloses := (removeAll_eq_ok hextends.isPlain hfront).1
  have hsublist := removeAll_sublist hfront
  have hobsolete : ∀ other ∈ removed, ∃ file ∈ target.obsoleteFiles, Target.filePath file = other ∧
      middle.placeOf (root.join other) = placeIn before root file := by
    intro other hmem
    have hother : other ∈ target.obsoletePaths := by
      rw [hpaths]
      exact List.mem_append_left _ (hsublist.subset hmem)
    obtain ⟨file, hfile, rfl⟩ := Target.mem_obsoletePaths_iff.mp hother
    exact ⟨file, hfile, rfl, hextends.placeOf_eq _⟩
  constructor
  case count_le =>
    exact Nat.le_refl 5
  case delivered =>
    intro artifact hmem
    obtain ⟨outcome, hsettled⟩ :=
      exists_settled h hname hwrite (List.Sublist.refl _) artifact.mem_all
    refine isDelivered_of_settled hloses.isPlain (hloses.working.trans hextends.working) ?_
      (hsettled.loses hloses ?_)
    · intro hnone hdirectory
      exact passes_of_marker_directory hpackage hname hextends hnone
        (hloses.directory_iff.mp hdirectory)
    · rintro ⟨other, hother, hsame⟩
      obtain ⟨file, hfile, _, hplace⟩ := hobsolete other hother
      exact artifactPlace_ne_placeIn hpackage hname hfile artifact (hsame.trans hplace)
  case later =>
    intro artifact hmem
    simp [Artifact.all] at hmem
  case early =>
    exact fun hlt => absurd hlt (Nat.lt_irrefl 5)
  case refused =>
    refine fun _ => ⟨front, path, back, refusal, hpaths, rfl, hrefused, hpresent, ?_, ?_⟩
    · intro other hmem
      obtain ⟨file, hfile, rfl⟩ :=
        Target.mem_obsoletePaths_iff.mp (hpaths ▸ List.mem_append_left _ hmem)
      have hnone := obsolete_eq_none_of_removeAll hextends.isPlain hpackage hname
        (fun _ => directory_of_passes_root h hpackage hname hwrite) hfront hfile hmem
      rwa [placeIn, hextends.placeOf_eq] at hnone
    · intro other hmem
      obtain ⟨file, hfile, rfl⟩ :=
        Target.mem_obsoletePaths_iff.mp (hpaths ▸ List.mem_append_right front hmem)
      refine HoldsSame.trans (holdsSame_of_extends hextends ?_) (holdsSame_of_loses hloses ?_)
      · rintro ⟨artifact, _, hsame⟩
        exact artifactPlace_ne_placeIn hpackage hname hfile artifact hsame.symm
      · rintro ⟨removedPath, hremoved, hsame⟩
        obtain ⟨removedFile, hremovedFile, rfl, hplace⟩ := hobsolete removedPath hremoved
        rw [obsoletePlace_injective hname hfile hremovedFile (hsame.trans hplace)] at hmem
        have hnodup : (front ++ path :: back).Nodup := by
          rw [← hpaths]
          exact obsoletePaths_nodup hname
        exact List.disjoint_of_nodup_append hnodup (hsublist.subset hremoved) hmem
  case others =>
    intro place hapart hother
    refine HoldsSame.trans (holdsSame_of_extends hextends ?_) (holdsSame_of_loses hloses ?_)
    · rintro ⟨artifact, hmem, hsame⟩
      exact hapart artifact hmem hsame
    · rintro ⟨path, hpath, hsame⟩
      obtain ⟨file, hfile, rfl, hplace⟩ := hobsolete path hpath
      exact hother _ (Target.mem_obsoletePaths_iff.mpr ⟨file, hfile, rfl⟩) (hsame.trans hplace)

end Halves

section Main

/-- Files are delivered from the first on, so none is delivered behind one that cannot be
rendered. -/
theorem Remainder.count_le_of_render {cause : GenerationCause} {count k : Nat}
    {fault : Template.Fault}
    (h : Remainder before after root target parameters templates cause count)
    (hk : Artifact.all[k]? = some artifact)
    (hrender : artifact.render target parameters templates = .error fault) : count ≤ k := by
  refine Nat.le_of_not_lt fun hlt => ?_
  have hmem : artifact ∈ Artifact.all.take count := by
    refine List.mem_of_getElem? (i := k) ?_
    rw [List.getElem?_take_of_lt hlt, hk]
  cases h.delivered artifact hmem with
  | written text htext _ _ =>
      rw [hrender] at htext
      cases htext
  | kept hmarker _ _ | onWay hmarker _ _ _ =>
      rw [hmarker] at hrender
      cases hrender

/-- Where nothing was delivered, no file has changed. -/
theorem Remainder.holdsSame {cause : GenerationCause}
    (h : Remainder before after root target parameters templates cause 0) (place : Place) :
    HoldsSame before after place := by
  by_cases hobsolete : ∃ path ∈ target.obsoletePaths, place = before.placeOf (root.join path)
  · obtain ⟨path, hpath, rfl⟩ := hobsolete
    exact h.early (by decide) path hpath
  · refine h.others place (by simp) fun path hpath hsame => ?_
    exact hobsolete ⟨path, hpath, hsame⟩

/-- A run fails in one of its halves. -/
theorem generateInto_eq_error {fault : GenerationFault}
    (hrun : before.perform (generateInto root target parameters templates) =
      (.error fault, after)) :
    fault.name = target.name ∧
      ((∃ cause, before.perform (writeAll root target parameters templates Artifact.all) =
        (.error cause, after) ∧
          fault.cause = .ofWrite cause) ∨
        ∃ outcomes middle cause,
          before.perform (writeAll root target parameters templates Artifact.all) =
            (.ok outcomes, middle) ∧
          middle.perform (removeAll root target.obsoletePaths) = (.error cause, after) ∧
          fault.cause = .files cause) := by
  unfold generateInto run at hrun
  obtain ⟨cause, hhalves, rfl⟩ := perform_adapt_eq_error hrun
  refine ⟨rfl, ?_⟩
  rcases perform_bind_eq_error hhalves with hwrite | ⟨outcomes, middle, hwrite, hrest⟩
  · exact Or.inl (perform_adapt_eq_error hwrite)
  rcases perform_bind_eq_error hrest with hremove | ⟨_, _, _, hpure⟩
  · obtain ⟨fault, hremove, hcause⟩ := perform_adapt_eq_error hremove
    exact Or.inr ⟨outcomes, middle, fault, perform_adapt_eq_ok_iff.mp hwrite, hremove, hcause⟩
  · cases hpure

/-- A run fails if one of its files cannot be rendered. -/
theorem exists_error_of_render (root : Path) {cause : Template.Fault} (h : before.IsPlain)
    (hname : '/' ∉ target.name.toList)
    (hrender : artifact.render target parameters templates = .error cause) :
    ∃ fault after, before.perform (generateInto root target parameters templates) =
      (.error fault, after) := by
  rcases hrun : before.perform (generateInto root target parameters templates) with
    ⟨fault | generated, after⟩
  · exact ⟨fault, after, rfl⟩
  · obtain ⟨_, _, hsuccess, _⟩ := exists_isRun h hname hrun
    obtain ⟨text, htext⟩ := hsuccess.exists_render artifact
    rw [hrender] at htext
    cases htext

theorem exists_remainder (h : before.IsPlain) (hpackage : IsEntryName target.package)
    (hname : '/' ∉ target.name.toList) {fault : GenerationFault}
    (hrun : before.perform (generateInto root target parameters templates) =
      (.error fault, after)) :
    ∃ count, Remainder before after root target parameters templates fault.cause count := by
  rcases (generateInto_eq_error hrun).2 with ⟨cause, hwrite, _⟩ |
    ⟨outcomes, middle, cause, hwrite, hremove, hcause⟩
  · exact remainder_of_writeAll h hpackage hname fault.cause hwrite
  · rw [hcause]
    exact ⟨5, remainder_of_removeAll h hpackage hname hwrite hremove⟩

/-- A tree with an obsolete file in front of a directory that lies where another obsolete file would
be. -/
def occupied : Tree :=
  (((((⟨[], []⟩ : Tree).put ["msg".toList] .directory).put
    ["msg".toList, "NConfig.msg".toList] (.file (.text []))).put
    ["msg".toList, "cpp".toList] .directory).put
    ["msg".toList, "cpp".toList, "p".toList] .directory).put
    ["msg".toList, "cpp".toList, "p".toList, "NConfig.h".toList] .directory

theorem isPlain_occupied : occupied.IsPlain := by
  have hmsg : IsPlain ((⟨[], []⟩ : Tree).put ["msg".toList] .directory) :=
    @IsPlain.put _ [] "msg".toList _ (isPlain_of_empty []) rfl (by simp) fun _ => rfl
  have hfile :=
    @IsPlain.put _ ["msg".toList] "NConfig.msg".toList (.file (.text [])) hmsg (by decide) (by simp)
      (by decide)
  have hcpp :=
    @IsPlain.put _ ["msg".toList] "cpp".toList .directory hfile (by decide) (by simp) fun _ => rfl
  have hp :=
    @IsPlain.put _ ["msg".toList, "cpp".toList] "p".toList .directory hcpp (by decide) (by simp)
      fun _ => rfl
  exact @IsPlain.put _ ["msg".toList, "cpp".toList, "p".toList] "NConfig.h".toList .directory hp
    (by decide) (by simp) fun _ => rfl

/-- Every run that fails names the configuration and leaves a remainder.  If the header
cannot be rendered, no file changes at all, and if the module cannot be rendered, neither it
nor the marker changes. -/
theorem generateInto_remainder (h : before.IsPlain) (hpackage : IsEntryName target.package)
    (hname : IsEntryName target.name) :
    (∀ fault after, before.perform (generateInto root target parameters templates) =
      (.error fault, after) →
      fault.name = target.name ∧
        ∃ count, Remainder before after root target parameters templates fault.cause count) ∧
    (∀ cause, Artifact.render target parameters templates .header = .error cause →
      ∃ fault after, before.perform (generateInto root target parameters templates) =
        (.error fault, after) ∧
        ∀ place, HoldsSame before after place) ∧
    (∀ cause, Artifact.render target parameters templates .scripting = .error cause →
      ∃ fault after, before.perform (generateInto root target parameters templates) =
        (.error fault, after) ∧
        HoldsSame before after (artifactPlace before root target .scripting) ∧
        HoldsSame before after (artifactPlace before root target .marker)) := by
  refine ⟨?_, ?_, ?_⟩
  · intro fault after hrun
    exact ⟨(generateInto_eq_error hrun).1, exists_remainder h hpackage hname.slashless hrun⟩
  · intro cause hrender
    obtain ⟨fault, after, hrun⟩ := exists_error_of_render root h hname.slashless hrender
    obtain ⟨count, hremainder⟩ := exists_remainder h hpackage hname.slashless hrun
    obtain rfl := Nat.le_zero.mp (hremainder.count_le_of_render rfl hrender)
    exact ⟨fault, after, hrun, hremainder.holdsSame⟩
  · intro cause hrender
    obtain ⟨fault, after, hrun⟩ := exists_error_of_render root h hname.slashless hrender
    obtain ⟨count, hremainder⟩ := exists_remainder h hpackage hname.slashless hrun
    have hcount : count ≤ 3 := hremainder.count_le_of_render rfl hrender
    have hbehind : ∀ artifact ∈ Artifact.all.drop 3, artifact ∈ Artifact.all.drop count := by
      intro artifact hmem
      have hsuffix := List.drop_suffix_drop_left Artifact.all hcount
      exact hsuffix.subset hmem
    exact ⟨fault, after, hrun, hremainder.later _ (hbehind _ (by decide)),
      hremainder.later _ (hbehind _ (by decide))⟩

set_option maxRecDepth 4000 in
/-- A run whose last files cannot be removed, one whose header has a placeholder without a name, and
one whose module has. -/
theorem generateInto_remainder_occupied :
    (∃ fault after count,
      perform occupied (generateInto ⟨[]⟩ ⟨"p", "n", "N"⟩ [] ⟨⟨"h", []⟩, ⟨"m", []⟩⟩) =
        (.error fault, after) ∧
      fault.name = "N" ∧
      Remainder occupied after ⟨[]⟩ ⟨"p", "n", "N"⟩ [] ⟨⟨"h", []⟩, ⟨"m", []⟩⟩ fault.cause count) ∧
    (∃ fault after,
      perform occupied (generateInto ⟨[]⟩ ⟨"p", "n", "N"⟩ [] ⟨⟨"h", ['$']⟩, ⟨"m", []⟩⟩) =
        (.error fault, after) ∧
      ∀ place, HoldsSame occupied after place) ∧
    (∃ fault after,
      perform occupied (generateInto ⟨[]⟩ ⟨"p", "n", "N"⟩ [] ⟨⟨"h", []⟩, ⟨"m", ['$']⟩⟩) =
        (.error fault, after) ∧
      HoldsSame occupied after (artifactPlace occupied ⟨[]⟩ ⟨"p", "n", "N"⟩ .scripting) ∧
      HoldsSame occupied after (artifactPlace occupied ⟨[]⟩ ⟨"p", "n", "N"⟩ .marker)) := by
  have hpackage : IsEntryName "p" := ⟨⟨by decide, by decide, by decide⟩, by decide⟩
  have hname : IsEntryName "N" := ⟨⟨by decide, by decide, by decide⟩, by decide⟩
  refine ⟨?_, ?_, ?_⟩
  · have hfails :
        (perform occupied (generateInto ⟨[]⟩ ⟨"p", "n", "N"⟩ [] ⟨⟨"h", []⟩, ⟨"m", []⟩⟩)).1.isOk =
          false := by
      simp only [generateInto, run, writeAll, Artifact.all, Artifact.render, Header.render,
        Scripting.render, Template.fill_nil]
      -- It does not matter what the documentation says.
      generalize Usage.render _ _ = usage
      generalize Reference.render _ = reference
      cbv
    rcases hrun : perform occupied
        (generateInto ⟨[]⟩ ⟨"p", "n", "N"⟩ [] ⟨⟨"h", []⟩, ⟨"m", []⟩⟩) with
      ⟨fault | generated, after⟩
    · obtain ⟨hfault, count, hremainder⟩ :=
        (generateInto_remainder isPlain_occupied hpackage hname).1 fault after hrun
      exact ⟨fault, after, count, rfl, hfault, hremainder⟩
    · rw [hrun] at hfails
      cases hfails
  · have hrender : Artifact.render ⟨"p", "n", "N"⟩ [] ⟨⟨"h", ['$']⟩, ⟨"m", []⟩⟩ .header =
        .error (.invalid "h" 1 1) := by
      cbv
    exact (generateInto_remainder isPlain_occupied hpackage hname).2.1 _ hrender
  · have hrender : Artifact.render ⟨"p", "n", "N"⟩ [] ⟨⟨"h", []⟩, ⟨"m", ['$']⟩⟩ .scripting =
        .error (.invalid "m" 1 1) := by
      cbv
    exact (generateInto_remainder isPlain_occupied hpackage hname).2.2 _ hrender

set_option maxRecDepth 8000 in
/-- The root leads through the place of the marker, so that a directory is made there.  The run
removes an obsolete file before another one is refused, and so it must have delivered all files, but
the marker is neither empty nor was it there. -/
theorem marker_replaced_of_root :
    occupied.IsPlain ∧ IsEntryName "p" ∧ IsEntryName "N" ∧ ∃ fault after,
      perform occupied (generateInto ⟨"src/p/cfg/__init__.py/../../../..".toList⟩ ⟨"p", "n", "N"⟩ []
        ⟨⟨"h", []⟩, ⟨"m", []⟩⟩) = (.error fault, after) ∧
      ¬ ∃ count ≤ 5,
        (∀ artifact ∈ Artifact.all.take count,
          (∃ text, artifact.render ⟨"p", "n", "N"⟩ [] ⟨⟨"h", []⟩, ⟨"m", []⟩⟩ = .ok text ∧
            after.readText (Path.join ⟨"src/p/cfg/__init__.py/../../../..".toList⟩
              (artifact.path ⟨"p", "n", "N"⟩)) = .ok text) ∨
          artifact = .marker ∧
            occupied.node? (artifactPlace occupied ⟨"src/p/cfg/__init__.py/../../../..".toList⟩
              ⟨"p", "n", "N"⟩ artifact) ≠ none) ∧
        (count < 5 → ∀ path ∈ Target.obsoletePaths ⟨"p", "n", "N"⟩, HoldsSame occupied after
          (occupied.placeOf (Path.join ⟨"src/p/cfg/__init__.py/../../../..".toList⟩ path))) := by
  have hresult :
      (match perform occupied
        (generateInto ⟨"src/p/cfg/__init__.py/../../../..".toList⟩ ⟨"p", "n", "N"⟩ []
          ⟨⟨"h", []⟩, ⟨"m", []⟩⟩) with
      | (outcome, after) => (outcome.isOk, after.node? ["msg".toList, "NConfig.msg".toList],
        (after.readText (Path.join ⟨"src/p/cfg/__init__.py/../../../..".toList⟩
          (Target.markerPath ⟨"p", "n", "N"⟩))).isOk)) = (false, none, false) := by
    simp only [generateInto, run, writeAll, Artifact.all, Artifact.render, Header.render,
      Scripting.render, Template.fill_nil]
    generalize Usage.render _ _ = usage
    generalize Reference.render _ = reference
    cbv
  have hmarker : occupied.node?
      (artifactPlace occupied ⟨"src/p/cfg/__init__.py/../../../..".toList⟩ ⟨"p", "n", "N"⟩
        .marker) = none := by
    cbv
  have hobsolete : occupied.node? ["msg".toList, "NConfig.msg".toList] =
      some (.file (.text [])) := by
    decide
  have hplace : occupied.placeOf
      (Path.join ⟨"src/p/cfg/__init__.py/../../../..".toList⟩ (.ofString "msg/NConfig.msg")) =
      ["msg".toList, "NConfig.msg".toList] := by
    cbv
  rcases hrun : perform occupied
      (generateInto ⟨"src/p/cfg/__init__.py/../../../..".toList⟩ ⟨"p", "n", "N"⟩ []
        ⟨⟨"h", []⟩, ⟨"m", []⟩⟩) with ⟨fault | generated, after⟩
  · rw [hrun] at hresult
    simp only [Prod.mk.injEq] at hresult
    obtain ⟨-, hgone, hlost⟩ := hresult
    refine ⟨isPlain_occupied, ⟨⟨by decide, by decide, by decide⟩, by decide⟩,
      ⟨⟨by decide, by decide, by decide⟩, by decide⟩, fault, after, rfl, ?_⟩
    rintro ⟨count, hcount, hdelivered, hearly⟩
    by_cases hlt : count < 5
    · have hsame := hearly hlt (.ofString "msg/NConfig.msg") (by decide) (.text [])
      rw [hplace, hgone] at hsame
      cases hsame.mpr hobsolete
    · obtain rfl : count = 5 := by omega
      rcases hdelivered .marker (by decide) with ⟨text, _, hread⟩ | ⟨_, hthere⟩
      · rw [Artifact.path] at hread
        rw [hread] at hlost
        cases hlost
      · exact hthere hmarker
  · rw [hrun] at hresult
    cases hresult

end Main

end Generation
end Tunables
