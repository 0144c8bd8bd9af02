import Tunables.Generation.Basic
import Tunables.Proofs.Files.Directory

/-!
# Delivering generated files

Generated files are written into a plain tree one after the other.  Files change at their places
only, and directories appear on the ways to their directories only, so that what was written stays
when the next file is written somewhere else.

* `Settled`: what it means for two trees that a file was written or skipped between them.
* `place_eq_ok`: one file.
* `writeAll_paths`, `writeAll_eq_ok`, `writeAll_leads`, `writeAll_settled`: all files of a run.
* `place_eq_error`, `writeAll_eq_error`: a file that could not be written, and those in
  front of it that were.
-/

namespace Tunables
namespace Generation

open Tunables.Tree

/-- The way to the directory of a file that is seen from a root. -/
def Leads (working : Place) (root relative : Path) (place : Place) : Prop :=
  ∃ directory, relative.parent? = some directory ∧ Passes working (root.join directory) place

/-- What became of a file: it holds its text, or it was left alone because something was at its
place. -/
inductive Settled (before after : Tree) (path : Path) (overwrite : Overwrite)
    (content : Except Template.Fault (List Char)) : Outcome → Prop
  | written (text : List Char) (hcontent : content = .ok text) (hreaches : after.Reaches path)
      (hnode : after.node? (before.placeOf path) = some (.file (.text text)))
      (hmissing : overwrite = .ifMissing → before.node? (before.placeOf path) = none) :
      Settled before after path overwrite content .written
  | skipped (hoverwrite : overwrite = .ifMissing)
      (hstays : before.node? (before.placeOf path) ≠ none →
        after.node? (before.placeOf path) = before.node? (before.placeOf path))
      (hnew : before.node? (before.placeOf path) = none →
        after.node? (before.placeOf path) = some .directory) :
      Settled before after path overwrite content .skipped

section Settling

variable {before middle after : Tree} {path : Path} {overwrite : Overwrite}
  {content : Except Template.Fault (List Char)} {outcome : Outcome} {files ways : Place → Prop}

/-- What became of a file does not change if other files are written before. -/
theorem Settled.of_extends (h : Extends before middle files ways)
    (hfiles : ¬ files (before.placeOf path))
    (hsettled : Settled middle after path overwrite content outcome) :
    Settled before after path overwrite content outcome := by
  have hplace : middle.placeOf path = before.placeOf path := h.placeOf_eq path
  have hnone : middle.node? (before.placeOf path) = none →
      before.node? (before.placeOf path) = none := by
    intro hnone
    refine Decidable.byContradiction fun hne => ?_
    rw [h.stays hfiles hne] at hnone
    exact hne hnone
  cases hsettled with
  | written text hcontent hreaches hnode hmissing =>
      rw [hplace] at hnode hmissing
      exact Settled.written text hcontent hreaches hnode fun hoverwrite =>
        hnone (hmissing hoverwrite)
  | skipped hoverwrite hstays hnew =>
      rw [hplace] at hstays hnew
      refine Settled.skipped hoverwrite ?_ ?_
      · intro hne
        have hsame := h.stays hfiles hne
        rw [← hsame] at hne ⊢
        exact hstays hne
      · intro hbefore
        rcases h.each (before.placeOf path) with hsame | ⟨hfile, _⟩ | ⟨_, _, hdirectory⟩
        · exact hnew (hsame.trans hbefore)
        · exact absurd hfile hfiles
        · rw [hstays (by simp [hdirectory]), hdirectory]

/-- What became of a file does not change if other files are written later. -/
theorem Settled.extends (hsettled : Settled before middle path overwrite content outcome)
    (h : Extends middle after files ways) (hfiles : ¬ files (before.placeOf path)) :
    Settled before after path overwrite content outcome := by
  cases hsettled with
  | written text hcontent hreaches hnode hmissing =>
      refine Settled.written text hcontent (hreaches.mono h.toKeeps) ?_ hmissing
      rw [h.stays hfiles (by simp [hnode]), hnode]
  | skipped hoverwrite hstays hnew =>
      refine Settled.skipped hoverwrite ?_ ?_
      · intro hne
        have hsame := hstays hne
        rw [h.stays hfiles (hsame ▸ hne), hsame]
      · intro hnone
        exact h.directory _ (hnew hnone)

/-- What became of a file does not change if other files are removed later. -/
theorem Settled.loses {gone : Place → Prop}
    (hsettled : Settled before middle path overwrite content outcome) (h : Loses middle after gone)
    (hgone : ¬ gone (before.placeOf path)) :
    Settled before after path overwrite content outcome := by
  have hstays : after.node? (before.placeOf path) = middle.node? (before.placeOf path) :=
    h.stays hgone
  cases hsettled with
  | written text hcontent hreaches hnode hmissing =>
      exact Settled.written text hcontent (hreaches.mono h.toKeeps) (hstays.trans hnode) hmissing
  | skipped hoverwrite hthere hnew =>
      exact Settled.skipped hoverwrite (fun hne => hstays.trans (hthere hne)) fun hnone =>
        hstays.trans (hnew hnone)

end Settling

section Placing

variable {tree after : Tree} {root relative path : Path} {overwrite : Overwrite}
  {content : Except Template.Fault (List Char)} {outcome : Outcome}

theorem ensureDirectoryOf_extends (h : tree.IsPlain) (root relative : Path) :
    Extends tree (tree.perform (Files.ensureDirectoryOf root relative)).2 (fun _ => False)
      (Leads tree.working root relative) := by
  unfold Files.ensureDirectoryOf
  split
  · next directory hparent =>
      exact (ensureDirectory_extends h _).weaken (fun _ hfalse => hfalse) fun place hpass =>
        ⟨directory, hparent, hpass⟩
  · exact Extends.refl h _ _

theorem ensureDirectoryOf_eq_ok (h : tree.IsPlain)
    (hrun : tree.perform (Files.ensureDirectoryOf root relative) = (.ok (), after)) :
    Extends tree after (fun _ => False) (Leads tree.working root relative) ∧
      ∀ directory, relative.parent? = some directory →
        after.kind? (root.join directory) = some .directory := by
  have hextends := ensureDirectoryOf_extends h root relative
  rw [hrun] at hextends
  refine ⟨hextends, fun directory hparent => ?_⟩
  unfold Files.ensureDirectoryOf at hrun
  rw [hparent] at hrun
  exact (ensureDirectory_eq_ok h hrun).2

/-- Whatever comes of an attempt to write a file, only this file changes. -/
theorem writeRendered_extends (h : tree.IsPlain) (path : Path)
    (content : Except Template.Fault (List Char)) :
    Extends tree (tree.perform (Files.writeRendered path content)).2
      (fun place => place = tree.placeOf path) (fun _ => False) := by
  unfold Files.writeRendered
  split
  · rw [perform_adapt, perform_write]
    split
    · next made hwrite => exact (writeContent_eq_ok h hwrite).1
    · exact Extends.refl h _ _
  · exact Extends.refl h _ _

/-- Whatever comes of an attempt to write a generated file, only this file changes, and directories
appear on the way. -/
theorem place_extends (h : tree.IsPlain) (root relative : Path) (overwrite : Overwrite)
    (content : Except Template.Fault (List Char)) :
    Extends tree (tree.perform (Files.place root relative overwrite content)).2
      (fun place => place = tree.placeOf (root.join relative))
      (Leads tree.working root relative) := by
  have hways : Extends tree
      (tree.perform (ExceptT.adapt WriteFault.files (Files.ensureDirectoryOf root relative))).2
      (fun place => place = tree.placeOf (root.join relative)) (Leads tree.working root relative) :=
    (ensureDirectoryOf_extends h root relative).weaken (fun _ hfalse => hfalse.elim) fun _ hway =>
      hway
  refine hways.bind fun _ middle _ hmiddle => ?_
  have hwrite : Extends tree (middle.perform (Files.writeRendered (root.join relative) content)).2
      (fun place => place = tree.placeOf (root.join relative))
      (Leads tree.working root relative) := by
    have hwritten := writeRendered_extends hmiddle.isPlain (root.join relative) content
    rw [hmiddle.placeOf_eq] at hwritten
    exact hmiddle.trans (hwritten.weaken (fun _ hplace => hplace) fun _ hfalse => hfalse.elim)
  cases overwrite with
  | always => exact hwrite.bind fun _ _ _ hlast => hlast
  | ifMissing =>
      have hlook : Extends tree
          (middle.perform (FileStore.isPresent (root.join relative) : ExceptT WriteFault
            (StateM Tree) Bool)).2
          (fun place => place = tree.placeOf (root.join relative))
          (Leads tree.working root relative) := hmiddle
      refine hlook.bind fun isThere last hpresent hlast => ?_
      rw [perform_isPresent] at hpresent
      cases hpresent
      split
      · exact hlast
      · exact hwrite.bind fun _ _ _ hlast => hlast

theorem writeRendered_eq_ok
    (hrun : tree.perform (Files.writeRendered path content) = (.ok (), after)) :
    ∃ text, content = .ok text ∧ tree.writeContent path (.text text) = .ok after := by
  unfold Files.writeRendered at hrun
  split at hrun
  · next text =>
      rw [perform_adapt_eq_ok_iff, perform_write] at hrun
      split at hrun
      · next made hwrite =>
          cases hrun
          exact ⟨text, rfl, hwrite⟩
      · cases hrun
  · cases hrun

theorem writeRendered_eq_error {fault : WriteFault}
    (hrun : tree.perform (Files.writeRendered path content) = (.error fault, after)) :
    after = tree := by
  unfold Files.writeRendered at hrun
  split at hrun
  · rw [perform_adapt, perform_write] at hrun
    split at hrun
    · cases hrun
    · cases hrun
      rfl
  · cases hrun
    rfl

/-- A file that was written holds its text, and nothing else has changed. -/
theorem settled_writeContent (h : tree.IsPlain) {text : List Char} (hcontent : content = .ok text)
    (hmissing : overwrite = .ifMissing → tree.kind? path = none)
    (hwrite : tree.writeContent path (.text text) = .ok after) :
    Extends tree after (fun place => place = tree.placeOf path) (fun _ => False) ∧
      Settled tree after path overwrite content .written := by
  obtain ⟨hextends, hreaches, hnode⟩ := writeContent_eq_ok h hwrite
  refine ⟨hextends, Settled.written text hcontent hreaches hnode fun hoverwrite => ?_⟩
  -- The directories on the way are there after the writing, so they were there before.
  have hback : Keeps after tree := by
    refine ⟨hextends.working.symm, fun place hdirectory => ?_⟩
    rcases hextends.each place with hsame | ⟨_, other, hfile⟩ | ⟨hfalse, _⟩
    · rw [← hsame, hdirectory]
    · simp [hfile] at hdirectory
    · exact hfalse.elim
  have hkind := hmissing hoverwrite
  refine Decidable.byContradiction fun hne => ?_
  have hsome := (isSome_kind?_iff h).mpr ⟨hreaches.mono hback, hne⟩
  simp [hkind] at hsome

/-- A file is written or skipped after the directories on the way to it were made. -/
theorem place_eq_ok (h : tree.IsPlain)
    (hrun : tree.perform (Files.place root relative overwrite content) = (.ok outcome, after)) :
    Extends tree after (fun place => place = tree.placeOf (root.join relative))
        (Leads tree.working root relative) ∧
      (∀ directory, relative.parent? = some directory →
        after.kind? (root.join directory) = some .directory) ∧
      Settled tree after (root.join relative) overwrite content outcome := by
  unfold Files.place at hrun
  obtain ⟨⟨⟩, middle, hdirectory, hrun⟩ := perform_bind_eq_ok_iff.mp hrun
  obtain ⟨hways, hkind⟩ := ensureDirectoryOf_eq_ok h (perform_adapt_eq_ok_iff.mp hdirectory)
  -- It is enough to follow the run from the tree with the directories.
  have hfollow : Extends middle after (fun place => place = middle.placeOf (root.join relative))
      (fun _ => False) ∧
      Settled middle after (root.join relative) overwrite content outcome := by
    cases overwrite with
    | always =>
        obtain ⟨⟨⟩, last, hwrite, hpure⟩ := perform_bind_eq_ok_iff.mp hrun
        cases hpure
        obtain ⟨text, hcontent, hwrite⟩ := writeRendered_eq_ok hwrite
        exact settled_writeContent hways.isPlain hcontent (by simp) hwrite
    | ifMissing =>
        obtain ⟨isThere, last, hpresent, hrun⟩ := perform_bind_eq_ok_iff.mp hrun
        rw [perform_isPresent] at hpresent
        cases hpresent
        split at hrun
        · next hthere =>
            cases hrun
            have hne := ((isSome_kind?_iff hways.isPlain).mp hthere).2
            exact ⟨Extends.refl hways.isPlain _ _,
              Settled.skipped rfl (fun _ => rfl) fun hnone => absurd hnone hne⟩
        · next hmissing =>
            obtain ⟨⟨⟩, last', hwrite, hpure⟩ := perform_bind_eq_ok_iff.mp hrun
            cases hpure
            obtain ⟨text, hcontent, hwrite⟩ := writeRendered_eq_ok hwrite
            refine settled_writeContent hways.isPlain hcontent (fun _ => ?_) hwrite
            simpa using hmissing
  obtain ⟨hextends, hsettled⟩ := hfollow
  rw [hways.placeOf_eq] at hextends
  refine ⟨?_, ?_, hsettled.of_extends hways (fun hfalse => hfalse)⟩
  · exact (hways.weaken (fun _ hfalse => hfalse.elim) fun _ hway => hway).trans
      (hextends.weaken (fun _ hplace => hplace) fun _ hfalse => hfalse.elim)
  · intro directory hparent
    exact hextends.toKeeps.kind?_eq_directory hways.isPlain hextends.isPlain
      (hkind directory hparent)

/-- If a file was not written, then nothing has happened but that directories were made
on the way to it. -/
theorem place_eq_error (h : tree.IsPlain) {fault : WriteFault}
    (hrun : tree.perform (Files.place root relative overwrite content) = (.error fault, after)) :
    Extends tree after (fun _ => False) (Leads tree.working root relative) := by
  have hways := ensureDirectoryOf_extends h root relative
  unfold Files.place at hrun
  rcases perform_bind_eq_error hrun with hdirectory | ⟨⟨⟩, middle, hdirectory, hrun⟩
  · obtain ⟨cause, hdirectory, -⟩ := perform_adapt_eq_error hdirectory
    rw [hdirectory] at hways
    exact hways
  · rw [perform_adapt_eq_ok_iff.mp hdirectory] at hways
    suffices hstays : after = middle by
      rw [hstays]
      exact hways
    cases overwrite with
    | always =>
        rcases perform_bind_eq_error hrun with hwrite | ⟨_, _, _, hpure⟩
        · exact writeRendered_eq_error hwrite
        · cases hpure
    | ifMissing =>
        rcases perform_bind_eq_error hrun with hpresent | ⟨isThere, last, hpresent, hrun⟩
        · cases hpresent
        · rw [perform_isPresent] at hpresent
          cases hpresent
          split at hrun
          · cases hrun
          · rcases perform_bind_eq_error hrun with hwrite | ⟨_, _, _, hpure⟩
            · exact writeRendered_eq_error hwrite
            · cases hpure

end Placing

section Writing

variable {root : Path} {target : Target} {parameters : List Parameter} {templates : Templates}
  {tree after : Tree} {artifact : Artifact} {artifacts : List Artifact}
  {outcomes : List (Path × Outcome)}

/-- The place of a generated file. -/
def artifactPlace (tree : Tree) (root : Path) (target : Target) (artifact : Artifact) : Place :=
  tree.placeOf (root.join (artifact.path target))

theorem writeAll_cons_eq_ok
    (hrun : tree.perform (writeAll root target parameters templates (artifact :: artifacts)) =
      (.ok outcomes, after)) :
    ∃ outcome others middle, outcomes = (artifact.path target, outcome) :: others ∧
      tree.perform (Files.place root (artifact.path target) artifact.overwrite
        (artifact.render target parameters templates)) = (.ok outcome, middle) ∧
      middle.perform (writeAll root target parameters templates artifacts) =
        (.ok others, after) := by
  rw [writeAll] at hrun
  obtain ⟨outcome, middle, hplace, hrun⟩ := perform_bind_eq_ok_iff.mp hrun
  obtain ⟨others, last, hrest, hpure⟩ := perform_bind_eq_ok_iff.mp hrun
  cases hpure
  exact ⟨outcome, others, middle, rfl, hplace, hrest⟩

/-- If some files were not written, then those in front of one of them were, and that one failed. -/
theorem writeAll_eq_error {fault : WriteFault}
    (hrun : tree.perform (writeAll root target parameters templates artifacts) =
      (.error fault, after)) :
    ∃ front artifact back outcomes middle, artifacts = front ++ artifact :: back ∧
      tree.perform (writeAll root target parameters templates front) = (.ok outcomes, middle) ∧
      middle.perform (Files.place root (artifact.path target) artifact.overwrite
        (artifact.render target parameters templates)) = (.error fault, after) := by
  induction artifacts generalizing tree with
  | nil =>
      cases hrun
  | cons artifact artifacts ih =>
      rw [writeAll] at hrun
      rcases perform_bind_eq_error hrun with hplace | ⟨outcome, middle, hplace, hrun⟩
      · exact ⟨[], artifact, artifacts, [], tree, rfl, rfl, hplace⟩
      rcases perform_bind_eq_error hrun with hrest | ⟨_, _, _, hpure⟩
      · obtain ⟨front, failed, back, outcomes, last, rfl, hfront, hfailed⟩ := ih hrest
        refine ⟨artifact :: front, failed, back, (artifact.path target, outcome) :: outcomes, last,
          rfl, ?_, hfailed⟩
        rw [writeAll, perform_bind, hplace]
        simp only
        rw [perform_bind, hfront]
        rfl
      · cases hpure

/-- Every file has its outcome. -/
theorem writeAll_paths
    (hrun : tree.perform (writeAll root target parameters templates artifacts) =
      (.ok outcomes, after)) :
    outcomes.map Prod.fst = artifacts.map (Artifact.path target) := by
  induction artifacts generalizing tree outcomes with
  | nil =>
      cases hrun
      rfl
  | cons artifact artifacts ih =>
      obtain ⟨outcome, others, middle, rfl, _, hrest⟩ := writeAll_cons_eq_ok hrun
      rw [List.map_cons, List.map_cons, ih hrest]

/-- Whatever comes of an attempt to write files, only these files change, and directories appear on
the ways to them. -/
theorem writeAll_extends (h : tree.IsPlain) (artifacts : List Artifact) :
    Extends tree (tree.perform (writeAll root target parameters templates artifacts)).2
        (fun place => ∃ artifact ∈ artifacts, place = artifactPlace tree root target artifact)
        (fun place =>
          ∃ artifact ∈ artifacts, Leads tree.working root (artifact.path target) place) := by
  induction artifacts generalizing tree with
  | nil =>
      exact Extends.refl h _ _
  | cons artifact artifacts ih =>
      rw [writeAll]
      refine Extends.bind ?_ fun outcome middle _ hmiddle =>
        Extends.bind ?_ fun _ _ _ hlast => hlast
      · refine (place_extends h root (artifact.path target) artifact.overwrite _).weaken ?_ ?_
        · exact fun place hplace => ⟨artifact, by simp, hplace⟩
        · exact fun place hway => ⟨artifact, by simp, hway⟩
      · refine hmiddle.trans ((ih hmiddle.isPlain).weaken ?_ ?_)
        · rintro place ⟨other, hother, rfl⟩
          exact ⟨other, by simp [hother], hmiddle.placeOf_eq _⟩
        · rintro place ⟨other, hother, hway⟩
          rw [hmiddle.working] at hway
          exact ⟨other, by simp [hother], hway⟩

/-- Files are written at the places of the generated files, and directories appear on the ways to
them. -/
theorem writeAll_eq_ok (h : tree.IsPlain)
    (hrun : tree.perform (writeAll root target parameters templates artifacts) =
      (.ok outcomes, after)) :
    Extends tree after
      (fun place => ∃ artifact ∈ artifacts, place = artifactPlace tree root target artifact)
        (fun place =>
          ∃ artifact ∈ artifacts, Leads tree.working root (artifact.path target) place) := by
  have hextends := @writeAll_extends root target parameters templates tree h artifacts
  rw [hrun] at hextends
  exact hextends

/-- After the run there are directories on the ways to the generated files. -/
theorem writeAll_leads (h : tree.IsPlain)
    (hrun : tree.perform (writeAll root target parameters templates artifacts) =
      (.ok outcomes, after))
    {place : Place} (hartifact : artifact ∈ artifacts)
    (hway : Leads tree.working root (artifact.path target) place) :
    after.node? place = some .directory := by
  induction artifacts generalizing tree outcomes with
  | nil =>
      simp at hartifact
  | cons first artifacts ih =>
      obtain ⟨outcome, others, middle, rfl, hplace, hrest⟩ := writeAll_cons_eq_ok hrun
      obtain ⟨hextends, hkind, _⟩ := place_eq_ok h hplace
      have hextends' := writeAll_eq_ok hextends.isPlain hrest
      rcases List.mem_cons.mp hartifact with rfl | hartifact
      · obtain ⟨directory, hparent, hpass⟩ := hway
        rw [← hextends.working] at hpass
        exact hextends'.directory
          _ (directory_of_passes hextends.isPlain (hkind directory hparent) hpass)
      · rw [← hextends.working] at hway
        exact ih hextends.isPlain hrest hartifact hway

/-- If no two generated files have the same place, then after the run every file is what it was
made. -/
theorem writeAll_settled (h : tree.IsPlain)
    (hrun : tree.perform (writeAll root target parameters templates artifacts) =
      (.ok outcomes, after))
    (hdistinct : artifacts.Pairwise fun first second =>
      artifactPlace tree root target first ≠ artifactPlace tree root target second)
    {path : Path} {outcome : Outcome} (hmem : (path, outcome) ∈ outcomes) :
    ∃ artifact ∈ artifacts, path = artifact.path target ∧
      Settled tree after (root.join path) artifact.overwrite
        (artifact.render target parameters templates)
        outcome := by
  induction artifacts generalizing tree outcomes with
  | nil =>
      cases hrun
      simp at hmem
  | cons artifact artifacts ih =>
      obtain ⟨first, others, middle, rfl, hplace, hrest⟩ := writeAll_cons_eq_ok hrun
      obtain ⟨hextends, _, hsettled⟩ := place_eq_ok h hplace
      have hextends' := writeAll_eq_ok hextends.isPlain hrest
      obtain ⟨hfirst, hothers⟩ := List.pairwise_cons.mp hdistinct
      rcases List.mem_cons.mp hmem with heq | hmem
      · cases heq
        refine ⟨artifact, by simp, rfl, hsettled.extends hextends' ?_⟩
        rintro ⟨other, hother, hsame⟩
        rw [artifactPlace, hextends.placeOf_eq] at hsame
        exact hfirst other hother hsame
      · have hdistinct' : artifacts.Pairwise fun first second =>
            artifactPlace middle root target first ≠ artifactPlace middle root target second := by
          simpa only [artifactPlace, hextends.placeOf_eq] using hothers
        obtain ⟨other, hother, rfl, hsettled'⟩ := ih hextends.isPlain hrest hdistinct' hmem
        refine ⟨other, by simp [hother], rfl, hsettled'.of_extends hextends ?_⟩
        exact fun hsame => hfirst other hother hsame.symm

end Writing

end Generation
end Tunables
