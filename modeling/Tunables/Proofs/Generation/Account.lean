import Mathlib
import Tunables.Proofs.Artifact.Builtin
import Tunables.Proofs.Generation.Run
import Tunables.Proofs.Template.Positional

/-!
# The account of a run

What a run in a plain tree does if the package has an ordinary name: it writes what the preview
shows, removes the obsolete files, makes the directories on the way, and touches nothing else.

* `leads_file_iff`: the ways to the files.
* `mapM_preview_eq_ok`: a preview of files that can all be rendered.
* `Account`: the account; `generateInto_account`: every run that succeeds gives it.
-/

namespace Tunables
namespace Generation

open Tunables.Tree

section Places

variable {tree : Tree} {root : Path} {target : Target} {artifact : Artifact}
  {file : List String × String} {place : Place}

theorem placeIn_eq_append (hfile : target.Names file) (hpackage : IsEntryName target.package)
    (hname : '/' ∉ target.name.toList) :
    placeIn tree root file = tree.placeOf root ++ file.1.map String.toList ++ [file.2.toList] := by
  obtain ⟨hne, hnames⟩ := hfile.directory hpackage
  rw [placeIn_eq hfile hname, placeOf, Target.placeFrom_below hne hnames]
  rfl

/-- No generated file lies where an obsolete file lies. -/
theorem artifactPlace_ne_placeIn (hpackage : IsEntryName target.package)
    (hname : '/' ∉ target.name.toList) (hfile : file ∈ target.obsoleteFiles) (artifact : Artifact) :
    artifactPlace tree root target artifact ≠ placeIn tree root file := by
  intro hsame
  obtain ⟨rfl, rfl⟩ := eq_header_of_place_eq hname hfile hsame
  rw [artifactPlace_eq, placeIn_eq_append (.generated .header) hpackage hname,
    placeIn_eq_append (.obsolete hfile) hpackage hname] at hsame
  simp [Artifact.file, Target.obsoleteHeader] at hsame

theorem parent?_filePath (hfile : target.Names file) (hpackage : IsEntryName target.package)
    (hname : '/' ∉ target.name.toList) :
    (Target.filePath file).parent? = some (Target.below file.1) := by
  obtain ⟨hne, hnames⟩ := hfile.directory hpackage
  rw [Target.filePath, ← Target.below_concat]
  exact Target.parent?_below hne hnames (hfile.isEntryName hname)

theorem parent?_path (hpackage : IsEntryName target.package) (hname : '/' ∉ target.name.toList)
    (artifact : Artifact) :
    (artifact.path target).parent? = some (Target.below (artifact.file target).1) := by
  rw [Artifact.path_eq]
  exact parent?_filePath (.generated artifact) hpackage hname

/-- The way to a file is the way to the root and then down the directories of the file. -/
theorem leads_file_iff (hfile : target.Names file) (hpackage : IsEntryName target.package)
    (hname : '/' ∉ target.name.toList) :
    Leads tree.working root (Target.filePath file) place ↔
      Passes tree.working root place ∨
        ∃ names, names <+: file.1.map String.toList ∧ place = tree.placeOf root ++ names := by
  obtain ⟨hne, hnames⟩ := hfile.directory hpackage
  simp only [Leads, parent?_filePath hfile hpackage hname, Option.some.injEq, exists_eq_left']
  exact Target.passes_below_iff hne hnames _ _ _

theorem leads_iff (hpackage : IsEntryName target.package) (hname : '/' ∉ target.name.toList)
    (artifact : Artifact) :
    Leads tree.working root (artifact.path target) place ↔
      Passes tree.working root place ∨
        ∃ names, names <+: (artifact.file target).1.map String.toList ∧
          place = tree.placeOf root ++ names := by
  rw [Artifact.path_eq]
  exact leads_file_iff (.generated artifact) hpackage hname

/-- What the way to a file passes through is on the way to the root or above the place of the
file. -/
theorem passes_or_above (hfile : target.Names file) (hpackage : IsEntryName target.package)
    (hname : '/' ∉ target.name.toList)
    (hpass : Passes tree.working (root.join (Target.filePath file)) place) :
    Passes tree.working root place ∨ place <+: placeIn tree root file := by
  have hnames : ∀ name ∈ file.1 ++ [file.2], IsEntryName name := by
    intro name hmem
    rcases List.mem_append.mp hmem with hmem | hmem
    · exact (hfile.directory hpackage).2 name hmem
    · rw [List.mem_singleton.mp hmem]
      exact hfile.isEntryName hname
  rw [Target.filePath, ← Target.below_concat, Target.passes_below_iff (by simp) hnames] at hpass
  refine hpass.imp_right ?_
  rintro ⟨front, hfront, rfl⟩
  rw [placeIn_eq_append hfile hpackage hname, List.append_assoc]
  refine (List.prefix_append_right_inj _).mpr ?_
  simpa using hfront

/-- The marker lies too deep to be a directory of a generated file, so that its place is on the way
to one only if it is on the way to the root. -/
theorem passes_of_leads_marker (hpackage : IsEntryName target.package)
    (hname : '/' ∉ target.name.toList)
    (hway : Leads tree.working root (artifact.path target)
      (artifactPlace tree root target .marker)) :
    Passes tree.working root (artifactPlace tree root target .marker) := by
  refine ((leads_iff hpackage hname artifact).mp hway).resolve_right ?_
  rintro ⟨names, hnames, hplace⟩
  rw [artifactPlace_eq, placeIn_eq_append (.generated .marker) hpackage hname, List.append_assoc]
    at hplace
  have hlength := congrArg List.length (List.append_cancel_left hplace)
  have hshort := hnames.length_le
  have hmarker : (Artifact.file target .marker).1.length = 3 := rfl
  have hdepth : (artifact.file target).1.length ≤ 3 := by cases artifact <;> simp [Artifact.file]
  simp only [List.length_append, List.length_map, List.length_cons, List.length_nil]
    at hlength hshort
  omega

end Places

/-- A file lies at a place. -/
def holdsFile (tree : Tree) (place : Place) : Bool :=
  match tree.node? place with
  | some (.file _) => true
  | _ => false

theorem holdsFile_iff {tree : Tree} {place : Place} :
    holdsFile tree place = true ↔ ∃ content, tree.node? place = some (.file content) := by
  unfold holdsFile
  rcases tree.node? place with _ | (_ | content | target) <;> simp

section Runs

variable {before middle after : Tree} {root : Path} {target : Target} {parameters : List Parameter}
  {templates : Templates} {outcomes : List (Path × Outcome)} {removed : List Path}
  {file : List String × String}

/-- After the removal of some obsolete files there is nothing at their places, if the way to
the root was there. -/
theorem obsolete_eq_none_of_removeAll {tree : Tree} {paths : List Path} (h : tree.IsPlain)
    (hpackage : IsEntryName target.package) (hname : '/' ∉ target.name.toList)
    (hways : ∀ place, Passes tree.working root place → tree.node? place = some .directory)
    (hremove : tree.perform (removeAll root paths) = (.ok removed, after))
    (hfile : file ∈ target.obsoleteFiles) (hmem : Target.filePath file ∈ paths) :
    after.node? (placeIn tree root file) = none := by
  obtain ⟨hloses, hgone⟩ := removeAll_eq_ok h hremove
  by_cases hremoved : Target.filePath file ∈ removed
  · exact (hgone _ hremoved).2.2
  · refine Decidable.byContradiction fun hthere => ?_
    have htext : (root.join (Target.filePath file)).text ≠ [] :=
      Path.text_join_ne_nil (Or.inr ((Target.Names.obsolete hfile).text_ne_nil hname))
    obtain ⟨place, hpass, hnone⟩ := removeAll_missing h hremove hmem htext hremoved
    rcases passes_or_above (.obsolete hfile) hpackage hname hpass with hroot | ⟨back, hback⟩
    · rw [hloses.directory _ (hways place hroot)] at hnone
      cases hnone
    · rw [← hback] at hthere
      exact hloses.isPlain.exists_of_append hthere hnone

/-- After all files were delivered there are directories on the way to the root. -/
theorem directory_of_passes_root (h : before.IsPlain) (hpackage : IsEntryName target.package)
    (hname : '/' ∉ target.name.toList)
    (hwrite : before.perform (writeAll root target parameters templates Artifact.all) =
      (.ok outcomes, middle))
    {place : Place} (hpass : Passes middle.working root place) :
    middle.node? place = some .directory := by
  rw [(writeAll_eq_ok h hwrite).working] at hpass
  exact writeAll_leads h hwrite (Artifact.mem_all .reference)
    ((leads_iff hpackage hname .reference).mpr (Or.inl hpass))

/-- After a run there is nothing at the places of the obsolete files. -/
theorem IsRun.obsolete_eq_none
    (h : IsRun before middle after root target parameters templates outcomes removed)
    (hpackage : IsEntryName target.package) (hfile : file ∈ target.obsoleteFiles) :
    after.node? (placeIn before root file) = none := by
  have hnone := obsolete_eq_none_of_removeAll h.extends.isPlain hpackage h.slashless
    (fun _ => directory_of_passes_root h.isPlain hpackage h.slashless h.writes) h.removes hfile
    (Target.mem_obsoletePaths_iff.mpr ⟨file, hfile, rfl⟩)
  rwa [placeIn, h.extends.placeOf_eq] at hnone

/-- An obsolete file was removed if it was a file, and not otherwise. -/
theorem IsRun.mem_removed_iff
    (h : IsRun before middle after root target parameters templates outcomes removed)
    (hpackage : IsEntryName target.package) (hfile : file ∈ target.obsoleteFiles) :
    Target.filePath file ∈ removed ↔
      ∃ content, before.node? (placeIn before root file) = some (.file content) := by
  have hapart : ¬ ∃ artifact,
      placeIn before root file = artifactPlace before root target artifact :=
    fun ⟨artifact, hsame⟩ => artifactPlace_ne_placeIn hpackage h.slashless hfile artifact hsame.symm
  constructor
  · intro hmem
    obtain ⟨content, hnode⟩ := (h.gone hmem).2.1
    exact ⟨content, (h.extends.file_iff hapart content).mp hnode⟩
  · rintro ⟨content, hnode⟩
    have hmiddle := (h.extends.file_iff hapart content).mpr hnode
    have hgone := h.obsolete_eq_none hpackage hfile
    rcases h.loses.each (placeIn before root file) with
      hsame | ⟨⟨other, hother, hmem, hplace⟩, _, _⟩
    · rw [hgone, hmiddle] at hsame
      cases hsame
    · rw [obsoletePlace_injective h.slashless hfile hother hplace]
      exact hmem

theorem obsoletePaths_nodup (hname : '/' ∉ target.name.toList) : target.obsoletePaths.Nodup := by
  rw [Target.obsoletePaths_eq]
  refine List.Nodup.map_on ?_ ((obsoleteNames_nodup target).of_map)
  intro first hfirst second hsecond hsame
  have hplace : placeIn ⟨[], []⟩ ⟨[]⟩ first = placeIn ⟨[], []⟩ ⟨[]⟩ second := by
    rw [placeIn, placeIn, hsame]
  exact obsoletePlace_injective hname hfirst hsecond hplace

/-- The removed paths are those that were files, in their order. -/
theorem IsRun.removed_eq
    (h : IsRun before middle after root target parameters templates outcomes removed)
    (hpackage : IsEntryName target.package) :
    removed = target.obsoletePaths.filter fun path =>
      holdsFile before (before.placeOf (root.join path)) := by
  have hsublist := removeAll_sublist h.removes
  have hfile : ∀ path ∈ target.obsoletePaths,
      (path ∈ removed ↔ holdsFile before (before.placeOf (root.join path)) = true) := by
    intro path hpath
    obtain ⟨file, hfile, rfl⟩ := Target.mem_obsoletePaths_iff.mp hpath
    rw [h.mem_removed_iff hpackage hfile, holdsFile_iff]
    rfl
  have hfilter : removed.Sublist
      (target.obsoletePaths.filter fun path =>
        holdsFile before (before.placeOf (root.join path))) := by
    have hall : ∀ path ∈ removed, holdsFile before (before.placeOf (root.join path)) = true :=
      fun path hmem => (hfile path (hsublist.subset hmem)).mp hmem
    rw [← List.filter_eq_self.mpr hall]
    exact hsublist.filter _
  refine hfilter.eq_of_length_le ?_
  refine (List.subperm_of_subset ((obsoletePaths_nodup h.slashless).filter _) ?_).length_le
  intro path hmem
  obtain ⟨hpath, hholds⟩ := List.mem_filter.mp hmem
  exact (hfile path hpath).mpr hholds

/-- The marker is skipped if something lay at its place before, or if its place became a directory
on the way to the root. -/
theorem IsRun.marker_skipped_iff
    (h : IsRun before middle after root target parameters templates outcomes removed)
    (hpackage : IsEntryName target.package) {outcome : Outcome}
    (hmem : (Artifact.path target .marker, outcome) ∈ outcomes) :
    outcome = .skipped ↔ before.node? (artifactPlace before root target .marker) ≠ none ∨
      Passes before.working root (artifactPlace before root target .marker) := by
  have hroot : Passes before.working root (artifactPlace before root target .marker) →
      after.node? (artifactPlace before root target .marker) = some .directory :=
    fun hpass => h.leads ((leads_iff hpackage h.slashless .marker).mpr (Or.inl hpass))
  cases h.settled hmem with
  | written text _ _ hnode hmissing =>
      have hnone : before.node? (artifactPlace before root target .marker) = none := hmissing rfl
      refine ⟨nofun, ?_⟩
      rintro (hthere | hpass)
      · exact absurd hnone hthere
      · have hdirectory := h.loses.directory_iff.mp (hroot hpass)
        rw [artifactPlace, hnode] at hdirectory
        cases hdirectory
  | skipped _ _ hnew =>
      refine ⟨fun _ => ?_, fun _ => rfl⟩
      by_cases hnone : before.node? (artifactPlace before root target .marker) = none
      · have hdirectory : middle.node? (artifactPlace before root target .marker) =
            some .directory := hnew hnone
        rcases h.extends.each (artifactPlace before root target .marker) with
          hsame | ⟨_, content, hfile⟩ | ⟨⟨artifact, hway⟩, _, _⟩
        · rw [hdirectory, hnone] at hsame
          cases hsame
        · rw [hdirectory] at hfile
          cases hfile
        · exact Or.inr (passes_of_leads_marker hpackage h.slashless hway)
      · exact Or.inl hnone

/-- All files but the marker are written, and the marker is written or skipped. -/
theorem IsRun.outcomes_eq
    (h : IsRun before middle after root target parameters templates outcomes removed) :
    ∃ outcome, outcomes = [
      (Artifact.path target .header, .written), (Artifact.path target .reference, .written),
      (Artifact.path target .usage, .written), (Artifact.path target .scripting, .written),
      (Artifact.path target .marker, outcome)] := by
  have hpaths := writeAll_paths h.writes
  simp only [Artifact.all, List.map_cons, List.map_nil, List.map_eq_cons_iff, List.map_eq_nil_iff]
    at hpaths
  obtain ⟨⟨_, first⟩, _, rfl, rfl, ⟨_, second⟩, _, rfl, rfl, ⟨_, third⟩, _, rfl, rfl, ⟨_, fourth⟩,
    _, rfl, rfl, ⟨_, outcome⟩, _, rfl, rfl, rfl⟩ := hpaths
  have hfirst : first = .written := h.eq_written .header rfl (by simp)
  have hsecond : second = .written := h.eq_written .reference rfl (by simp)
  have hthird : third = .written := h.eq_written .usage rfl (by simp)
  have hfourth : fourth = .written := h.eq_written .scripting rfl (by simp)
  exact ⟨outcome, by rw [hfirst, hsecond, hthird, hfourth]⟩

end Runs

section Previews

variable {target : Target} {parameters : List Parameter} {templates : Templates}

/-- If all files can be rendered, they can be previewed. -/
theorem mapM_preview_eq_ok {artifacts : List Artifact}
    (h : ∀ artifact ∈ artifacts, ∃ text, artifact.render target parameters templates = .ok text) :
    ∃ previews, artifacts.mapM (Artifact.preview target parameters templates) = .ok previews ∧
      previews.map Artifact.Preview.path = artifacts.map (Artifact.path target) ∧
      ∀ preview ∈ previews, ∃ artifact, preview.path = Artifact.path target artifact ∧
        artifact.render target parameters templates = .ok preview.content := by
  induction artifacts with
  | nil =>
      exact ⟨[], rfl, rfl, by simp⟩
  | cons artifact artifacts ih =>
      obtain ⟨text, htext⟩ := h artifact (by simp)
      obtain ⟨previews, hpreviews, hpaths, hcontents⟩ :=
        ih fun other hother => h other (by simp [hother])
      refine ⟨⟨artifact.path target, text⟩ :: previews, ?_, by simp [hpaths], ?_⟩
      · rw [List.mapM_cons, Artifact.preview, htext, hpreviews]
        rfl
      · intro preview hpreview
        rcases List.mem_cons.mp hpreview with rfl | hpreview
        · exact ⟨artifact, rfl, htext⟩
        · exact hcontents preview hpreview

end Previews

/-- What a run did to a tree, told by the places to which the paths of its files lead. -/
structure Account (before after : Tree) (root : Path) (target : Target)
    (previews : List Artifact.Preview) (generated : Generated) : Prop where
  root_eq : generated.root = root
  /-- Every previewed file was written or skipped, and they are reported in the order of the
  preview. -/
  paths : generated.written ++ generated.skipped = previews.map Artifact.Preview.path
  contents : ∀ preview ∈ previews, preview.path ∈ generated.written →
    after.readText (root.join preview.path) = .ok preview.content
  /-- Only the marker is ever skipped. -/
  skipped : generated.skipped = [target.markerPath] ∨ generated.skipped = []
  skipped_iff : generated.skipped = [target.markerPath] ↔
    before.node? (before.placeOf (root.join target.markerPath)) ≠ none ∨
      Passes before.working root (before.placeOf (root.join target.markerPath))
  marker : before.node? (before.placeOf (root.join target.markerPath)) ≠ none →
    after.node? (before.placeOf (root.join target.markerPath)) =
      before.node? (before.placeOf (root.join target.markerPath))
  removed : generated.removed =
    target.obsoletePaths.filter fun path => holdsFile before (before.placeOf (root.join path))
  gone : ∀ path ∈ target.obsoletePaths, after.node? (before.placeOf (root.join path)) = none
  others : ∀ place, (∀ path ∈ generated.written, place ≠ before.placeOf (root.join path)) →
    (∀ path ∈ target.obsoletePaths, place ≠ before.placeOf (root.join path)) →
    after.node? place = before.node? place ∨
      before.node? place = none ∧ after.node? place = some .directory ∧
        ∃ preview ∈ previews, Leads before.working root preview.path place
  ways : ∀ preview ∈ previews, ∀ place, Leads before.working root preview.path place →
    after.node? place = some .directory

section Main

variable {before middle after : Tree} {root : Path} {target : Target} {parameters : List Parameter}
  {templates : Templates} {outcomes : List (Path × Outcome)} {removed : List Path}
  {generated : Generated}

theorem IsRun.exists_render
    (h : IsRun before middle after root target parameters templates outcomes removed)
    (artifact : Artifact) : ∃ text, artifact.render target parameters templates = .ok text := by
  by_cases halways : artifact.overwrite = .always
  · cases h.settled (h.written artifact halways) with
    | written text hcontent _ _ _ =>
        exact ⟨text, hcontent⟩
  · cases artifact with
    | marker => exact ⟨[], rfl⟩
    | header | reference | usage | scripting => exact absurd rfl halways

/-- Places that are neither written nor obsolete stay, but for the new directories. -/
theorem IsRun.others
    (h : IsRun before middle after root target parameters templates outcomes removed)
    {place : Place}
    (hwritten : ∀ path ∈ pathsWith .written outcomes, place ≠ before.placeOf (root.join path))
    (hobsolete : ∀ path ∈ target.obsoletePaths, place ≠ before.placeOf (root.join path)) :
    after.node? place = before.node? place ∨
      before.node? place = none ∧ after.node? place = some .directory ∧
        ∃ artifact, Leads before.working root (Artifact.path target artifact) place := by
  have hstays : after.node? place = middle.node? place := by
    refine h.loses.stays ?_
    rintro ⟨file, hfile, _, hplace⟩
    exact hobsolete (Target.filePath file)
      (Target.mem_obsoletePaths_iff.mpr ⟨file, hfile, rfl⟩) hplace
  rw [hstays]
  rcases h.extends.each place with hsame | ⟨⟨artifact, rfl⟩, content, hfile⟩ |
    ⟨hway, hnone, hdirectory⟩
  · exact Or.inl hsame
  · obtain ⟨outcome, hmem⟩ := h.exists_outcome artifact
    cases outcome with
    | written =>
        exact absurd rfl (hwritten _ (mem_pathsWith_iff.mpr hmem))
    | skipped =>
        cases h.settled hmem with
        | skipped _ hthere hnew =>
            by_cases hnone : before.node? (artifactPlace before root target artifact) = none
            · rw [artifactPlace, hnew hnone] at hfile
              cases hfile
            · exact Or.inl (hthere hnone)
  · exact Or.inr ⟨hnone, hdirectory, hway⟩

theorem IsRun.marker_stays
    (h : IsRun before middle after root target parameters templates outcomes removed)
    (hpackage : IsEntryName target.package)
    (hthere : before.node? (artifactPlace before root target .marker) ≠ none) :
    after.node? (artifactPlace before root target .marker) =
      before.node? (artifactPlace before root target .marker) := by
  obtain ⟨outcome, hmem⟩ := h.exists_outcome .marker
  have hskipped : outcome = .skipped := (h.marker_skipped_iff hpackage hmem).mpr (Or.inl hthere)
  rw [hskipped] at hmem
  have hapart : ¬ ∃ file ∈ target.obsoleteFiles, Target.filePath file ∈ removed ∧
      artifactPlace before root target .marker = placeIn before root file :=
    fun ⟨_, hfile, _, hsame⟩ => artifactPlace_ne_placeIn hpackage h.slashless hfile .marker hsame
  rw [h.loses.stays hapart]
  cases h.settled hmem with
  | skipped _ hstays _ =>
      exact hstays hthere

/-- Every run that succeeds writes what the preview shows, removes what is obsolete, and
touches nothing else. -/
theorem generateInto_account (hplain : before.IsPlain) (hpackage : IsEntryName target.package)
    (hname : IsEntryName target.name)
    (hrun : before.perform (generateInto root target parameters templates) =
      (.ok generated, after)) :
    ∃ previews, Artifact.previews target parameters templates = .ok previews ∧
      Account before after root target previews generated := by
  obtain ⟨outcomes, middle, hwrite, hremove, hroot, hwritten, hskipped⟩ := generateInto_eq_ok hrun
  have h : IsRun before middle after root target parameters templates outcomes generated.removed :=
    ⟨hplain, hname.slashless, hwrite, hremove⟩
  obtain ⟨previews, hpreviews, hpaths, hcontents⟩ :=
    mapM_preview_eq_ok fun artifact (_ : artifact ∈ Artifact.all) => h.exists_render artifact
  obtain ⟨outcome, houtcomes⟩ := h.outcomes_eq
  have hmarker : (Artifact.path target .marker, outcome) ∈ outcomes := by
    rw [houtcomes]
    simp
  have hlist : generated.skipped = [target.markerPath] ∧ outcome = .skipped ∨
      generated.skipped = [] ∧ outcome = .written := by
    rw [hskipped, houtcomes]
    cases outcome with
    | written => exact Or.inr ⟨rfl, rfl⟩
    | skipped => exact Or.inl ⟨rfl, rfl⟩
  refine ⟨previews, hpreviews, ?_⟩
  constructor
  case root_eq =>
    exact hroot
  case paths =>
    rw [hwritten, hskipped, hpaths, houtcomes]
    cases outcome <;> rfl
  case contents =>
    intro preview hpreview hpath
    obtain ⟨artifact, hartifact, hrender⟩ := hcontents preview hpreview
    rw [hartifact, hwritten, mem_pathsWith_iff] at hpath
    obtain ⟨text, htext, hread⟩ := h.readText_eq_ok hpath fun file hfile _ =>
      artifactPlace_ne_placeIn hpackage h.slashless hfile artifact
    rw [hrender] at htext
    cases htext
    rw [hartifact]
    exact hread
  case skipped =>
    exact hlist.imp And.left And.left
  case skipped_iff =>
    refine Iff.trans ?_ (h.marker_skipped_iff hpackage hmarker)
    rcases hlist with ⟨hlist, houtcome⟩ | ⟨hlist, houtcome⟩
    · simp [hlist, houtcome]
    · simp [hlist, houtcome]
  case marker =>
    exact h.marker_stays hpackage
  case removed =>
    exact h.removed_eq hpackage
  case gone =>
    intro path hpath
    obtain ⟨file, hfile, rfl⟩ := Target.mem_obsoletePaths_iff.mp hpath
    exact h.obsolete_eq_none hpackage hfile
  case others =>
    intro place hapart hobsolete
    rw [hwritten] at hapart
    refine (h.others hapart hobsolete).imp_right fun ⟨hnone, hdirectory, artifact, hway⟩ =>
      ⟨hnone, hdirectory, ?_⟩
    have hmem : artifact.path target ∈ previews.map Artifact.Preview.path := by
      rw [hpaths]
      exact List.mem_map_of_mem artifact.mem_all
    obtain ⟨preview, hpreview, hpath⟩ := List.mem_map.mp hmem
    exact ⟨preview, hpreview, hpath ▸ hway⟩
  case ways =>
    intro preview hpreview place hway
    obtain ⟨artifact, hartifact, _⟩ := hcontents preview hpreview
    rw [hartifact] at hway
    exact h.leads hway

end Main

/-- A tree with an obsolete file, with a file of somebody else beside it, and with the marker of a
package. -/
def furnished : Tree :=
  (((((((⟨[], []⟩ : Tree).put ["msg".toList] .directory).put
    ["msg".toList, "NConfig.msg".toList] (.file (.text "int32 rate\n".toList))).put
    ["msg".toList, "Other.msg".toList] (.file (.text "bool on\n".toList))).put
    ["src".toList] .directory).put
    ["src".toList, "p".toList] .directory).put
    ["src".toList, "p".toList, "cfg".toList] .directory).put
    ["src".toList, "p".toList, "cfg".toList, "__init__.py".toList]
      (.file (.text "import sys\n".toList))

theorem isPlain_furnished : furnished.IsPlain := by
  have hmsg : IsPlain ((⟨[], []⟩ : Tree).put ["msg".toList] .directory) :=
    @IsPlain.put _ [] "msg".toList _ (isPlain_of_empty []) rfl (by simp) fun _ => rfl
  have hfile := @IsPlain.put _ ["msg".toList] "NConfig.msg".toList
    (.file (.text "int32 rate\n".toList)) hmsg (by decide) (by simp) (by decide)
  have hother := @IsPlain.put _ ["msg".toList] "Other.msg".toList
    (.file (.text "bool on\n".toList)) hfile (by decide) (by simp) (by decide)
  have hsrc := @IsPlain.put _ [] "src".toList .directory hother rfl (by simp) fun _ => rfl
  have hp := @IsPlain.put _ ["src".toList] "p".toList .directory hsrc (by decide) (by simp)
    fun _ => rfl
  have hcfg := @IsPlain.put _ ["src".toList, "p".toList] "cfg".toList .directory hp (by decide)
    (by simp) fun _ => rfl
  exact @IsPlain.put _ ["src".toList, "p".toList, "cfg".toList] "__init__.py".toList
    (.file (.text "import sys\n".toList)) hcfg (by decide) (by simp) (by decide)

/-- A parameter to run with. -/
def frame : Parameter where
  name := "frame"
  payload := .str "base_link"
  level := 1
  description := "frame of reference"
  editMethod := ""
  location := ⟨"params.toml", 6⟩

set_option maxRecDepth 4000 in
/-- A run with the templates of the library removes the obsolete file, keeps the marker and the file
of somebody else, and writes the rest. -/
theorem generateInto_account_furnished :
    ∃ generated after previews,
      furnished.IsPlain ∧ IsEntryName "p" ∧ IsEntryName "N" ∧
      furnished.perform (generateInto ⟨['.']⟩ ⟨"p", "n", "N"⟩ [frame] Templates.builtin) =
        (.ok generated, after) ∧
      generated.skipped = [Target.markerPath ⟨"p", "n", "N"⟩] ∧
      generated.removed = [⟨"msg/NConfig.msg".toList⟩] ∧
      after.node? ["msg".toList, "NConfig.msg".toList] = none ∧
      after.node? ["msg".toList, "Other.msg".toList] =
        some (.file (.text "bool on\n".toList)) ∧
      Artifact.previews ⟨"p", "n", "N"⟩ [frame] Templates.builtin = .ok previews ∧
      Account furnished after ⟨['.']⟩ ⟨"p", "n", "N"⟩ previews generated := by
  have hpackage : IsEntryName "p" := ⟨⟨by decide, by decide, by decide⟩, by decide⟩
  have hname : IsEntryName "N" := ⟨⟨by decide, by decide, by decide⟩, by decide⟩
  obtain ⟨header, hheader⟩ := Header.exists_render Header.isCovered_of_mem_builtin
    ⟨"p", "n", "N"⟩ [frame]
  obtain ⟨script, hscript⟩ := Scripting.exists_render Scripting.isCovered_of_mem_builtin
    ⟨"p", "n", "N"⟩ [frame]
  have hresult : (match furnished.perform
        (generateInto ⟨['.']⟩ ⟨"p", "n", "N"⟩ [frame] Templates.builtin) with
      | (outcome, after) =>
          (outcome.toOption.map fun generated => (generated.skipped, generated.removed),
            after.node? ["msg".toList, "NConfig.msg".toList],
            after.node? ["msg".toList, "Other.msg".toList])) =
      (some ([Target.markerPath ⟨"p", "n", "N"⟩], [⟨"msg/NConfig.msg".toList⟩]), none,
        some (.file (.text "bool on\n".toList))) := by
    simp only [generateInto, run, writeAll, Artifact.all, Artifact.render, hheader, hscript]
    -- It does not matter what the files say.
    clear hheader hscript
    generalize Usage.render _ _ = usage
    generalize Reference.render _ = reference
    cbv
  rcases hrun : furnished.perform
      (generateInto ⟨['.']⟩ ⟨"p", "n", "N"⟩ [frame] Templates.builtin) with
    ⟨_ | generated, after⟩
  · rw [hrun] at hresult
    cases hresult
  · rw [hrun] at hresult
    simp only [Except.toOption, Option.map_some, Prod.mk.injEq, Option.some.injEq] at hresult
    obtain ⟨⟨hskipped, hremoved⟩, hgone, hother⟩ := hresult
    obtain ⟨previews, hpreviews, haccount⟩ :=
      generateInto_account isPlain_furnished hpackage hname hrun
    exact ⟨generated, after, previews, isPlain_furnished, hpackage, hname, rfl, hskipped, hremoved,
      hgone, hother, hpreviews, haccount⟩

set_option maxRecDepth 8000 in
/-- A root whose own path leads through the place of the marker makes a directory there, and then
the marker is skipped although nothing lay at its place before. -/
theorem marker_skipped_of_root :
    ∃ generated after,
      IsPlain ⟨[], []⟩ ∧
      perform ⟨[], []⟩ (generateInto ⟨"src/p/cfg/__init__.py/../../../..".toList⟩ ⟨"p", "n", "N"⟩ []
        ⟨⟨"h", []⟩, ⟨"m", []⟩⟩) = (.ok generated, after) ∧
      ¬ (generated.skipped = [Target.markerPath ⟨"p", "n", "N"⟩] ↔
        node? ⟨[], []⟩ (placeOf ⟨[], []⟩ (Path.join ⟨"src/p/cfg/__init__.py/../../../..".toList⟩
          (Target.markerPath ⟨"p", "n", "N"⟩))) ≠ none) := by
  have hskipped :
      (perform ⟨[], []⟩
        (generateInto ⟨"src/p/cfg/__init__.py/../../../..".toList⟩ ⟨"p", "n", "N"⟩ []
          ⟨⟨"h", []⟩, ⟨"m", []⟩⟩)).1.toOption.map Generated.skipped =
        some [Target.markerPath ⟨"p", "n", "N"⟩] := by
    simp only [generateInto, run, writeAll, Artifact.all, Artifact.render, Header.render,
      Scripting.render, Template.fill_nil]
    generalize Usage.render _ _ = usage
    generalize Reference.render _ = reference
    cbv
  have hnone :
      node? ⟨[], []⟩ (placeOf ⟨[], []⟩ (Path.join ⟨"src/p/cfg/__init__.py/../../../..".toList⟩
        (Target.markerPath ⟨"p", "n", "N"⟩))) = none := by cbv
  rcases hrun : perform ⟨[], []⟩
      (generateInto ⟨"src/p/cfg/__init__.py/../../../..".toList⟩ ⟨"p", "n", "N"⟩ []
        ⟨⟨"h", []⟩, ⟨"m", []⟩⟩) with ⟨_ | generated, after⟩
  · rw [hrun] at hskipped
    cases hskipped
  · rw [hrun] at hskipped
    refine ⟨generated, after, isPlain_of_empty [], rfl, fun hiff => hiff.mp ?_ hnone⟩
    exact Option.some.inj hskipped

end Generation
end Tunables
