import Mathlib
import Tunables.Proofs.Generation.Run
import Tunables.Proofs.Manifest

/-!
# Runs stay below their root

The files that a run writes or removes have relative paths that never go up, provided that the name
of the package is such a path.  Nothing but the name of the configuration is checked when a manifest
is read, so that this is for the package to see to.  Then no run touches anything outside of its
root, whether it succeeds or not.

* `Target.isInner_files_iff`: when the paths of all files stay inside.
* `Confined`: nothing has changed outside of a root, but that missing directories on the way to
  it may have been made.
* `confined_generateInto`, `removeObsolete_eq_of_not_isBelow`: runs and removals in a plain tree.
* `isInner_paths_iff`: all of this for a manifest that was read.
-/

namespace Tunables

open Tunables.Tree

namespace Target

variable {target : Target} {names : List String} {name : String} {file : List String × String}

theorem isInner_below_iff :
    (below names).IsInner ↔ ∀ name ∈ names, (Path.ofString name).IsInner := by
  obtain ⟨reversed, rfl⟩ : ∃ reversed, names = reversed.reverse := ⟨names.reverse, by simp⟩
  induction reversed with
  | nil =>
      exact iff_of_true Path.isInner_empty (by simp)
  | cons name reversed ih =>
      rw [List.reverse_cons, below_concat, Path.isInner_join_iff, ih]
      simp [or_imp, forall_and]

theorem isInner_of_isEntryName (h : IsEntryName name) : (Path.ofString name).IsInner := by
  refine ⟨h.isAbsolute, ?_⟩
  rw [h.segments, List.mem_singleton]
  exact fun hdots => h.ordinary.ne_dots hdots.symm

/-- The paths of all files stay inside if the name of the package does, and not otherwise. -/
theorem isInner_files_iff (hname : '/' ∉ target.name.toList) :
    (∀ file, target.Names file → (filePath file).IsInner) ↔
      (Path.ofString target.package).IsInner := by
  constructor
  · intro h
    have hheader := (Path.isInner_join_iff.mp (h _ (.generated .header))).1
    exact isInner_below_iff.mp hheader target.package (by simp [Artifact.file])
  · intro h file hfile
    refine Path.isInner_join_iff.mpr ⟨isInner_below_iff.mpr fun name hmem => ?_, ?_⟩
    · rcases hfile.mem_directory.2 name hmem with rfl | hfixed
      · exact h
      · exact isInner_of_isEntryName (isEntryName_of_mem_fixed hfixed)
    · exact isInner_of_isEntryName (hfile.isEntryName hname)

end Target

namespace Generation

/-- A place is that of an entry below a directory. -/
def IsBelow (directory place : Place) : Prop :=
  ∃ names, names ≠ [] ∧ place = directory ++ names

/-- Between two trees nothing has changed outside of a root, but that missing directories on the way
to it may have been made. -/
def Confined (before after : Tree) (root : Path) : Prop :=
  ∀ place, ¬ IsBelow (before.placeOf root) place →
    after.node? place = before.node? place ∨
      Passes before.working root place ∧ before.node? place = none ∧
        after.node? place = some .directory

section Places

variable {tree : Tree} {root : Path} {target : Target} {file : List String × String}
  {artifact : Artifact} {place : Place}

theorem isBelow_placeIn (hname : '/' ∉ target.name.toList)
    (hpackage : (Path.ofString target.package).IsInner) (hfile : target.Names file) :
    IsBelow (tree.placeOf root) (placeIn tree root file) := by
  have hinner :=
    (Path.isInner_join_iff.mp ((Target.isInner_files_iff hname).mpr hpackage file hfile)).1
  obtain ⟨names, hnames⟩ := placeFrom_join_of_isInner hinner tree.working root
  refine ⟨names ++ [file.2.toList], by simp, ?_⟩
  rw [placeIn_eq hfile hname, placeOf, ← hnames, List.append_assoc]
  rfl

/-- The way to a generated file is on the way to the root, or below the root. -/
theorem isBelow_of_leads (hname : '/' ∉ target.name.toList)
    (hpackage : (Path.ofString target.package).IsInner)
    (hway : Leads tree.working root (artifact.path target) place) :
    Passes tree.working root place ∨ IsBelow (tree.placeOf root) place := by
  obtain ⟨directory, hparent, hpass⟩ := hway
  have hinner := (Target.isInner_files_iff hname).mpr hpackage _ (.generated artifact)
  rw [← Artifact.path_eq] at hinner
  rcases passes_join_of_isInner (hinner.of_parent? hparent) hpass with hroot | ⟨names, rfl⟩
  · exact Or.inl hroot
  · by_cases hnames : names = []
    · rw [hnames, List.append_nil]
      exact Or.inl (passes_placeOf tree root)
    · exact Or.inr ⟨names, hnames, rfl⟩

end Places

section Runs

variable {tree : Tree} {target : Target} {parameters : List Parameter} {templates : Templates}

/-- A run leaves everything outside of its root alone, whatever comes of it. -/
theorem confined_generateInto (h : tree.IsPlain) (hname : '/' ∉ target.name.toList)
    (hpackage : (Path.ofString target.package).IsInner) (root : Path) :
    Confined tree (tree.perform (generateInto root target parameters templates)).2 root := by
  obtain ⟨middle, hextends, hloses⟩ := generateInto_changes h root target parameters templates
  intro place houtside
  have hstays : (tree.perform (generateInto root target parameters templates)).2.node? place =
      middle.node? place := by
    refine hloses.stays ?_
    rintro ⟨path, hpath, rfl⟩
    obtain ⟨file, hfile, rfl⟩ := Target.mem_obsoletePaths_iff.mp hpath
    exact houtside (isBelow_placeIn hname hpackage (.obsolete hfile))
  rw [hstays]
  rcases hextends.each place with hsame | ⟨⟨artifact, rfl⟩, _⟩ |
    ⟨⟨artifact, hway⟩, hnone, hdirectory⟩
  · exact Or.inl hsame
  · rw [artifactPlace_eq] at houtside
    exact absurd (isBelow_placeIn hname hpackage (.generated artifact)) houtside
  · exact Or.inr ⟨(isBelow_of_leads hname hpackage hway).resolve_right houtside, hnone, hdirectory⟩

/-- The removal of obsolete files leaves everything outside of its root as it was,
whatever comes of it. -/
theorem removeObsolete_eq_of_not_isBelow (h : tree.IsPlain) (hname : '/' ∉ target.name.toList)
    (hpackage : (Path.ofString target.package).IsInner) {root : Path} {place : Place}
    (houtside : ¬ IsBelow (tree.placeOf root) place) :
    (tree.perform (removeObsolete root target)).2.node? place = tree.node? place := by
  refine (removeAll_loses h root target.obsoletePaths).stays ?_
  rintro ⟨path, hpath, rfl⟩
  obtain ⟨file, hfile, rfl⟩ := Target.mem_obsoletePaths_iff.mp hpath
  exact houtside (isBelow_placeIn hname hpackage (.obsolete hfile))

/-- For a manifest that was read, the paths of all files are relative and never go up exactly if the
name of the package is such a path.  If it is, then they lead below every root from which they are
seen, and in a plain tree neither a run nor a removal of obsolete files touches anything outside of
its root, whatever comes of them; only on the way to the root missing directories are made. -/
theorem isInner_paths_iff {text : List Char} {file : String} {manifest : Manifest}
    (hread : Manifest.read text file = .ok manifest) :
    (((∀ artifact, (Artifact.path manifest.target artifact).IsInner) ∧
        ∀ path ∈ manifest.target.obsoletePaths, path.IsInner) ↔
      (Path.ofString manifest.target.package).IsInner) ∧
    ((Path.ofString manifest.target.package).IsInner → ∀ (tree : Tree) (root : Path),
      (∀ artifact, IsBelow (tree.placeOf root)
        (tree.placeOf (root.join (Artifact.path manifest.target artifact)))) ∧
      (∀ path ∈ manifest.target.obsoletePaths,
        IsBelow (tree.placeOf root) (tree.placeOf (root.join path))) ∧
      (tree.IsPlain →
        (∀ parameters templates,
          Confined tree (tree.perform (generateInto root manifest.target parameters templates)).2
            root) ∧
        ∀ place, ¬ IsBelow (tree.placeOf root) place →
          (tree.perform (removeObsolete root manifest.target)).2.node? place =
            tree.node? place)) := by
  have hname : '/' ∉ manifest.target.name.toList :=
    (Manifest.read_isIdentifier hread).not_mem (by decide)
  refine ⟨⟨?_, fun hpackage => ⟨fun artifact => ?_, fun path hpath => ?_⟩⟩,
    fun hpackage tree root => ⟨fun artifact => ?_, fun path hpath => ?_, fun hplain => ⟨?_, ?_⟩⟩⟩
  · rintro ⟨hartifacts, hobsolete⟩
    refine (Target.isInner_files_iff hname).mp fun file hfile => ?_
    cases hfile with
    | generated artifact => exact Artifact.path_eq manifest.target artifact ▸ hartifacts artifact
    | obsolete hfile => exact hobsolete _ (Target.mem_obsoletePaths_iff.mpr ⟨file, hfile, rfl⟩)
  · rw [Artifact.path_eq]
    exact (Target.isInner_files_iff hname).mpr hpackage _ (.generated artifact)
  · obtain ⟨file, hfile, rfl⟩ := Target.mem_obsoletePaths_iff.mp hpath
    exact (Target.isInner_files_iff hname).mpr hpackage _ (.obsolete hfile)
  · rw [Artifact.path_eq]
    exact isBelow_placeIn hname hpackage (.generated artifact)
  · obtain ⟨file, hfile, rfl⟩ := Target.mem_obsoletePaths_iff.mp hpath
    exact isBelow_placeIn hname hpackage (.obsolete hfile)
  · exact fun parameters templates => confined_generateInto hplain hname hpackage root
  · exact fun place => removeObsolete_eq_of_not_isBelow hplain hname hpackage

end Runs

set_option maxRecDepth 4000 in
/-- A package with a plain name keeps a run inside of its root, and one with a name that
goes up need not. -/
theorem isInner_paths_iff_climbing :
    (Manifest.read "generator=['p','n','N']".toList "params.toml" =
      .ok ⟨⟨"p", "n", "N"⟩, none, [], "params.toml"⟩ ∧
      (Path.ofString "p").IsInner ∧
      Confined ⟨[], []⟩ (perform ⟨[], []⟩
        (generateInto ⟨['r']⟩ ⟨"p", "n", "N"⟩ [] ⟨⟨"h", []⟩, ⟨"m", []⟩⟩)).2 ⟨['r']⟩) ∧
    Manifest.read "generator=['../x','n','N']".toList "params.toml" =
      .ok ⟨⟨"../x", "n", "N"⟩, none, [], "params.toml"⟩ ∧
      ¬ ((∀ artifact, (Artifact.path ⟨"../x", "n", "N"⟩ artifact).IsInner) ∧
        ∀ path ∈ Target.obsoletePaths ⟨"../x", "n", "N"⟩, path.IsInner) := by
  have hread : Manifest.read "generator=['p','n','N']".toList "params.toml" =
      .ok ⟨⟨"p", "n", "N"⟩, none, [], "params.toml"⟩ := by cbv
  have hread' : Manifest.read "generator=['../x','n','N']".toList "params.toml" =
      .ok ⟨⟨"../x", "n", "N"⟩, none, [], "params.toml"⟩ := by cbv
  have hpackage : (Path.ofString "p").IsInner := ⟨by decide, by decide⟩
  refine ⟨⟨hread, hpackage, ?_⟩, hread', ?_⟩
  · exact ((isInner_paths_iff hread).2 hpackage ⟨[], []⟩ ⟨['r']⟩).2.2 (isPlain_of_empty []) |>.1 []
      ⟨⟨"h", []⟩, ⟨"m", []⟩⟩
  · rw [(isInner_paths_iff hread').1]
    exact fun hinner => hinner.dotless (by decide)

end Generation
end Tunables
