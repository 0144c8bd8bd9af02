import Tunables.Proofs.Generation.Effect
import Tunables.Proofs.Manifest

/-!
# The order of two runs

Two runs below one root, for configurations with different names, do not get into each other's way.
They share no file but the marker, and no file of the one is on a way of the other, so that a place
with a role in both has the same role in both.

* `marker_of_place_eq`: the marker is the only file that two targets share.
* `HasRole.eq_or`: the roles of a place.
* `IsRun.isFree_iff`: after the one run nothing new is in the way of the other.
* `exists_inTurn_iff`: when both runs succeed, one after the other; `generateInto_comm`: their
  order does not matter.
-/

namespace Tunables
namespace Generation

open Tunables.Tree

/-- Two targets with ordinary names, and with different ones for their configurations. -/
structure ArePair (first second : Target) : Prop where
  package : IsEntryName first.package
  package' : IsEntryName second.package
  slashless : '/' ∉ first.name.toList
  slashless' : '/' ∉ second.name.toList
  name_ne : first.name ≠ second.name

theorem ArePair.symm {first second : Target} (h : ArePair first second) : ArePair second first :=
  ⟨h.package', h.package, h.slashless', h.slashless, h.name_ne.symm⟩

section Places

variable {working place : Place} {root : Path} {first second : Target}
  {parameters parameters' : List Parameter} {templates templates' : Templates}
  {file other : List String × String} {role role' : Role}

/-- The marker is the only file that two targets share. -/
theorem marker_of_place_eq (h : ArePair first second) (hfile : first.Names file)
    (hother : second.Names other) (hsame : placeFrom working (root.join (Target.filePath file)) =
      placeFrom working (root.join (Target.filePath other))) :
    file = Artifact.file first .marker := by
  have hplace : placeIn ⟨[], working⟩ root file = placeIn ⟨[], working⟩ root other := hsame
  rw [placeIn_eq_append hfile h.package h.slashless,
    placeIn_eq_append hother h.package' h.slashless', List.append_assoc, List.append_assoc,
    List.append_right_inj] at hplace
  obtain ⟨hdirectory, hname⟩ := List.append_inj' hplace rfl
  have hequal : file = other := by
    refine Prod.ext ?_ (String.toList_injective (List.cons.inj hname).1)
    exact List.map_injective_iff.mpr (fun _ _ => String.toList_injective) hdirectory
  exact (hfile.name_eq_or hother hequal).resolve_left h.name_ne

/-- The place of a file, but for the marker, is not on a way of the other run. -/
theorem not_leads_file (h : ArePair first second) (hfile : first.Names file)
    (hroot : ¬ Passes working root (placeFrom working (root.join (Target.filePath file))))
    (hother : second.Names other) :
    ¬ Leads working root (Target.filePath other)
      (placeFrom working (root.join (Target.filePath file))) := by
  intro hway
  rcases (@leads_file_iff ⟨[], working⟩ root second other _ hother h.package' h.slashless').mp
      hway with hpass | ⟨names, hnames, hplace⟩
  · exact hroot hpass
  · exact @placeIn_ne_below ⟨[], working⟩ root first second file other hfile hother h.package
      h.slashless names hnames hplace

/-- A place that has a role in both runs has the same one in both. -/
theorem HasRole.eq_or (h : ArePair first second)
    (hfeasible : IsFeasible working root first parameters templates)
    (hfeasible' : IsFeasible working root second parameters' templates')
    (hrole : HasRole working root first parameters templates place role)
    (hrole' : HasRole working root second parameters' templates' place role') :
    role = role' ∨ role = .none ∨ role' = .none := by
  rcases hrole.cases_file with ⟨file, hfile, hmarker, hplace⟩ | ⟨rfl, file, hfile, hway⟩ |
    ⟨rfl, hroot, hplace⟩ | rfl
  · rcases hrole'.cases_file with ⟨other, hother, _, hplace'⟩ | ⟨_, other, hother, hway⟩ |
      ⟨_, _, hplace'⟩ | rfl
    · exact absurd (marker_of_place_eq h hfile hother (hplace ▸ hplace')) hmarker
    · exact absurd (hplace ▸ hway)
        (not_leads_file h hfile (hfeasible.unpassed file hfile hmarker) hother)
    · exact absurd (marker_of_place_eq h hfile (.generated .marker) (hplace ▸ hplace')) hmarker
    · exact Or.inr (Or.inr rfl)
  · rcases hrole'.cases_file with ⟨other, hother, hmarker, hplace⟩ | ⟨rfl, _⟩ |
      ⟨_, hroot, hplace⟩ | rfl
    · exact absurd (hplace ▸ hway)
        (not_leads_file h.symm hother (hfeasible'.unpassed other hother hmarker) hfile)
    · exact Or.inl rfl
    · exact absurd (hplace ▸ hway)
        (not_leads_file h.symm (.generated .marker) (hplace ▸ hroot) hfile)
    · exact Or.inr (Or.inr rfl)
  · rcases hrole'.cases_file with ⟨other, hother, hmarker, hplace'⟩ | ⟨_, other, hother, hway⟩ |
      ⟨rfl, _⟩ | rfl
    · exact absurd (marker_of_place_eq h.symm hother (.generated .marker) (hplace' ▸ hplace))
        hmarker
    · exact absurd (hplace ▸ hway) (not_leads_file h (.generated .marker) (hplace ▸ hroot) hother)
    · exact Or.inl rfl
    · exact Or.inr (Or.inr rfl)
  · exact Or.inr (Or.inl rfl)

end Places

section Runs

variable {before middle after : Tree} {root : Path} {first second : Target}
  {parameters parameters' : List Parameter} {templates templates' : Templates}
  {outcomes : List (Path × Outcome)} {removed : List Path}
  {file : List String × String} {place : Place}

/-- On the ways of the other run, a run has at most made directories. -/
theorem IsRun.file_iff_of_leads (hpair : ArePair first second)
    (h : IsRun before middle after root first parameters templates outcomes removed)
    (hfile : second.Names file) (hway : Leads before.working root (Target.filePath file) place)
    (content : Content) :
    after.node? place = some (.file content) ↔ before.node? place = some (.file content) := by
  have hfeasible := h.isFeasible hpair.package
  obtain ⟨role, hrole⟩ := exists_hasRole hfeasible hpair.package hpair.slashless place
  rw [h.apply_role hpair.package hrole]
  rcases hrole.cases_file with ⟨other, hother, hmarker, rfl⟩ | ⟨rfl, other, hother, hway'⟩ |
    ⟨_, hroot, rfl⟩ | rfl
  · exact absurd hway (not_leads_file hpair hother (hfeasible.unpassed other hother hmarker) hfile)
  · exact iff_of_false (by simp [Role.apply])
      ((h.isFree hpair.package).ways other hother place hway' content)
  · exact absurd hway (not_leads_file hpair (.generated .marker) hroot hfile)
  · rfl

/-- At the places of the other run's files, a run does nothing, but at that of the marker. -/
theorem IsRun.node?_other (hpair : ArePair first second)
    (h : IsRun before middle after root first parameters templates outcomes removed)
    (hfeasible : IsFeasible before.working root second parameters' templates')
    (hfile : second.Names file) (hmarker : file ≠ Artifact.file second .marker) :
    after.node? (placeIn before root file) = before.node? (placeIn before root file) := by
  obtain ⟨role, hrole⟩ :=
    exists_hasRole (h.isFeasible hpair.package) hpair.package hpair.slashless
      (placeIn before root file)
  rw [h.apply_role hpair.package hrole]
  rcases hrole.cases_file with ⟨other, hother, _, hplace⟩ | ⟨_, other, hother, hway⟩ |
    ⟨_, _, hplace⟩ | rfl
  · exact absurd (marker_of_place_eq hpair.symm hfile hother hplace) hmarker
  · exact absurd hway
      (not_leads_file hpair.symm hfile (hfeasible.unpassed file hfile hmarker) hother)
  · exact absurd (marker_of_place_eq hpair.symm hfile (.generated .marker) hplace) hmarker
  · rfl

/-- After one run nothing new is in the way of the other, and nothing was in its way that is not any
more. -/
theorem IsRun.isFree_iff (hpair : ArePair first second)
    (h : IsRun before middle after root first parameters templates outcomes removed)
    (hfeasible : IsFeasible before.working root second parameters' templates') :
    IsFree after root second ↔ IsFree before root second := by
  have hstart := (h.isFree hpair.package).start
  have hplaceIn : ∀ file, placeIn after root file = placeIn before root file :=
    fun file => h.keeps.placeOf_eq _
  constructor
  · intro hfree
    refine ⟨hstart, fun file hfile place hway content hnode => ?_,
      fun file hfile hmarker hnode => ?_⟩
    · refine hfree.ways file hfile place ?_ content
        ((h.file_iff_of_leads hpair hfile hway content).mpr hnode)
      rw [h.keeps.working]
      exact hway
    · refine hfree.places file hfile hmarker ?_
      rw [hplaceIn, h.node?_other hpair hfeasible hfile hmarker, hnode]
  · intro hfree
    refine ⟨?_, fun file hfile place hway content hnode => ?_, fun file hfile hmarker hnode => ?_⟩
    · rw [h.keeps.working]
      exact h.keeps.directory _ hstart
    · rw [h.keeps.working] at hway
      exact hfree.ways file hfile place hway content
        ((h.file_iff_of_leads hpair hfile hway content).mp hnode)
    · rw [hplaceIn, h.node?_other hpair hfeasible hfile hmarker] at hnode
      exact hfree.places file hfile hmarker hnode

/-- What two runs leave behind that are made one after the other, if both of them succeed. -/
def InTurn (before after : Tree) (root : Path) (first : Target) (parameters : List Parameter)
    (templates : Templates) (second : Target) (parameters' : List Parameter)
    (templates' : Templates) : Prop :=
  ∃ generated middle generated',
    before.perform (generateInto root first parameters templates) = (.ok generated, middle) ∧
    middle.perform (generateInto root second parameters' templates') = (.ok generated', after)

/-- Two runs succeed one after the other if each of them succeeds on its own. -/
theorem exists_inTurn_iff (hplain : before.IsPlain) (hpair : ArePair first second) :
    (∃ after, InTurn before after root first parameters templates second parameters' templates') ↔
      (IsFeasible before.working root first parameters templates ∧ IsFree before root first) ∧
        IsFeasible before.working root second parameters' templates' ∧
        IsFree before root second := by
  constructor
  · rintro ⟨after, generated, middle, generated', hfirst, hsecond⟩
    obtain ⟨_, _, h, _⟩ := exists_isRun hplain hpair.slashless hfirst
    obtain ⟨hfeasible, hfree⟩ :=
      (exists_run_iff h.loses.isPlain hpair.package' hpair.slashless').mp ⟨_, _, hsecond⟩
    rw [h.keeps.working] at hfeasible
    exact ⟨⟨h.isFeasible hpair.package, h.isFree hpair.package⟩, hfeasible,
      (h.isFree_iff hpair hfeasible).mp hfree⟩
  · rintro ⟨hfirst, hfeasible, hfree⟩
    obtain ⟨generated, middle, hrun⟩ :=
      (exists_run_iff hplain hpair.package hpair.slashless).mpr hfirst
    obtain ⟨_, _, h, _⟩ := exists_isRun hplain hpair.slashless hrun
    obtain ⟨generated', after, hrun'⟩ :=
      (exists_run_iff h.loses.isPlain hpair.package' hpair.slashless').mpr
        ⟨h.keeps.working.symm ▸ hfeasible, (h.isFree_iff hpair hfeasible).mpr hfree⟩
    exact ⟨after, generated, middle, generated', hrun, hrun'⟩

/-- What lies at a place after two runs: what became of it in the first one, and then in the second
one. -/
theorem InTurn.exists_roles (hplain : before.IsPlain) (hpair : ArePair first second)
    (h : InTurn before after root first parameters templates second parameters' templates') :
    after.working = before.working ∧
      ∀ place role role', HasRole before.working root first parameters templates place role →
        HasRole before.working root second parameters' templates' place role' →
        after.node? place = role'.apply (role.apply (before.node? place)) := by
  obtain ⟨generated, middle, generated', hfirst, hsecond⟩ := h
  obtain ⟨_, _, h, _⟩ := exists_isRun hplain hpair.slashless hfirst
  obtain ⟨_, _, h', _⟩ := exists_isRun h.loses.isPlain hpair.slashless' hsecond
  refine ⟨h'.keeps.working.trans h.keeps.working, fun place role role' hrole hrole' => ?_⟩
  rw [← h.keeps.working] at hrole'
  rw [h'.apply_role hpair.package' hrole', h.apply_role hpair.package hrole]

/-- **The order of two runs does not matter.**  In a plain tree, two runs below one root for
configurations with different names both succeed in the one order exactly if they do in the other,
and then both orders leave the same behind. -/
theorem generateInto_comm (hplain : before.IsPlain) (hname : IsIdentifier first.name.toList)
    (hname' : IsIdentifier second.name.toList) (hne : first.name ≠ second.name)
    (hpackage : IsEntryName first.package) (hpackage' : IsEntryName second.package) :
    ((∃ after, InTurn before after root first parameters templates second parameters' templates') ↔
        ∃ after, InTurn before after root second parameters' templates' first parameters
          templates) ∧
      ∀ after after',
        InTurn before after root first parameters templates second parameters' templates' →
        InTurn before after' root second parameters' templates' first parameters templates →
        Alike after after' := by
  have hpair : ArePair first second :=
    ⟨hpackage, hpackage', hname.not_mem (by decide), hname'.not_mem (by decide), hne⟩
  refine ⟨?_, fun after after' hturn hturn' => ?_⟩
  · rw [exists_inTurn_iff hplain hpair, exists_inTurn_iff hplain hpair.symm, and_comm]
  · obtain ⟨⟨hfeasible, _⟩, hfeasible', _⟩ := (exists_inTurn_iff hplain hpair).mp ⟨after, hturn⟩
    obtain ⟨hworking, hroles⟩ := hturn.exists_roles hplain hpair
    obtain ⟨hworking', hroles'⟩ := hturn'.exists_roles hplain hpair.symm
    refine ⟨hworking'.trans hworking.symm, fun place => ?_⟩
    obtain ⟨role, hrole⟩ := exists_hasRole hfeasible hpackage hpair.slashless place
    obtain ⟨role', hrole'⟩ := exists_hasRole hfeasible' hpackage' hpair.slashless' place
    rw [hroles place role role' hrole hrole', hroles' place role' role hrole' hrole]
    exact Role.apply_comm (hrole.eq_or hpair hfeasible hfeasible' hrole') _

end Runs

set_option maxRecDepth 8000 in
/-- A configuration whose name is that of another one with an affix of the obsolete files. -/
theorem generateInto_comm_affix :
    ∃ after after',
      furnished.IsPlain ∧ IsIdentifier "N".toList ∧ IsIdentifier "GetN".toList ∧ "N" ≠ "GetN" ∧
      IsEntryName "p" ∧
      InTurn furnished after ⟨['.']⟩ ⟨"p", "n", "N"⟩ [frame] Templates.builtin
        ⟨"p", "n", "GetN"⟩ [frame] Templates.builtin ∧
      InTurn furnished after' ⟨['.']⟩ ⟨"p", "n", "GetN"⟩ [frame] Templates.builtin
        ⟨"p", "n", "N"⟩ [frame] Templates.builtin ∧
      Alike after after' := by
  have hpackage : IsEntryName "p" := ⟨⟨by decide, by decide, by decide⟩, by decide⟩
  have hname : IsIdentifier "N".toList := (IdentifierFault.of?_eq_none_iff _).mp (by decide)
  have hname' : IsIdentifier "GetN".toList := (IdentifierFault.of?_eq_none_iff _).mp (by decide)
  have hne : "N" ≠ "GetN" := by decide
  obtain ⟨header, hheader⟩ := Header.exists_render Header.isCovered_of_mem_builtin
    ⟨"p", "n", "N"⟩ [frame]
  obtain ⟨script, hscript⟩ := Scripting.exists_render Scripting.isCovered_of_mem_builtin
    ⟨"p", "n", "N"⟩ [frame]
  obtain ⟨header', hheader'⟩ := Header.exists_render Header.isCovered_of_mem_builtin
    ⟨"p", "n", "GetN"⟩ [frame]
  obtain ⟨script', hscript'⟩ := Scripting.exists_render Scripting.isCovered_of_mem_builtin
    ⟨"p", "n", "GetN"⟩ [frame]
  obtain ⟨reports, after, hboth⟩ : ∃ reports after, furnished.perform
      (generateInto ⟨['.']⟩ ⟨"p", "n", "N"⟩ [frame] Templates.builtin >>= fun generated =>
        generateInto ⟨['.']⟩ ⟨"p", "n", "GetN"⟩ [frame] Templates.builtin >>= fun generated' =>
          pure (generated, generated')) = (.ok reports, after) := by
    apply exists_perform_eq_ok
    simp only [generateInto, run, writeAll, Artifact.all, Artifact.render, hheader, hscript,
      hheader', hscript']
    clear hheader hscript hheader' hscript'
    generalize Usage.render _ _ = usage
    generalize Usage.render _ _ = usage'
    generalize Reference.render _ = reference
    cbv
  obtain ⟨generated, middle, hfirst, hrest⟩ := perform_bind_eq_ok_iff.mp hboth
  obtain ⟨generated', last, hsecond, hpure⟩ := perform_bind_eq_ok_iff.mp hrest
  cases hpure
  have hturn : InTurn furnished after ⟨['.']⟩ ⟨"p", "n", "N"⟩ [frame] Templates.builtin
      ⟨"p", "n", "GetN"⟩ [frame] Templates.builtin :=
    ⟨generated, middle, generated', hfirst, hsecond⟩
  obtain ⟨hiff, halike⟩ := @generateInto_comm furnished ⟨['.']⟩ ⟨"p", "n", "N"⟩ ⟨"p", "n", "GetN"⟩
    [frame] [frame] Templates.builtin Templates.builtin isPlain_furnished hname hname' hne hpackage
    hpackage
  obtain ⟨after', hturn'⟩ := hiff.mp ⟨after, hturn⟩
  exact ⟨after, after', isPlain_furnished, hname, hname', hne, hpackage, hturn, hturn',
    halike after after' hturn hturn'⟩

end Generation
end Tunables
