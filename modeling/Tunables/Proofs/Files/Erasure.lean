import Tunables.Proofs.Files.Action
import Tunables.Proofs.Files.Links

/-!
# Removing files from plain trees

A removal meets what a lookup meets, and a lookup only sees what its path passes through.  So the
removal of a file changes nothing for any path that does not pass through its place.

* `removeFile_eq_find`: what a removal comes to.
* `find_congr`, `find_without`: when a path leads to the same in two trees.
* `refusal?`: why something is not removed although it is there, or may be there.
-/

namespace Tunables
namespace Tree

/-- The tree without what lies at some places. -/
def without (tree : Tree) (places : List Place) : Tree :=
  { tree with entries := tree.entries.filter fun entry => entry.1 ∉ places }

/-- Why a removal fails.  There is no reason if a file is removed, or if there is none to be
found. -/
def refusal? (tree : Tree) (path : Path) : Option Refusal :=
  match tree.removeFile path with
  | .ok _ | .error .notFound => none
  | .error cause => some cause

section Remainders

variable {tree : Tree} {place : Place} {places : List Place}

@[simp] theorem without_nil (tree : Tree) : tree.without [] = tree := by
  simp [without]

/-- Places are emptied one after the other. -/
theorem without_cons (tree : Tree) (place : Place) (places : List Place) :
    tree.without (place :: places) = (tree.erase place).without places := by
  simp only [without, erase, List.filter_filter, Tree.mk.injEq, and_true]
  refine List.filter_congr fun entry _ => ?_
  rw [Bool.eq_iff_iff]
  simp [and_comm]

theorem node?_without_of_not_mem (h : place ∉ places) :
    (tree.without places).node? place = tree.node? place := by
  induction places generalizing tree with
  | nil => rw [without_nil]
  | cons first places ih =>
      rw [List.mem_cons, not_or] at h
      rw [without_cons, ih h.2, node?_erase_of_ne tree h.1]

theorem node?_without_of_mem (hmem : place ∈ places) (hroot : place ≠ []) :
    (tree.without places).node? place = none := by
  rw [node?_eq_lookup _ hroot, List.lookup_eq_none_iff]
  intro entry hentry
  have hkept : entry.1 ∉ places := of_decide_eq_true (List.mem_filter.mp hentry).2
  exact bne_iff_ne.mpr fun hsame => hkept (hsame ▸ hmem)

end Remainders

section Lookups

variable {first second tree : Tree} {path : Path} {place : Place} {front names : List (List Char)}
  {name : List Char}

theorem walk_congr (hfirst : first.IsPlain) (hsecond : second.IsPlain) (links : Nat)
    (h : ∀ other, OnWay place names other → second.node? other = first.node? other) :
    second.walk links place names = first.walk links place names := by
  induction names generalizing place with
  | nil => rw [walk, walk]
  | cons name names ih =>
      have hrest : second.walk links (advance place name) names =
          first.walk links (advance place name) names := by
        refine ih fun other hother => h other ?_
        obtain ⟨part, hpart, hfollow⟩ := hother
        exact ⟨name :: part, List.cons_prefix_cons.mpr ⟨rfl, hpart⟩, hfollow⟩
      rw [walk_cons hfirst, walk_cons hsecond, h place ⟨[], List.nil_prefix, rfl⟩, hrest]

/-- A lookup only sees what the path passes through. -/
theorem find_congr (hfirst : first.IsPlain) (hsecond : second.IsPlain)
    (hworking : second.working = first.working)
    (h : ∀ other, Passes first.working path other → second.node? other = first.node? other) :
    second.find path = first.find path := by
  unfold find resolve
  rw [hworking, walk_congr hfirst hsecond maxLinks h]
  cases checkPath path with
  | error cause => rfl
  | ok _ =>
      cases hwalk : first.walk maxLinks (origin first.working path) path.segments with
      | error cause => rfl
      | ok reached =>
          obtain ⟨_, rfl⟩ := (walk_eq_ok_iff hfirst).mp hwalk
          have hlast := h _ (onWay_follow (origin first.working path) path.segments)
          simp only [bind, Except.bind, pure, Except.pure, hlast]

/-- A removal meets what a lookup meets, and only removes files. -/
theorem removeFile_eq_find (h : tree.IsPlain) (hsegments : path.segments = front ++ [name])
    (hname : IsOrdinary name) :
    tree.removeFile path =
      match tree.find path with
      | .error cause => .error cause
      | .ok .directory => .error .isDirectory
      | .ok _ => .ok (tree.erase (tree.placeOf path)) := by
  rw [removeFile, handle_concat hsegments hname, find, resolve, hsegments,
    placeOf_concat hsegments hname]
  cases checkPath path with
  | error cause => rfl
  | ok _ =>
      simp only [bind, Except.bind, walk_append]
      cases hwalk : tree.walk maxLinks (origin tree.working path) front with
      | error cause => rfl
      | ok reached =>
          obtain ⟨_, rfl⟩ := (walk_eq_ok_iff h).mp hwalk
          have hempty : ¬ maxName < Text.byteLength [] := by decide
          simp only [walk_cons h, walk, if_neg hempty, advance_nil, advance_of_isOrdinary hname]
          rcases tree.node? (follow (origin tree.working path) front) with
            _ | (_ | content | target)
          · rfl
          · by_cases hlong : maxName < Text.byteLength name
            · simp only [if_pos hlong, Functor.map, Except.map]
            · simp only [if_neg hlong, Functor.map, Except.map, pure, Except.pure, Handle.place]
              rcases tree.node? (follow (origin tree.working path) front ++ [name]) with
                _ | (_ | content | target) <;> rfl
          · rfl
          · rfl

/-- In a plain tree a lookup that finds neither a directory nor a file fails. -/
theorem exists_find_eq_error (h : tree.IsPlain) (hkind : tree.kind? path = none) :
    ∃ cause, tree.find path = .error cause := by
  rw [kind?] at hkind
  rcases hfind : tree.find path with cause | (_ | content | target)
  · exact ⟨cause, rfl⟩
  · simp [hfind] at hkind
  · simp [hfind] at hkind
  · exact absurd ((find_eq_ok_iff h).mp hfind).2 (h.linkless _ target)

/-- A path leads to the same if nothing is gone that it passes through. -/
theorem find_without {places : List Place} (h : tree.IsPlain)
    (hwithout : (tree.without places).IsPlain)
    (hpass : ∀ place ∈ places, ¬ Passes tree.working path place) :
    (tree.without places).find path = tree.find path :=
  find_congr h hwithout rfl fun _ hother => node?_without_of_not_mem fun hmem => hpass _ hmem hother

/-- Nothing is found at the end of a way that is there. -/
theorem find_of_reaches (h : tree.IsPlain) (hreaches : tree.Reaches path)
    (hnone : tree.node? (tree.placeOf path) = none) :
    tree.find path = .error .notFound := by
  have hwalk : tree.walk maxLinks (origin tree.working path) path.segments =
      .ok ⟨tree.placeOf path, maxLinks⟩ :=
    (walk_eq_ok_iff h).mpr ⟨hreaches.2, rfl⟩
  simp only [find, resolve, hreaches.1, hwalk, bind, Except.bind, pure, Except.pure, hnone]

theorem find_erase {content : Content} (h : tree.IsPlain)
    (hfile : tree.node? place = some (.file content)) (hpass : ¬ Passes tree.working path place) :
    (tree.erase place).find path = tree.find path :=
  find_congr h (h.erase hfile) rfl fun _ hother => node?_erase_of_ne tree fun hsame =>
    hpass (hsame ▸ hother)

end Lookups

section Refusals

variable {tree other : Tree} {path : Path} {front : List (List Char)} {name : List Char}

theorem refusal?_eq_some_iff {cause : Refusal} :
    tree.refusal? path = some cause ↔ tree.removeFile path = .error cause ∧ cause ≠ .notFound := by
  rw [refusal?]
  rcases tree.removeFile path with other | after
  · cases other <;> cases cause <;> simp
  · simp

theorem refusal?_congr (h : tree.IsPlain) (hother : other.IsPlain)
    (hsegments : path.segments = front ++ [name]) (hname : IsOrdinary name)
    (hfind : other.find path = tree.find path) : other.refusal? path = tree.refusal? path := by
  rw [refusal?, refusal?, removeFile_eq_find h hsegments hname,
    removeFile_eq_find hother hsegments hname, hfind]
  rcases tree.find path with (_ | _) | (_ | _ | _) <;> rfl

/-- A file is removed for which there is no refusal. -/
theorem removeIfPresent_of_file (h : tree.IsPlain) (hsegments : path.segments = front ++ [name])
    (hname : IsOrdinary name) (hkind : tree.kind? path = some .file) :
    tree.perform (Files.removeIfPresent path) = (.ok true, tree.erase (tree.placeOf path)) := by
  obtain ⟨content, hfind⟩ := exists_find_of_kind? hkind
  rw [perform_removeIfPresent, removeFile_eq_find h hsegments hname, hfind]

/-- If there is no refusal and no file, then something is missing. -/
theorem find_of_refusal?_eq_none (h : tree.IsPlain) (hsegments : path.segments = front ++ [name])
    (hname : IsOrdinary name) (hrefusal : tree.refusal? path = none)
    (hkind : tree.kind? path ≠ some .file) : tree.find path = .error .notFound := by
  rw [refusal?, removeFile_eq_find h hsegments hname] at hrefusal
  rcases hfind : tree.find path with cause | (_ | content | target)
  · rw [hfind] at hrefusal
    cases cause <;> first | rfl | cases hrefusal
  · rw [hfind] at hrefusal
    cases hrefusal
  · rw [kind?, hfind] at hkind
    exact absurd rfl hkind
  · exact absurd ((find_eq_ok_iff h).mp hfind).2 (h.linkless _ target)

theorem removeIfPresent_of_refusal {cause : Refusal} (hrefusal : tree.refusal? path = some cause) :
    tree.perform (Files.removeIfPresent path) = (.error (.refused path cause), tree) := by
  obtain ⟨hremove, hcause⟩ := refusal?_eq_some_iff.mp hrefusal
  rw [perform_removeIfPresent, hremove]
  cases cause with
  | notFound => exact absurd rfl hcause
  | _ => rfl

end Refusals

end Tree
end Tunables
