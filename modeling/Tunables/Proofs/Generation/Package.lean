import Tunables.Generation.Package
import Tunables.Proofs.Files.Action
import Tunables.Proofs.Files.Links
import Tunables.Proofs.Target

/-!
# Finding packages

A search path is searched from the front.  An entry leads to itself if it is a directory that bears
the name of the package, or else to what has the path of the package inside of it, if that is a
directory.  Nothing but the path of the package says what is found inside: if it is no name of an
entry, then it leads back to the entry, or somewhere else, to a directory with another name.

* `Offers`: the root that an entry leads to.
* `isEntryName_of_fileName?`, `fileName?_join`: which directories bear the name of the package.
* `kind?_of_join`: what is inside of a path is inside of a directory.
* `resolve_search`: what a search comes to.
-/

namespace Tunables

open Tunables.Tree

/-- The root that an entry of a search path leads to: the entry itself before anything inside of
it. -/
inductive Offers (tree : Tree) (package : String) (entry : Path) : Path → Prop
  | itself (hname : entry.fileName? = some package.toList)
      (hkind : tree.kind? entry = some .directory) :
      Offers tree package entry entry
  | nested (hother : entry.fileName? = some package.toList → tree.kind? entry ≠ some .directory)
      (hkind : tree.kind? (entry.join (.ofString package)) = some .directory) :
      Offers tree package entry (entry.join (.ofString package))

/-- An entry of a search path leads to a root. -/
def Qualifies (tree : Tree) (package : String) (entry : Path) : Prop :=
  ∃ root, Offers tree package entry root

section Names

variable {tree : Tree} {package : String} {path entry root : Path}

/-- The last component of a path is a name. -/
theorem isEntryName_of_fileName? (h : path.fileName? = some package.toList) :
    IsEntryName package := by
  unfold Path.fileName? at h
  split at h
  · cases h
  · next segment hlast =>
      split at h
      · cases h
      · next hdots =>
          cases h
          simp only [Bool.or_eq_true, beq_iff_eq, not_or] at hdots
          have hmem : package.toList ∈ path.segments :=
            (Path.trimSegments_prefix _).subset (List.mem_of_getLast? hlast)
          have hcomponent := (Path.trimSegments_getLast? hlast).resolve_right hdots.1
          refine ⟨⟨?_, hdots.1, hdots.2⟩, Path.not_mem_of_mem_segments hmem⟩
          intro hnil
          rw [hnil] at hcomponent
          cases hcomponent

theorem IsEntryName.fileName?_join (h : IsEntryName package) (entry : Path) :
    (entry.join (.ofString package)).fileName? = some package.toList := by
  obtain ⟨front, hsegments, _⟩ := Path.segments_join entry h.isAbsolute
  rw [Path.fileName?, hsegments, h.segments, Path.trimSegments_concat h.isComponent,
    List.getLast?_concat]
  simp [h.ordinary.ne_dot, h.ordinary.ne_dots]

/-- What has a name in a path is in a directory. -/
theorem kind?_of_join (h : IsEntryName package) (htext : entry.text ≠ [])
    (hkind : tree.kind? (entry.join (.ofString package)) = some .directory) :
    tree.kind? entry = some .directory := by
  obtain ⟨node, hfind⟩ : ∃ node, tree.find (entry.join (.ofString package)) = .ok node := by
    rw [kind?] at hkind
    split at hkind
    · next hfind => exact ⟨_, hfind⟩
    · cases hkind
    · cases hkind
  obtain ⟨hcheck, reached, hwalk, _⟩ := find_eq_ok_iff_walk.mp hfind
  obtain ⟨front, hsegments, hentry⟩ := Path.segments_join entry h.isAbsolute
  rw [hsegments, h.segments, origin_eq_of_isAbsolute_eq (Path.isAbsolute_join h.isAbsolute),
    walk_append] at hwalk
  obtain ⟨middle, hfront, hlast⟩ := except_bind_eq_ok_iff.mp hwalk
  have hdirectory := directory_of_walk hlast
  have hfound : tree.find entry = .ok .directory := by
    refine find_eq_ok_iff_walk.mpr ⟨checkPath_of_front ?_ htext hcheck, middle, ?_, hdirectory⟩
    · rw [Path.text_join entry h.isAbsolute, List.append_assoc]
      exact List.prefix_append _ _
    · rcases hentry with hentry | hentry
      · rw [hentry, hfront]
      · rw [hentry, walk_append, hfront]
        show tree.walk middle.links middle.place [[]] = .ok middle
        rw [walk_stay hdirectory (Or.inl rfl), walk]
  rw [kind?, hfound]

end Names

section Search

variable {tree : Tree} {package : String} {entry root : Path} {entries : List Path}

/-- The root that an entry leads to, if any. -/
def offer? (tree : Tree) (package : String) (entry : Path) : Option Path :=
  if entry.fileName? = some package.toList ∧ tree.kind? entry = some .directory then some entry
  else if tree.kind? (entry.join (.ofString package)) = some .directory then
    some (entry.join (.ofString package))
  else none

theorem offer?_eq_some_iff :
    offer? tree package entry = some root ↔ Offers tree package entry root := by
  unfold offer?
  split
  · next hself =>
      constructor
      · rintro ⟨⟩
        exact .itself hself.1 hself.2
      · rintro (⟨_, _⟩ | ⟨hother, _⟩)
        · rfl
        · exact absurd hself.2 (hother hself.1)
  · next hself =>
      rw [not_and] at hself
      split
      · next hkind =>
          constructor
          · rintro ⟨⟩
            exact .nested hself hkind
          · rintro (⟨hname, hkind⟩ | ⟨_, _⟩)
            · exact absurd hkind (hself hname)
            · rfl
      · next hkind =>
          refine iff_of_false nofun ?_
          rintro (⟨hname, hkind⟩ | ⟨_, hnested⟩)
          · exact hself hname hkind
          · exact hkind hnested

theorem offer?_eq_none_iff : offer? tree package entry = none ↔ ¬ Qualifies tree package entry := by
  rw [Option.eq_none_iff_forall_ne_some, Qualifies, not_exists]
  exact forall_congr' fun root => not_congr offer?_eq_some_iff

theorem perform_candidate {ε : Type} (tree : Tree) (package : String) (entry : Path) :
    tree.perform (Locator.candidate package entry : ExceptT ε (StateM Tree) (Option Path)) =
      (.ok (offer? tree package entry), tree) := by
  have hnested : tree.perform (do
      if ← FileStore.isDirectory (entry.join (.ofString package)) then
        return some (entry.join (.ofString package))
      return none : ExceptT ε (StateM Tree) (Option Path)) =
        (.ok (if tree.kind? (entry.join (.ofString package)) = some .directory then
          some (entry.join (.ofString package)) else none), tree) := by
    rw [perform_bind, perform_isDirectory]
    by_cases hkind : tree.kind? (entry.join (.ofString package)) = some .directory
    · simp only [hkind, beq_self_eq_true, if_true]
      rfl
    · simp only [hkind, beq_eq_false_iff_ne.mpr hkind, Bool.false_eq_true, if_false]
      rfl
  rw [Locator.candidate, offer?]
  by_cases hname : entry.fileName? = some package.toList
  · simp only [hname, beq_self_eq_true, if_true, true_and]
    rw [perform_bind, perform_isDirectory]
    by_cases hkind : tree.kind? entry = some .directory
    · simp only [hkind, beq_self_eq_true, if_true]
      rfl
    · simp only [hkind, beq_eq_false_iff_ne.mpr hkind, Bool.false_eq_true, if_false]
      exact hnested
  · simp only [hname, beq_eq_false_iff_ne.mpr hname, Bool.false_eq_true, if_false, false_and]
    exact hnested

theorem perform_firstCandidate {ε : Type} (tree : Tree) (package : String) (entries : List Path) :
    tree.perform (Locator.firstCandidate package entries : ExceptT ε (StateM Tree) (Option Path)) =
      (.ok (entries.findSome? (offer? tree package)), tree) := by
  induction entries with
  | nil => rfl
  | cons entry entries ih =>
      rw [Locator.firstCandidate, perform_bind, perform_candidate, List.findSome?_cons]
      cases offer? tree package entry with
      | some root => rfl
      | none => exact ih

theorem perform_resolve_search (tree : Tree) (package : String) (entries : List Path) :
    tree.perform (Locator.resolve (.search entries) package) =
      match entries.findSome? (offer? tree package) with
      | some root => (.ok root, tree)
      | none => (.error ⟨package, entries⟩, tree) := by
  rw [Locator.resolve, perform_bind, perform_firstCandidate]
  cases entries.findSome? (offer? tree package) <;> rfl

theorem Offers.kind? (h : Offers tree package entry root) : tree.kind? root = some .directory := by
  cases h with
  | itself _ hkind => exact hkind
  | nested _ hkind => exact hkind

/-- A root bears the name of the package if this is a name at all. -/
theorem Offers.fileName?_eq_iff (h : Offers tree package entry root) :
    root.fileName? = some package.toList ↔ IsEntryName package := by
  refine ⟨isEntryName_of_fileName?, fun hpackage => ?_⟩
  cases h with
  | itself hname _ => exact hname
  | nested _ _ => exact hpackage.fileName?_join entry

theorem Offers.kind?_entry (h : Offers tree package entry root) (hpackage : IsEntryName package)
    (htext : entry.text ≠ []) :
    tree.kind? entry = some .directory := by
  cases h with
  | itself _ hkind => exact hkind
  | nested _ hkind => exact kind?_of_join hpackage htext hkind

/-- **What a search comes to.**  The tree stays as it is.  If no entry leads to a root, then
the fault names the package and lists all entries in order, and otherwise the answer is the
root to which the first one leads that leads to any.  More entries behind the others do not
change the answer.  It is a directory, and it bears the name of the package exactly if this is
a name that something in a directory can have; then it is the entry, or it lies in the
directory that the entry is. -/
theorem resolve_search (tree : Tree) (package : String) (entries : List Path) :
    (tree.perform (Locator.resolve (.search entries) package)).2 = tree ∧
      (∀ fault, (tree.perform (Locator.resolve (.search entries) package)).1 = .error fault ↔
        fault = ⟨package, entries⟩ ∧ ∀ entry ∈ entries, ¬ Qualifies tree package entry) ∧
      (∀ root, (tree.perform (Locator.resolve (.search entries) package)).1 = .ok root ↔
        ∃ front entry back, entries = front ++ entry :: back ∧
          (∀ earlier ∈ front, ¬ Qualifies tree package earlier) ∧ Offers tree package entry root) ∧
      (∀ root, (tree.perform (Locator.resolve (.search entries) package)).1 = .ok root →
        ∀ more, tree.perform (Locator.resolve (.search (entries ++ more)) package) =
          (.ok root, tree)) ∧
      ∀ entry root, Offers tree package entry root →
        tree.kind? root = some .directory ∧
          (root.fileName? = some package.toList ↔ IsEntryName package) ∧
          (IsEntryName package → entry.text ≠ [] → tree.kind? entry = some .directory) := by
  rw [perform_resolve_search]
  cases hfirst : entries.findSome? (offer? tree package) with
  | none =>
      have hnone : ∀ entry ∈ entries, ¬ Qualifies tree package entry := fun entry hmem =>
        offer?_eq_none_iff.mp (List.findSome?_eq_none_iff.mp hfirst entry hmem)
      refine ⟨rfl, fun fault => ?_, fun root => iff_of_false nofun ?_, nofun,
        fun _ _ h => ⟨h.kind?, h.fileName?_eq_iff, h.kind?_entry⟩⟩
      · rw [and_iff_left hnone, Except.error.injEq, eq_comm]
      · rintro ⟨front, entry, back, rfl, _, hentry⟩
        exact hnone entry (by simp) ⟨root, hentry⟩
  | some first =>
      refine ⟨rfl, fun fault => iff_of_false nofun ?_, fun root => ?_, fun root hroot more => ?_,
        fun _ _ h => ⟨h.kind?, h.fileName?_eq_iff, h.kind?_entry⟩⟩
      · rintro ⟨_, hnone⟩
        obtain ⟨front, entry, back, rfl, hentry, _⟩ := List.findSome?_eq_some_iff.mp hfirst
        exact hnone entry (by simp) ⟨first, offer?_eq_some_iff.mp hentry⟩
      · rw [Except.ok.injEq, ← Option.some.injEq, ← hfirst, List.findSome?_eq_some_iff]
        simp only [offer?_eq_some_iff, offer?_eq_none_iff, and_comm]
      · cases hroot
        rw [perform_resolve_search, List.findSome?_append, hfirst]
        rfl

/-- A package without a name is found wherever there is a directory, and one that leads up
is found above it. -/
example : let tree : Tree := (⟨[], []⟩ : Tree).put ["a".toList] .directory
    (tree.perform (Locator.resolve (.search [⟨['a']⟩]) "")).1 = .ok ⟨"a/".toList⟩ ∧
      (tree.perform (Locator.resolve (.search [⟨['a']⟩]) "..")).1 = .ok ⟨"a/..".toList⟩ := by
  constructor <;> cbv

end Search

end Tunables
