import Tunables.Proofs.Except
import Tunables.Proofs.Files.Place

/-!
# Trees without links

A plain tree holds directories and files, each in a directory.  In it a path leads to its place
whenever it leads anywhere: all it takes is that there is a directory wherever the path passes
through, and that no name is too long.

* `walk_cons`: one step of a walk; `walk_eq_ok_iff`: a whole walk.
* `kind?_eq_directory_iff`, `readText_eq_ok_iff`: what a path leads to.
* `handle_eq_ok`: where a step that changes a tree takes place; `handle_concat` says it of any tree
  for paths that end in a name.
-/

namespace Tunables
namespace Tree

/-- Directories and files, each in a directory. -/
structure IsPlain (tree : Tree) : Prop where
  linkless : ∀ place target, tree.node? place ≠ some (.link target)
  enclosed : ∀ place name, tree.node? (place ++ [name]) ≠ none →
    tree.node? place = some .directory

/-- There is a directory in front of every name, and no name is too long. -/
def IsPassable (tree : Tree) : Place → List (List Char) → Prop
  | _, [] => True
  | place, name :: rest =>
      tree.node? place = some .directory ∧ Text.byteLength name ≤ maxName ∧
        tree.IsPassable (advance place name) rest

/-- The place that a path leads to if it leads anywhere. -/
def placeOf (tree : Tree) (path : Path) : Place :=
  placeFrom tree.working path

/-- A path is not refused, and there is a directory wherever it passes through. -/
def Reaches (tree : Tree) (path : Path) : Prop :=
  checkPath path = .ok () ∧ tree.IsPassable (origin tree.working path) path.segments

theorem isPlain_of_empty (working : Place) : IsPlain ⟨[], working⟩ := by
  constructor
  · intro place target
    cases place <;> simp [node?]
  · intro place name hnode
    simp [node?] at hnode

/-- Above what is there everything is there. -/
theorem IsPlain.exists_of_append {tree : Tree} (h : tree.IsPlain) {front back : Place}
    (hnode : tree.node? (front ++ back) ≠ none) : tree.node? front ≠ none := by
  induction back generalizing front with
  | nil =>
      rwa [List.append_nil] at hnode
  | cons name back ih =>
      have hbelow : tree.node? (front ++ [name]) ≠ none := ih (by simpa using hnode)
      rw [h.enclosed front name hbelow]
      simp

section Walks

variable {tree : Tree} {place : Place} {front back names : List (List Char)}

theorem isPassable_append :
    tree.IsPassable place (front ++ back) ↔
      tree.IsPassable place front ∧ tree.IsPassable (follow place front) back := by
  induction front generalizing place with
  | nil =>
      simp [IsPassable]
  | cons name front ih =>
      simp only [List.cons_append, IsPassable, ih, follow_cons, and_assoc]

/-- There is a directory wherever the way goes on. -/
theorem IsPassable.directory (h : tree.IsPassable place (front ++ back)) (hback : back ≠ []) :
    tree.node? (follow place front) = some .directory := by
  obtain ⟨name, rest, rfl⟩ := List.exists_cons_of_ne_nil hback
  exact (isPassable_append.mp h).2.1

theorem isPassable_of_not_isComponent (hdirectory : tree.node? place = some .directory)
    (h : ∀ name ∈ names, Path.isComponent name = false) : tree.IsPassable place names := by
  induction names with
  | nil =>
      trivial
  | cons name names ih =>
      have hname := h name (by simp)
      refine ⟨hdirectory, ?_, ?_⟩
      · simp only [Path.isComponent, Bool.and_eq_false_iff, Bool.not_eq_false', List.isEmpty_iff,
          bne_eq_false_iff_eq] at hname
        rcases hname with rfl | rfl <;> decide
      · rw [advance_of_not_isComponent hname]
        exact ih fun other hother => h other (List.mem_cons_of_mem _ hother)

/-- One step of a walk. -/
theorem walk_cons (h : tree.IsPlain) (links : Nat) (place : Place) (name : List Char)
    (rest : List (List Char)) :
    tree.walk links place (name :: rest) =
      match tree.node? place with
      | none => .error .notFound
      | some .directory =>
          if maxName < Text.byteLength name then .error .invalidName
          else tree.walk links (advance place name) rest
      | some _ => .error .notDirectory := by
  rw [walk]
  rcases hnode : tree.node? place with _ | (_ | content | target)
  · rfl
  · simp only
    rcases isOrdinary_or name with hordinary | hstay | hdots
    · rw [advance_of_isOrdinary hordinary, if_neg (by simp [hordinary.ne_nil, hordinary.ne_dot]),
        if_neg hordinary.ne_dots]
      split
      · rfl
      · split
        · next target hlink => exact absurd hlink (h.linkless _ target)
        · rfl
    · rw [if_pos hstay, advance, if_pos hstay, if_neg]
      rcases hstay with rfl | rfl <;> decide
    · subst hdots
      rw [if_neg (by decide), if_pos rfl]
      rfl
  · rfl
  · exact absurd hnode (h.linkless place target)

theorem walk_eq_ok_iff (h : tree.IsPlain) {links : Nat} {reached : Reached} :
    tree.walk links place names = .ok reached ↔
      tree.IsPassable place names ∧ reached = ⟨follow place names, links⟩ := by
  induction names generalizing place with
  | nil =>
      rw [walk]
      constructor
      · intro heq
        cases heq
        exact ⟨trivial, rfl⟩
      · rintro ⟨_, rfl⟩
        rfl
  | cons name rest ih =>
      rw [walk_cons h, IsPassable, follow_cons]
      rcases tree.node? place with _ | (_ | content | target)
      · simp
      · by_cases hlong : maxName < Text.byteLength name
        · simp [hlong, Nat.not_le.mpr hlong]
        · simp [hlong, Nat.not_lt.mp hlong, ih]
      · simp
      · simp

/-- A walk that misses something misses it on its way, in front of a name. -/
theorem exists_missing_of_walk (h : tree.IsPlain) {links : Nat}
    (hwalk : tree.walk links place names = .error .notFound) :
    ∃ front name back, names = front ++ name :: back ∧ tree.node? (follow place front) = none := by
  induction names generalizing place with
  | nil =>
      rw [walk] at hwalk
      cases hwalk
  | cons name rest ih =>
      rw [walk_cons h] at hwalk
      rcases hnode : tree.node? place with _ | (_ | content | target)
      · exact ⟨[], name, rest, rfl, hnode⟩
      · simp only [hnode] at hwalk
        split at hwalk
        · cases hwalk
        · obtain ⟨front, other, back, hnames, hmissing⟩ := ih hwalk
          exact ⟨name :: front, other, back, by rw [hnames, List.cons_append], hmissing⟩
      · simp [hnode] at hwalk
      · simp [hnode] at hwalk

end Walks

section Lookups

variable {tree : Tree} {path : Path}

theorem checkPath_of_front {left right : Path} (hfront : left.text <+: right.text)
    (htext : left.text ≠ []) (h : checkPath right = .ok ()) : checkPath left = .ok () := by
  obtain ⟨rest, hrest⟩ := hfront
  unfold checkPath at h ⊢
  rw [← hrest] at h
  have hbytes : Text.byteLength left.text ≤ Text.byteLength (left.text ++ rest) := by
    rw [Text.byteLength_append]
    exact Nat.le_add_right _ _
  split at h
  · cases h
  · next hnull =>
      split at h
      · cases h
      · split at h
        · cases h
        · next hlong =>
            have hnull' : left.text.contains '\x00' = false := by
              simp at hnull ⊢
              exact hnull.1
            rw [hnull', if_neg (by simp), if_neg (by simpa using htext), if_neg (by omega)]

/-- Only the empty path is refused as if it led nowhere. -/
theorem checkPath_ne_notFound (htext : path.text ≠ []) : checkPath path ≠ .error .notFound := by
  unfold checkPath
  split
  · simp
  · split
    · next hempty => exact absurd (List.isEmpty_iff.mp hempty) htext
    · split <;> simp

theorem find_eq_ok_iff_walk {node : Node} :
    tree.find path = .ok node ↔ checkPath path = .ok () ∧ ∃ reached,
      tree.walk maxLinks (origin tree.working path) path.segments = .ok reached ∧
      tree.node? reached.place = some node := by
  unfold find resolve
  simp only [except_bind_eq_ok_iff]
  constructor
  · rintro ⟨place, ⟨⟨⟩, hcheck, reached, hwalk, hplace⟩, hnode⟩
    cases hplace
    refine ⟨hcheck, reached, hwalk, ?_⟩
    cases hfound : tree.node? reached.place with
    | none =>
        simp [hfound] at hnode
    | some other =>
        simp only [hfound] at hnode
        cases hnode
        rfl
  · rintro ⟨hcheck, reached, hwalk, hnode⟩
    refine ⟨reached.place, ⟨(), hcheck, reached, hwalk, rfl⟩, ?_⟩
    rw [hnode]
    rfl

theorem find_eq_ok_iff (h : tree.IsPlain) {node : Node} :
    tree.find path = .ok node ↔ tree.Reaches path ∧ tree.node? (tree.placeOf path) = some node := by
  rw [find_eq_ok_iff_walk, Reaches, and_assoc]
  refine and_congr_right fun _ => ?_
  constructor
  · rintro ⟨reached, hwalk, hnode⟩
    obtain ⟨hpassable, rfl⟩ := (walk_eq_ok_iff h).mp hwalk
    exact ⟨hpassable, hnode⟩
  · rintro ⟨hpassable, hnode⟩
    exact ⟨_, (walk_eq_ok_iff h).mpr ⟨hpassable, rfl⟩, hnode⟩

theorem exists_find_of_kind? (hkind : tree.kind? path = some .file) :
    ∃ content, tree.find path = .ok (.file content) := by
  rw [kind?] at hkind
  split at hkind
  · cases hkind
  · next content hfind => exact ⟨content, hfind⟩
  · cases hkind

theorem kind?_eq_directory_iff (h : tree.IsPlain) :
    tree.kind? path = some .directory ↔
      tree.Reaches path ∧ tree.node? (tree.placeOf path) = some .directory := by
  rw [← find_eq_ok_iff h, kind?]
  cases tree.find path with
  | error cause =>
      simp
  | ok node =>
      cases node <;> simp

theorem exists_file_of_kind? (h : tree.IsPlain) (hkind : tree.kind? path = some .file) :
    ∃ content, tree.node? (tree.placeOf path) = some (.file content) := by
  obtain ⟨content, hfind⟩ := exists_find_of_kind? hkind
  exact ⟨content, ((find_eq_ok_iff h).mp hfind).2⟩

theorem isSome_kind?_iff (h : tree.IsPlain) :
    (tree.kind? path).isSome = true ↔
      tree.Reaches path ∧ tree.node? (tree.placeOf path) ≠ none := by
  have hfind : (tree.kind? path).isSome = true ↔ ∃ node, tree.find path = .ok node := by
    rw [kind?]
    rcases hfound : tree.find path with cause | (_ | content | target)
    · simp
    · simp
    · simp
    · exact absurd ((find_eq_ok_iff h).mp hfound).2 (h.linkless _ target)
  rw [hfind, Option.ne_none_iff_exists']
  simp only [find_eq_ok_iff h, exists_and_left]

theorem readText_eq_ok_iff (h : tree.IsPlain) {text : List Char} :
    tree.readText path = .ok text ↔
      tree.Reaches path ∧ tree.node? (tree.placeOf path) = some (.file (.text text)) := by
  rw [← find_eq_ok_iff h, readText, except_bind_eq_ok_iff]
  constructor
  · rintro ⟨node, hfind, hnode⟩
    rcases node with _ | (other | bytes) | target
    · cases hnode
    · cases hnode
      exact hfind
    · cases hnode
    · cases hnode
  · intro hfind
    exact ⟨_, hfind, rfl⟩

end Lookups

section Handles

/-- A path that is to be changed at its last name: there is a directory wherever it passes through
before this name, and behind it there are at most slashes. -/
structure Handled (tree : Tree) (path : Path) (handle : Handle)
    (front trailing : List (List Char)) :
    Prop where
  checked : checkPath path = .ok ()
  segments : path.segments = front ++ handle.name :: trailing
  empty : ∀ segment ∈ trailing, segment = []
  slashed : handle.slashed = true ↔ trailing ≠ []
  ordinary : IsOrdinary handle.name
  passable : tree.IsPassable (origin tree.working path) front
  directory_eq : handle.directory = follow (origin tree.working path) front
  isDirectory : tree.node? handle.directory = some .directory

variable {tree : Tree} {path : Path} {handle : Handle} {front trailing : List (List Char)}

theorem splitLast_segments {segments : List (List Char)} (hname : (splitLast segments).2.1 ≠ []) :
    ∃ trailing, segments = (splitLast segments).1 ++ (splitLast segments).2.1 :: trailing ∧
      (∀ segment ∈ trailing, segment = []) ∧
      ((splitLast segments).2.2 = true ↔ trailing ≠ []) := by
  obtain ⟨names, hnames⟩ : ∃ names, names = (segments.reverse.dropWhile List.isEmpty).reverse :=
    ⟨_, rfl⟩
  have hsegments : segments = names ++ (segments.reverse.takeWhile List.isEmpty).reverse := by
    rw [hnames, ← List.reverse_append, List.takeWhile_append_dropWhile, List.reverse_reverse]
  have hne : names ≠ [] := by
    rintro rfl
    simp [splitLast, ← hnames] at hname
  have hlast : names = names.dropLast ++ [names.getLast?.getD []] := by
    rw [List.getLast?_eq_some_getLast hne, Option.getD_some, List.dropLast_concat_getLast]
  refine ⟨(segments.reverse.takeWhile List.isEmpty).reverse, ?_, ?_, ?_⟩
  · simp only [splitLast, ← hnames]
    calc segments
        = (names.dropLast ++ [names.getLast?.getD []]) ++
            (segments.reverse.takeWhile List.isEmpty).reverse := by rw [← hlast, ← hsegments]
      _ = _ := by simp
  · intro segment hsegment
    have := List.all_eq_true.mp List.all_takeWhile _ (List.mem_reverse.mp hsegment)
    simpa using this
  · simp only [splitLast, ← hnames, decide_eq_true_eq]
    have hlength := congrArg List.length hsegments
    rw [List.length_append] at hlength
    rw [← List.length_pos_iff]
    omega

theorem splitLast_concat {name : List Char} (front : List (List Char)) (h : name ≠ []) :
    splitLast (front ++ [name]) = (front, name, false) := by
  simp [splitLast, h]

/-- A path that ends in an ordinary name is changed in the directory that the names in
front of it lead to. -/
theorem handle_concat {name : List Char} (hsegments : path.segments = front ++ [name])
    (hname : IsOrdinary name) (special : Refusal) :
    tree.handle special path = checkPath path >>= fun _ =>
      (fun reached => ⟨reached.place, name, false, reached.links⟩) <$>
        tree.walk maxLinks (origin tree.working path) (front ++ [[]]) := by
  rw [Tree.handle, hsegments]
  refine bind_congr fun _ => ?_
  rw [handleFrom, splitLast_concat front hname.ne_nil]
  simp only [hname.ne_nil, hname.ne_dot, hname.ne_dots, or_self, if_false]
  cases tree.walk maxLinks (origin tree.working path) (front ++ [[]]) <;> rfl

theorem handle_eq_ok (h : tree.IsPlain) {special : Refusal}
    (hhandle : tree.handle special path = .ok handle) :
    ∃ front trailing, Handled tree path handle front trailing := by
  unfold Tree.handle handleFrom at hhandle
  obtain ⟨_, hcheck, hhandle⟩ := except_bind_eq_ok_iff.mp hhandle
  simp only at hhandle
  split at hhandle
  · cases hhandle
  · next reached hwalk =>
      split at hhandle
      · cases hhandle
      · next hordinary =>
          cases hhandle
          obtain ⟨hpassable, rfl⟩ := (walk_eq_ok_iff h).mp hwalk
          simp only [not_or] at hordinary
          obtain ⟨hnil, hdot, hdots⟩ := hordinary
          obtain ⟨trailing, hsegments, hempty, hslashed⟩ := splitLast_segments hnil
          have hdirectory := hpassable.directory (by simp)
          refine ⟨_, trailing, hcheck, hsegments, hempty, hslashed, ⟨hnil, hdot, hdots⟩,
            (isPassable_append.mp hpassable).1, ?_, ?_⟩
          · rw [follow_append, follow_cons, advance_nil, follow_nil]
          · rw [follow_append, follow_cons, advance_nil, follow_nil]
            exact hdirectory

theorem Handled.placeOf_eq (h : Handled tree path handle front trailing) :
    tree.placeOf path = handle.place := by
  rw [placeOf, placeFrom, h.segments, follow_append, follow_cons,
    follow_of_not_isComponent fun segment hsegment => h.empty segment hsegment ▸ rfl,
    advance_of_isOrdinary h.ordinary, ← h.directory_eq, Handle.place]

/-- A path passes through the place that it leads to. -/
theorem passes_placeOf (tree : Tree) (path : Path) : Passes tree.working path (tree.placeOf path) :=
  onWay_follow _ _

end Handles

end Tree
end Tunables
