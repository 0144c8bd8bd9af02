import Tunables.Files.Tree
import Tunables.Proofs.Path

/-!
# Places of paths

Where a path leads when there are no links: every name goes one place down, two dots go one place
up, and empty segments and dots stay.  This needs no tree but for the directory from which
relative paths are seen.

* `follow` is the place that names lead to, and `placeFrom` that of a path.
* `OnWay` says that names pass through a place, and `Passes` says it of a path; making a directory
  is about all of these places.
* `placeFrom_join`, `passes_join_iff`, `Passes.of_parent?`: what joining paths and going to the
  directory of a path mean for the places.
* `placeFrom_join_of_isInner`, `passes_join_of_isInner`: a path that stays inside leads below the
  place from which it is seen.
-/

namespace Tunables
namespace Tree

/-- The place that one name leads to. -/
def advance (place : Place) (name : List Char) : Place :=
  if name = [] ∨ name = ['.'] then place
  else if name = ['.', '.'] then place.dropLast
  else place ++ [name]

/-- The place that names lead to, one after the other. -/
def follow (start : Place) (names : List (List Char)) : Place :=
  names.foldl advance start

/-- The place that a path leads to, seen from a directory. -/
def placeFrom (working : Place) (path : Path) : Place :=
  follow (origin working path) path.segments

/-- Names pass through a place on their way. -/
def OnWay (start : Place) (names : List (List Char)) (place : Place) : Prop :=
  ∃ front, front <+: names ∧ follow start front = place

/-- A path passes through a place on its way. -/
def Passes (working : Place) (path : Path) (place : Place) : Prop :=
  OnWay (origin working path) path.segments place

/-- A name that goes one place down. -/
structure IsOrdinary (name : List Char) : Prop where
  ne_nil : name ≠ []
  ne_dot : name ≠ ['.']
  ne_dots : name ≠ ['.', '.']

section Names

theorem isOrdinary_or (name : List Char) :
    IsOrdinary name ∨ (name = [] ∨ name = ['.']) ∨ name = ['.', '.'] := by
  by_cases hstay : name = [] ∨ name = ['.']
  · exact Or.inr (Or.inl hstay)
  by_cases hdots : name = ['.', '.']
  · exact Or.inr (Or.inr hdots)
  · exact Or.inl ⟨fun h => hstay (Or.inl h), fun h => hstay (Or.inr h), hdots⟩

theorem advance_of_isOrdinary {name : List Char} (h : IsOrdinary name) (place : Place) :
    advance place name = place ++ [name] := by
  simp [advance, h.ne_nil, h.ne_dot, h.ne_dots]

@[simp] theorem advance_nil (place : Place) : advance place [] = place := by
  simp [advance]

@[simp] theorem follow_nil (start : Place) : follow start [] = start :=
  rfl

@[simp] theorem follow_cons (start : Place) (name : List Char) (names : List (List Char)) :
    follow start (name :: names) = follow (advance start name) names :=
  rfl

theorem follow_append (start : Place) (front back : List (List Char)) :
    follow start (front ++ back) = follow (follow start front) back :=
  List.foldl_append

theorem advance_of_not_isComponent {name : List Char} (h : Path.isComponent name = false)
    (place : Place) :
    advance place name = place := by
  have hstay : name = [] ∨ name = ['.'] := by
    by_cases hname : name = []
    · exact Or.inl hname
    · exact Or.inr (by simpa [Path.isComponent, hname] using h)
  rw [advance, if_pos hstay]

theorem follow_of_not_isComponent {names : List (List Char)}
    (h : ∀ name ∈ names, Path.isComponent name = false) (start : Place) :
    follow start names = start := by
  induction names with
  | nil =>
      rfl
  | cons name names ih =>
      rw [follow_cons, advance_of_not_isComponent (h name (by simp))]
      exact ih fun other hother => h other (List.mem_cons_of_mem _ hother)

theorem follow_of_isOrdinary {names : List (List Char)} (h : ∀ name ∈ names, IsOrdinary name)
    (start : Place) : follow start names = start ++ names := by
  induction names generalizing start with
  | nil =>
      simp
  | cons name names ih =>
      have hname := h name (by simp)
      have hnames := ih (fun other hother => h other (List.mem_cons_of_mem _ hother))
      rw [follow_cons, advance_of_isOrdinary hname, hnames]
      simp

end Names

section Ways

variable {start place : Place} {names front back : List (List Char)}

theorem onWay_follow (start : Place) (names : List (List Char)) :
    OnWay start names (follow start names) :=
  ⟨names, List.prefix_rfl, rfl⟩

theorem OnWay.of_front (h : OnWay start front place) (hfront : front <+: names) :
    OnWay start names place := by
  obtain ⟨part, hpart, hplace⟩ := h
  exact ⟨part, hpart.trans hfront, hplace⟩

/-- A way through two lists of names is a way through the first, or through the second from
where the first ends. -/
theorem onWay_append_iff :
    OnWay start (front ++ back) place ↔
      OnWay start front place ∨ OnWay (follow start front) back place := by
  constructor
  · rintro ⟨part, hpart, rfl⟩
    rcases List.prefix_or_prefix_of_prefix hpart (List.prefix_append front back) with
      hfront | ⟨rest, rfl⟩
    · exact Or.inl ⟨part, hfront, rfl⟩
    · have hrest : rest <+: back := (List.prefix_append_right_inj front).mp hpart
      exact Or.inr ⟨rest, hrest, (follow_append start front rest).symm⟩
  · rintro (h | ⟨part, hpart, rfl⟩)
    · exact h.of_front (List.prefix_append _ _)
    · exact ⟨front ++ part, (List.prefix_append_right_inj front).mpr hpart,
        follow_append start front part⟩

theorem onWay_of_not_isComponent (h : ∀ name ∈ names, Path.isComponent name = false)
    (hway : OnWay start names place) : place = start := by
  obtain ⟨part, hpart, rfl⟩ := hway
  exact follow_of_not_isComponent (fun name hname => h name (hpart.subset hname)) start

theorem onWay_singleton_iff {name : List Char} :
    OnWay start [name] place ↔ place = start ∨ place = advance start name := by
  constructor
  · rintro ⟨part, hpart, rfl⟩
    rcases List.prefix_cons_iff.mp hpart with rfl | ⟨rest, rfl, hrest⟩
    · exact Or.inl rfl
    · rw [List.prefix_nil.mp hrest]
      exact Or.inr rfl
  · rintro (rfl | rfl)
    · exact ⟨[], List.nil_prefix, rfl⟩
    · exact ⟨[name], List.prefix_rfl, rfl⟩

theorem onWay_iff_of_isOrdinary (h : ∀ name ∈ names, IsOrdinary name) :
    OnWay start names place ↔ ∃ front, front <+: names ∧ place = start ++ front := by
  have hfollow : ∀ front, front <+: names → follow start front = start ++ front :=
    fun front hfront => follow_of_isOrdinary (fun name hname => h name (hfront.subset hname)) start
  constructor
  · rintro ⟨front, hfront, rfl⟩
    exact ⟨front, hfront, hfollow front hfront⟩
  · rintro ⟨front, hfront, rfl⟩
    exact ⟨front, hfront, hfollow front hfront⟩

end Ways

section Paths

variable {working place : Place} {path parent left right : Path}

theorem origin_eq_of_isAbsolute_eq (h : left.isAbsolute = right.isAbsolute) :
    origin working left = origin working right := by
  simp [origin, h]

theorem placeFrom_join (h : right.isAbsolute = false) :
    placeFrom working (left.join right) = follow (placeFrom working left) right.segments := by
  obtain ⟨front, hjoin, hleft⟩ := Path.segments_join left h
  have horigin : origin working (left.join right) = origin working left :=
    origin_eq_of_isAbsolute_eq (Path.isAbsolute_join h)
  have hfront : placeFrom working left = follow (origin working left) front := by
    rcases hleft with hleft | hleft
    · rw [placeFrom, hleft]
    · rw [placeFrom, hleft, follow_append]
      rfl
  rw [placeFrom, hjoin, horigin, follow_append, hfront]

theorem passes_join_iff (h : right.isAbsolute = false) :
    Passes working (left.join right) place ↔
      Passes working left place ∨ OnWay (placeFrom working left) right.segments place := by
  obtain ⟨front, hjoin, hleft⟩ := Path.segments_join left h
  have horigin : origin working (left.join right) = origin working left :=
    origin_eq_of_isAbsolute_eq (Path.isAbsolute_join h)
  have hfront : (Passes working left place ↔ OnWay (origin working left) front place) ∧
      placeFrom working left = follow (origin working left) front := by
    rcases hleft with hleft | hleft
    · rw [Passes, placeFrom, hleft]
      exact ⟨Iff.rfl, rfl⟩
    · rw [Passes, placeFrom, hleft, follow_append, onWay_append_iff]
      refine ⟨⟨?_, Or.inl⟩, rfl⟩
      rintro (hway | hway)
      · exact hway
      · rw [onWay_of_not_isComponent (by decide) hway]
        exact onWay_follow _ front
  rw [Passes, hjoin, horigin, onWay_append_iff, hfront.1, hfront.2]

/-- Whatever the directory of a path passes through, the path passes through as well. -/
theorem Passes.of_parent? (h : path.parent? = some parent) (hpass : Passes working parent place) :
    Passes working path place := by
  obtain ⟨habs, kept, hprefix, hkept⟩ := Path.parent?_segments h
  rw [Passes, origin_eq_of_isAbsolute_eq habs] at hpass
  rcases hkept with hkept | ⟨rfl, hempty⟩
  · exact hpass.of_front (hkept ▸ hprefix)
  · rw [onWay_of_not_isComponent (fun name hname => hempty name hname ▸ rfl) hpass]
    exact ⟨[], List.nil_prefix, rfl⟩

end Paths

section Inner

variable {working start place : Place} {names : List (List Char)} {path : Path}

/-- Names that do not go up lead down. -/
theorem follow_of_dotless (h : ['.', '.'] ∉ names) (start : Place) :
    start <+: follow start names := by
  induction names generalizing start with
  | nil =>
      exact List.prefix_rfl
  | cons name names ih =>
      have hname : name ≠ ['.', '.'] := Ne.symm (List.ne_of_not_mem_cons h)
      rw [follow_cons]
      refine List.IsPrefix.trans ?_ (ih (List.not_mem_of_not_mem_cons h) _)
      unfold advance
      split
      · exact List.prefix_rfl
      · exact List.prefix_append _ _

theorem placeFrom_join_of_isInner (h : path.IsInner) (working : Place) (root : Path) :
    placeFrom working root <+: placeFrom working (root.join path) := by
  rw [placeFrom_join h.relative]
  exact follow_of_dotless h.dotless _

theorem passes_join_of_isInner {root : Path} (h : path.IsInner)
    (hpass : Passes working (root.join path) place) :
    Passes working root place ∨ placeFrom working root <+: place := by
  refine ((passes_join_iff h.relative).mp hpass).imp_right ?_
  rintro ⟨front, hfront, rfl⟩
  exact follow_of_dotless (fun hmem => h.dotless (hfront.subset hmem)) _

end Inner

end Tree
end Tunables
