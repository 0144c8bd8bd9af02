import Tunables.Text.Lines

/-!
# Paths

A path is a text, and it stays the text that was written: nothing is cleaned.  Its segments are the
parts between the slashes.  The components among them name something: empty segments do not, and
neither does a dot, unless the path starts with it.

The directory of a path has a shorter text (`parent?_length`), so that a walk up through
the directories ends.
-/

namespace Tunables

/-- The path with the given text. -/
structure Path where
  text : List Char
deriving DecidableEq

namespace Path

/-- The path with the given text. -/
def ofString (text : String) : Path :=
  ⟨text.toList⟩

/-- The text of a path. -/
def toString (path : Path) : String :=
  String.ofList path.text

/-- The path starts at the root. -/
def isAbsolute (path : Path) : Bool :=
  path.text.head? == some '/'

/-- The path `right` seen from `left`: an absolute one replaces it, and otherwise one slash
stands between the two. -/
def join (left right : Path) : Path :=
  if right.isAbsolute || left.text.isEmpty then right
  else if left.text.getLast? == some '/' then ⟨left.text ++ right.text⟩
  else ⟨left.text ++ '/' :: right.text⟩

/-- The parts between the slashes. -/
def segments (path : Path) : List (List Char) :=
  Text.cut '/' path.text

/-- A segment that is a component wherever it stands. -/
def isComponent (segment : List Char) : Bool :=
  !segment.isEmpty && segment != ['.']

/-- Removes the segments behind the last component. -/
def trimSegments : List (List Char) → List (List Char)
  | [] => []
  | first :: rest =>
      let kept := (rest.reverse.dropWhile fun segment => !isComponent segment).reverse
      if kept.isEmpty && first.isEmpty then [] else first :: kept

/-- The directory of a path: everything before the last component. -/
def parent? (path : Path) : Option Path :=
  match (trimSegments path.segments).reverse with
  | [] => none
  | _ :: before =>
      let kept := trimSegments before.reverse
      if kept.isEmpty && path.isAbsolute then some ⟨['/']⟩
      else some ⟨Text.join ['/'] kept⟩

/-- The last component, unless it is one or two dots. -/
def fileName? (path : Path) : Option (List Char) :=
  match (trimSegments path.segments).getLast? with
  | none => none
  | some segment => if segment == ['.'] || segment == ['.', '.'] then none else some segment

theorem trimSegments_prefix (segments : List (List Char)) : trimSegments segments <+: segments := by
  cases segments with
  | nil => simp [trimSegments]
  | cons first rest =>
    simp only [trimSegments]
    split
    · exact List.nil_prefix
    · rw [List.cons_prefix_cons]
      refine ⟨rfl, ?_⟩
      have h := List.dropWhile_suffix (fun segment => !isComponent segment) (l := rest.reverse)
      rw [← List.reverse_prefix] at h
      simpa using h

theorem length_join_lt_of_prefix {parts all : List (List Char)} {part : List Char}
    (hne : parts ≠ []) (h : parts ++ [part] <+: all) :
    (Text.join ['/'] parts).length < (Text.join ['/'] all).length := by
  induction parts generalizing all with
  | nil => exact absurd rfl hne
  | cons first parts ih =>
    cases all with
    | nil => simp at h
    | cons other rest =>
      rw [List.cons_append] at h
      obtain ⟨rfl, hrest⟩ := List.cons_prefix_cons.mp h
      cases parts with
      | nil =>
        cases rest with
        | nil => simp at hrest
        | cons next rest =>
          simp only [Text.join, List.length_append, List.length_cons, List.length_nil]
          omega
      | cons next parts =>
        have ih := ih (by simp) hrest
        cases rest with
        | nil => simp at hrest
        | cons other rest =>
          simp only [Text.join, List.length_append] at ih ⊢
          omega

theorem trimSegments_cut_nil : trimSegments (Text.cut '/' []) = [] := by
  decide

theorem trimSegments_cut_slash : trimSegments (Text.cut '/' ['/']) = [] := by
  decide

theorem parent?_length {path parent : Path} (h : path.parent? = some parent) :
    parent.text.length < path.text.length := by
  unfold parent? at h
  cases htrim : (trimSegments path.segments).reverse with
  | nil => simp [htrim] at h
  | cons last before =>
    simp only [htrim] at h
    have hne : path.text ≠ [] := by
      intro hnil
      simp [segments, hnil, trimSegments_cut_nil] at htrim
    have hslash : path.text ≠ ['/'] := by
      intro hone
      simp [segments, hone, trimSegments_cut_slash] at htrim
    have hprefix : before.reverse ++ [last] <+: path.segments := by
      have := congrArg List.reverse htrim
      rw [List.reverse_reverse, List.reverse_cons] at this
      exact this ▸ trimSegments_prefix path.segments
    split at h
    · next hroot =>
      cases h
      have habs : path.text.head? = some '/' := by
        simpa [isAbsolute] using (Bool.and_eq_true_iff.mp hroot).2
      match htext : path.text with
      | [] => exact absurd htext hne
      | [c] =>
        rw [htext] at habs hslash
        simp at habs hslash
        exact absurd habs hslash
      | _ :: _ :: _ => simp
    · cases h
      simp only
      have hjoin : Text.join ['/'] path.segments = path.text := Text.join_cut '/' path.text
      rw [← hjoin]
      by_cases hkept : trimSegments before.reverse = []
      · rw [hkept, hjoin]
        exact List.length_pos_iff.mpr hne
      · obtain ⟨tail, htail⟩ := trimSegments_prefix before.reverse
        have : ∃ part, trimSegments before.reverse ++ [part] <+: path.segments := by
          cases tail with
          | nil =>
            rw [List.append_nil] at htail
            exact ⟨last, by rw [htail]; exact hprefix⟩
          | cons part tail =>
            refine ⟨part, ?_⟩
            refine List.IsPrefix.trans ⟨tail ++ [last], ?_⟩ hprefix
            simp [← congrArg (· ++ [last]) htail]
        obtain ⟨part, hpart⟩ := this
        exact length_join_lt_of_prefix hkept hpart

end Path
end Tunables
