import Mathlib.Data.List.TakeWhile
import Tunables.Path
import Tunables.Proofs.Text.Cut

/-!
# Segments of paths

What the operations on paths do to the segments.

* `join_assoc`: it does not matter in which order paths are joined.
* `segments_join`: the segments of a joined path are those of its two sides, but for the
  empty one behind a slash.
* `parent?_segments`: the directory of a path has the first of its segments, as many as
  it needs; `parent?_of_idle`: it has those in front of the last name, but for the last
  ones that name nothing.
* `IsInner`: a path does not leave the directory from which it is seen; `isInner_join_iff`: a joined
  path stays inside if its two sides do, and not otherwise.
-/

namespace Tunables
namespace Path

/-- What stands between a path and another one that is seen from it. -/
def separator (path : Path) : List Char :=
  if path.text = [] ∨ path.text.getLast? = some '/' then [] else ['/']

theorem not_mem_of_mem_segments {path : Path} {segment : List Char} (h : segment ∈ path.segments) :
    '/' ∉ segment :=
  Text.not_mem_of_mem_cut h

/-- A path is absolute when an empty segment comes first and another one follows. -/
theorem isAbsolute_iff {path : Path} :
    path.isAbsolute = true ↔ ∃ rest, rest ≠ [] ∧ path.segments = [] :: rest := by
  obtain ⟨text⟩ := path
  cases text with
  | nil =>
      constructor
      · intro h
        simp [isAbsolute] at h
      · rintro ⟨rest, hne, hsegments⟩
        simp only [segments, Text.cut, List.cons.injEq, true_and] at hsegments
        exact absurd hsegments.symm hne
  | cons c cs =>
      by_cases hc : c = '/'
      · constructor
        · intro _
          exact ⟨Text.cut '/' cs, Text.cut_ne_nil '/' cs, by simp [segments, Text.cut, hc]⟩
        · intro _
          simp [isAbsolute, hc]
      · constructor
        · intro h
          simp [isAbsolute, hc] at h
        · rintro ⟨rest, _, hsegments⟩
          cases hcut : Text.cut '/' cs with
          | nil => exact absurd hcut (Text.cut_ne_nil '/' cs)
          | cons part parts => simp [segments, Text.cut, hc, hcut] at hsegments

section Join

variable {left right : Path}

theorem join_of_isAbsolute (h : right.isAbsolute = true) : left.join right = right := by
  simp [join, h]

theorem isAbsolute_join (h : right.isAbsolute = false) :
    (left.join right).isAbsolute = left.isAbsolute := by
  obtain ⟨text⟩ := left
  cases text with
  | nil =>
      simp only [join, List.isEmpty_nil, Bool.or_true, if_true]
      simpa [isAbsolute] using h
  | cons c cs =>
      simp only [join, h, List.isEmpty_cons, Bool.or_false, Bool.false_eq_true, if_false]
      split <;> simp [isAbsolute]

/-- A relative path is appended to the segments of the path that it is seen from; if that path ends
in a slash, the empty segment behind the slash gives way. -/
theorem segments_join (left : Path) (h : right.isAbsolute = false) :
    ∃ front, (left.join right).segments = front ++ right.segments ∧
      (left.segments = front ∨ left.segments = front ++ [[]]) := by
  obtain ⟨text⟩ := left
  by_cases hempty : text = []
  · refine ⟨[], ?_, Or.inr ?_⟩
    · simp [join, h, hempty]
    · simp [segments, Text.cut, hempty]
  · by_cases hslash : text.getLast? = some '/'
    · obtain ⟨before, rfl⟩ := List.getLast?_eq_some_iff.mp hslash
      refine ⟨Text.cut '/' before, ?_, Or.inr ?_⟩
      · simp [join, h, segments, ← Text.cut_append]
      · simp [segments, Text.cut_append, Text.cut]
    · refine ⟨Text.cut '/' text, ?_, Or.inl rfl⟩
      simp [join, h, segments, hempty, hslash, Text.cut_append]

theorem text_join (left : Path) (h : right.isAbsolute = false) :
    (left.join right).text = left.text ++ left.separator ++ right.text := by
  by_cases hempty : left.text = []
  · simp [join, separator, h, hempty]
  · by_cases hslash : left.text.getLast? = some '/'
    · simp [join, separator, h, hempty, hslash]
    · simp [join, separator, h, hempty, hslash]

theorem text_join_ne_nil (h : left.text ≠ [] ∨ right.text ≠ []) : (left.join right).text ≠ [] := by
  cases habs : right.isAbsolute with
  | true =>
      rw [join_of_isAbsolute habs]
      intro hnil
      simp [isAbsolute, hnil] at habs
  | false =>
      rcases h with h | h
      · simp [text_join left habs, h]
      · simp [text_join left habs, h]

theorem separator_join (left : Path) (h : right.isAbsolute = false) :
    (left.join right).separator = right.separator := by
  have htext := text_join left h
  by_cases hright : right.text = []
  · have hnone : right.separator = [] := by simp [separator, hright]
    rw [hright, List.append_nil] at htext
    rw [hnone, separator, if_pos]
    rw [htext, separator]
    split
    · next hleft => simpa using hleft
    · simp
  · have hlast : (left.join right).text.getLast? = right.text.getLast? := by
      rw [htext, List.getLast?_append, List.getLast?_eq_some_getLast hright, Option.some_or]
    have hne : (left.join right).text ≠ [] := by
      rw [htext]
      simp [hright]
    simp [separator, hlast, hne, hright]

theorem join_assoc (first second third : Path) :
    (first.join second).join third = first.join (second.join third) := by
  cases hthird : third.isAbsolute with
  | true =>
      rw [join_of_isAbsolute hthird, join_of_isAbsolute hthird, join_of_isAbsolute hthird]
  | false =>
      have habs : (second.join third).isAbsolute = second.isAbsolute := isAbsolute_join hthird
      cases hsecond : second.isAbsolute with
      | true =>
          rw [join_of_isAbsolute hsecond, join_of_isAbsolute (habs.trans hsecond)]
      | false =>
          have htext : ((first.join second).join third).text =
              (first.join (second.join third)).text := by
            rw [text_join _ hthird, text_join _ hsecond, separator_join _ hsecond,
              text_join _ (habs.trans hsecond), text_join _ hthird]
            simp
          cases hleft : (first.join second).join third
          cases hright : first.join (second.join third)
          rw [hleft, hright] at htext
          rw [Path.mk.injEq]
          exact htext
end Join

section Parents

theorem trimSegments_of_isComponent {segments : List (List Char)}
    (h : ∀ segment ∈ segments, isComponent segment = true) : trimSegments segments = segments := by
  cases segments with
  | nil =>
      rfl
  | cons first rest =>
      have hfirst : first.isEmpty = false := by
        have := h first (by simp)
        simp only [isComponent, Bool.and_eq_true, Bool.not_eq_true'] at this
        exact this.1
      have hkept : rest.reverse.dropWhile (fun segment => !isComponent segment) = rest.reverse := by
        cases hrest : rest.reverse with
        | nil =>
            rfl
        | cons last before =>
            have hlast : last ∈ rest := by
              rw [← List.mem_reverse, hrest]
              simp
            simp [h last (List.mem_cons_of_mem _ hlast)]
      simp [trimSegments, hkept, hfirst]

theorem join_of_prefix {sep : List Char} {parts all : List (List Char)} (h : parts <+: all) :
    Text.join sep parts <+: Text.join sep all := by
  induction parts generalizing all with
  | nil =>
      exact List.nil_prefix
  | cons part parts ih =>
      obtain ⟨others, rfl⟩ := h
      cases parts with
      | nil =>
          cases others with
          | nil => exact List.prefix_rfl
          | cons next others => exact (List.prefix_append part sep).trans (List.prefix_append _ _)
      | cons next parts =>
          exact (List.prefix_append_right_inj _).mpr (ih ⟨others, rfl⟩)

/-- Only segments that name nothing are dropped from the end. -/
theorem trimSegments_append_dropped (segments : List (List Char)) :
    ∃ dropped, segments = trimSegments segments ++ dropped ∧
      ∀ segment ∈ dropped, isComponent segment = false := by
  cases segments with
  | nil =>
      exact ⟨[], rfl, by simp⟩
  | cons first rest =>
      have hdropped : ∀ segment ∈
          (rest.reverse.takeWhile fun segment => !isComponent segment).reverse,
          isComponent segment = false := by
        intro segment hmem
        simpa using List.all_eq_true.mp List.all_takeWhile segment (List.mem_reverse.mp hmem)
      have hrest : rest = (rest.reverse.dropWhile fun segment => !isComponent segment).reverse ++
          (rest.reverse.takeWhile fun segment => !isComponent segment).reverse := by
        rw [← List.reverse_append, List.takeWhile_append_dropWhile, List.reverse_reverse]
      simp only [trimSegments]
      split
      · next hempty =>
          obtain ⟨hkept, hfirst⟩ : (rest.reverse.dropWhile fun segment => !isComponent segment) =
            [] ∧ first = [] := by
              simpa using hempty
          refine ⟨first :: rest, rfl, fun segment hmem => ?_⟩
          rcases List.mem_cons.mp hmem with rfl | hmem
          · simp [hfirst, isComponent]
          · rw [hkept] at hrest
            exact hdropped segment (by rwa [hrest] at hmem)
      · exact ⟨_, congrArg (first :: ·) hrest, hdropped⟩

/-- What is kept ends with a component, unless it names nothing at all. -/
theorem trimSegments_cases (segments : List (List Char)) :
    (∀ segment ∈ trimSegments segments, isComponent segment = false) ∨
      ∃ front last, trimSegments segments = front ++ [last] ∧ isComponent last = true := by
  cases segments with
  | nil =>
      exact Or.inl (by simp [trimSegments])
  | cons first rest =>
      simp only [trimSegments]
      split
      · exact Or.inl (by simp)
      · cases hkept : rest.reverse.dropWhile fun segment => !isComponent segment with
        | nil =>
            cases hfirst : isComponent first with
            | false => exact Or.inl (by simp [hfirst])
            | true => exact Or.inr ⟨[], first, rfl, hfirst⟩
        | cons last before =>
            have hlast :=
              List.head_dropWhile_not (fun segment => !isComponent segment) (l := rest.reverse)
                (by simp [hkept])
            simp only [hkept, List.head_cons] at hlast
            exact Or.inr ⟨first :: before.reverse, last, by simp, by simpa using hlast⟩

/-- What comes behind the last component is dropped, and nothing else. -/
theorem trimSegments_of_idle {front trailing : List (List Char)} {last : List Char}
    (h : isComponent last = true) (hidle : ∀ segment ∈ trailing, isComponent segment = false) :
    trimSegments (front ++ last :: trailing) = front ++ [last] := by
  have hne : last ≠ [] := by
    rintro rfl
    cases h
  have hskip : ∀ segment ∈ trailing.reverse, (!isComponent segment) = true := by
    intro segment hmem
    rw [hidle segment (List.mem_reverse.mp hmem)]
    rfl
  cases front with
  | nil => simp [trimSegments, List.dropWhile_eq_nil_iff.mpr hskip, hne]
  | cons first rest => simp [trimSegments, List.dropWhile_append_of_pos hskip, h]

theorem trimSegments_concat {front : List (List Char)} {last : List Char}
    (h : isComponent last = true) :
    trimSegments (front ++ [last]) = front ++ [last] :=
  trimSegments_of_idle h (by simp)

/-- What is kept ends with a component, or it is a dot at the start. -/
theorem trimSegments_getLast? {segments : List (List Char)} {last : List Char}
    (h : (trimSegments segments).getLast? = some last) :
    isComponent last = true ∨ last = ['.'] := by
  cases segments with
  | nil =>
      simp [trimSegments] at h
  | cons first rest =>
      simp only [trimSegments] at h
      split at h
      · cases h
      · next hempty =>
          cases hkept : rest.reverse.dropWhile fun segment => !isComponent segment with
          | nil =>
              have hfirst : first ≠ [] := by simpa [hkept] using hempty
              have hlast : first = last := by simpa [hkept] using h
              rw [← hlast]
              by_cases hdot : first = ['.']
              · exact Or.inr hdot
              · exact Or.inl (by simp [isComponent, hfirst, hdot])
          | cons other before =>
              have hother :=
                List.head_dropWhile_not (fun segment => !isComponent segment) (l := rest.reverse)
                  (by simp [hkept])
              simp only [hkept, List.head_cons] at hother
              rw [hkept, List.reverse_cons, ← List.cons_append, List.getLast?_concat,
                Option.some.injEq] at h
              exact Or.inl (by simpa [h] using hother)

/-- An empty segment is only kept in front of a component. -/
theorem trimSegments_eq_nil_cons {segments kept : List (List Char)}
    (h : trimSegments segments = [] :: kept) : kept ≠ [] := by
  rintro rfl
  cases segments with
  | nil =>
      cases h
  | cons first rest =>
      simp only [trimSegments] at h
      split at h
      · cases h
      · next hkept =>
          obtain ⟨rfl, hnil⟩ := List.cons.inj h
          exact hkept (by rw [hnil]; rfl)

theorem isAbsolute_of_front {path : Path} {kept : List (List Char)}
    (hfirst : kept <+: path.segments) (hne : kept ≠ [])
    (htrim : ∀ rest, kept = [] :: rest → rest ≠ []) : (∃ rest, rest ≠ [] ∧ kept = [] :: rest) ↔
      path.isAbsolute = true := by
  rw [isAbsolute_iff]
  obtain ⟨dropped, hdropped⟩ := hfirst
  cases kept with
  | nil =>
      exact absurd rfl hne
  | cons first rest =>
      rw [← hdropped, List.cons_append]
      constructor
      · rintro ⟨rest', hrest, heq⟩
        cases heq
        exact ⟨rest ++ dropped, by simp [hrest], rfl⟩
      · rintro ⟨rest', _, heq⟩
        cases heq
        exact ⟨rest, htrim rest rfl, rfl⟩

/-- The directory of a path consists of the first segments of the path, and it is
absolute if the path is. -/
theorem parent?_segments {path parent : Path} (h : path.parent? = some parent) :
    parent.isAbsolute = path.isAbsolute ∧
      ∃ kept, kept <+: path.segments ∧
        (parent.segments = kept ∨ kept = [] ∧ ∀ segment ∈ parent.segments, segment = []) := by
  unfold parent? at h
  cases htrim : (trimSegments path.segments).reverse with
  | nil =>
      simp [htrim] at h
  | cons last before =>
      simp only [htrim] at h
      by_cases hkept : trimSegments before.reverse = []
      · by_cases habs : path.isAbsolute = true
        · obtain rfl : ⟨['/']⟩ = parent := by simpa [hkept, habs] using h
          exact ⟨habs.symm, [], List.nil_prefix, Or.inr ⟨rfl, by decide⟩⟩
        · obtain rfl : ⟨[]⟩ = parent := by simpa [hkept, habs, Text.join] using h
          exact ⟨by simpa [isAbsolute] using habs, [], List.nil_prefix, Or.inr ⟨rfl, by decide⟩⟩
      · obtain rfl : ⟨Text.join ['/'] (trimSegments before.reverse)⟩ = parent := by
          simpa [hkept] using h
        have hfirst : trimSegments before.reverse <+: path.segments := by
          have hbefore : before.reverse ++ [last] = trimSegments path.segments := by
            rw [← List.reverse_cons, ← htrim, List.reverse_reverse]
          refine ( trimSegments_prefix _).trans ((List.prefix_append _ [last]).trans ?_)
          rw [hbefore]
          exact trimSegments_prefix _
        have hsegments : segments ⟨Text.join ['/'] (trimSegments before.reverse)⟩ =
            trimSegments before.reverse :=
          Text.cut_join hkept fun part hpart => not_mem_of_mem_segments (hfirst.subset hpart)
        refine ⟨?_, _, hfirst, Or.inl hsegments⟩
        rw [Bool.eq_iff_iff, isAbsolute_iff, hsegments]
        exact isAbsolute_of_front hfirst hkept fun rest => trimSegments_eq_nil_cons

theorem parent?_eq_some {path : Path} {front trailing : List (List Char)} {last : List Char}
    (hsegments : path.segments = front ++ last :: trailing) (hlast : isComponent last = true)
    (hidle : ∀ segment ∈ trailing, isComponent segment = false) :
    path.parent? = some (if (trimSegments front).isEmpty && path.isAbsolute then ⟨['/']⟩
      else ⟨Text.join ['/'] (trimSegments front)⟩) := by
  rw [parent?, hsegments, trimSegments_of_idle hlast hidle, List.reverse_append]
  simp only [List.reverse_cons, List.reverse_nil, List.nil_append, List.cons_append,
    List.reverse_reverse]
  split <;> rfl

/-- The directory of a path has the segments in front of the last component, but for the last ones
that name nothing. -/
theorem parent?_of_idle {path : Path} {front trailing : List (List Char)} {last : List Char}
    (hsegments : path.segments = front ++ last :: trailing) (hlast : isComponent last = true)
    (hidle : ∀ segment ∈ trailing, isComponent segment = false) :
    ∃ parent, path.parent? = some parent ∧ parent.text <+: path.text ∧
      ((∀ segment ∈ front, isComponent segment = false) ∧
        (∀ segment ∈ parent.segments, isComponent segment = false) ∨
        ∃ before name dropped, parent.segments = before ++ [name] ∧ isComponent name = true ∧
          front = before ++ [name] ++ dropped ∧
          ∀ segment ∈ dropped, isComponent segment = false) := by
  obtain ⟨dropped, hfront, hdropped⟩ := trimSegments_append_dropped front
  refine ⟨_, parent?_eq_some hsegments hlast hidle, ?_, ?_⟩
  · split
    · next hroot =>
        have habs : path.text.head? = some '/' := by
          simpa [isAbsolute] using (Bool.and_eq_true_iff.mp hroot).2
        obtain ⟨rest, hrest⟩ : ∃ rest, path.text = '/' :: rest := by
          cases htext : path.text with
          | nil => simp [htext] at habs
          | cons c rest => exact ⟨rest, by simpa [htext] using habs⟩
        exact ⟨rest, hrest.symm⟩
    · have hkept : trimSegments front <+: front := trimSegments_prefix front
      rw [← Text.join_cut '/' path.text]
      exact join_of_prefix (hkept.trans ⟨last :: trailing, hsegments.symm⟩)
  · have hslashless : ∀ segment ∈ trimSegments front, '/' ∉ segment := by
      intro segment hmem
      have hfront : segment ∈ front := ( trimSegments_prefix front).subset hmem
      exact not_mem_of_mem_segments (hsegments ▸ List.mem_append_left (last :: trailing) hfront)
    rcases trimSegments_cases front with hnone | ⟨before, name, hkept, hname⟩
    · refine Or.inl ⟨fun segment hmem => ?_, ?_⟩
      · rw [hfront] at hmem
        exact (List.mem_append.mp hmem).elim (hnone segment) (hdropped segment)
      · split
        · decide
        · by_cases hempty : trimSegments front = []
          · rw [hempty]
            decide
          · rw [segments, Text.cut_join hempty hslashless]
            exact hnone
    · refine Or.inr ⟨before, name, dropped, ?_, hname, hkept ▸ hfront, hdropped⟩
      rw [hkept] at hslashless ⊢
      rw [if_neg (by simp), segments, Text.cut_join (by simp) hslashless]

end Parents

section Endings

/-- The segments of a path behind its last component: dots, and what stands between slashes or
behind the last one. -/
def ending (path : Path) : List (List Char) :=
  (path.segments.reverse.takeWhile fun segment => !isComponent segment).reverse

variable {path : Path}

theorem not_isComponent_of_mem_ending {segment : List Char} (h : segment ∈ path.ending) :
    isComponent segment = false := by
  simpa using List.all_eq_true.mp List.all_takeWhile segment (List.mem_reverse.mp h)

/-- In front of its ending a path that names something has its last component. -/
theorem exists_segments_eq (h : path.segments.filter isComponent ≠ []) :
    ∃ front last, path.segments = front ++ last :: path.ending ∧ isComponent last = true := by
  have hsplit : path.segments =
      (path.segments.reverse.dropWhile fun segment => !isComponent segment).reverse ++
        path.ending := by
    rw [ending, ← List.reverse_append, List.takeWhile_append_dropWhile, List.reverse_reverse]
  cases hkept : path.segments.reverse.dropWhile fun segment => !isComponent segment with
  | nil =>
      rw [hkept, List.reverse_nil, List.nil_append] at hsplit
      refine absurd (List.filter_eq_nil_iff.mpr fun segment hmem => ?_) h
      rw [hsplit] at hmem
      simp [not_isComponent_of_mem_ending hmem]
  | cons last before =>
      have hlast :=
        List.head_dropWhile_not (fun segment => !isComponent segment) (l := path.segments.reverse)
          (by simp [hkept])
      simp only [hkept, List.head_cons] at hlast
      refine ⟨before.reverse, last, ?_, by simpa using hlast⟩
      rw [hkept, List.reverse_cons, List.append_assoc, List.singleton_append] at hsplit
      exact hsplit

theorem ending_of_concat {front : List (List Char)} {last : List Char}
    (hsegments : path.segments = front ++ [last]) (hlast : isComponent last = true) :
    path.ending = [] := by
  simp [ending, hsegments, hlast]

end Endings

/-- A path that stays in the directory from which it is seen: it does not start at the root, and
no segment goes up. -/
structure IsInner (path : Path) : Prop where
  relative : path.isAbsolute = false
  dotless : ['.', '.'] ∉ path.segments

section Inner

variable {left right : Path}

theorem isInner_empty : IsInner ⟨[]⟩ :=
  ⟨rfl, by decide⟩

theorem isInner_join_iff : (left.join right).IsInner ↔ left.IsInner ∧ right.IsInner := by
  cases habs : right.isAbsolute with
  | true =>
      have hright : ¬ right.IsInner := fun h => by simp [h.relative] at habs
      rw [join_of_isAbsolute habs]
      exact iff_of_false hright fun h => hright h.2
  | false =>
      obtain ⟨front, hjoin, hleft⟩ := segments_join left habs
      have hdots : ['.', '.'] ∈ left.segments ↔ ['.', '.'] ∈ front := by
        rcases hleft with hleft | hleft <;> simp [hleft]
      constructor
      · rintro ⟨hrelative, hdotless⟩
        rw [isAbsolute_join habs] at hrelative
        rw [hjoin, List.mem_append, not_or, ← hdots] at hdotless
        exact ⟨⟨hrelative, hdotless.1⟩, ⟨habs, hdotless.2⟩⟩
      · rintro ⟨hinner, hinner'⟩
        refine ⟨(isAbsolute_join habs).trans hinner.relative, ?_⟩
        rw [hjoin, List.mem_append, not_or, ← hdots]
        exact ⟨hinner.dotless, hinner'.dotless⟩

/-- The directory of a path that stays inside does so as well. -/
theorem IsInner.of_parent? {path parent : Path} (hinner : path.IsInner)
    (h : path.parent? = some parent) :
    parent.IsInner := by
  obtain ⟨habs, kept, hfront, hkept⟩ := parent?_segments h
  refine ⟨habs.trans hinner.relative, fun hdots => ?_⟩
  rcases hkept with hkept | ⟨_, hempty⟩
  · exact hinner.dotless (hfront.subset (hkept ▸ hdots))
  · cases hempty _ hdots

end Inner

end Path
end Tunables
