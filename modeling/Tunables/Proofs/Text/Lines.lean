import Tunables.Text.Lines

/-!
# Cutting texts into lines

How the lines of a text come about: a text without a line feed is one line, and a text with
one is cut behind it.

* `lines_append`: a text is cut behind each line feed; `length_lines`: so it has as many
  lines as line feeds.
* `lines_append_of_not_mem`: what stands in front of a text belongs to the first of its lines.
* `not_mem_singleLine`: a text that was written on one line has no line feeds and no carriage
  returns.
-/

namespace Tunables
namespace Text

theorem lines_of_not_mem {text : List Char} (hne : text ≠ []) (h : '\n' ∉ text) :
    lines text = [text] := by
  induction text with
  | nil =>
      exact absurd rfl hne
  | cons c cs ih =>
      obtain ⟨hc, hcs⟩ : '\n' ≠ c ∧ '\n' ∉ cs := by simpa using h
      rw [lines, if_neg (Ne.symm hc)]
      by_cases hnil : cs = []
      · simp [hnil, lines]
      · simp [ih hnil hcs]

theorem lines_append_lineFeed {line : List Char} (h : '\n' ∉ line) (more : List Char) :
    lines (line ++ '\n' :: more) = (line ++ ['\n']) :: lines more := by
  induction line with
  | nil =>
      simp [lines]
  | cons c cs ih =>
      obtain ⟨hc, hcs⟩ : '\n' ≠ c ∧ '\n' ∉ cs := by simpa using h
      rw [List.cons_append, lines, if_neg (Ne.symm hc)]
      simp [ih hcs]

theorem lines_ne_nil {text : List Char} (h : text ≠ []) : lines text ≠ [] := by
  intro hlines
  have hflatten := flatten_lines text
  rw [hlines] at hflatten
  exact h hflatten.symm

theorem head?_of_lines {text line : List Char} {others : List (List Char)}
    (h : lines text = line :: others) :
    line.head? = text.head? := by
  cases text with
  | nil => cases h
  | cons c cs =>
      rw [lines] at h
      split at h
      · obtain ⟨rfl, _⟩ := List.cons.inj h
        rfl
      · split at h
        · obtain ⟨rfl, _⟩ := List.cons.inj h
          rfl
        · obtain ⟨rfl, _⟩ := List.cons.inj h
          rfl

/-- A text is cut behind every line feed. -/
theorem lines_append (before after : List Char) :
    lines (before ++ '\n' :: after) = lines (before ++ ['\n']) ++ lines after := by
  induction before with
  | nil =>
      simp [lines]
  | cons c cs ih =>
      by_cases hc : c = '\n'
      · simp [lines, hc, ih]
      · obtain ⟨line, others, hlines⟩ :=
          List.exists_cons_of_ne_nil (lines_ne_nil (List.concat_ne_nil '\n' cs))
        simp [lines, hc, ih, hlines]

/-- What stands in front of a text without a line feed belongs to its first line. -/
theorem lines_append_of_not_mem {front text line : List Char} {others : List (List Char)}
    (h : '\n' ∉ front) (hlines : lines text = line :: others) :
    lines (front ++ text) = (front ++ line) :: others := by
  induction front with
  | nil =>
      exact hlines
  | cons c cs ih =>
      obtain ⟨hc, hcs⟩ : '\n' ≠ c ∧ '\n' ∉ cs := by simpa using h
      rw [List.cons_append, lines, if_neg (Ne.symm hc), ih hcs]
      rfl

@[simp] theorem lineFeeds_append (before after : List Char) :
    lineFeeds (before ++ after) = lineFeeds before + lineFeeds after :=
  List.count_append

theorem lineFeeds_eq_zero_iff {text : List Char} : lineFeeds text = 0 ↔ '\n' ∉ text :=
  List.count_eq_zero

theorem length_lines (text : List Char) : (lines (text ++ ['\n'])).length = lineFeeds text + 1 := by
  induction text with
  | nil =>
      rfl
  | cons c cs ih =>
      by_cases hc : c = '\n'
      · simp [lines, lineFeeds, hc] at ih ⊢
        exact ih
      · obtain ⟨line, others, hlines⟩ :=
          List.exists_cons_of_ne_nil (lines_ne_nil (List.concat_ne_nil '\n' cs))
        rw [hlines] at ih
        simp [lines, lineFeeds, hc, hlines] at ih ⊢
        exact ih

theorem mem_of_mem_lines {text line : List Char} {c : Char} (hline : line ∈ lines text)
    (hc : c ∈ line) : c ∈ text := by
  rw [← flatten_lines text]
  exact List.mem_flatten_of_mem hline hc

/-- No line break of any kind is left in a text on one line. -/
theorem not_mem_singleLine (text : List Char) :
    '\n' ∉ singleLine text ∧ '\r' ∉ singleLine text := by
  fun_induction singleLine text with
  | case1 => simp
  | case2 cs ih => simpa using ih
  | case3 c cs _ ih =>
      by_cases hc : c = '\n' ∨ c = '\r'
      · simpa [hc] using ih
      · simp only [not_or] at hc
        simp [hc, ih, Ne.symm hc.1, Ne.symm hc.2]

end Text
end Tunables
