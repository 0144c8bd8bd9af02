import Mathlib
import Tunables.Proofs.Template.Pieces
import Tunables.Proofs.Text.Lines

/-!
# Include guards

A reader for the guard that keeps a header from being compiled twice.  Behind comments and empty
lines, one line asks whether a name is still undefined, and the next one defines it.

Which characters a name may have depends on the compiler, which may take letters beyond ASCII.  A
name ends where the first other character stands, and a compiler passes over the rest of the line.
A backslash could join two lines or stand for some other character, so no line with a backslash is
read.  Comments over several lines are not known, and what follows the two lines is left aside.

* `guard?`: the name of the guard of a text.
* `guard?_of_passed`: the guard behind lines that are passed over.
* `guard?_congr`: a line that is not passed over decides, together with the next one.
-/

namespace Tunables
namespace Cpp

/-- The characters that a compiler takes in names: the common ones at least, but no line feed
and no backslash. -/
structure IsAlphabet (part : Char → Bool) : Prop where
  names : ∀ {c}, isNamePart c = true → part c = true
  lineFeed : part '\n' = false
  backslash : part '\\' = false

/-- A compiler may take the common characters only. -/
theorem isAlphabet_isNamePart : IsAlphabet isNamePart where
  names h := h
  lineFeed := by decide
  backslash := by decide

/-- How a line begins that asks whether a name is undefined. -/
def asks : List Char :=
  "#ifndef ".toList

/-- How a line begins that defines a name. -/
def defines : List Char :=
  "#define ".toList

/-- A comment or an empty line. -/
def isPassed (line : List Char) : Bool :=
  (line == ['\n'] || ['/', '/'].isPrefixOf line) && !line.contains '\\'

/-- The name behind the word that a line begins with. -/
def nameBehind? (part : Char → Bool) (word line : List Char) : Option (List Char) :=
  if word.isPrefixOf line && !line.contains '\\' then
    (some ((line.drop word.length).takeWhile part)).filter fun name =>
      name.head?.any fun c => !c.isDigit
  else none

/-- The name of the guard that the first two lines make. -/
def opened? (part : Char → Bool) : List (List Char) → Option (List Char)
  | line :: next :: _ =>
      (nameBehind? part asks line).filter fun name => nameBehind? part defines next = some name
  | _ => none

/-- The name of the guard of a text. -/
def guard? (part : Char → Bool) (text : List Char) : Option (List Char) :=
  opened? part ((Text.lines text).dropWhile isPassed)

section Lines

variable {part : Char → Bool} {word name line : List Char}

/-- A name is read as far as its characters go. -/
theorem nameBehind?_append (hpart : IsAlphabet part) (hword : '\\' ∉ word) (hname : '\\' ∉ name)
    (hhead : name.head? = some '_') :
    nameBehind? part word (word ++ (name ++ ['\n'])) = some (name.takeWhile part) := by
  obtain ⟨rest, rfl⟩ := List.head?_eq_some_iff.mp hhead
  have hprefix : word.isPrefixOf (word ++ ('_' :: rest ++ ['\n'])) = true :=
    List.isPrefixOf_iff_prefix.mpr (List.prefix_append _ _)
  have hplain : (word ++ ('_' :: rest ++ ['\n'])).contains '\\' = false := by
    have hrest : '\\' ∉ rest := fun hmem => hname (List.mem_cons_of_mem _ hmem)
    simp [hword, hrest]
  have hletter : part '_' = true := hpart.names (by decide)
  rw [nameBehind?, hprefix, hplain, List.drop_left, Template.takeWhile_append_of_neg hpart.lineFeed]
  simp [hletter]

/-- A line that begins with another character than the word has no name. -/
theorem nameBehind?_eq_none {c : Char} (h : line.head? ≠ some c) :
    nameBehind? part (c :: word) line = none := by
  have hprefix : (c :: word).isPrefixOf line = false := by
    rw [Bool.eq_false_iff, ne_eq, List.isPrefixOf_iff_prefix]
    rintro ⟨rest, rfl⟩
    exact h rfl
  rw [nameBehind?, hprefix]
  rfl

/-- A line that is passed over begins with a slash, or it is empty. -/
theorem head?_of_isPassed (h : isPassed line = true) :
    line.head? = some '\n' ∨ line.head? = some '/' := by
  rw [isPassed, Bool.and_eq_true, Bool.or_eq_true, beq_iff_eq, List.isPrefixOf_iff_prefix] at h
  rcases h.1 with rfl | ⟨rest, rfl⟩
  · exact Or.inl rfl
  · exact Or.inr rfl

/-- There is no backslash in lines that are passed over. -/
theorem not_mem_of_isPassed {text : List Char}
    (h : ∀ line ∈ Text.lines text, isPassed line = true) : '\\' ∉ text := by
  rw [← Text.flatten_lines text, List.mem_flatten]
  rintro ⟨line, hline, hback⟩
  have hpassed := h line hline
  simp [isPassed, hback] at hpassed

theorem opened?_append {front back back' : List (List Char)} (hfront : front ≠ [])
    (hback : back.head? = back'.head?) :
    opened? part (front ++ back) = opened? part (front ++ back') := by
  obtain ⟨first, others, rfl⟩ := List.exists_cons_of_ne_nil hfront
  cases others with
  | cons next others => rfl
  | nil =>
      cases back with
      | nil => rw [List.head?_eq_none_iff.mp hback.symm]
      | cons next rest =>
          obtain ⟨rest', rfl⟩ := List.head?_eq_some_iff.mp hback.symm
          rfl

end Lines

section Texts

variable {part : Char → Bool} {front line rest : List Char}

/-- Lines that are passed over stand in front of the guard. -/
theorem guard?_of_passed (h : ∀ line ∈ Text.lines (front ++ ['\n']), isPassed line = true) :
    guard? part (front ++ '\n' :: rest) = guard? part rest := by
  rw [guard?, Text.lines_append, List.dropWhile_append_of_pos h, guard?]

/-- A line that is not passed over decides, together with the next one. -/
theorem guard?_congr {rest' : List Char}
    (hrest : (Text.lines rest).head? = (Text.lines rest').head?)
    (h : ∃ line ∈ Text.lines (front ++ ['\n']), isPassed line = false) :
    guard? part (front ++ '\n' :: rest) = guard? part (front ++ '\n' :: rest') := by
  have hfront : (Text.lines (front ++ ['\n'])).dropWhile isPassed ≠ [] := by
    intro hnil
    obtain ⟨line, hmem, hline⟩ := h
    rw [List.dropWhile_eq_nil_iff.mp hnil line hmem] at hline
    cases hline
  have hread : ∀ rest, guard? part (front ++ '\n' :: rest) =
      opened? part ((Text.lines (front ++ ['\n'])).dropWhile isPassed ++ Text.lines rest) := by
    intro rest
    rw [guard?, Text.lines_append, List.dropWhile_append,
      if_neg (by simpa [List.isEmpty_iff] using hfront)]
  rw [hread, hread, opened?_append hfront hrest]

/-- A line that asks for a name is not passed over. -/
theorem isPassed_asks (line : List Char) : ¬ isPassed (asks ++ line) = true := by
  intro h
  have hhead : some '#' = some '\n' ∨ some '#' = some '/' := head?_of_isPassed h
  revert hhead
  decide

/-- A guard, and the lines that make it. -/
theorem guard?_of_opening {name : List Char} (hpart : IsAlphabet part) (hfeed : '\n' ∉ name)
    (hname : '\\' ∉ name) (hhead : name.head? = some '_') :
    guard? part (asks ++ (name ++ '\n' :: (defines ++ (name ++ '\n' :: rest)))) =
      some (name.takeWhile part) := by
  have hasked : '\n' ∉ asks ++ name := List.not_mem_append (by decide) hfeed
  have hdefined : '\n' ∉ defines ++ name := List.not_mem_append (by decide) hfeed
  have hlines : Text.lines (asks ++ (name ++ '\n' :: (defines ++ (name ++ '\n' :: rest)))) =
      (asks ++ (name ++ ['\n'])) :: (defines ++ (name ++ ['\n'])) :: Text.lines rest := by
    rw [← List.append_assoc, Text.lines_append_lineFeed hasked, ← List.append_assoc,
      Text.lines_append_lineFeed hdefined, List.append_assoc, List.append_assoc]
  rw [guard?, hlines, List.dropWhile_cons_of_neg (isPassed_asks _), opened?,
    nameBehind?_append hpart (by decide) hname hhead,
    nameBehind?_append hpart (by decide) hname hhead]
  simp

/-- There is no guard if the line behind the first one begins with another character. -/
theorem guard?_eq_none (hline : '\n' ∉ line) (hrest : rest.head? ≠ some '#') :
    guard? part (asks ++ (line ++ '\n' :: rest)) = none := by
  have hasked : '\n' ∉ asks ++ line := List.not_mem_append (by decide) hline
  rw [← List.append_assoc, guard?, Text.lines_append_lineFeed hasked, List.append_assoc,
    List.dropWhile_cons_of_neg (isPassed_asks _)]
  cases hlines : Text.lines rest with
  | nil => rfl
  | cons next others =>
      have hnext : nameBehind? part defines next = none := by
        rw [← Text.head?_of_lines hlines] at hrest
        exact nameBehind?_eq_none hrest
      simp [opened?, hnext]

end Texts

end Cpp
end Tunables
