import Mathlib.Data.List.Basic
import Tunables.Proofs.Text.Quoted

/-!
# String literals of C

A reader for the string literals of C and C++ without a prefix.  Of the escapes it only has to know
those that generated files use.  What a compiler makes of others is left open: numbers, letters for
other control characters, a line that is continued.

* `readLiteral`: the text of a literal, and what is left behind it.
* `readLiteral_of_readCLiteral`: what the reader for the literals of the generated files reads,
  every compiler reads alike.
* `readLiteral_escaped`: a text that was escaped is read back, and so is the name of a file if no
  line breaks are in it.
-/

namespace Tunables
namespace Cpp

open Tunables.Text (escapeC escapeLinePath isLineBreak map_withFront_eq_some readCLiteral readCRest
  unescapeC? withFront)

/-- What is written behind a backslash: what it stands for, and how many characters it has.  The
other escapes are those of a compiler; one that knows none gives nothing for them. -/
def escape? (others : List Char → Option (List Char × Nat)) : List Char → Option (List Char × Nat)
  | [] => none
  | c :: rest =>
      match unescapeC? c with
      | some d => some ([d], 1)
      | none => others (c :: rest)

/-- Reads a literal behind its opening quote. -/
def literalRest (others : List Char → Option (List Char × Nat)) :
    List Char → Option (List Char × List Char)
  | [] => none
  | '"' :: rest => some ([], rest)
  | '\\' :: rest =>
      match escape? others rest with
      | some (text, count) =>
          (literalRest others (rest.drop count)).map fun read => (text ++ read.1, read.2)
      | none => none
  | c :: rest => if isLineBreak c then none else (literalRest others rest).map (withFront c)
termination_by cs => cs.length
decreasing_by all_goals grind

/-- Reads a literal. -/
def readLiteral (others : List Char → Option (List Char × Nat)) :
    List Char → Option (List Char × List Char)
  | '"' :: rest => literalRest others rest
  | _ => none

/-- A character in the name of a file: a backslash stands in front of backslashes and quotes. -/
def escapeFileChar (c : Char) : List Char :=
  if c = '\\' ∨ c = '"' then ['\\', c] else [c]

section Reading

variable {others : List Char → Option (List Char × Nat)} {c d : Char} {cs text rest : List Char}

theorem literalRest_escaped (h : unescapeC? c = some d) (rest : List Char) :
    literalRest others ('\\' :: c :: rest) = (literalRest others rest).map (withFront d) := by
  rw [literalRest, escape?, h]
  rfl

theorem literalRest_plain (hbackslash : c ≠ '\\') (hquote : c ≠ '"')
    (hbreak : isLineBreak c = false) (rest : List Char) :
    literalRest others (c :: rest) = (literalRest others rest).map (withFront c) := by
  rw [literalRest]
  · simp [hbreak]
  · exact hquote
  · exact hbackslash

theorem literalRest_lineBreak (h : isLineBreak c = true) (rest : List Char) :
    literalRest others (c :: rest) = none := by
  rw [literalRest]
  · simp [h]
  · rintro rfl
    cases h
  · rintro rfl
    cases h

theorem literalRest_of_readCRest (others : List Char → Option (List Char × Nat))
    (h : readCRest cs = some (text, rest)) :
    literalRest others cs = some (text, rest) := by
  fun_induction readCRest cs generalizing text with
  | case1 => cases h
  | case2 =>
      cases h
      rw [literalRest]
  | case3 c more d hd ih =>
      obtain ⟨behind, hread, rfl⟩ := map_withFront_eq_some h
      rw [literalRest_escaped hd, ih hread]
      rfl
  | case4 => cases h
  | case5 => cases h
  | case6 c more hquote _ hplain ih =>
      obtain ⟨behind, hread, rfl⟩ := map_withFront_eq_some h
      simp only [Bool.or_eq_true, decide_eq_true_eq, not_or, Bool.not_eq_true] at hplain
      rw [literalRest_plain hplain.1 hquote hplain.2, ih hread]
      rfl

/-- The two readers read alike what both can read. -/
theorem readLiteral_of_readCLiteral (others : List Char → Option (List Char × Nat))
    (h : readCLiteral cs = some (text, rest)) : readLiteral others cs = some (text, rest) := by
  unfold readCLiteral at h
  split at h
  · exact literalRest_of_readCRest others h
  · cases h

end Reading

section Writing

variable {others : List Char → Option (List Char × Nat)} {path : List Char}

/-- The two passes over the name of a file escape every character by itself. -/
theorem escapeLinePath_eq_flatMap_escapeFileChar (path : List Char) :
    escapeLinePath path = path.flatMap escapeFileChar := by
  rw [Text.escapeLinePath_eq_flatMap]
  refine List.flatMap_congr fun c _ => ?_
  unfold escapeFileChar
  by_cases hbackslash : c = '\\'
  · simp [hbackslash]
  · by_cases hquote : c = '"' <;> simp [hbackslash, hquote]

/-- A line break is not escaped in the name of a file, so that no literal comes of it. -/
theorem literalRest_fileChars_of_lineBreak (h : ∃ c ∈ path, isLineBreak c = true)
    (rest : List Char) :
    literalRest others (path.flatMap escapeFileChar ++ rest) = none := by
  induction path with
  | nil =>
      obtain ⟨c, hmem, _⟩ := h
      cases hmem
  | cons c path ih =>
      rw [List.flatMap_cons, List.append_assoc, escapeFileChar]
      by_cases hescaped : c = '\\' ∨ c = '"'
      · have hown : unescapeC? c = some c ∧ isLineBreak c = false := by
          rcases hescaped with rfl | rfl <;> exact ⟨rfl, rfl⟩
        have hlater : ∃ d ∈ path, isLineBreak d = true := by simpa [hown.2] using h
        rw [if_pos hescaped, List.cons_append, List.cons_append, List.nil_append,
          literalRest_escaped hown.1, ih hlater]
        rfl
      · obtain ⟨hbackslash, hquote⟩ := not_or.mp hescaped
        rw [if_neg hescaped, List.singleton_append]
        cases hbreak : isLineBreak c with
        | true => exact literalRest_lineBreak hbreak _
        | false =>
            have hlater : ∃ d ∈ path, isLineBreak d = true := by simpa [hbreak] using h
            rw [literalRest_plain hbackslash hquote hbreak, ih hlater]
            rfl

/-- **Literals are read back.**  Wherever an escaped text stands between quotes, every compiler
stops right behind it and finds the text.  So it is with the name of a file, unless it has a line
break, and then there is no literal; its two passes escape every character by itself. -/
theorem readLiteral_escaped (others : List Char → Option (List Char × Nat))
    (text rest : List Char) :
    readLiteral others ('"' :: (escapeC text ++ '"' :: rest)) = some (text, rest) ∧
      readLiteral others ('"' :: (escapeLinePath text ++ '"' :: rest)) =
        (if text.any isLineBreak then none else some (text, rest)) ∧
      escapeLinePath text = text.flatMap escapeFileChar := by
  have hfile := escapeLinePath_eq_flatMap_escapeFileChar text
  refine ⟨literalRest_of_readCRest others (Text.readCRest_escapeC text rest), ?_, hfile⟩
  split
  · next hbreak =>
    rw [hfile]
    exact literalRest_fileChars_of_lineBreak (List.any_eq_true.mp hbreak) _
  · next hplain =>
    refine readLiteral_of_readCLiteral others
      (Text.readCLiteral_escapeLinePath (fun c hmem => ?_) rest)
    exact Bool.eq_false_iff.mpr fun hbreak => hplain (List.any_eq_true.mpr ⟨c, hmem, hbreak⟩)

end Writing

end Cpp
end Tunables
