import Tunables.Template.Builtin

/-!
# Pieces of templates

How the pieces of a template come about: one equation for each form that a dollar sign can begin,
and what happens to the pieces when more text follows.

* `pieceAfterDollar_braced`, `pieceAfterDollar_unclosed`, `pieceAfterDollar_bare`: the forms.
* `pieces_append_lineFeed`: no piece reaches across a line feed; `pieces_ofLines_cons`: so lines
  are read one by one.
-/

namespace Tunables
namespace Template

section Names

theorem takeWhile_append_of_neg {p : Char → Bool} {d : Char} (hd : p d = false)
    (cs more : List Char) :
    (cs ++ d :: more).takeWhile p = cs.takeWhile p := by
  induction cs with
  | nil =>
      simp [hd]
  | cons c cs ih =>
      simp [List.takeWhile_cons, ih]

theorem dropWhile_append_of_neg {p : Char → Bool} {d : Char} (hd : p d = false)
    (cs more : List Char) :
    (cs ++ d :: more).dropWhile p = cs.dropWhile p ++ d :: more := by
  induction cs with
  | nil =>
      simp [hd]
  | cons c cs ih =>
      by_cases hc : p c = true
      · simp [hc, ih]
      · simp [hc]

/-- A character that is no part of a name ends the name in front of it. -/
theorem splitName_append_of_neg {d : Char} (hstart : isNameStart d = false)
    (hpart : isNamePart d = false) (cs more : List Char) :
    splitName (cs ++ d :: more) = ((splitName cs).1, (splitName cs).2 ++ d :: more) := by
  cases cs with
  | nil =>
      simp [splitName, hstart]
  | cons c cs =>
      by_cases hc : isNameStart c = true
      · simp [splitName, hc, takeWhile_append_of_neg hpart, dropWhile_append_of_neg hpart]
      · simp [splitName, hc]

end Names

section Forms

theorem pieceAfterDollar_braced {inner name rest : List Char}
    (h : splitName inner = (name, '\x7d' :: rest)) :
    pieceAfterDollar ('\x7b' :: inner) =
      if name.isEmpty then (.stray, '\x7b' :: inner) else (.braced name, rest) := by
  simp [pieceAfterDollar, h]

theorem pieceAfterDollar_unclosed {inner : List Char}
    (h : ∀ rest, (splitName inner).2 ≠ '\x7d' :: rest) :
    pieceAfterDollar ('\x7b' :: inner) = (.stray, '\x7b' :: inner) := by
  simp only [pieceAfterDollar]
  split
  · next name rest hsplit =>
      exact absurd (congrArg Prod.snd hsplit) (h rest)
  · rfl

theorem pieceAfterDollar_bare {cs : List Char}
    (hdollar : cs.head? ≠ some '$') (hbrace : cs.head? ≠ some '\x7b') :
    pieceAfterDollar cs =
      if (splitName cs).1.isEmpty then (.stray, cs)
      else (.bare (splitName cs).1, (splitName cs).2) := by
  rw [pieceAfterDollar]
  · rintro rest rfl
    exact hdollar rfl
  · rintro inner rfl
    exact hbrace rfl

/-- A line feed ends whatever a dollar sign in front of it begins. -/
theorem pieceAfterDollar_append_lineFeed (cs more : List Char) :
    pieceAfterDollar (cs ++ '\n' :: more) =
      ((pieceAfterDollar cs).1, (pieceAfterDollar cs).2 ++ '\n' :: more) := by
  have hsplit : ∀ ds, splitName (ds ++ '\n' :: more) =
      ((splitName ds).1, (splitName ds).2 ++ '\n' :: more) := fun ds =>
    splitName_append_of_neg (by decide) (by decide) ds more
  by_cases hdollar : cs.head? = some '$'
  · obtain ⟨rest, rfl⟩ := List.head?_eq_some_iff.mp hdollar
    rfl
  by_cases hbrace : cs.head? = some '\x7b'
  · obtain ⟨inner, rfl⟩ := List.head?_eq_some_iff.mp hbrace
    by_cases hclosed : ∃ rest, (splitName inner).2 = '\x7d' :: rest
    · obtain ⟨rest, hrest⟩ := hclosed
      have hinner : splitName inner = ((splitName inner).1, '\x7d' :: rest) := by
        rw [← hrest]
      have hmore : splitName (inner ++ '\n' :: more) =
          ((splitName inner).1, '\x7d' :: (rest ++ '\n' :: more)) := by
        rw [hsplit, hrest, List.cons_append]
      rw [List.cons_append, pieceAfterDollar_braced hinner, pieceAfterDollar_braced hmore]
      split <;> rfl
    · have hopen : ∀ rest, (splitName (inner ++ '\n' :: more)).2 ≠ '\x7d' :: rest := by
        intro rest hrest
        rw [hsplit] at hrest
        cases hsecond : (splitName inner).2 with
        | nil =>
            simp [hsecond] at hrest
        | cons c tail =>
            rw [hsecond, List.cons_append, List.cons.injEq] at hrest
            exact hclosed ⟨tail, by rw [hsecond, hrest.1]⟩
      rw [List.cons_append, pieceAfterDollar_unclosed hopen,
        pieceAfterDollar_unclosed fun rest hrest => hclosed ⟨rest, hrest⟩]
      rfl
  · have hhead : ∀ c, c ≠ '\n' → cs.head? ≠ some c → (cs ++ '\n' :: more).head? ≠ some c := by
      intro c hc hcs
      cases cs with
      | nil =>
          simpa using Ne.symm hc
      | cons d ds =>
          simpa using hcs
    rw [pieceAfterDollar_bare (hhead _ (by decide) hdollar) (hhead _ (by decide) hbrace),
      pieceAfterDollar_bare hdollar hbrace, hsplit]
    split <;> rfl

/-- No piece reaches across a line feed. -/
theorem pieces_append_lineFeed (cs more : List Char) :
    pieces (cs ++ '\n' :: more) = pieces cs ++ .char '\n' :: pieces more := by
  fun_induction pieces cs with
  | case1 =>
      rw [List.nil_append, pieces]
      rfl
  | case2 c cs ih =>
      have hnext : nextPiece c (cs ++ '\n' :: more) =
          ((nextPiece c cs).1, (nextPiece c cs).2 ++ '\n' :: more) := by
        unfold nextPiece
        split
        · exact pieceAfterDollar_append_lineFeed cs more
        · rfl
      rw [List.cons_append, pieces, hnext]
      simp only
      rw [ih, List.cons_append]

theorem pieces_ofLines_cons (line : String) (lines : List String) :
    pieces (Templates.ofLines (line :: lines)) =
      pieces line.toList ++ .char '\n' :: pieces (Templates.ofLines lines) := by
  rw [Templates.ofLines, List.flatMap_cons, List.append_assoc]
  exact pieces_append_lineFeed line.toList (Templates.ofLines lines)

end Forms

end Template
end Tunables
