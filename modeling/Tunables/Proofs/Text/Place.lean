import Tunables.Proofs.Text.Lines

/-!
# The line of a place

A place in a text is a number of bytes, and its line is found by counting the line feeds in front of
it.  Counting them takes the first bytes of the text to be a text again, which they are not where a
place is inside of a character.

* `front?`: the characters of the first bytes of a text; `front?_eq_some_iff`: there are such
  characters exactly at the places between two characters.
* `countedLine?`: the line of a place by counting, behind the end the last one;
  `countedLine?_eq_some_iff`: where line feeds can be counted.
* `feedsBefore_mono`, `feedsBefore_of_byteLength_le`, `feedsBefore_append_cons`: how their number
  changes with the place.
* `toNat_lineAt`: the number of a line is no other one, as long as 32 bits are enough for it.
* `lineFeeds_lt_length_lines`: the line of a character is one of the lines of its text.
-/

namespace Tunables
namespace Text

/-- The characters of the first bytes of a text.  The last byte must not be inside of a character
or behind the end. -/
def front? : List Char → Nat → Option (List Char)
  | _, 0 => some []
  | [], _ + 1 => none
  | c :: cs, n + 1 =>
      if n + 1 < c.utf8Size then none else (front? cs (n + 1 - c.utf8Size)).map (c :: ·)

/-- The line of a place by the line feeds in front of it.  A place behind the end is
taken for the end. -/
def countedLine? (text : List Char) (offset : Nat) : Option Nat :=
  (front? text (min offset (byteLength text))).map fun before => lineFeeds before + 1

section Fronts

variable {text before : List Char} {n : Nat}

theorem length_le_byteLength (text : List Char) : text.length ≤ byteLength text := by
  induction text with
  | nil => exact Nat.le_refl 0
  | cons c cs ih =>
      have hsize := c.utf8Size_pos
      simp only [List.length_cons, byteLength]
      omega

theorem front?_append (before after : List Char) :
    front? (before ++ after) (byteLength before) = some before := by
  induction before with
  | nil =>
      rw [byteLength, front?]
  | cons c cs ih =>
      obtain ⟨k, hk⟩ := Nat.exists_eq_add_one.mpr (Nat.add_pos_left c.utf8Size_pos (byteLength cs))
      have hrest : k + 1 - c.utf8Size = byteLength cs := by omega
      rw [byteLength, List.cons_append, hk, front?, if_neg (by omega), hrest, ih]
      rfl

/-- The first bytes of a text are a text exactly if they end between two of its characters. -/
theorem front?_eq_some_iff :
    front? text n = some before ↔ ∃ after, text = before ++ after ∧ n = byteLength before := by
  constructor
  · intro h
    fun_induction front? text n generalizing before with
    | case1 text =>
        cases h
        exact ⟨text, rfl, rfl⟩
    | case2 => cases h
    | case3 => cases h
    | case4 c cs n hle ih =>
        obtain ⟨front, hfront, rfl⟩ := Option.map_eq_some_iff.mp h
        obtain ⟨after, rfl, hn⟩ := ih hfront
        refine ⟨after, rfl, ?_⟩
        simp only [byteLength]
        omega
  · rintro ⟨after, rfl, rfl⟩
    exact front?_append before after

end Fronts

section Lines

variable {text : List Char} {offset line : Nat}

theorem feedsBefore_mono (text : List Char) {a b : Nat} (h : a ≤ b) :
    feedsBefore text a ≤ feedsBefore text b := by
  induction text generalizing a b with
  | nil => exact Nat.le_refl 0
  | cons c cs ih =>
      by_cases ha : a < c.utf8Size
      · rw [feedsBefore, if_pos ha]
        exact Nat.zero_le _
      · have hb : ¬ b < c.utf8Size := by omega
        simp only [feedsBefore, if_neg ha, if_neg hb]
        exact Nat.add_le_add_right (ih (Nat.sub_le_sub_right h c.utf8Size)) _

theorem feedsBefore_of_byteLength_le (h : byteLength text ≤ offset) :
    feedsBefore text offset = lineFeeds text := by
  induction text generalizing offset with
  | nil => rfl
  | cons c cs ih =>
      simp only [byteLength] at h
      rw [feedsBefore, if_neg (by omega), ih (by omega)]
      by_cases hc : c = '\n' <;> simp [lineFeeds, hc]

theorem feedsBefore_le (text : List Char) (offset : Nat) :
    feedsBefore text offset ≤ lineFeeds text := by
  rw [← feedsBefore_of_byteLength_le (Nat.le_max_left (byteLength text) offset)]
  exact feedsBefore_mono text (Nat.le_max_right _ _)

/-- In a text whose lines can be numbered with 32 bits the number of a line is greater by one than
that of the line feeds in front of it. -/
theorem toNat_lineAt (h : lineFeeds text + 1 < UInt32.size) (offset : Nat) :
    (lineAt text offset).toNat = feedsBefore text offset + 1 := by
  have hfeeds := feedsBefore_le text offset
  have hsize : UInt32.size = 2 ^ 32 := rfl
  rw [lineAt, UInt32.toNat_add, UInt32.toNat_ofNat_of_lt' (by omega)]
  exact Nat.mod_eq_of_lt (by simp only [UInt32.toNat_one]; omega)

/-- A place further on is on the same line or on a later one. -/
theorem lineAt_mono (h : lineFeeds text + 1 < UInt32.size) {a b : Nat} (hle : a ≤ b) :
    lineAt text a ≤ lineAt text b := by
  rw [UInt32.le_iff_toNat_le, toNat_lineAt h, toNat_lineAt h]
  exact Nat.add_le_add_right (feedsBefore_mono text hle) 1

/-- A place behind the end is on the last line. -/
theorem lineAt_of_byteLength_le (h : byteLength text ≤ offset) :
    lineAt text offset = lineAt text (byteLength text) := by
  rw [lineAt, lineAt, feedsBefore_of_byteLength_le h, feedsBefore_of_byteLength_le (Nat.le_refl _)]

/-- Behind a character there is one line feed more in front if the character is one. -/
theorem feedsBefore_append_cons (before : List Char) (c : Char) (after : List Char) :
    feedsBefore (before ++ c :: after) (byteLength before + c.utf8Size) =
      feedsBefore (before ++ c :: after) (byteLength before) + if c = '\n' then 1 else 0 := by
  have hbehind := feedsBefore_append (before ++ [c]) after
  rw [byteLength_append, List.append_assoc, List.singleton_append, lineFeeds_append] at hbehind
  rw [byteLength, byteLength, Nat.add_zero] at hbehind
  rw [hbehind, feedsBefore_append]
  by_cases hc : c = '\n' <;> simp [lineFeeds, hc]

theorem countedLine?_append (before after : List Char) :
    countedLine? (before ++ after) (byteLength before) = some (lineFeeds before + 1) := by
  have hmin : min (byteLength before) (byteLength (before ++ after)) = byteLength before := by
    rw [byteLength_append]
    omega
  rw [countedLine?, hmin, front?_append]
  rfl

theorem countedLine?_of_byteLength_le (h : byteLength text ≤ offset) :
    countedLine? text offset = some (lineFeeds text + 1) := by
  have hend := countedLine?_append text []
  rw [List.append_nil] at hend
  rwa [countedLine?, Nat.min_eq_right h, ← Nat.min_self (byteLength text)]

/-- Line feeds can be counted in front of every place between two characters, and in front of the
places behind the end. -/
theorem countedLine?_eq_some_iff : countedLine? text offset = some line ↔
    line = feedsBefore text offset + 1 ∧
      (byteLength text ≤ offset ∨ ∃ before after, text = before ++ after ∧
        offset = byteLength before) := by
  by_cases hend : byteLength text ≤ offset
  · rw [countedLine?_of_byteLength_le hend, feedsBefore_of_byteLength_le hend]
    simp [hend, eq_comm]
  · have hmin : min offset (byteLength text) = offset := by omega
    rw [countedLine?, hmin, Option.map_eq_some_iff]
    simp only [front?_eq_some_iff, hend, false_or]
    constructor
    · rintro ⟨before, ⟨after, rfl, rfl⟩, rfl⟩
      rw [feedsBefore_append]
      exact ⟨rfl, before, after, rfl, rfl⟩
    · rintro ⟨rfl, before, after, rfl, rfl⟩
      rw [feedsBefore_append]
      exact ⟨before, ⟨after, rfl, rfl⟩, rfl⟩

/-- A character is on one of the lines of its text. -/
theorem lineFeeds_lt_length_lines (before : List Char) {after : List Char} (h : after ≠ []) :
    lineFeeds before < (lines (before ++ after)).length := by
  induction before with
  | nil => exact List.length_pos_iff.mpr (lines_ne_nil h)
  | cons c cs ih =>
      by_cases hc : c = '\n'
      · simp [lines, lineFeeds, hc] at ih ⊢
        exact ih
      · obtain ⟨line, others, hlines⟩ :=
          List.exists_cons_of_ne_nil (lines_ne_nil (List.append_ne_nil_of_right_ne_nil cs h))
        rw [hlines] at ih
        simp [lines, lineFeeds, hc, hlines] at ih ⊢
        exact ih

end Lines

end Text
end Tunables
