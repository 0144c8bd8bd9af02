/-!
# Lines of a text

Texts are taken apart as lists of characters.  This file holds the few cuts that the rest of the
library makes: at every occurrence of a separator, and after every line feed.

* `cut` never returns the empty list, and joining its parts with the separator gives the
  text back (`join_cut`);
* `lines` keeps the line feeds, so that its parts concatenate to the text (`flatten_lines`);
* `lineAt` finds the line of a byte, and counts the line feeds in front of it (`lineAt_append`).
-/

namespace Tunables
namespace Text

/-- The parts of a text between the occurrences of a separator. -/
def cut (sep : Char) : List Char → List (List Char)
  | [] => [[]]
  | c :: cs =>
      if c = sep then
        [] :: cut sep cs
      else
        match cut sep cs with
        | [] => [[c]]
        | part :: parts => (c :: part) :: parts

/-- Puts a separator between the parts of a text. -/
def join (sep : List Char) : List (List Char) → List Char
  | [] => []
  | [part] => part
  | part :: next :: parts => part ++ sep ++ join sep (next :: parts)

/-- The lines of a text, each with the line feed that ends it; only the last may have none. -/
def lines : List Char → List (List Char)
  | [] => []
  | c :: cs =>
      if c = '\n' then
        [c] :: lines cs
      else
        match lines cs with
        | [] => [[c]]
        | line :: rest => (c :: line) :: rest

/-- The number of line feeds in a text. -/
def lineFeeds (cs : List Char) : Nat :=
  cs.count '\n'

/-- The number of bytes of a text in UTF-8. -/
def byteLength : List Char → Nat
  | [] => 0
  | c :: cs => c.utf8Size + byteLength cs

/-- The number of line feeds in front of a byte; a place behind the end has all of them in front of
it. -/
def feedsBefore : List Char → Nat → Nat
  | [], _ => 0
  | c :: cs, offset =>
      if offset < c.utf8Size then 0
      else feedsBefore cs (offset - c.utf8Size) + if c = '\n' then 1 else 0

/-- The number of the line that holds a byte; lines count from one, and a place behind the end is on
the last line.  The number has 32 bits, and so it starts again behind the greatest one. -/
def lineAt (text : List Char) (offset : Nat) : UInt32 :=
  UInt32.ofNat (feedsBefore text offset) + 1

/-- Writes a text on one line: every line break, of whichever kind, becomes one blank. -/
def singleLine : List Char → List Char
  | [] => []
  | '\r' :: '\n' :: cs => ' ' :: singleLine cs
  | c :: cs => (if c = '\n' ∨ c = '\r' then ' ' else c) :: singleLine cs

theorem cut_ne_nil (sep : Char) (cs : List Char) : cut sep cs ≠ [] := by
  cases cs with
  | nil => simp [cut]
  | cons c cs =>
    simp only [cut]
    split
    · simp
    · split <;> simp

theorem join_cut (sep : Char) (cs : List Char) : join [sep] (cut sep cs) = cs := by
  induction cs with
  | nil => rfl
  | cons c cs ih =>
    simp only [cut]
    split
    · next h =>
      cases hcut : cut sep cs with
      | nil => exact absurd hcut (cut_ne_nil sep cs)
      | cons part parts =>
        rw [hcut] at ih
        simp [join, ih, h]
    · cases hcut : cut sep cs with
      | nil => exact absurd hcut (cut_ne_nil sep cs)
      | cons part parts =>
        rw [hcut] at ih
        cases parts with
        | nil => simpa [join] using ih
        | cons next parts => simpa [join] using ih

theorem flatten_lines (cs : List Char) : (lines cs).flatten = cs := by
  induction cs with
  | nil => rfl
  | cons c cs ih =>
    simp only [lines]
    split
    · simp [ih]
    · cases hlines : lines cs with
      | nil => simpa [hlines] using ih
      | cons line rest => simpa [hlines] using ih

theorem byteLength_append (cs ds : List Char) :
    byteLength (cs ++ ds) = byteLength cs + byteLength ds := by
  induction cs with
  | nil => simp [byteLength]
  | cons c cs ih => simp [byteLength, ih, Nat.add_assoc]

theorem feedsBefore_append (before after : List Char) :
    feedsBefore (before ++ after) (byteLength before) = lineFeeds before := by
  induction before with
  | nil =>
    cases after with
    | nil => rfl
    | cons c cs => simp [feedsBefore, byteLength, lineFeeds, Char.utf8Size_pos]
  | cons c cs ih =>
    have hsize : ¬ byteLength (c :: cs) < c.utf8Size := by
      simp [byteLength]
    have hrest : byteLength (c :: cs) - c.utf8Size = byteLength cs := by
      simp [byteLength]
    rw [List.cons_append, feedsBefore, if_neg hsize, hrest, ih]
    by_cases hc : c = '\n' <;> simp [lineFeeds, hc]

/-- A line number counts the line feeds in front of the place. -/
theorem lineAt_append (before after : List Char) :
    lineAt (before ++ after) (byteLength before) = UInt32.ofNat (lineFeeds before) + 1 := by
  rw [lineAt, feedsBefore_append]

end Text
end Tunables
