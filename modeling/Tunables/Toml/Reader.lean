import Tunables.Text.Lines

/-!
# Readers

A reader takes something off the front of a text, or refuses it.  It works on what is left of the
text together with the number of bytes read so far, so that whatever it reads can be given its
place.  The number of characters left is kept as well, since every repetition looks at it.

Repetition ends because a round that takes nothing off is refused (`manyFrom`), and choice goes back
to where it started.
-/

namespace Tunables
namespace Toml

/-- A range of bytes of a text. -/
structure Span where
  start : Nat
  stop : Nat
deriving DecidableEq, Repr

/-- Something that was read, and the bytes it was read from. -/
structure Spanned (α : Type) where
  span : Span
  value : α
deriving DecidableEq, Repr

/-- A place in a text: what is left, the number of bytes before it, and the number of
characters behind it. -/
structure Cursor where
  rest : List Char
  offset : Nat
  left : Nat
  left_eq : left = rest.length

namespace Cursor

/-- The start of a text. -/
def ofText (text : List Char) : Cursor :=
  ⟨text, 0, text.length, rfl⟩

theorem left_tail {cursor : Cursor} {c : Char} {rest : List Char} (h : cursor.rest = c :: rest) :
    cursor.left - 1 = rest.length := by
  rw [cursor.left_eq, h, List.length_cons, Nat.add_sub_cancel]

theorem left_dropWhile (cursor : Cursor) (accepts : Char → Bool) :
    cursor.left - (cursor.rest.takeWhile accepts).length =
      (cursor.rest.dropWhile accepts).length := by
  have h := congrArg List.length (List.takeWhile_append_dropWhile (p := accepts) (l := cursor.rest))
  rw [List.length_append] at h
  rw [cursor.left_eq]
  omega

end Cursor

/-- Takes something off the front of a text, or refuses it. -/
abbrev Reader : Type → Type :=
  StateT Cursor Option

namespace Reader

/-- The number of bytes read so far. -/
def offset : Reader Nat := fun cursor =>
  some (cursor.offset, cursor)

/-- One character of a class. -/
def satisfy (accepts : Char → Bool) : Reader Char := fun cursor =>
  match h : cursor.rest with
  | [] => none
  | c :: rest =>
      if accepts c then
        some (c, ⟨rest, cursor.offset + c.utf8Size, cursor.left - 1, Cursor.left_tail h⟩)
      else none

/-- A given character. -/
def char (expected : Char) : Reader Unit := do
  let _ ← satisfy (· == expected)

/-- A given text. -/
def word (expected : List Char) : Reader Unit :=
  expected.forM char

/-- The longest run of characters of a class, which may be empty. -/
def takeWhile (accepts : Char → Bool) : Reader (List Char) := fun cursor =>
  let taken := cursor.rest.takeWhile accepts
  some (taken, {
    rest := cursor.rest.dropWhile accepts
    offset := cursor.offset + Text.byteLength taken
    left := cursor.left - taken.length
    left_eq := cursor.left_dropWhile accepts })

/-- The longest run of characters of a class, which is not empty. -/
def takeSome (accepts : Char → Bool) : Reader (List Char) := do
  let taken ← takeWhile accepts
  if taken.isEmpty then failure else return taken

/-- Succeeds at the end of the text only. -/
def atEnd : Reader Unit := fun cursor =>
  if cursor.rest.isEmpty then some ((), cursor) else none

/-- Everything that a reader reads in a row from a place on. -/
def manyFrom {α : Type} (reader : Reader α) (cursor : Cursor) : List α × Cursor :=
  match reader cursor with
  | none => ([], cursor)
  | some (value, next) =>
      if next.left < cursor.left then
        let others := manyFrom reader next
        (value :: others.1, others.2)
      else
        ([], cursor)
termination_by cursor.left

/-- Everything that a reader reads in a row. -/
def many {α : Type} (reader : Reader α) : Reader (List α) := fun cursor =>
  some (manyFrom reader cursor)

/-- What a reader reads, with its place. -/
def spanned {α : Type} (reader : Reader α) : Reader (Spanned α) := do
  let start ← offset
  let value ← reader
  let stop ← offset
  return ⟨⟨start, stop⟩, value⟩

/-- What a reader reads from the whole of a text. -/
def run {α : Type} (reader : Reader α) (text : List Char) : Option α :=
  (reader (.ofText text)).map Prod.fst

end Reader
end Toml
end Tunables
