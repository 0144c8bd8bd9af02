import Tunables.Text.Identifier
import Tunables.Text.Lines
import Tunables.Text.Shown

/-!
# Templates

A template is a text with placeholders `$name` and `${name}`, in which `$$` stands for a dollar
sign.  Names consist of ASCII letters, digits and underscores and do not start with a digit.

* `pieces` reads a template from left to right, each placeholder with the longest name that fits.
  Nothing is lost: the sources of the pieces concatenate to the template (`sources_pieces`).
* `fill` puts in the values, which are not read again.  The first dollar sign that starts no
  placeholder, and the first name without a value, are faults; a fault carries its line and, for a
  malformed placeholder, its column in bytes.
-/

namespace Tunables
namespace Template

/-- A part of a template. -/
inductive Piece where
  | char (c : Char)
  | dollar
  | bare (name : List Char)
  | braced (name : List Char)
  | stray
deriving DecidableEq

/-- A part of a template as it is written. -/
def Piece.source : Piece → List Char
  | .char c => [c]
  | .dollar => ['$', '$']
  | .bare name => '$' :: name
  | .braced name => '$' :: '\x7b' :: name ++ ['\x7d']
  | .stray => ['$']

/-- The longest name at the start of a text, empty if there is none, and the text behind it. -/
def splitName : List Char → List Char × List Char
  | [] => ([], [])
  | c :: cs =>
      if isNameStart c then (c :: cs.takeWhile isNamePart, cs.dropWhile isNamePart)
      else ([], c :: cs)

/-- The piece that a dollar sign starts, and the text behind it. -/
def pieceAfterDollar (cs : List Char) : Piece × List Char :=
  match cs with
  | '$' :: rest => (.dollar, rest)
  | '\x7b' :: inner =>
      match splitName inner with
      | (name, '\x7d' :: rest) => if name.isEmpty then (.stray, cs) else (.braced name, rest)
      | _ => (.stray, cs)
  | _ =>
      match splitName cs with
      | (name, rest) => if name.isEmpty then (.stray, cs) else (.bare name, rest)

/-- The first piece of a text that starts with the given character, and the text behind it. -/
def nextPiece (c : Char) (cs : List Char) : Piece × List Char :=
  if c = '$' then pieceAfterDollar cs else (.char c, cs)

theorem splitName_append (cs : List Char) : (splitName cs).1 ++ (splitName cs).2 = cs := by
  cases cs with
  | nil => rfl
  | cons c cs =>
    simp only [splitName]
    split
    · simp [List.takeWhile_append_dropWhile]
    · rfl

theorem pieceAfterDollar_source (cs : List Char) :
    (pieceAfterDollar cs).1.source ++ (pieceAfterDollar cs).2 = '$' :: cs := by
  unfold pieceAfterDollar
  split
  · rfl
  · next inner =>
    split
    · next name rest h =>
      split
      · rfl
      · have := splitName_append inner
        rw [h] at this
        simp [Piece.source, ← this]
    · rfl
  · split
    next name rest h =>
      split
      · rfl
      · have := splitName_append cs
        rw [h] at this
        simp [Piece.source, ← this]

theorem nextPiece_source (c : Char) (cs : List Char) :
    (nextPiece c cs).1.source ++ (nextPiece c cs).2 = c :: cs := by
  unfold nextPiece
  split
  · next h => rw [h, pieceAfterDollar_source]
  · rfl

theorem Piece.source_ne_nil (piece : Piece) : piece.source ≠ [] := by
  cases piece <;> simp [Piece.source]

theorem nextPiece_length (c : Char) (cs : List Char) :
    (nextPiece c cs).2.length < (c :: cs).length := by
  have h := congrArg List.length (nextPiece_source c cs)
  have hne := List.length_pos_iff.mpr (nextPiece c cs).1.source_ne_nil
  simp only [List.length_append] at h
  omega

/-- The pieces of a template. -/
def pieces : List Char → List Piece
  | [] => []
  | c :: cs => (nextPiece c cs).1 :: pieces (nextPiece c cs).2
termination_by cs => cs.length
decreasing_by exact nextPiece_length c cs

theorem sources_pieces (cs : List Char) : (pieces cs).flatMap Piece.source = cs := by
  fun_induction pieces cs with
  | case1 => rfl
  | case2 c cs ih => rw [List.flatMap_cons, ih, nextPiece_source]

/-- A place in a text: its line, and the number of its byte in the line; both count from one. -/
structure Position where
  line : Nat
  column : Nat
deriving DecidableEq, Repr

/-- The place behind a character. -/
def Position.after (position : Position) (c : Char) : Position :=
  if c = '\n' then ⟨position.line + 1, 1⟩ else ⟨position.line, position.column + c.utf8Size⟩

/-- The place behind a text. -/
def Position.afterText (position : Position) (cs : List Char) : Position :=
  cs.foldl Position.after position

/-- Why a template cannot be filled. -/
inductive Fault where
  | missing (template : String) (placeholder : String) (line : Nat)
  | invalid (template : String) (line column : Nat)
deriving DecidableEq, Repr

/-- A fault in words. -/
def Fault.message : Fault → String
  | .missing template placeholder line =>
      "template '" ++ template ++ "' references unknown placeholder '" ++ placeholder ++
        "' on line " ++ String.ofList (Text.numeral line)
  | .invalid template line column =>
      "invalid placeholder in template '" ++ template ++ "': line " ++
        String.ofList (Text.numeral line) ++ ", col " ++ String.ofList (Text.numeral column)

/-- Where the values of placeholders come from. -/
abbrev Values : Type :=
  List Char → Option (List Char)

/-- The first value that a list has for a name. -/
def Values.ofList (entries : List (String × List Char)) : Values :=
  fun name => (entries.find? fun entry => entry.1.toList == name).map Prod.snd

/-- The text that one piece stands for. -/
def Piece.value (template : String) (values : Values) (position : Position) :
    Piece → Except Fault (List Char)
  | .char c => .ok [c]
  | .dollar => .ok ['$']
  | .bare name | .braced name =>
      match values name with
      | some value => .ok value
      | none => .error (.missing template (String.ofList name) position.line)
  | .stray => .error (.invalid template position.line position.column)

/-- The text that a list of pieces stands for, the first of which is at the given place. -/
def fillPieces (template : String) (values : Values) :
    Position → List Piece → Except Fault (List Char)
  | _, [] => .ok []
  | position, piece :: rest => do
      let value ← piece.value template values position
      let others ← fillPieces template values (position.afterText piece.source) rest
      return value ++ others

/-- A template with its values put in.  The name of the template is for messages, and its first line
has the given number.  Lines are counted from there without a bound.  In machine words, where the
two numbers are added before one is taken off, the line of a fault is the same as long as one more
than it is still a word. -/
def fill (template : String) (firstLine : Nat) (values : Values) (source : List Char) :
    Except Fault (List Char) :=
  fillPieces template values ⟨firstLine, 1⟩ (pieces source)

end Template
end Tunables
