/-!
# Texts without control sequences

A terminal takes some characters as orders: the controls, and the sequences that start with an
escape.  A stream that is no terminal gets a text without them.  Of the controls, the tab and the
ends of lines and pages stay.

Those may even stand inside a sequence, which is then interrupted: what follows stays as well, up to
the next character that would be dropped outside of sequences, and with that one the sequence goes
on.  A character beyond ASCII ends the sequence that was interrupted.
-/

namespace Tunables
namespace Text

/-- What a character stands in. -/
inductive Sequence where
  /-- In no sequence. -/
  | plain
  /-- Right behind an escape. -/
  | escape
  /-- Behind an escape and the characters that some sequences have before their last one. -/
  | selection
  /-- Behind an escape and a bracket, with numbers and an end to come. -/
  | control
  /-- In a command to the system, which a bell ends. -/
  | command
  /-- At the start of a message to a device, with numbers or other characters to come before its
  name. -/
  | device
  /-- In the numbers of a message to a device. -/
  | deviceNumbers
  /-- In the characters of a message to a device that stand right before its name. -/
  | deviceSelection
  /-- In a string for a device or a program. -/
  | string
deriving DecidableEq, Repr

/-- The controls that stay: tabs and the ends of lines and pages. -/
def isSpacing (c : Char) : Bool :=
  c == '\t' || c == '\n' || c == '\x0c' || c == '\r'

/-- A character that stays where it is in no sequence. -/
def isPlain (c : Char) : Bool :=
  isSpacing c || (' ' ≤ c && c != '\x7f')

/-- A visible character of ASCII, or a blank. -/
def isVisibleAscii (c : Char) : Bool :=
  ' ' ≤ c && c < '\x7f'

namespace Sequence

/-- What is behind a visible character of a sequence. -/
def extend (sequence : Sequence) (c : Char) : Sequence :=
  match sequence with
  | .escape =>
      if c < '0' then .selection
      else if c = '[' then .control
      else if c = ']' then .command
      else if c = 'P' then .device
      else if c = 'X' ∨ c = '^' ∨ c = '_' then .string
      else .plain
  | .selection => if c < '0' then .selection else .plain
  | .control => if c < '@' then .control else .plain
  | .device => if c < '0' then .deviceSelection else if c < '@' then .deviceNumbers else .string
  | .deviceNumbers =>
      if c < '0' then .deviceSelection else if c < '<' then .deviceNumbers else .string
  | .deviceSelection => if c < '0' then .deviceSelection else .string
  | .plain | .command | .string => sequence

/-- What is behind a character, and whether it stays.  A string also ends with a character that has
the byte `9c`, since that byte alone is an end of strings. -/
def next (sequence : Sequence) (c : Char) : Sequence × Bool :=
  if c = '\x1b' then (.escape, false)
  else if c = '\x18' ∨ c = '\x1a' then (.plain, false)
  else
    match sequence with
    | .plain => (.plain, isPlain c)
    | .command => (if c = '\x07' then .plain else .command, false)
    | .string => (if (String.utf8EncodeChar c).contains 0x9c then .plain else .string, false)
    | .device | .deviceNumbers | .deviceSelection =>
        (if isVisibleAscii c then sequence.extend c else sequence, false)
    | .escape | .selection | .control =>
        (if isVisibleAscii c then sequence.extend c else sequence, isSpacing c)

/-- The sequence that goes on behind a character that stays while it is interrupted. -/
def interrupted (sequence : Sequence) (c : Char) : Sequence :=
  if c ≤ '\x7f' then sequence else .plain

end Sequence

/-- What stays of a text that starts inside a sequence, which may be interrupted there. -/
def withoutSequencesFrom (isInterrupted : Bool) (sequence : Sequence) : List Char → List Char
  | [] => []
  | c :: rest =>
      if isInterrupted && isPlain c then
        c :: withoutSequencesFrom true (sequence.interrupted c) rest
      else
        let (behind, stays) := sequence.next c
        if stays then c :: withoutSequencesFrom true behind rest
        else withoutSequencesFrom false behind rest

/-- A text without control sequences. -/
def withoutSequences (cs : List Char) : List Char :=
  withoutSequencesFrom true .plain cs

end Text
end Tunables
