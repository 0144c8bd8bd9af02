import Tunables.Toml.Reader

/-!
# Dates and times

A date, a time of day, or both with a `T` or a blank between them and possibly an offset
behind.  The seconds of a time may be left out.  Dates must exist in the calendar; a minute may
have a sixty-first second.
-/

namespace Tunables
namespace Toml
namespace Datetime

open Reader

/-- A number of a given count of digits, behind the digits that were read already. -/
def number : Nat → Nat → Reader Nat
  | 0, value => return value
  | count + 1, value => do
      let c ← satisfy Char.isDigit
      number count (10 * value + (c.toNat - '0'.toNat))

/-- A number of a given count of digits that is at most the given one. -/
def numberUpTo (count most : Nat) : Reader Nat := do
  let value ← number count 0
  if value ≤ most then return value else failure

/-- The years with a day more. -/
def isLeapYear (year : Nat) : Bool :=
  year % 4 == 0 && (year % 100 != 0 || year % 400 == 0)

/-- The number of days of a month; months count from one. -/
def daysOf (year month : Nat) : Nat :=
  if month = 2 then (if isLeapYear year then 29 else 28)
  else if month = 4 ∨ month = 6 ∨ month = 9 ∨ month = 11 then 30
  else 31

/-- A date. -/
def date : Reader Unit := do
  let year ← number 4 0
  char '-'
  let month ← numberUpTo 2 12
  char '-'
  let day ← numberUpTo 2 (daysOf year month)
  if month = 0 ∨ day = 0 then failure

/-- The seconds of a time, with their fraction. -/
def seconds : Reader Unit := do
  char ':'
  let _ ← numberUpTo 2 60
  let _ ← optional do
    char '.'
    let _ ← takeSome Char.isDigit

/-- A time of day without its seconds. -/
def clock : Reader Unit := do
  let _ ← numberUpTo 2 23
  char ':'
  let _ ← numberUpTo 2 59

/-- A time of day. -/
def time : Reader Unit := do
  clock
  let _ ← optional seconds

/-- The distance of a time from the universal one. -/
def shift : Reader Unit :=
  (do let _ ← satisfy fun c => c == 'Z' || c == 'z') <|>
    (do let _ ← satisfy fun c => c == '+' || c == '-'; clock)

/-- The time behind a date. -/
def timeOfDate : Reader Unit := do
  let _ ← satisfy fun c => c == 'T' || c == 't' || c == ' '
  time
  let _ ← optional shift

/-- A date, a time, or both. -/
def datetime : Reader Unit :=
  (do date; let _ ← optional timeOfDate) <|> time

/-- A text is a date, a time, or both. -/
def isWritten (cs : List Char) : Bool :=
  (run (do datetime; atEnd) cs).isSome

end Datetime
end Toml
end Tunables
