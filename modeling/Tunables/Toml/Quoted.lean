import Tunables.Toml.Blank

/-!
# Strings

The four ways to write a string: between double quotes, where a backslash starts an escape;
between single quotes, where every character stands for itself; and both with three quotes, where
line ends may stand too.

The line end right behind three opening quotes is dropped.  A backslash at the end of a line drops
the space up to the next character.  One or two quotes stand for themselves inside a string of
three, also right before its end.
-/

namespace Tunables
namespace Toml

open Reader

/-- The value of a hexadecimal digit. -/
def hexDigit? (c : Char) : Option Nat :=
  if '0' ≤ c ∧ c ≤ '9' then some (c.toNat - '0'.toNat)
  else if 'a' ≤ c ∧ c ≤ 'f' then some (c.toNat - 'a'.toNat + 10)
  else if 'A' ≤ c ∧ c ≤ 'F' then some (c.toNat - 'A'.toNat + 10)
  else none

/-- A number of a given count of hexadecimal digits, behind the digits that were read already. -/
def hexNumber : Nat → Nat → Reader Nat
  | 0, value => return value
  | count + 1, value => do
      match hexDigit? (← satisfy fun _ => true) with
      | some digit => hexNumber count (16 * value + digit)
      | none => failure

/-- The character with a number of a given count of digits. -/
def charByNumber (count : Nat) : Reader Char := do
  let number ← hexNumber count 0
  if number.isValidChar then return Char.ofNat number else failure

/-- The character that is escaped behind a backslash. -/
def escaped : Reader Char := do
  match ← satisfy fun _ => true with
  | 'b' => return '\x08'
  | 't' => return '\t'
  | 'n' => return '\n'
  | 'f' => return '\x0c'
  | 'r' => return '\r'
  | 'e' => return '\x1b'
  | '"' => return '"'
  | '\\' => return '\\'
  | 'x' => charByNumber 2
  | 'u' => charByNumber 4
  | 'U' => charByNumber 8
  | _ => failure

/-- A character that stands for itself between two quotes of one kind. -/
def plain (quote : Char) : Reader (List Char) := do
  return [← satisfy fun c => isTextChar c && c != quote && (quote == '\'' || c != '\\')]

/-- A character written as an escape. -/
def escape : Reader (List Char) := do
  char '\\'
  return [← escaped]

/-- One step over space and line ends. -/
def spacePart : Reader Unit :=
  (do let _ ← takeSome isBlank) <|> (do let _ ← newline)

/-- A backslash at the end of a line, with the space that it drops. -/
def lineContinuation : Reader (List Char) := do
  char '\\'
  blanks
  let _ ← newline
  let _ ← many spacePart
  return []

/-- The quotes of one kind at this place. -/
def quoteRun (quote : Char) : Reader (List Char) :=
  takeWhile (· == quote)

/-- One or two quotes that do not end a string of three. -/
def looseQuotes (quote : Char) : Reader (List Char) := do
  let quotes ← quoteRun quote
  if quotes.length = 1 ∨ quotes.length = 2 then return quotes else failure

/-- The end of a string of three quotes, with the quotes that belong to the string. -/
def tripleEnd (quote : Char) : Reader (List Char) := do
  let quotes ← quoteRun quote
  if 3 ≤ quotes.length ∧ quotes.length ≤ 5 then return quotes.drop 3 else failure

/-- A string between two quotes, made of the given parts. -/
def between (quote : Char) (part : Reader (List Char)) : Reader (List Char) := do
  char quote
  let parts ← many part
  char quote
  return parts.flatten

/-- A string between three quotes on each side, made of the given parts, line ends and loose
quotes. -/
def betweenTriple (quote : Char) (part : Reader (List Char)) : Reader (List Char) := do
  word [quote, quote, quote]
  let _ ← optional newline
  let parts ← many (part <|> newline <|> looseQuotes quote)
  return parts.flatten ++ (← tripleEnd quote)

/-- A string on one line. -/
def lineString : Reader (List Char) :=
  between '"' (plain '"' <|> escape) <|> between '\'' (plain '\'')

/-- A string that may span lines. -/
def blockString : Reader (List Char) :=
  betweenTriple '"' (plain '"' <|> lineContinuation <|> escape) <|> betweenTriple '\'' (plain '\'')

/-- A string, written in any of the four ways. -/
def quoted : Reader (List Char) :=
  blockString <|> lineString

end Toml
end Tunables
