import Tunables.Text.Unprintable

/-!
# Texts and numbers in messages

A message shows a text between double quotes, so that its ends can be seen, and writes by number
whatever a reader could not see.  Whole numbers are shown in decimal.
-/

namespace Tunables
namespace Text

/-- A natural number in decimal. -/
def numeral (n : Nat) : List Char :=
  Nat.toDigits 10 n

/-- An integer in decimal, with a sign in front of a negative one only. -/
def signedNumeral : Int → List Char
  | .ofNat n => numeral n
  | .negSucc n => '-' :: numeral (n + 1)

/-- A character by its number. -/
def byNumber (c : Char) : List Char :=
  ['\\', 'u', '\x7b'] ++ Nat.toDigits 16 c.toNat ++ ['\x7d']

/-- One character of a shown text. -/
def showChar (c : Char) : List Char :=
  if c = '\x00' then ['\\', '0']
  else if c = '\t' then ['\\', 't']
  else if c = '\r' then ['\\', 'r']
  else if c = '\n' then ['\\', 'n']
  else if c = '\\' then ['\\', '\\']
  else if c = '"' then ['\\', '"']
  else if isUnprintable c then byNumber c
  else [c]

/-- A text between double quotes. -/
def shown (cs : List Char) : List Char :=
  '"' :: cs.flatMap showChar ++ ['"']

end Text
end Tunables
