/-!
# Escapes of the generated languages

How a text is written inside a quoted literal of the files that are generated.

* `escapeC`: inside a double-quoted C or C++ literal;
* `escapeLinePath`: the file name of a `#line` directive, which knows no escapes but those of the
  backslash and the quote;
* `escapeXml`: inside a double-quoted XML attribute;
* `pythonLiteral`: a whole Python string literal with its quotes.  The single quote is preferred,
  and the double quote is taken for a text that has a single quote and no double one.
-/

namespace Tunables
namespace Text

/-- One character inside a C literal. -/
def escapeCChar (c : Char) : List Char :=
  if c = '\\' then ['\\', '\\']
  else if c = '"' then ['\\', '"']
  else if c = '\n' then ['\\', 'n']
  else if c = '\r' then ['\\', 'r']
  else if c = '\t' then ['\\', 't']
  else [c]

/-- A text inside a C literal. -/
def escapeC (cs : List Char) : List Char :=
  cs.flatMap escapeCChar

/-- A C literal with its quotes. -/
def cLiteral (cs : List Char) : List Char :=
  '"' :: escapeC cs ++ ['"']

/-- Writes every occurrence of a character as the given text. -/
def substitute (old : Char) (new : List Char) (cs : List Char) : List Char :=
  cs.flatMap fun c => if c = old then new else [c]

/-- A file name inside a `#line` directive: first the backslashes are doubled, then each quote
gets one in front. -/
def escapeLinePath (cs : List Char) : List Char :=
  substitute '"' ['\\', '"'] (substitute '\\' ['\\', '\\'] cs)

/-- One character inside an XML attribute. -/
def escapeXmlChar (c : Char) : List Char :=
  if c = '&' then "&amp;".toList
  else if c = '<' then "&lt;".toList
  else if c = '>' then "&gt;".toList
  else if c = '"' then "&quot;".toList
  else [c]

/-- A text inside an XML attribute. -/
def escapeXml (cs : List Char) : List Char :=
  cs.flatMap escapeXmlChar

/-- The lower-case hexadecimal digit of a number below sixteen. -/
def hexDigit (n : Nat) : Char :=
  if n < 10 then Char.ofNat ('0'.toNat + n) else Char.ofNat ('a'.toNat + (n - 10))

/-- The control characters of ASCII. -/
def isControl (c : Char) : Bool :=
  c.toNat < 0x20 || c.toNat == 0x7f

/-- The quote that encloses a Python literal of a text. -/
def pythonQuote (cs : List Char) : Char :=
  if cs.contains '\'' && !cs.contains '"' then '"' else '\''

/-- One character inside a Python literal that the given quote encloses. -/
def escapePythonChar (quote c : Char) : List Char :=
  if c = '\\' then ['\\', '\\']
  else if c = '\n' then ['\\', 'n']
  else if c = '\r' then ['\\', 'r']
  else if c = '\t' then ['\\', 't']
  else if c = quote then ['\\', c]
  else if isControl c then ['\\', 'x', hexDigit (c.toNat / 16), hexDigit (c.toNat % 16)]
  else [c]

/-- A Python string literal with its quotes. -/
def pythonLiteral (cs : List Char) : List Char :=
  let quote := pythonQuote cs
  quote :: cs.flatMap (escapePythonChar quote) ++ [quote]

/-- The two passes over a file name act like one. -/
theorem escapeLinePath_eq_flatMap (cs : List Char) :
    escapeLinePath cs =
      cs.flatMap fun c =>
        if c = '\\' then ['\\', '\\'] else if c = '"' then ['\\', '"'] else [c] := by
  induction cs with
  | nil => rfl
  | cons c cs ih =>
    simp only [escapeLinePath, substitute] at ih ⊢
    by_cases hb : c = '\\'
    · subst hb
      simp [ih]
    · by_cases hq : c = '"' <;> simp [hb, hq, ih]

end Text
end Tunables
