import Tunables.Toml.Reader

/-!
# Blanks, line ends and comments

What may stand between the parts of a document.  A line ends with a line feed, which a carriage
return may precede; a carriage return stands nowhere else.
-/

namespace Tunables
namespace Toml

open Reader

/-- A space or a tab. -/
def isBlank (c : Char) : Bool :=
  c == ' ' || c == '\t'

/-- A character that may stand in comments and in strings on one line: no control
character but the tab. -/
def isTextChar (c : Char) : Bool :=
  c == '\t' || (' ' ≤ c && c != '\x7f')

/-- Blanks, which may be missing. -/
def blanks : Reader Unit := do
  let _ ← takeWhile isBlank

/-- The end of a line, as it was written. -/
def newline : Reader (List Char) :=
  (do char '\n'; return ['\n']) <|> (do char '\r'; char '\n'; return ['\r', '\n'])

/-- A comment up to the end of its line. -/
def comment : Reader Unit := do
  char '#'
  let _ ← takeWhile isTextChar

/-- The end of a line or of the text. -/
def lineStop : Reader Unit :=
  (do let _ ← newline) <|> atEnd

/-- What may follow on the line of something complete. -/
def lineEnd : Reader Unit := do
  blanks
  let _ ← optional comment
  lineStop

/-- One step over the space between the parts of a value that spans lines. -/
def gapPart : Reader Unit :=
  (do let _ ← takeSome isBlank) <|> (do let _ ← newline) <|> (do comment; let _ ← newline)

/-- The space between the parts of a value that spans lines. -/
def gap : Reader Unit := do
  let _ ← many gapPart

end Toml
end Tunables
