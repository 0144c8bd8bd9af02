import Tunables.Toml.Datetime
import Tunables.Toml.Number
import Tunables.Toml.Quoted
import Tunables.Toml.Value

/-!
# Documents

The grammar of a document: values under keys, then sections with a header each.  A text
that the grammar or the rules for tables refuse is no document at all, and then there is
nothing to say but that.

Arrays and tables between braces nest at most 80 deep, and a key has at most 80 parts.
-/

namespace Tunables
namespace Toml

open Reader

/-- How deep arrays and tables may nest, and how many parts a key may have. -/
def maxDepth : Nat :=
  80

/-! ## Keys -/

/-- A character of a key without quotes. -/
def isBareKeyChar (c : Char) : Bool :=
  c.isAlphanum || c == '_' || c == '-'

/-- One part of a key. -/
def keyPart : Reader Key := do
  let part ← spanned (takeSome isBareKeyChar <|> lineString)
  return ⟨String.ofList part.value, part.span⟩

/-- A dot with the blanks around it and the part of the key behind it. -/
def dottedPart : Reader Key := do
  blanks
  char '.'
  blanks
  keyPart

/-- A key: the parts in front of the last dot, and the last part. -/
def key : Reader (List Key × Key) := do
  let first ← keyPart
  let parts ← many dottedPart
  if maxDepth ≤ parts.length then
    failure
  match parts.getLast? with
  | none => return ([], first)
  | some last => return (first :: parts.dropLast, last)

/-! ## Values -/

/-- A character of a value without quotes and brackets: all but those that the parts of a document
are told apart by. -/
def isBareValueChar (c : Char) : Bool :=
  !("=,[]\x7b\x7d# \t\r\n".toList.contains c)

/-- The value that a text without quotes and brackets writes. -/
def bareValue? (cs : List Char) : Option Value :=
  if cs = "true".toList then some (.bool true)
  else if cs = "false".toList then some (.bool false)
  else
    match integer? cs, double? cs with
    | some n, _ => some (.integer n)
    | none, some x => some (.double x)
    | none, none => if isVoidNumber cs then some .voidNumber else none

/-- A value without quotes and brackets. -/
def bareValue : Reader Value := do
  match bareValue? (← takeSome isBareValueChar) with
  | some value => return value
  | none => failure

/-- A value without brackets. -/
def scalar : Reader Value :=
  (do return .text (String.ofList (← quoted))) <|> (do Datetime.datetime; return .datetime)
    <|> bareValue

/-- An item with the space around it. -/
def spaced {α : Type} (item : Reader α) : Reader α := do
  gap
  let value ← item
  gap
  return value

/-- Items with commas between them; one more comma may stand behind the last. -/
def separated {α : Type} (item : Reader α) : Reader (List α) := do
  match ← optional (spaced item) with
  | none => gap; return []
  | some first =>
      let others ← many (do char ','; spaced item)
      let _ ← optional (do char ','; gap)
      return first :: others

/-- An array between brackets. -/
def array (item : Reader Value) : Reader Value := do
  char '['
  let items ← separated (spanned item)
  char ']'
  return .array false items

/-- A value under its key, with the given space around the sign between them. -/
def assignment (space : Reader Unit) (value : Reader Value) : Reader Assignment := do
  let (path, key) ← key
  space
  char '='
  space
  let value ← spanned value
  return ⟨path, key, value⟩

/-- A table between braces, which may span lines. -/
def braces (value : Reader Value) : Reader Value := do
  char '\x7b'
  let assignments ← separated (assignment gap value)
  char '\x7d'
  match insertAll assignments .braces [] with
  | some entries => return .table .braces entries
  | none => failure

/-- A value whose arrays and tables nest at most the given number of times. -/
def value : Nat → Reader Value
  | 0 => scalar
  | depth + 1 => array (value depth) <|> braces (value depth) <|> scalar

/-! ## Lines and sections -/

/-- A line without a value or a header. -/
def emptyLine : Reader Unit := do
  lineEnd

/-- A line with a value under its key. -/
def valueLine : Reader Assignment := do
  let _ ← many emptyLine
  blanks
  let found ← assignment blanks (value maxDepth)
  lineEnd
  return found

/-- A header: its brackets and its key. -/
structure Header where
  isItem : Bool
  span : Span
  path : List Key
  key : Key

/-- The key of a header, with the blanks around it. -/
def headerKey : Reader (List Key × Key) := do
  blanks
  let found ← key
  blanks
  return found

/-- The text of a header. -/
def headerText : Reader (Bool × List Key × Key) :=
  (do word ['[', '[']; let found ← headerKey; word [']', ']']; return (true, found)) <|>
    (do char '['; let found ← headerKey; char ']'; return (false, found))

/-- A line with a header. -/
def headerLine : Reader Header := do
  let _ ← many emptyLine
  blanks
  let found ← spanned headerText
  lineEnd
  return ⟨found.value.1, found.span, found.value.2.1, found.value.2.2⟩

/-- A header and the values that follow it. -/
structure Section where
  header : Header
  assignments : List Assignment

/-- A section. -/
def sections : Reader Section := do
  let header ← headerLine
  return ⟨header, ← many valueLine⟩

/-- The mark that a text may start with to show the order of its bytes. -/
def byteOrderMark : Char :=
  '\ufeff'

/-- The values in front of the first header, and the sections. -/
def body : Reader (List Assignment × List Section) := do
  let _ ← optional (char byteOrderMark)
  let assignments ← many valueLine
  let found ← many sections
  let _ ← many emptyLine
  atEnd
  return (assignments, found)

/-- Adds the table of a section. -/
def Section.add (s : Section) : Change :=
  let change := if s.header.isItem then openItem else openTable
  within false (change s.header.span s.header.key s.assignments) s.header.path

/-- The table of a document, by the rules for what may be added to which table. -/
def build (assignments : List Assignment) (parts : List Section) : Option Entries := do
  let entries ← insertAll assignments .header []
  parts.foldlM (fun entries part => part.add .header entries) entries

/-- The table of a document. -/
def read (text : List Char) : Option Entries := do
  let (assignments, parts) ← body.run text
  build assignments parts

end Toml
end Tunables
