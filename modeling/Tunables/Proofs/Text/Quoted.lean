import Tunables.Text.Escape
import Tunables.Toml.Quoted

/-!
# Reading quoted texts

How the languages of the generated files read a text between quotes.  A reader starts at the opening
quote, stops behind the closing one, and answers with the text and with what is left.

* `readCLiteral`: a literal of C.  Neither a line feed nor a carriage return may stand in it as it
  is.
* `readPythonLiteral`: a string of Python between single or double quotes.  Strings between three
  quotes are not read, and neither are the escapes that no generated file has: octal numbers,
  numbers of four and eight digits, names, and line ends.

A text that was escaped is read back, whatever follows it: `readCLiteral_cLiteral`,
`readCLiteral_escapeLinePath`, `readPythonLiteral_pythonLiteral`.
-/

namespace Tunables
namespace Text

/-- A line feed or a carriage return. -/
def isLineBreak (c : Char) : Bool :=
  c == '\n' || c == '\r'

/-- Puts a character in front of a text that was read. -/
def withFront (c : Char) (read : List Char × List Char) : List Char × List Char :=
  (c :: read.1, read.2)

theorem map_withFront_eq_some {c : Char} {read : Option (List Char × List Char)}
    {text rest : List Char} (h : read.map (withFront c) = some (text, rest)) :
    ∃ others, read = some (others, rest) ∧ text = c :: others := by
  obtain ⟨⟨others, more⟩, hread, hpair⟩ := Option.map_eq_some_iff.mp h
  cases hpair
  exact ⟨others, hread, rfl⟩

section C

/-- What a character stands for behind a backslash. -/
def unescapeC? : Char → Option Char
  | '\\' => some '\\'
  | '"' => some '"'
  | 'n' => some '\n'
  | 'r' => some '\r'
  | 't' => some '\t'
  | _ => none

/-- Reads a literal of C behind its opening quote. -/
def readCRest : List Char → Option (List Char × List Char)
  | [] => none
  | '"' :: rest => some ([], rest)
  | '\\' :: c :: rest =>
      match unescapeC? c with
      | some d => (readCRest rest).map (withFront d)
      | none => none
  | c :: rest => if c = '\\' || isLineBreak c then none else (readCRest rest).map (withFront c)

/-- Reads a literal of C. -/
def readCLiteral : List Char → Option (List Char × List Char)
  | '"' :: rest => readCRest rest
  | _ => none

theorem readCRest_escaped {c d : Char} (h : unescapeC? c = some d) (more : List Char) :
    readCRest ('\\' :: c :: more) = (readCRest more).map (withFront d) := by
  simp [readCRest, h]

theorem readCRest_plain {c : Char} (hbackslash : c ≠ '\\') (hquote : c ≠ '"')
    (hbreak : isLineBreak c = false) (more : List Char) :
    readCRest (c :: more) = (readCRest more).map (withFront c) := by
  rw [readCRest]
  · simp [hbackslash, hbreak]
  · exact hquote
  · intro d rest h
    exact absurd h hbackslash

theorem readCRest_escapeCChar (c : Char) (more : List Char) :
    readCRest (escapeCChar c ++ more) = (readCRest more).map (withFront c) := by
  unfold escapeCChar
  split
  · next h =>
      subst h
      exact readCRest_escaped rfl more
  split
  · next h =>
      subst h
      exact readCRest_escaped rfl more
  split
  · next h =>
      subst h
      exact readCRest_escaped rfl more
  split
  · next h =>
      subst h
      exact readCRest_escaped rfl more
  split
  · next h =>
      subst h
      exact readCRest_escaped rfl more
  · next hbackslash hquote hfeed hreturn _ =>
      exact readCRest_plain hbackslash hquote (by simp [isLineBreak, hfeed, hreturn]) more

/-- An escaped text is read up to the quote behind it. -/
theorem readCRest_escapeC (cs more : List Char) :
    readCRest (escapeC cs ++ '"' :: more) = some (cs, more) := by
  induction cs with
  | nil =>
      rfl
  | cons c cs ih =>
      rw [escapeC, List.flatMap_cons, List.append_assoc, readCRest_escapeCChar]
      rw [escapeC] at ih
      rw [ih]
      rfl

/-- A literal is read back, whatever follows it. -/
theorem readCLiteral_cLiteral (cs more : List Char) :
    readCLiteral (cLiteral cs ++ more) = some (cs, more) := by
  have hliteral : cLiteral cs ++ more = '"' :: (escapeC cs ++ '"' :: more) := by
    simp [cLiteral]
  rw [hliteral, readCLiteral, readCRest_escapeC]

/-- No line breaks are left in an escaped text. -/
theorem isLineBreak_of_mem_escapeC {c : Char} {cs : List Char} (h : c ∈ escapeC cs) :
    isLineBreak c = false := by
  obtain ⟨d, _, hc⟩ := List.mem_flatMap.mp h
  have hescape : ∀ e, isLineBreak e = false → c ∈ ['\\', e] → isLineBreak c = false := by
    intro e he hmem
    rcases List.mem_cons.mp hmem with rfl | hmem
    · decide
    · rwa [List.mem_singleton.mp hmem]
  unfold escapeCChar at hc
  split at hc
  · exact hescape _ (by decide) hc
  split at hc
  · exact hescape _ (by decide) hc
  split at hc
  · exact hescape _ (by decide) hc
  split at hc
  · exact hescape _ (by decide) hc
  split at hc
  · exact hescape _ (by decide) hc
  · next hfeed hreturn _ =>
    rw [List.mem_singleton.mp hc]
    simp [isLineBreak, hfeed, hreturn]

/-- An escaped file name has no characters but its own and those of the escapes. -/
theorem mem_escapeLinePath {c : Char} {path : List Char} (h : c ∈ escapeLinePath path) :
    c = '\\' ∨ c = '"' ∨ c ∈ path := by
  rw [escapeLinePath_eq_flatMap] at h
  obtain ⟨d, hd, hc⟩ := List.mem_flatMap.mp h
  split at hc
  · exact Or.inl (by simpa using hc)
  split at hc
  · rcases List.mem_cons.mp hc with hc | hc
    · exact Or.inl hc
    · exact Or.inr (Or.inl (List.mem_singleton.mp hc))
  · exact Or.inr (Or.inr (List.mem_singleton.mp hc ▸ hd))

/-- The name of a file is read back from a directive if no line breaks are in it. -/
theorem readCLiteral_escapeLinePath {path : List Char} (h : ∀ c ∈ path, isLineBreak c = false)
    (more : List Char) :
    readCLiteral ('"' :: (escapeLinePath path ++ '"' :: more)) = some (path, more) := by
  rw [readCLiteral, escapeLinePath_eq_flatMap]
  induction path with
  | nil =>
      rfl
  | cons c cs ih =>
      have hrest := ih fun d hd => h d (List.mem_cons_of_mem _ hd)
      rw [List.flatMap_cons, List.append_assoc]
      split
      · next hc =>
          rw [hc, List.cons_append, List.cons_append, List.nil_append, readCRest_escaped rfl, hrest]
          rfl
      split
      · next hc =>
          rw [hc, List.cons_append, List.cons_append, List.nil_append, readCRest_escaped rfl, hrest]
          rfl
      · next hbackslash hquote =>
          rw [List.singleton_append, readCRest_plain hbackslash hquote (h c (by simp)), hrest]
          rfl

end C

section Python

/-- What a character stands for behind a backslash, unless digits follow it. -/
def unescapePython? : Char → Option Char
  | '\\' => some '\\'
  | '\'' => some '\''
  | '"' => some '"'
  | 'a' => some '\x07'
  | 'b' => some '\x08'
  | 'f' => some '\x0c'
  | 'n' => some '\n'
  | 'r' => some '\r'
  | 't' => some '\t'
  | 'v' => some '\x0b'
  | _ => none

/-- Reads a string of Python behind its opening quote. -/
def readPythonRest (quote : Char) : List Char → Option (List Char × List Char)
  | [] => none
  | '\\' :: 'x' :: high :: low :: rest =>
      match Toml.hexDigit? high, Toml.hexDigit? low with
      | some h, some l => (readPythonRest quote rest).map (withFront (Char.ofNat (16 * h + l)))
      | _, _ => none
  | '\\' :: c :: rest =>
      match unescapePython? c with
      | some d => (readPythonRest quote rest).map (withFront d)
      | none => none
  | c :: rest =>
      if c = quote then some ([], rest)
      else if c = '\\' || isLineBreak c then none
      else (readPythonRest quote rest).map (withFront c)

/-- Reads a string of Python.  Three quotes in a row would begin a string that is not read here. -/
def readPythonLiteral : List Char → Option (List Char × List Char)
  | [] => none
  | quote :: rest =>
      if (quote = '\'' || quote = '"') && !([quote, quote].isPrefixOf rest) then
        readPythonRest quote rest else none

variable {quote : Char}

theorem readPythonRest_escaped {c d : Char} (h : unescapePython? c = some d) (quote : Char)
    (more : List Char) :
    readPythonRest quote ('\\' :: c :: more) = (readPythonRest quote more).map (withFront d) := by
  have hx : c ≠ 'x' := by
    rintro rfl
    cases h
  rw [readPythonRest]
  · simp [h]
  · intro high low rest hc
    exact absurd hc hx

theorem readPythonRest_plain {c : Char} (hbackslash : c ≠ '\\') (hquote : c ≠ quote)
    (hbreak : isLineBreak c = false) (more : List Char) :
    readPythonRest quote (c :: more) = (readPythonRest quote more).map (withFront c) := by
  rw [readPythonRest]
  · simp [hbackslash, hbreak, hquote]
  · intro high low rest hc
    exact absurd hc hbackslash
  · intro d rest hc
    exact absurd hc hbackslash

theorem readPythonRest_quote (hquote : quote ≠ '\\') (more : List Char) :
    readPythonRest quote (quote :: more) = some ([], more) := by
  rw [readPythonRest]
  · simp
  · intro high low rest hc
    exact absurd hc hquote
  · intro d rest hc
    exact absurd hc hquote

theorem hexDigit?_hexDigit : ∀ n < 16, Toml.hexDigit? (hexDigit n) = some n := by
  decide

/-- A character that is written by its number has two digits. -/
theorem readPythonRest_byNumber {c : Char} (h : c.toNat < 256) (quote : Char) (more : List Char) :
    readPythonRest quote
      ('\\' :: 'x' :: hexDigit (c.toNat / 16) :: hexDigit (c.toNat % 16) :: more) =
      (readPythonRest quote more).map (withFront c) := by
  have hhigh := hexDigit?_hexDigit (c.toNat / 16) (by omega)
  have hlow := hexDigit?_hexDigit (c.toNat % 16) (by omega)
  have hnumber : 16 * (c.toNat / 16) + c.toNat % 16 = c.toNat := by omega
  simp only [readPythonRest, hhigh, hlow, hnumber, Char.ofNat_toNat]

/-- A quote that may enclose a string. -/
def IsQuote (quote : Char) : Prop :=
  quote = '\'' ∨ quote = '"'

theorem isQuote_pythonQuote (cs : List Char) : IsQuote (pythonQuote cs) := by
  unfold pythonQuote
  split
  · exact Or.inr rfl
  · exact Or.inl rfl

theorem IsQuote.ne_backslash (h : IsQuote quote) : quote ≠ '\\' := by
  rcases h with rfl | rfl <;> decide

theorem IsQuote.unescapePython? (h : IsQuote quote) : unescapePython? quote = some quote := by
  rcases h with rfl | rfl <;> rfl

theorem readPythonRest_escapePythonChar (h : IsQuote quote) (c : Char) (more : List Char) :
    readPythonRest quote (escapePythonChar quote c ++ more) =
      (readPythonRest quote more).map (withFront c) := by
  unfold escapePythonChar
  split
  · next hc =>
      subst hc
      exact readPythonRest_escaped rfl quote more
  split
  · next hc =>
      subst hc
      exact readPythonRest_escaped rfl quote more
  split
  · next hc =>
      subst hc
      exact readPythonRest_escaped rfl quote more
  split
  · next hc =>
      subst hc
      exact readPythonRest_escaped rfl quote more
  split
  · next hc =>
      subst hc
      exact readPythonRest_escaped h.unescapePython? c more
  split
  · next hcontrol =>
      have hsmall : c.toNat < 256 := by
        simp only [isControl, Bool.or_eq_true, decide_eq_true_eq, beq_iff_eq] at hcontrol
        omega
      exact readPythonRest_byNumber hsmall quote more
  · next hbackslash hfeed hreturn _ hquote _ =>
      exact readPythonRest_plain hbackslash hquote (by simp [isLineBreak, hfeed, hreturn]) more

/-- An escaped text is read up to the quote behind it. -/
theorem readPythonRest_flatMap (h : IsQuote quote) (cs more : List Char) :
    readPythonRest quote (cs.flatMap (escapePythonChar quote) ++ quote :: more) =
      some (cs, more) := by
  induction cs with
  | nil =>
      exact readPythonRest_quote h.ne_backslash more
  | cons c cs ih =>
      rw [List.flatMap_cons, List.append_assoc, readPythonRest_escapePythonChar h, ih]
      rfl

/-- A string is read back, whatever follows it but another quote, which would make a longer quote
of an empty string. -/
theorem readPythonLiteral_pythonLiteral (cs : List Char) {more : List Char}
    (hmore : ∀ c ∈ more.head?, ¬ IsQuote c) :
    readPythonLiteral (pythonLiteral cs ++ more) = some (cs, more) := by
  have h := isQuote_pythonQuote cs
  have hliteral : pythonLiteral cs ++ more =
      pythonQuote cs :: (cs.flatMap (escapePythonChar (pythonQuote cs)) ++
        pythonQuote cs :: more) := by
    simp [pythonLiteral]
  have hread := readPythonRest_flatMap h cs more
  have hshort : [pythonQuote cs, pythonQuote cs].isPrefixOf
      (cs.flatMap (escapePythonChar (pythonQuote cs)) ++ pythonQuote cs :: more) = false := by
    rw [Bool.eq_false_iff]
    intro hlong
    obtain ⟨rest, hrest⟩ := List.isPrefixOf_iff_prefix.mp hlong
    -- A quote right at the start would end the string, which is then empty.
    rw [← hrest, List.cons_append, readPythonRest_quote h.ne_backslash] at hread
    cases hread
    exact hmore _ rfl h
  rw [hliteral, readPythonLiteral, hshort, readPythonRest_flatMap h]
  rcases h with h | h <;> simp [h]

end Python

end Text
end Tunables
