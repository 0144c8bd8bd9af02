import Mathlib
import Tunables.Artifact.Script
import Tunables.Proofs.Text.Cut
import Tunables.Proofs.Text.Numeral
import Tunables.Proofs.Text.Quoted
import Tunables.Text.Identifier

/-!
# Reading lines of C++

A reader for the lines of a C++ file that hold a statement or a `#line` directive.

A statement is read as its tokens: words, string literals, numbers and operators, with blanks
between them.  Keywords are words like others, and brackets, commas and semicolons are operators.
Of several operators that a text may start with, the longest is read.  Whatever else C++ has is
refused: comments, characters, literals with a prefix or a suffix, numbers that are not decimal, and
the spellings of brackets without brackets.

* `tokens`: the tokens of a text.
* `write`: tokens and blanks as a text.
* `tokens_write`: the tokens are read back if no two of them meet that would run together.
* `readLine`: what is on a line.
-/

namespace Tunables
namespace Cpp

/-- A token. -/
inductive Token where
  | word (name : List Char)
  | text (content : List Char)
  | number (n : Text.Number)
  | symbol (written : List Char)

section Reading

/-- The operators. -/
def operators : List (List Char) :=
  ["(", ")", "[", "]", "\x7b", "\x7d", ",", ";", ":", "::", "?", ".", ".*", "...", "->", "->*", "~",
    "!", "+", "-", "*", "/", "%", "^", "&", "|", "=", "+=", "-=", "*=", "/=", "%=", "^=", "&=",
    "|=", "==", "!=", "<", ">", "<=", ">=", "&&", "||", "<<",
    ">>", "<<=", ">>=", "++", "--"].map String.toList

/-- What is no operator here but would be torn apart if it were not read as one: marks of comments,
other spellings of brackets, and an operator that not every C++ has. -/
def unread : List (List Char) :=
  ["//", "/*", "<:", ":>", "<%", "%>", "%:", "<=>"].map String.toList

/-- What is read as one. -/
def marks : List (List Char) :=
  operators ++ unread

/-- The longest mark at the start of a text, and the text behind it. -/
def splitMark (cs : List Char) : List Char × List Char :=
  if cs.take 3 ∈ marks then cs.splitAt 3
  else if cs.take 2 ∈ marks then cs.splitAt 2
  else cs.splitAt 1

/-- Reads a token. -/
def readToken : List Char → Option (Token × List Char)
  | [] => none
  | c :: cs =>
      if c = '"' then
        match Text.readCLiteral (c :: cs) with
        | some (content, rest) =>
            if rest.head?.any isNameStart then none else some (.text content, rest)
        | none => none
      else if isNameStart c then
        let rest := (c :: cs).dropWhile isNamePart
        if rest.head?.any fun d => d = '\'' || d = '"' then none
        else some (.word ((c :: cs).takeWhile isNamePart), rest)
      else if c.isDigit || (c = '.' && cs.head?.any Char.isDigit) then
        (Text.readNumber (c :: cs)).map fun read => (.number read.1, read.2)
      else if (splitMark (c :: cs)).1 ∈ operators then
        some (.symbol (splitMark (c :: cs)).1, (splitMark (c :: cs)).2)
      else none

/-- A character that may stand between tokens. -/
def isBlank (c : Char) : Bool :=
  c == ' ' || c == '\t'

/-- The tokens of a text. -/
def tokens : List Char → Option (List Token)
  | [] => some []
  | c :: cs =>
      if isBlank c then tokens cs
      else
        match readToken (c :: cs) with
        | none => none
        | some (token, rest) =>
            if rest.length < (c :: cs).length then (tokens rest).map (token :: ·) else none
termination_by cs => cs.length
decreasing_by
  · exact Nat.lt_succ_self _
  · assumption

/-- What is on a line. -/
inductive Line where
  /-- A directive that sets the number of the next line and its file. -/
  | directive (line : Nat) (file : List Char)
  | statement (tokens : List Token)

/-- Reads a `#line` directive: the number of a line and a file between quotes. -/
def readDirective : List Char → Option Line
  | '#' :: 'l' :: 'i' :: 'n' :: 'e' :: ' ' :: place =>
      match Text.readNumber place with
      | some (.whole line, ' ' :: literal) =>
          match Text.readCLiteral literal with
          | some (file, []) => some (.directive line file)
          | _ => none
      | _ => none
  | _ => none

/-- Reads a line. -/
def readLine (cs : List Char) : Option Line :=
  if cs.head? = some '#' then readDirective cs else (tokens cs).map .statement

end Reading

/-- A name of letters, digits and underscores that does not start with a digit. -/
structure IsWord (name : List Char) : Prop where
  starts : ∃ c ∈ name.head?, isNameStart c = true
  parts : ∀ c ∈ name, isNamePart c = true

theorem isWord_iff (name : List Char) :
    IsWord name ↔ name.head?.any isNameStart = true ∧ name.all isNamePart = true := by
  constructor
  · rintro ⟨hstarts, hparts⟩
    exact ⟨(Option.any_eq_true _ _).mpr hstarts, List.all_eq_true.mpr hparts⟩
  · rintro ⟨hstarts, hparts⟩
    exact ⟨(Option.any_eq_true _ _).mp hstarts, List.all_eq_true.mp hparts⟩

instance (name : List Char) : Decidable (IsWord name) :=
  decidable_of_iff' _ (isWord_iff name)

theorem isWord_of_isIdentifier {name : List Char} (h : IsIdentifier name) : IsWord name :=
  ⟨h.starts, h.parts⟩

/-- A mark that starts with the given text and goes on with the given character. -/
def continues (written : List Char) (c : Char) : Bool :=
  marks.any fun mark => (written ++ [c]).isPrefixOf mark

namespace Token

/-- A token as it is written. -/
def written : Token → List Char
  | .word name => name
  | .text content => Text.cLiteral content
  | .number (.whole n) => Text.numeral n
  | .number (.floating written) => written
  | .symbol written => written

/-- A token that can be read. -/
def IsProper : Token → Prop
  | .word name => IsWord name
  | .text _ => True
  | .number (.whole _) => True
  | .number (.floating written) => Text.IsFloatingText written
  | .symbol written => written ∈ operators

/-- A text that ends the token in front of it. -/
def Ends : Token → List Char → Prop
  | .word _, rest => ∀ c ∈ rest.head?, isNamePart c = false ∧ ¬ Text.IsQuote c
  | .text _, rest => ∀ c ∈ rest.head?, isNameStart c = false
  | .number _, rest => Text.EndsNumber rest
  | .symbol written, rest =>
      ∀ c ∈ rest.head?, continues written c = false ∧ (written = ['.'] → c.isDigit = false)

end Token

section Tokens

variable {rest : List Char}

theorem readToken_word {name : List Char} (hname : IsWord name) (h : (Token.word name).Ends rest) :
    readToken (name ++ rest) = some (.word name, rest) := by
  obtain ⟨c, hc, hstart⟩ := hname.starts
  obtain ⟨cs, rfl⟩ := List.head?_eq_some_iff.mp hc
  have hquote : c ≠ '"' := by
    rintro rfl
    cases hstart
  have hspan : rest.takeWhile isNamePart = [] ∧ rest.dropWhile isNamePart = rest := by
    cases rest with
    | nil => exact ⟨rfl, rfl⟩
    | cons d ds => simp [(h d rfl).1]
  have htake : (c :: cs ++ rest).takeWhile isNamePart = c :: cs := by
    rw [List.takeWhile_append_of_pos hname.parts, hspan.1, List.append_nil]
  have hdrop : (c :: cs ++ rest).dropWhile isNamePart = rest := by
    rw [List.dropWhile_append_of_pos hname.parts, hspan.2]
  have hfree : (rest.head?.any fun d => d = '\'' || d = '"') = false := by
    cases rest with
    | nil => rfl
    | cons d ds =>
        have hd := (h d rfl).2
        simpa [Text.IsQuote] using hd
  rw [List.cons_append] at htake hdrop ⊢
  simp only [readToken, if_neg hquote, if_pos hstart, htake, hdrop, hfree,
    Bool.false_eq_true, if_false]

theorem readToken_text (content : List Char) (h : (Token.text content).Ends rest) :
    readToken (Text.cLiteral content ++ rest) = some (.text content, rest) := by
  have hread := Text.readCLiteral_cLiteral content rest
  have hfree : rest.head?.any isNameStart = false := by
    cases rest with
    | nil => rfl
    | cons d ds => exact h d rfl
  rw [Text.cLiteral, List.cons_append, List.cons_append] at hread ⊢
  simp only [readToken, if_pos, hread, hfree, Bool.false_eq_true, if_false]

theorem isNameStart_of_isDigit {c : Char} (h : c.isDigit = true) : isNameStart c = false := by
  have hunderscore := Text.ne_of_class h (show '_'.isDigit = false by decide)
  simp only [Char.isDigit, Bool.and_eq_true, decide_eq_true_eq, UInt32.le_iff_toNat_le,
    Char.reduceVal, UInt32.reduceToNat] at h
  simp only [isNameStart, Char.isAlpha, Char.isUpper, Char.isLower, Bool.or_eq_false_iff,
    Bool.and_eq_false_iff, decide_eq_false_iff_not, UInt32.le_iff_toNat_le, Char.reduceVal,
    UInt32.reduceToNat, beq_eq_false_iff_ne]
  exact ⟨by omega, hunderscore⟩

/-- What starts with a digit is a number. -/
theorem readToken_of_isDigit {c : Char} {cs : List Char} {n : Text.Number} (hc : c.isDigit = true)
    (h : Text.readNumber (c :: cs) = some (n, rest)) :
    readToken (c :: cs) = some (.number n, rest) := by
  have hquote := Text.ne_of_class hc (show '"'.isDigit = false by decide)
  simp [readToken, hquote, isNameStart_of_isDigit hc, hc, h]

theorem readToken_number {n : Text.Number} (hn : (Token.number n).IsProper)
    (h : (Token.number n).Ends rest) :
    readToken ((Token.number n).written ++ rest) = some (.number n, rest) := by
  cases n with
  | whole n =>
      obtain ⟨c, cs, hnumeral, hdigit⟩ := (Text.isDigits_numeral n).exists_eq_cons
      have hread := Text.readNumber_numeral n h
      rw [Token.written]
      rw [hnumeral] at hread ⊢
      exact readToken_of_isDigit hdigit hread
  | floating written =>
      obtain ⟨c, hc, hdigit⟩ := hn.head?_isDigit
      obtain ⟨cs, rfl⟩ := List.head?_eq_some_iff.mp hc
      exact readToken_of_isDigit hdigit (hn.readNumber_eq h)

/-- A character as marks are made of: no letter, digit or underscore, no quote and no blank. -/
structure IsMarkPart (c : Char) : Prop where
  namePart : isNamePart c = false
  nameStart : isNameStart c = false
  digit : c.isDigit = false
  quote : ¬ Text.IsQuote c
  blank : isBlank c = false

theorem isMarkPart_of_mem {mark : List Char} (hmark : mark ∈ marks) {c : Char} (hc : c ∈ mark) :
    IsMarkPart c := by
  have hall : (marks.all fun mark => mark.all fun c =>
      !isNamePart c && !isNameStart c && !c.isDigit && c != '"' && c != '\'' && !isBlank c) =
        true := by
    decide
  have hc := List.all_eq_true.mp (List.all_eq_true.mp hall mark hmark) c hc
  simp only [Bool.and_eq_true, Bool.not_eq_true', bne_iff_ne] at hc
  obtain ⟨⟨⟨⟨⟨hpart, hstart⟩, hdigit⟩, hdouble⟩, hsingle⟩, hblank⟩ := hc
  exact ⟨hpart, hstart, hdigit, not_or.mpr ⟨hsingle, hdouble⟩, hblank⟩

theorem mem_marks_of_mem_operators {mark : List Char} (h : mark ∈ operators) : mark ∈ marks :=
  List.mem_append_left _ h

theorem length_of_mem_operators :
    ∀ mark ∈ operators, mark.length = 1 ∨ mark.length = 2 ∨ mark.length = 3 := by
  decide

/-- The longest mark is the operator if nothing continues it. -/
theorem splitMark_append {mark : List Char} (hmark : mark ∈ operators)
    (h : ∀ c ∈ rest.head?, continues mark c = false) : splitMark (mark ++ rest) = (mark, rest) := by
  have hmem := mem_marks_of_mem_operators hmark
  have hlonger : ∀ c ∈ rest.head?, ∀ extra, mark ++ c :: extra ∉ marks := by
    intro c hc extra hextra
    have hcontinues : continues mark c = true :=
      List.any_eq_true.mpr ⟨_, hextra, List.isPrefixOf_iff_prefix.mpr ⟨extra, by simp⟩⟩
    rw [h c hc] at hcontinues
    cases hcontinues
  rcases length_of_mem_operators mark hmark with hlength | hlength | hlength
  · obtain ⟨a, rfl⟩ := List.length_eq_one_iff.mp hlength
    cases rest with
    | nil =>
        simp [splitMark, hmem]
    | cons c more =>
        have htwo : [a, c] ∉ marks := hlonger c rfl []
        have hthree : a :: c :: more.take 1 ∉ marks := hlonger c rfl (more.take 1)
        simp [splitMark, htwo, hthree]
  · obtain ⟨a, b, rfl⟩ := List.length_eq_two.mp hlength
    cases rest with
    | nil =>
        simp [splitMark, hmem]
    | cons c more =>
        have hthree : [a, b, c] ∉ marks := hlonger c rfl []
        simp [splitMark, hmem, hthree]
  · obtain ⟨a, b, c, rfl⟩ := List.length_eq_three.mp hlength
    simp [splitMark, hmem]

theorem readToken_symbol {mark : List Char} (hmark : mark ∈ operators)
    (h : (Token.symbol mark).Ends rest) :
    readToken (mark ++ rest) = some (.symbol mark, rest) := by
  have hsplit := splitMark_append hmark fun c hc => (h c hc).1
  cases mark with
  | nil =>
      simp [operators] at hmark
  | cons c cs =>
      have hmem := mem_marks_of_mem_operators hmark
      have hpart := isMarkPart_of_mem hmem List.mem_cons_self
      have hquote : c ≠ '"' := fun hc => hpart.quote (Or.inr hc)
      have hpoint : (c = '.' && (cs ++ rest).head?.any Char.isDigit) = false := by
        rw [Bool.and_eq_false_iff, decide_eq_false_iff_not, or_iff_not_imp_left, not_not]
        rintro rfl
        cases cs with
        | nil =>
            cases rest with
            | nil => rfl
            | cons d more => exact (h d rfl).2 rfl
        | cons d cs =>
            exact (isMarkPart_of_mem hmem (by simp)).digit
      rw [List.cons_append] at hsplit ⊢
      simp only [readToken, if_neg hquote, hpart.nameStart, hpart.digit, hpoint, hsplit, hmark,
        Bool.false_eq_true, Bool.or_self, if_false, if_true]

/-- A proper token is read back if what follows ends it. -/
theorem readToken_written {token : Token} (hproper : token.IsProper) (h : token.Ends rest) :
    readToken (token.written ++ rest) = some (token, rest) := by
  cases token with
  | word name => exact readToken_word hproper h
  | text content => exact readToken_text content h
  | number n => exact readToken_number hproper h
  | symbol mark => exact readToken_symbol hproper h

end Tokens

/-- The first character of a token, which says what kind of token it is. -/
def Token.Starts : Token → Char → Prop
  | .word _, c => isNameStart c = true
  | .text _, c => c = '"'
  | .number _, c => c.isDigit = true
  | .symbol mark, c => mark.head? = some c

theorem Token.head?_written {token : Token} (h : token.IsProper) :
    ∃ c ∈ token.written.head?, token.Starts c := by
  cases token with
  | word name =>
      exact h.starts
  | text content =>
      exact ⟨'"', rfl, rfl⟩
  | number n =>
      cases n with
      | whole n =>
          obtain ⟨c, cs, hnumeral, hdigit⟩ := (Text.isDigits_numeral n).exists_eq_cons
          rw [written, hnumeral]
          exact ⟨c, rfl, hdigit⟩
      | floating written =>
          exact h.head?_isDigit
  | symbol mark =>
      cases mark with
      | nil => simp [IsProper, operators] at h
      | cons c cs => exact ⟨c, rfl, rfl⟩

theorem Token.Starts.isBlank_eq_false {token : Token} {c : Char} (hproper : token.IsProper)
    (h : token.Starts c) :
    isBlank c = false := by
  cases token with
  | word name =>
      rw [Bool.eq_false_iff]
      intro hblank
      simp only [isBlank, Bool.or_eq_true, beq_iff_eq] at hblank
      rcases hblank with rfl | rfl <;> cases h
  | text content =>
      rw [show c = '"' from h]
      decide
  | number n =>
      simp [isBlank, Text.ne_of_class h (show ' '.isDigit = false by decide),
        Text.ne_of_class h (show '\t'.isDigit = false by decide)]
  | symbol mark =>
      exact (isMarkPart_of_mem (mem_marks_of_mem_operators hproper) (List.mem_of_head? h)).blank

section Meeting

/-- A token may stand right in front of another one. -/
def Token.mayMeet : Token → Token → Bool
  | .word _, .symbol _ => true
  | .word _, _ => false
  | .text _, .word _ => false
  | .text _, _ => true
  | .number _, .symbol mark => mark.head?.all fun c => !Text.isNumberPart c && !Text.isSign c
  | .number _, _ => false
  | .symbol mark, .symbol next => next.head?.all fun c => !continues mark c
  | .symbol mark, .number _ => mark != ['.']
  | .symbol _, _ => true

/-- Only characters of marks continue a mark. -/
theorem continues_eq_false {c : Char} (h : ∀ mark ∈ marks, c ∉ mark) (mark : List Char) :
    continues mark c = false := by
  rw [continues, List.any_eq_false]
  intro longer hmem hprefix
  refine h longer hmem ((List.isPrefixOf_iff_prefix.mp hprefix).subset ?_)
  simp

theorem Token.ends_blank (token : Token) (rest : List Char) : token.Ends (' ' :: rest) := by
  have hmarks : ∀ mark ∈ marks, ' ' ∉ mark := fun mark hmark hmem =>
    absurd (isMarkPart_of_mem hmark hmem).blank (by decide)
  cases token with
  | word _ =>
      rintro c ⟨⟩
      exact ⟨by decide, by simp [Text.IsQuote]⟩
  | text _ =>
      rintro c ⟨⟩
      decide
  | number _ =>
      rintro c ⟨⟩
      decide
  | symbol mark =>
      rintro c ⟨⟩
      exact ⟨continues_eq_false hmarks mark, fun _ => by decide⟩

theorem Token.ends_nil (token : Token) : token.Ends [] := by
  cases token <;> simp [Ends, Text.EndsNumber]

section Next

variable {next : Token} {c : Char}

theorem Token.Starts.isMarkPart {mark : List Char} (hproper : (Token.symbol mark).IsProper)
    (h : (Token.symbol mark).Starts c) : IsMarkPart c :=
  isMarkPart_of_mem (mem_marks_of_mem_operators hproper) (List.mem_of_head? h)

theorem Token.Starts.not_isMarkPart (h : next.Starts c) (hnext : ∀ mark, next ≠ .symbol mark) :
    ¬ IsMarkPart c := by
  intro hpart
  cases next with
  | word _ => exact Text.ne_of_class h hpart.nameStart rfl
  | text _ => exact hpart.quote (Or.inr h)
  | number _ => exact Text.ne_of_class h hpart.digit rfl
  | symbol mark => exact hnext mark rfl

/-- A mark is not continued by what is no mark. -/
theorem Token.Starts.continues_eq_false (h : next.Starts c) (hnext : ∀ mark, next ≠ .symbol mark)
    (mark : List Char) :
    continues mark c = false :=
  Cpp.continues_eq_false (fun _ hlonger hmem =>
    h.not_isMarkPart hnext (isMarkPart_of_mem hlonger hmem)) mark

/-- Only a number starts with a digit. -/
theorem Token.Starts.isDigit_eq_false (hproper : next.IsProper) (h : next.Starts c)
    (hnext : ∀ n, next ≠ .number n) :
    c.isDigit = false := by
  cases next with
  | word _ =>
      rw [Bool.eq_false_iff]
      exact fun hdigit => Text.ne_of_class h (isNameStart_of_isDigit hdigit) rfl
  | text _ =>
      rw [show c = '"' from h]
      decide
  | number n =>
      exact absurd rfl (hnext n)
  | symbol _ =>
      exact (Starts.isMarkPart hproper h).digit

end Next

/-- Tokens that may meet are told apart. -/
theorem Token.ends_of_mayMeet {token next : Token} (h : token.mayMeet next = true)
    (hnext : next.IsProper) (rest : List Char) : token.Ends (next.written ++ rest) := by
  obtain ⟨c, hc, hstarts⟩ := next.head?_written hnext
  have hhead : ∀ d ∈ (next.written ++ rest).head?, d = c := by
    obtain ⟨cs, hwritten⟩ := List.head?_eq_some_iff.mp hc
    rw [hwritten]
    rintro d ⟨⟩
    rfl
  cases token with
  | word name =>
      intro d hd
      rw [hhead d hd]
      cases next with
      | word _ | text _ | number _ => cases h
      | symbol _ =>
          exact ⟨(Starts.isMarkPart hnext hstarts).namePart,
            (Starts.isMarkPart hnext hstarts).quote⟩
  | text content =>
      intro d hd
      rw [hhead d hd]
      cases next with
      | word _ => cases h
      | text _ =>
          rw [show c = '"' from hstarts]
          decide
      | number _ => exact isNameStart_of_isDigit hstarts
      | symbol _ => exact (Starts.isMarkPart hnext hstarts).nameStart
  | number n =>
      intro d hd
      rw [hhead d hd]
      cases next with
      | word _ | text _ | number _ => cases h
      | symbol mark => simpa [mayMeet, show mark.head? = some c from hstarts] using h
  | symbol mark =>
      intro d hd
      rw [hhead d hd]
      cases next with
      | word _ | text _ =>
          exact ⟨hstarts.continues_eq_false (by rintro _ ⟨⟩) mark,
            fun _ => hstarts.isDigit_eq_false hnext (by rintro _ ⟨⟩)⟩
      | number _ =>
          refine ⟨hstarts.continues_eq_false (by rintro _ ⟨⟩) mark, fun hpoint => ?_⟩
          simp [mayMeet, hpoint] at h
      | symbol other =>
          have hcontinues : continues mark c = false := by
            simpa [mayMeet, show other.head? = some c from hstarts] using h
          exact ⟨hcontinues, fun _ => (Starts.isMarkPart hnext hstarts).digit⟩

end Meeting

section Statements

variable {rest : List Char}

theorem tokens_blank (rest : List Char) : tokens (' ' :: rest) = tokens rest := by
  rw [tokens, if_pos (by decide)]

theorem tokens_written {token : Token} (hproper : token.IsProper) (h : token.Ends rest) :
    tokens (token.written ++ rest) = (tokens rest).map (token :: ·) := by
  obtain ⟨c, hc, hstarts⟩ := token.head?_written hproper
  have hread := readToken_written hproper h
  obtain ⟨cs, hwritten⟩ := List.head?_eq_some_iff.mp hc
  rw [hwritten, List.cons_append] at hread ⊢
  have hshorter : rest.length < (c :: (cs ++ rest)).length := by
    simp only [List.length_cons, List.length_append]
    omega
  rw [tokens, hstarts.isBlank_eq_false hproper, hread]
  exact if_pos hshorter

/-- Tokens and blanks as a text. -/
def write (items : List (Option Token)) : List Char :=
  items.flatMap fun item => (item.map Token.written).getD [' ']

@[simp]
theorem write_nil : write [] = [] :=
  rfl

@[simp]
theorem write_none (items : List (Option Token)) : write (none :: items) = ' ' :: write items :=
  rfl

@[simp]
theorem write_some (token : Token) (items : List (Option Token)) :
    write (some token :: items) = token.written ++ write items :=
  rfl

@[simp]
theorem write_append (items others : List (Option Token)) :
    write (items ++ others) = write items ++ write others :=
  List.flatMap_append

theorem reduceOption_map_some (tokens : List Token) : (tokens.map some).reduceOption = tokens := by
  simp [List.reduceOption, List.filterMap_map]

/-- No two tokens meet that would run together. -/
def isSpaced : List (Option Token) → Bool
  | some token :: some next :: rest => token.mayMeet next && isSpaced (some next :: rest)
  | _ :: rest => isSpaced rest
  | [] => true

/-- A blank keeps apart what stands around it. -/
theorem isSpaced_append_none (items others : List (Option Token)) :
    isSpaced (items ++ none :: others) = (isSpaced items && isSpaced others) := by
  induction items with
  | nil =>
      rfl
  | cons item items ih =>
      cases item with
      | none =>
          exact ih
      | some token =>
          cases items with
          | nil =>
              rfl
          | cons next items =>
              cases next with
              | none =>
                  exact ih
              | some next =>
                  simp only [List.cons_append, isSpaced] at ih ⊢
                  rw [ih, Bool.and_assoc]

theorem isSpaced_of_append {items others : List (Option Token)}
    (h : isSpaced (items ++ others) = true) :
    isSpaced items = true := by
  induction items with
  | nil =>
      rfl
  | cons item items ih =>
      cases item with
      | none =>
          exact ih h
      | some token =>
          cases items with
          | nil =>
              rfl
          | cons next items =>
              cases next with
              | none =>
                  exact ih h
              | some next =>
                  simp only [List.cons_append, isSpaced, Bool.and_eq_true] at h ih ⊢
                  exact ⟨h.1, ih h.2⟩

/-- What is written with tokens and blanks is read as the tokens. -/
theorem tokens_write {items : List (Option Token)}
    (hproper : ∀ token ∈ items.reduceOption, token.IsProper) (h : isSpaced items = true) :
    tokens (write items) = some (items.reduceOption) := by
  induction items with
  | nil =>
      rw [write, List.flatMap_nil, tokens]
      rfl
  | cons item items ih =>
      cases item with
      | none =>
          exact (tokens_blank (write items)).trans (ih hproper h)
      | some token =>
          have hrest : ∀ token ∈ items.reduceOption, token.IsProper := fun token hmem =>
            hproper token (List.mem_cons_of_mem _ hmem)
          have hends : token.Ends (write items) ∧ isSpaced items = true := by
            cases items with
            | nil =>
                exact ⟨token.ends_nil, rfl⟩
            | cons next items =>
                cases next with
                | none =>
                    exact ⟨token.ends_blank (write items), h⟩
                | some next =>
                    rw [isSpaced, Bool.and_eq_true] at h
                    exact ⟨Token.ends_of_mayMeet h.1 (hrest next List.mem_cons_self) (write items),
                      h.2⟩
          have htoken := hproper token List.mem_cons_self
          have hread := tokens_written htoken hends.1
          rw [ih hrest hends.2] at hread
          exact hread

end Statements

section Breaks

/-- No token is written on two lines. -/
theorem Token.not_mem_written {token : Token} (h : token.IsProper) : '\n' ∉ token.written := by
  cases token with
  | word name =>
      exact fun hmem => Bool.false_ne_true (h.parts _ hmem)
  | text content =>
      simp only [written, Text.cLiteral, List.mem_append, List.mem_cons, List.not_mem_nil, or_false]
      rintro ((h | h) | h)
      · cases h
      · cases Text.isLineBreak_of_mem_escapeC h
      · cases h
  | number n =>
      cases n with
      | whole n =>
          exact fun hmem => Bool.false_ne_true ((Text.isDigits_numeral n).all _ hmem)
      | floating written =>
          intro hmem
          have hsplit : (Text.splitNumber false written).1 = written := by
            rw [Text.IsFloatingText.splitNumber_eq h]
          rcases Text.mem_splitNumber (hsplit.symm ▸ hmem) with hpart | hsign
          · cases hpart
          · cases hsign
  | symbol mark =>
      have hmarks : ∀ mark ∈ operators, '\n' ∉ mark := by decide
      exact hmarks mark h

theorem not_mem_write {items : List (Option Token)}
    (h : ∀ token ∈ items.reduceOption, token.IsProper) :
    '\n' ∉ write items := by
  intro hmem
  obtain ⟨item, hitem, hc⟩ := List.mem_flatMap.mp hmem
  cases item with
  | none =>
      cases List.mem_singleton.mp hc
  | some token =>
      exact token.not_mem_written (h token (List.mem_filterMap.mpr ⟨_, hitem, rfl⟩)) hc

/-- A directive is on one line if the name of its file is. -/
theorem not_mem_directive {location : Location}
    (h : ∀ c ∈ location.file.toList, Text.isLineBreak c = false) :
    '\n' ∉ Script.directive location := by
  have hnumeral : '\n' ∉ Text.numeral location.line := fun hmem =>
    Bool.false_ne_true ((Text.isDigits_numeral location.line).all _ hmem)
  have hfile : '\n' ∉ Text.escapeLinePath location.file.toList := by
    intro hmem
    rcases Text.mem_escapeLinePath hmem with hc | hc | hc
    · cases hc
    · cases hc
    · cases h _ hc
  simp [Script.directive, Script.lineDirective, hnumeral, hfile]

/-- A text that is on one line and is read as the given tokens. -/
structure Spells (cs : List Char) (found : List Token) : Prop where
  unbroken : '\n' ∉ cs
  tokens_eq : tokens cs = some found

/-- What is written with tokens and blanks spells the tokens. -/
theorem spells_write {items : List (Option Token)}
    (hproper : ∀ token ∈ items.reduceOption, token.IsProper) (h : isSpaced items = true) :
    Spells (write items) items.reduceOption :=
  ⟨not_mem_write hproper, tokens_write hproper h⟩

end Breaks

section Lines

/-- A directive is read back if there are no line breaks in the name of its file. -/
theorem readLine_directive {location : Location}
    (h : ∀ c ∈ location.file.toList, Text.isLineBreak c = false) :
    readLine (Script.directive location) =
      some (.directive location.line location.file.toList) := by
  have hfile := Text.readCLiteral_escapeLinePath h []
  have hends :
      Text.EndsNumber (' ' :: '"' :: (Text.escapeLinePath location.file.toList ++ ['"'])) := by
    rintro c ⟨⟩
    decide
  have hnumber := Text.readNumber_numeral location.line hends
  have hdirective : Script.directive location = '#' :: 'l' :: 'i' :: 'n' :: 'e' :: ' ' ::
      (Text.numeral location.line ++
        ' ' :: '"' :: (Text.escapeLinePath location.file.toList ++ ['"'])) := by
    simp [Script.directive, Script.lineDirective]
  rw [hdirective, readLine, List.head?_cons, if_pos rfl]
  simp [readDirective, hnumber, hfile]

/-- A statement behind blanks is read as its tokens. -/
theorem readLine_statement {statement : List Char} {found : List Token}
    (h : tokens statement = some found) (count : Nat) :
    readLine (List.replicate (count + 1) ' ' ++ statement) = some (.statement found) := by
  have hblanks : ∀ count, tokens (List.replicate count ' ' ++ statement) = some found := by
    intro count
    induction count with
    | zero => exact h
    | succ count ih => exact (tokens_blank _).trans ih
  have hhead : (List.replicate (count + 1) ' ' ++ statement).head? ≠ some '#' := by
    simp [List.replicate_succ]
  rw [readLine, if_neg hhead, hblanks]
  rfl

/-- A line without line feeds that is read as the given one. -/
structure Shows (cs : List Char) (line : Line) : Prop where
  unbroken : '\n' ∉ cs
  readLine_eq : readLine cs = some line

/-- Lines that are joined with line feeds are read one by one. -/
theorem readLine_cut {texts : List (List Char)} {lines : List Line}
    (h : List.Forall₂ Shows texts lines) (hne : texts ≠ []) :
    (Text.cut '\n' (Script.fragment texts)).map readLine = lines.map some := by
  have hlines :
      List.Forall₂ (fun text line => '\n' ∉ text ∧ readLine text = some line) texts lines :=
    h.imp fun _ _ hshows => ⟨hshows.unbroken, hshows.readLine_eq⟩
  obtain ⟨hunbroken, hread⟩ := (List.forall₂_and_left _ _).mp hlines
  rw [Script.fragment, Text.cut_join hne hunbroken, ← List.forall₂_eq_eq_eq,
    List.forall₂_map_left_iff, List.forall₂_map_right_iff]
  exact hread

end Lines

end Cpp
end Tunables
