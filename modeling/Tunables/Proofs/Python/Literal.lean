import Tunables.Proofs.Text.Quoted

/-!
# String literals of Python

A reader for all string literals of Python without a letter in front: between single and double
quotes, one or three of them, with all escapes.  It works in two steps.  `body` looks for the quotes
that close the literal, and only has to know that a backslash takes what follows it along.  `decode`
says what the characters in between stand for: lines may be joined by a backslash, a character is
written by its letter, by its number, or by its name in the list of all characters, and a backslash
in front of anything else stays.

* `readLiteral`: the text of a literal, and what is left behind it.
* `readLiteral_of_readPythonLiteral`: what the reader for the strings of the generated files
  reads, it reads alike.
* `readLiteral_pythonLiteral`: a text that was escaped is read back.
-/

namespace Tunables
namespace Python

open Tunables.Text (IsQuote escapePythonChar isLineBreak map_withFront_eq_some pythonLiteral
  pythonQuote readPythonLiteral readPythonRest unescapePython? withFront)

/-- The characters up to the quotes that close a literal, and what is left behind them.  A line must
not end between single quotes. -/
def body (closing : List Char) : List Char → Option (List Char × List Char)
  | [] => none
  | '\\' :: '\r' :: '\n' :: rest =>
      (body closing rest).map (withFront '\\' ∘ withFront '\r' ∘ withFront '\n')
  | '\\' :: c :: rest => (body closing rest).map (withFront '\\' ∘ withFront c)
  | c :: rest =>
      if closing.isPrefixOf (c :: rest) then some ([], (c :: rest).drop closing.length)
      else if c = '\\' || closing.length = 1 && isLineBreak c then none
      else (body closing rest).map (withFront c)

/-- The number that digits write. -/
def number? (base : Nat) (digits : List Char) : Option Nat :=
  digits.foldlM (fun n c => (Toml.hexDigit? c).map (base * n + ·)) 0

/-- The character with a number. -/
def character? (n : Nat) : Option Char :=
  if n.isValidChar then some (Char.ofNat n) else none

/-- The character that is written by a number of just so many hexadecimal digits. -/
def byNumber (count : Nat) (cs : List Char) : Option Char :=
  if cs.length < count then none else number? 16 (cs.take count) >>= character?

/-- The octal digits in front of a text, three at most. -/
def octal (cs : List Char) : List Char :=
  (cs.take 3).takeWhile fun c => '0' ≤ c && c ≤ '7'

/-- What is written behind a backslash: what it stands for, and how many characters it has.  The
names of characters are those of a list. -/
def escape? (named : List Char → Option Char) : List Char → Option (List Char × Nat)
  | [] => none
  | '\r' :: '\n' :: _ => some ([], 2)
  | 'x' :: rest => (byNumber 2 rest).map fun c => ([c], 3)
  | 'u' :: rest => (byNumber 4 rest).map fun c => ([c], 5)
  | 'U' :: rest => (byNumber 8 rest).map fun c => ([c], 9)
  | 'N' :: rest =>
      let name := rest.tail.takeWhile (· != '\x7d')
      if rest.head? = some '\x7b' ∧ name.length < rest.tail.length then
        (named name).map fun c => ([c], name.length + 3)
      else none
  | c :: rest =>
      if isLineBreak c then some ([], 1)
      else if octal (c :: rest) ≠ [] then
        (number? 8 (octal (c :: rest)) >>= character?).map fun d =>
          ([d], (octal (c :: rest)).length)
      else
        match unescapePython? c with
        | some d => some ([d], 1)
        | none => some (['\\', c], 1)

/-- What the characters between the quotes stand for.  Every end of a line is a line feed. -/
def decode (named : List Char → Option Char) : List Char → Option (List Char)
  | [] => some []
  | '\\' :: rest =>
      match escape? named rest with
      | some (text, count) => (decode named (rest.drop count)).map (text ++ ·)
      | none => none
  | '\r' :: rest =>
      (decode named (if rest.head? = some '\n' then rest.tail else rest)).map ('\n' :: ·)
  | c :: rest => (decode named rest).map (c :: ·)
termination_by cs => cs.length
decreasing_by all_goals grind

/-- Reads a string literal.  Nothing with a NUL in it is a source of Python. -/
def readLiteral (named : List Char → Option Char) : List Char → Option (List Char × List Char)
  | [] => none
  | quote :: rest =>
      if quote = '\'' || quote = '"' then do
        let closing := if [quote, quote].isPrefixOf rest then [quote, quote, quote] else [quote]
        let (content, more) ← body closing ((quote :: rest).drop closing.length)
        if content.contains '\x00' then none else (decode named content).map (·, more)
      else none

section Reading

variable {quote c d high low : Char} {h l : Nat} {cs content text rest : List Char}
  {named : List Char → Option Char}

theorem hexDigit?_lt (hhigh : Toml.hexDigit? high = some h) : h < 16 := by
  unfold Toml.hexDigit? at hhigh
  split at hhigh
  · next hrange =>
      cases hhigh
      have hle : high.toNat ≤ '9'.toNat := hrange.2
      have : '9'.toNat = 57 ∧ '0'.toNat = 48 := by decide
      omega
  split at hhigh
  · next hrange =>
      cases hhigh
      have hle : high.toNat ≤ 'f'.toNat := hrange.2
      have : 'f'.toNat = 102 ∧ 'a'.toNat = 97 := by decide
      omega
  split at hhigh
  · next hrange =>
      cases hhigh
      have hle : high.toNat ≤ 'F'.toNat := hrange.2
      have : 'F'.toNat = 70 ∧ 'A'.toNat = 65 := by decide
      omega
  · cases hhigh

theorem body_close (hquote : quote ≠ '\\') (rest : List Char) :
    body [quote] (quote :: rest) = some ([], rest) := by
  rw [body]
  · simp
  · exact fun _ hc _ => hquote hc
  · exact fun _ _ hc _ => hquote hc

theorem body_plain (hbackslash : c ≠ '\\') (hquote : c ≠ quote) (hbreak : isLineBreak c = false)
    (rest : List Char) :
    body [quote] (c :: rest) = (body [quote] rest).map (withFront c) := by
  rw [body]
  · simp [hbackslash, Ne.symm hquote, hbreak]
  · exact fun _ hc _ => hbackslash hc
  · exact fun _ _ hc _ => hbackslash hc

/-- A digit is nothing special in a literal. -/
theorem body_digit (hquote : IsQuote quote) (hhigh : Toml.hexDigit? high = some h)
    (rest : List Char) :
    body [quote] (high :: rest) = (body [quote] rest).map (withFront high) := by
  have hne : ∀ d, Toml.hexDigit? d = none → high ≠ d := by
    rintro d hnone rfl
    rw [hnone] at hhigh
    cases hhigh
  refine body_plain (hne _ rfl) ?_ ?_ rest
  · rcases hquote with rfl | rfl
    · exact hne _ rfl
    · exact hne _ rfl
  · simp [isLineBreak, hne '\n' rfl, hne '\r' rfl]

theorem body_escaped (hreturn : c ≠ '\r') (closing rest : List Char) :
    body closing ('\\' :: c :: rest) = (body closing rest).map (withFront '\\' ∘ withFront c) := by
  rw [body]
  exact fun _ hc _ => hreturn hc

theorem decode_plain (hbackslash : c ≠ '\\') (hreturn : c ≠ '\r') (named : List Char → Option Char)
    (content : List Char) :
    decode named (c :: content) = (decode named content).map (c :: ·) := by
  rw [decode]
  · exact hbackslash
  · exact hreturn

theorem decode_escaped (hd : unescapePython? c = some d) (named : List Char → Option Char)
    (content : List Char) :
    decode named ('\\' :: c :: content) = (decode named content).map (d :: ·) := by
  have hescape : escape? named (c :: content) = some ([d], 1) := by
    unfold unescapePython? at hd
    split at hd <;> cases hd <;> rfl
  rw [decode, hescape]
  rfl

theorem decode_byNumber (hhigh : Toml.hexDigit? high = some h) (hlow : Toml.hexDigit? low = some l)
    (named : List Char → Option Char) (content : List Char) :
    decode named ('\\' :: 'x' :: high :: low :: content) =
      (decode named content).map (Char.ofNat (16 * h + l) :: ·) := by
  have hvalid : (16 * h + l).isValidChar :=
    Or.inl (by have := hexDigit?_lt hhigh; have := hexDigit?_lt hlow; omega)
  have hescape : escape? named ('x' :: high :: low :: content) =
      some ([Char.ofNat (16 * h + l)], 3) := by
    simp [escape?, byNumber, number?, character?, hhigh, hlow, hvalid]
  rw [decode, hescape]
  rfl

/-- What the reader for the strings of the generated files finds between the quotes. -/
theorem body_of_readPythonRest (hquote : IsQuote quote) (named : List Char → Option Char)
    (hread : readPythonRest quote cs = some (text, rest)) :
    ∃ content, cs = content ++ quote :: rest ∧ body [quote] cs = some (content, rest) ∧
      decode named content = some text := by
  fun_induction readPythonRest quote cs generalizing text with
  | case1 => cases hread
  | case2 high low more h l hlow hhigh ih =>
      obtain ⟨others, hmore, rfl⟩ := map_withFront_eq_some hread
      obtain ⟨content, rfl, hbody, hdecode⟩ := ih hmore
      refine ⟨'\\' :: 'x' :: high :: low :: content, rfl, ?_, ?_⟩
      · rw [body_escaped (by decide), body_digit hquote hhigh, body_digit hquote hlow, hbody]
        rfl
      · rw [decode_byNumber hhigh hlow, hdecode]
        rfl
  | case3 => cases hread
  | case4 c more _ d hd ih =>
      obtain ⟨others, hmore, rfl⟩ := map_withFront_eq_some hread
      obtain ⟨content, rfl, hbody, hdecode⟩ := ih hmore
      have hreturn : c ≠ '\r' := by
        rintro rfl
        cases hd
      refine ⟨'\\' :: c :: content, rfl, ?_, ?_⟩
      · rw [body_escaped hreturn, hbody]
        rfl
      · rw [decode_escaped hd, hdecode]
        rfl
  | case5 => cases hread
  | case6 more _ _ =>
      cases hread
      exact ⟨[], rfl, body_close hquote.ne_backslash _, by rw [decode]⟩
  | case7 => cases hread
  | case8 c more _ _ hclose hplain ih =>
      obtain ⟨others, hmore, rfl⟩ := map_withFront_eq_some hread
      obtain ⟨content, rfl, hbody, hdecode⟩ := ih hmore
      simp only [Bool.or_eq_true, decide_eq_true_eq, not_or, Bool.not_eq_true] at hplain
      have hreturn : c ≠ '\r' := by
        rintro rfl
        exact absurd hplain.2 (by decide)
      refine ⟨c :: content, rfl, ?_, ?_⟩
      · rw [body_plain hplain.1 hclose hplain.2, hbody]
        rfl
      · rw [decode_plain hplain.1 hreturn, hdecode]
        rfl

/-- The two readers read alike what both can read; only the one for all literals minds a NUL. -/
theorem readLiteral_of_readPythonLiteral (named : List Char → Option Char)
    (hread : readPythonLiteral cs = some (text, rest))
    (hnull : ∀ front, cs = front ++ rest → '\x00' ∉ front) :
    readLiteral named cs = some (text, rest) := by
  cases cs with
  | nil => cases hread
  | cons quote cs =>
      rw [readPythonLiteral] at hread
      split at hread
      · next hquote =>
          rw [Bool.and_eq_true, Bool.not_eq_true', Bool.or_eq_true, decide_eq_true_eq,
            decide_eq_true_eq] at hquote
          obtain ⟨content, rfl, hbody, hdecode⟩ := body_of_readPythonRest hquote.1 named hread
          have hclean : '\x00' ∉ content :=
            fun hmem => hnull (quote :: content ++ [quote]) (by simp) (by simp [hmem])
          simp [readLiteral, hquote, hbody, hdecode, hclean]
      · cases hread

end Reading

section Writing

variable {c : Char} {cs rest : List Char}

/-- A character that is no control character. -/
def IsPrinted (c : Char) : Prop :=
  0x20 ≤ c.toNat ∧ c.toNat ≠ 0x7f

theorem isPrinted_hexDigit : ∀ n < 16, IsPrinted (Text.hexDigit n) := by
  unfold IsPrinted
  decide

theorem isPrinted_quote {quote : Char} (h : IsQuote quote) : IsPrinted quote := by
  rcases h with rfl | rfl <;> exact ⟨by decide, by decide⟩

theorem isPrinted_of_isControl_eq_false (h : Text.isControl c = false) : IsPrinted c := by
  simpa [Text.isControl, IsPrinted] using h

theorem isPrinted_of_mem_escapePythonChar {quote : Char} (hquote : IsQuote quote) {d : Char}
    (hmem : d ∈ escapePythonChar quote c) : IsPrinted d := by
  have hescape : ∀ e, IsPrinted e → d ∈ ['\\', e] → IsPrinted d := by
    intro e he hmem
    rcases List.mem_cons.mp hmem with rfl | hmem
    · exact ⟨by decide, by decide⟩
    · rwa [List.mem_singleton.mp hmem]
  unfold escapePythonChar at hmem
  split at hmem
  · exact hescape _ ⟨by decide, by decide⟩ hmem
  split at hmem
  · exact hescape _ ⟨by decide, by decide⟩ hmem
  split at hmem
  · exact hescape _ ⟨by decide, by decide⟩ hmem
  split at hmem
  · exact hescape _ ⟨by decide, by decide⟩ hmem
  split at hmem
  · next hc => exact hescape c (hc ▸ isPrinted_quote hquote) hmem
  split at hmem
  · next hcontrol =>
      have hsmall : c.toNat < 256 := by
        simp only [Text.isControl, Bool.or_eq_true, decide_eq_true_eq, beq_iff_eq] at hcontrol
        omega
      simp only [List.mem_cons, List.not_mem_nil, or_false] at hmem
      rcases hmem with rfl | rfl | rfl | rfl
      · exact ⟨by decide, by decide⟩
      · exact ⟨by decide, by decide⟩
      · exact isPrinted_hexDigit _ (by omega)
      · exact isPrinted_hexDigit _ (by omega)
  · next hcontrol =>
      rw [List.mem_singleton.mp hmem]
      exact isPrinted_of_isControl_eq_false (Bool.eq_false_iff.mpr hcontrol)

theorem isPrinted_of_mem_pythonLiteral (hmem : c ∈ pythonLiteral cs) : IsPrinted c := by
  have hquote := Text.isQuote_pythonQuote cs
  rw [pythonLiteral, List.mem_append, List.mem_cons, List.mem_singleton] at hmem
  rcases hmem with (rfl | hmem) | rfl
  · exact isPrinted_quote hquote
  · obtain ⟨d, _, hmem⟩ := List.mem_flatMap.mp hmem
    exact isPrinted_of_mem_escapePythonChar hquote hmem
  · exact isPrinted_quote hquote

/-- **Literals are read back.**  Wherever a literal stands, the reader stops right behind it and
finds its text, unless a quote follows.  In the literal there are no ends of lines and no other
control characters. -/
theorem readLiteral_pythonLiteral (named : List Char → Option Char) (cs : List Char)
    {rest : List Char} (hrest : ∀ c ∈ rest.head?, ¬ IsQuote c) :
    readLiteral named (pythonLiteral cs ++ rest) = some (cs, rest) ∧
      ∀ c ∈ pythonLiteral cs, IsPrinted c := by
  refine ⟨?_, fun c => isPrinted_of_mem_pythonLiteral⟩
  refine readLiteral_of_readPythonLiteral named (Text.readPythonLiteral_pythonLiteral cs hrest)
    fun front hfront hnull => ?_
  rw [← List.append_cancel_right hfront] at hnull
  exact absurd (isPrinted_of_mem_pythonLiteral hnull).1 (by decide)

/-- Both quotes, backslashes in front of them, and a control character in front of a digit,
followed by a colon. -/
theorem readLiteral_pythonLiteral_mixed :
    readLiteral (fun _ => none)
      (pythonLiteral ['\'', '\\', '"', '\\', '\'', '\x01', 'f', '\n', '\\'] ++ [':', '"']) =
        some (['\'', '\\', '"', '\\', '\'', '\x01', 'f', '\n', '\\'], [':', '"']) ∧
      pythonLiteral ['\'', '\\', '"', '\\', '\'', '\x01', 'f', '\n', '\\'] =
        "'\\'\\\\\"\\\\\\'\\x01f\\n\\\\'".toList ∧
      ∀ c ∈ pythonLiteral ['\'', '\\', '"', '\\', '\'', '\x01', 'f', '\n', '\\'], IsPrinted c := by
  have hcolon : ∀ c ∈ [':', '"'].head?, ¬ IsQuote c := by simp [IsQuote]
  have hread :=
    readLiteral_pythonLiteral (fun _ => none)
      ['\'', '\\', '"', '\\', '\'', '\x01', 'f', '\n', '\\'] hcolon
  exact ⟨hread.1, by decide, hread.2⟩

end Writing

end Python
end Tunables
