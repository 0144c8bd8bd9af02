import Mathlib.Data.List.DropRight
import Tunables.Proofs.Template.Positional

/-!
# The grammar of templates

What a template means, said without the algorithm that fills it.  A template is read from left to
right as tokens: runs of characters other than the dollar sign, `$$`, `${name}` and `$name`, each
as long as it can be.

* `Lexes` is the first token of a text and what is left, and `Reads` the tokens of a whole text.
* `Yields` is the text that a template stands for: its tokens, each replaced by what it stands for.
* `Faulty` is the first fault of a template: a text that reads and has all its values, then a dollar
  sign that begins a placeholder without a value, or no token at all.

Main statement: `fill` succeeds with exactly what a template yields, and fails with exactly its
first fault (`fill_eq_iff_grammar`).
-/

namespace Tunables
namespace Template

/-- A letter or an underscore, and then letters, digits and underscores. -/
inductive IsName : List Char → Prop
  | intro {c : Char} {cs : List Char} :
      isNameStart c = true →
      (∀ d ∈ cs, isNamePart d = true) →
      IsName (c :: cs)

/-- A token of a template. -/
inductive Token where
  | run (text : List Char)
  | dollar
  | braced (name : List Char)
  | bare (name : List Char)
deriving DecidableEq

namespace Token

/-- A token as it is written. -/
def source : Token → List Char
  | .run text => text
  | .dollar => ['$', '$']
  | .braced name => '$' :: '\x7b' :: name ++ ['\x7d']
  | .bare name => '$' :: name

/-- The name of a placeholder. -/
def name? : Token → Option (List Char)
  | .run _ | .dollar => none
  | .braced name | .bare name => some name

/-- What a token stands for, unless it is a placeholder without a value. -/
def value (values : Values) : Token → Option (List Char)
  | .run text => some text
  | .dollar => some ['$']
  | .braced name | .bare name => values name

/-- The pieces that a token is made of. -/
def pieces : Token → List Piece
  | .run text => text.map .char
  | .dollar => [.dollar]
  | .braced name => [.braced name]
  | .bare name => [.bare name]

end Token

/-- The first token of a text, as long as it can be, and the text behind it. -/
inductive Lexes : List Char → Token → List Char → Prop
  | run {text rest : List Char} :
      text ≠ [] →
      '$' ∉ text →
      (∀ c ∈ rest.head?, c = '$') →
      Lexes (text ++ rest) (.run text) rest
  | dollar {rest : List Char} :
      Lexes ('$' :: '$' :: rest) .dollar rest
  | braced {name rest : List Char} :
      IsName name →
      Lexes ('$' :: '\x7b' :: (name ++ '\x7d' :: rest)) (.braced name) rest
  | bare {name rest : List Char} :
      IsName name →
      (∀ c ∈ rest.head?, isNamePart c = false) →
      Lexes ('$' :: (name ++ rest)) (.bare name) rest

/-- The tokens of a text. -/
inductive Reads : List Char → List Token → Prop
  | nil : Reads [] []
  | cons {text rest : List Char} {token : Token} {tokens : List Token} :
      Lexes text token rest →
      Reads rest tokens →
      Reads text (token :: tokens)

/-- A template reads as tokens that all have a value, and stands for these values in order. -/
def Yields (values : Values) (text filled : List Char) : Prop :=
  ∃ tokens parts, Reads text tokens ∧ tokens.mapM (Token.value values) = some parts ∧
    filled = parts.flatten

/-- The characters of a text that stand on its last line. -/
def lastLine (text : List Char) : List Char :=
  text.rtakeWhile (· != '\n')

/-- The fault at the first faulty dollar sign of a template: what stands in front of it yields a
text, and the dollar sign begins a placeholder without a value, or it begins nothing. -/
inductive Faulty (template : String) (firstLine : Nat) (values : Values) : List Char → Fault → Prop
  | missing {before after rest name filled : List Char} {token : Token} :
      Yields values before filled →
      Lexes ('$' :: after) token rest →
      token.name? = some name →
      values name = none →
      Faulty template firstLine values (before ++ '$' :: after)
        (.missing template (String.ofList name) (firstLine + Text.lineFeeds before))
  | invalid {before after filled : List Char} :
      Yields values before filled →
      (∀ token rest, ¬ Lexes ('$' :: after) token rest) →
      Faulty template firstLine values (before ++ '$' :: after)
        (.invalid template (firstLine + Text.lineFeeds before)
          (Text.byteLength (lastLine before) + 1))

section Names

theorem splitName_of_isName {name rest : List Char} (hname : IsName name)
    (hrest : ∀ c ∈ rest.head?, isNamePart c = false) : splitName (name ++ rest) = (name, rest) := by
  have hstop : rest.takeWhile isNamePart = [] ∧ rest.dropWhile isNamePart = rest := by
    cases rest with
    | nil => exact ⟨rfl, rfl⟩
    | cons d ds => simp [hrest d rfl]
  cases hname with
  | intro hstart hparts =>
      simp [splitName, hstart, List.takeWhile_append_of_pos hparts,
        List.dropWhile_append_of_pos hparts, hstop]

theorem isName_splitName {cs : List Char} (h : (splitName cs).1 ≠ []) :
    IsName (splitName cs).1 := by
  cases cs with
  | nil =>
      exact absurd rfl h
  | cons c cs =>
      by_cases hc : isNameStart c = true
      · simp only [splitName, hc, if_true]
        exact IsName.intro hc fun d hd => List.all_eq_true.mp List.all_takeWhile d hd
      · simp [splitName, hc] at h

theorem head?_splitName {cs : List Char} (h : (splitName cs).1 ≠ []) :
    ∀ c ∈ (splitName cs).2.head?, isNamePart c = false := by
  cases cs with
  | nil =>
      exact absurd rfl h
  | cons c cs =>
      by_cases hc : isNameStart c = true
      · intro d hd
        have hhead := List.head?_dropWhile_not isNamePart cs
        simp only [splitName, hc, if_true] at hd
        rw [Option.mem_def.mp hd] at hhead
        simpa using hhead
      · simp [splitName, hc] at h

theorem IsName.ne_nil {name : List Char} (h : IsName name) : name ≠ [] := by
  cases h
  simp

/-- A name begins with neither of the two characters that mean something else behind a dollar
sign. -/
theorem IsName.head?_ne {name rest : List Char} (h : IsName name) {c : Char}
    (hc : isNameStart c = false) : (name ++ rest).head? ≠ some c := by
  cases h with
  | @intro d ds hstart _ =>
      intro hhead
      have hd : d = c := by simpa using hhead
      rw [hd, hc] at hstart
      cases hstart

end Names

section Tokens

theorem Lexes.source_append {text rest : List Char} {token : Token} (h : Lexes text token rest) :
    text = token.source ++ rest := by
  cases h <;> simp [Token.source]

theorem Token.flatMap_source_pieces (token : Token) :
    token.pieces.flatMap Piece.source = token.source := by
  cases token with
  | run text =>
      induction text with
      | nil => rfl
      | cons c cs ih => simpa [Token.pieces, Token.source, Piece.source] using ih
  | dollar | braced name | bare name =>
      simp [Token.pieces, Token.source, Piece.source]

/-- The scanner cuts off exactly the first token. -/
theorem Lexes.pieces_eq {text rest : List Char} {token : Token} (h : Lexes text token rest) :
    pieces text = token.pieces ++ pieces rest := by
  cases h with
  | @run run _ hne hrun hrest =>
      clear hne
      induction run with
      | nil => rfl
      | cons c cs ih =>
          obtain ⟨hc, hcs⟩ : '$' ≠ c ∧ '$' ∉ cs := by simpa using hrun
          have hnext : nextPiece c (cs ++ rest) = (.char c, cs ++ rest) := by
            rw [nextPiece, if_neg (Ne.symm hc)]
          rw [List.cons_append, pieces, hnext]
          simp only
          rw [ih hcs]
          rfl
  | dollar =>
      rw [pieces, nextPiece, if_pos rfl]
      rfl
  | @braced name _ hname =>
      have hbrace : isNamePart '\x7d' = false := by decide
      have hsplit : splitName (name ++ '\x7d' :: rest) = (name, '\x7d' :: rest) :=
        splitName_of_isName hname (by simpa using hbrace)
      rw [pieces, nextPiece, if_pos rfl, pieceAfterDollar_braced hsplit]
      simp [hname.ne_nil, Token.pieces]
  | @bare name _ hname hrest =>
      rw [pieces, nextPiece, if_pos rfl,
        pieceAfterDollar_bare (hname.head?_ne (by decide)) (hname.head?_ne (by decide)),
        splitName_of_isName hname hrest]
      simp [hname.ne_nil, Token.pieces]

/-- A text that begins with a dollar sign, or nothing at all, does not change the token in front of
it. -/
theorem Lexes.append {text rest more : List Char} {token : Token} (h : Lexes text token rest)
    (hmore : ∀ c ∈ more.head?, c = '$') : Lexes (text ++ more) token (rest ++ more) := by
  cases h with
  | run hne hrun hrest =>
      rw [List.append_assoc]
      refine Lexes.run hne hrun ?_
      cases rest with
      | nil => exact hmore
      | cons c cs => exact hrest
  | dollar =>
      exact Lexes.dollar
  | @braced name _ hname =>
      simpa using @Lexes.braced name (rest ++ more) hname
  | @bare name _ hname hrest =>
      have hbare : Lexes ('$' :: (name ++ (rest ++ more))) (.bare name) (rest ++ more) := by
        refine Lexes.bare hname ?_
        cases rest with
        | nil =>
            intro c hc
            rw [hmore c hc]
            rfl
        | cons c cs => exact hrest
      simpa using hbare

/-- What follows from a dollar sign on does not matter to the token in front of it. -/
theorem Lexes.truncate {text before after : List Char} {token : Token}
    (h : Lexes text token (before ++ '$' :: after)) :
    Lexes (token.source ++ before) token before := by
  have hhead : ∀ c, c ∈ before.head? → c ∈ (before ++ '$' :: after).head? := by
    cases before with
    | nil => simp
    | cons d ds => simp
  cases h with
  | run hne hrun hrest =>
      exact Lexes.run hne hrun fun c hc => hrest c (hhead c hc)
  | dollar =>
      exact Lexes.dollar
  | @braced name _ hname =>
      simpa [Token.source] using @Lexes.braced name before hname
  | bare hname hrest =>
      exact Lexes.bare hname fun c hc => hrest c (hhead c hc)

/-- A dollar sign that begins no token is a piece of its own. -/
theorem pieceAfterDollar_of_not_lexes {after : List Char}
    (h : ∀ token rest, ¬ Lexes ('$' :: after) token rest) :
    pieceAfterDollar after = (.stray, after) := by
  by_cases hdollar : after.head? = some '$'
  · obtain ⟨rest, rfl⟩ := List.head?_eq_some_iff.mp hdollar
    exact absurd Lexes.dollar (h _ _)
  by_cases hbrace : after.head? = some '\x7b'
  · obtain ⟨inner, rfl⟩ := List.head?_eq_some_iff.mp hbrace
    by_cases hclosed : ∃ rest, (splitName inner).2 = '\x7d' :: rest
    · obtain ⟨rest, hrest⟩ := hclosed
      have hinner : (splitName inner).1 ++ '\x7d' :: rest = inner := by
        rw [← hrest, splitName_append]
      have hempty : (splitName inner).1 = [] := by
        by_contra hne
        exact h _ _ (hinner ▸ Lexes.braced (isName_splitName hne))
      have hsplit : splitName inner = ([], '\x7d' :: rest) := by
        rw [← hempty, ← hrest]
      rw [pieceAfterDollar_braced hsplit]
      rfl
    · exact pieceAfterDollar_unclosed fun rest hrest => hclosed ⟨rest, hrest⟩
  · have hempty : (splitName after).1 = [] := by
      by_contra hne
      have hbare := Lexes.bare (isName_splitName hne) (head?_splitName hne)
      rw [splitName_append] at hbare
      exact h _ _ hbare
    rw [pieceAfterDollar_bare hdollar hbrace, hempty]
    rfl

end Tokens

section Readings

theorem Reads.flatMap_source {text : List Char} {tokens : List Token} (h : Reads text tokens) :
    tokens.flatMap Token.source = text := by
  induction h with
  | nil => rfl
  | cons hlex _ ih => rw [List.flatMap_cons, ih, hlex.source_append]

/-- The scanner cuts a text that reads into the pieces of its tokens, whatever follows from
a dollar sign on. -/
theorem Reads.pieces_append {text more : List Char} {tokens : List Token} (h : Reads text tokens)
    (hmore : ∀ c ∈ more.head?, c = '$') :
    pieces (text ++ more) = tokens.flatMap Token.pieces ++ pieces more := by
  induction h with
  | nil => rfl
  | cons hlex _ ih => rw [(hlex.append hmore).pieces_eq, ih, List.flatMap_cons, List.append_assoc]

variable {template : String} {values : Values}

theorem fillPieces_run (text : List Char) (position : Position) :
    fillPieces template values position (text.map .char) = .ok text := by
  induction text generalizing position with
  | nil =>
      rfl
  | cons c cs ih =>
      simp [fillPieces, Piece.value, ih, bind, Except.bind, pure, Except.pure]

theorem fillPieces_token {token : Token} {part : List Char} (h : token.value values = some part)
    (position : Position) : fillPieces template values position token.pieces = .ok part := by
  cases token with
  | run text =>
      cases h
      exact fillPieces_run part position
  | dollar =>
      cases h
      rfl
  | braced name | bare name =>
      have hname : values name = some part := h
      simp [Token.pieces, fillPieces, Piece.value, hname, bind, Except.bind, pure, Except.pure]

theorem fillPieces_tokens {tokens : List Token} {parts : List (List Char)}
    (h : tokens.mapM (Token.value values) = some parts) (position : Position) :
    fillPieces template values position (tokens.flatMap Token.pieces) = .ok parts.flatten := by
  induction tokens generalizing parts position with
  | nil =>
      cases h
      rfl
  | cons token tokens ih =>
      simp only [List.mapM_cons, Option.bind_eq_bind, Option.bind_eq_some_iff] at h
      obtain ⟨part, hpart, others, hothers, hparts⟩ := h
      cases hparts
      rw [List.flatMap_cons, fillPieces_append, fillPieces_token hpart, ih hothers]
      rfl

/-- A text that yields something is filled with it, and what follows from a dollar sign on is
filled behind it. -/
theorem fillPieces_append_of_yields {before more filled : List Char}
    (h : Yields values before filled) (hmore : ∀ c ∈ more.head?, c = '$') (position : Position) :
    fillPieces template values position (pieces (before ++ more)) = (do
      let others ← fillPieces template values (position.afterText before) (pieces more)
      return filled ++ others) := by
  obtain ⟨tokens, parts, hreads, hparts, rfl⟩ := h
  have hsource : (tokens.flatMap Token.pieces).flatMap Piece.source = before := by
    rw [← hreads.flatMap_source, List.flatMap_assoc]
    simp only [Token.flatMap_source_pieces]
  rw [hreads.pieces_append hmore, fillPieces_append, fillPieces_tokens hparts, hsource]
  rfl

theorem Yields.nil : Yields values [] [] :=
  ⟨[], [], Reads.nil, rfl, rfl⟩

theorem Yields.cons {text rest part filled : List Char} {token : Token}
    (hlex : Lexes text token rest) (hpart : token.value values = some part)
    (h : Yields values rest filled) :
    Yields values text (part ++ filled) := by
  obtain ⟨tokens, parts, hreads, hparts, rfl⟩ := h
  refine ⟨token :: tokens, part :: parts, Reads.cons hlex hreads, ?_, rfl⟩
  simp [List.mapM_cons, hpart, hparts]

end Readings

section Faults

variable {template : String} {firstLine : Nat} {values : Values}

/-- A fault stays the first one when a token with a value is put in front, but for its place. -/
theorem Faulty.cons {text rest part : List Char} {token : Token} {fault : Fault}
    (hlex : Lexes text token rest) (hpart : token.value values = some part)
    (h : Faulty template firstLine values rest fault) :
    ∃ fault', Faulty template firstLine values text fault' := by
  cases h with
  | @missing before after rest' name filled token' hyields hlex' hname hnone =>
      rw [hlex.source_append, ← List.append_assoc]
      exact ⟨_, Faulty.missing (hyields.cons hlex.truncate hpart) hlex' hname hnone⟩
  | @invalid before after filled hyields hnolex =>
      rw [hlex.source_append, ← List.append_assoc]
      exact ⟨_, Faulty.invalid (hyields.cons hlex.truncate hpart) hnolex⟩

theorem exists_lexes_of_ne_dollar {c : Char} (hc : c ≠ '$') (cs : List Char) :
    ∃ text rest, Lexes (c :: cs) (.run text) rest := by
  have hsplit := @List.takeWhile_append_dropWhile _ (· != '$') (c :: cs)
  have hlex : Lexes ((c :: cs).takeWhile (· != '$') ++ (c :: cs).dropWhile (· != '$'))
      (.run ((c :: cs).takeWhile (· != '$'))) ((c :: cs).dropWhile (· != '$')) := by
    refine Lexes.run (by simp [hc]) ?_ ?_
    · intro hmem
      have := List.all_eq_true.mp List.all_takeWhile _ hmem
      simp at this
    · intro d hd
      have hhead := List.head?_dropWhile_not (· != '$') (c :: cs)
      rw [Option.mem_def.mp hd] at hhead
      simpa using hhead
  rw [hsplit] at hlex
  exact ⟨_, _, hlex⟩

theorem Lexes.rest_length_lt {text rest : List Char} {token : Token} (h : Lexes text token rest) :
    rest.length < text.length := by
  have hlength := congrArg List.length h.source_append
  have hpos : 0 < token.source.length := by
    cases h with
    | run hne => exact List.length_pos_iff.mpr hne
    | dollar | braced _ | bare _ _ => simp [Token.source]
  rw [List.length_append] at hlength
  omega

/-- Every text yields something or has a first fault. -/
theorem yields_or_faulty (template : String) (firstLine : Nat) (values : Values)
    (text : List Char) : (∃ filled, Yields values text filled) ∨
      ∃ fault, Faulty template firstLine values text fault := by
  by_cases hlex : ∃ token rest, Lexes text token rest
  · obtain ⟨token, rest, hlex⟩ := hlex
    cases hpart : token.value values with
    | some part =>
        have := hlex.rest_length_lt
        rcases yields_or_faulty template firstLine values rest with ⟨filled, hrest⟩ | ⟨fault, hrest⟩
        · exact Or.inl ⟨_, hrest.cons hlex hpart⟩
        · exact Or.inr (hrest.cons hlex hpart)
    | none =>
        cases hlex with
        | run | dollar => cases hpart
        | braced hname =>
            exact Or.inr ⟨_, Faulty.missing Yields.nil (Lexes.braced hname) rfl hpart⟩
        | bare hname hrest =>
            exact Or.inr ⟨_, Faulty.missing Yields.nil (Lexes.bare hname hrest) rfl hpart⟩
  · cases text with
    | nil =>
        exact Or.inl ⟨_, Yields.nil⟩
    | cons c cs =>
        by_cases hc : c = '$'
        · subst hc
          exact Or.inr ⟨_, Faulty.invalid Yields.nil fun token rest h => hlex ⟨token, rest, h⟩⟩
        · obtain ⟨text, rest, h⟩ := exists_lexes_of_ne_dollar hc cs
          exact absurd ⟨_, rest, h⟩ hlex
termination_by text.length

/-- The place behind a text: line feeds count lines, and the bytes of the last line count
columns. -/
theorem Position.afterText_eq (firstLine : Nat) (text : List Char) :
    Position.afterText ⟨firstLine, 1⟩ text =
      ⟨firstLine + Text.lineFeeds text, Text.byteLength (lastLine text) + 1⟩ := by
  induction text using List.reverseRecOn with
  | nil =>
      simp [Position.afterText, Text.lineFeeds, lastLine, Text.byteLength]
  | append_singleton text c ih =>
      rw [Position.afterText_append, ih]
      by_cases hc : c = '\n'
      · subst hc
        simp [Position.afterText_lineFeed, Text.lineFeeds, lastLine, Text.byteLength, Nat.add_assoc]
      · have hlast : lastLine (text ++ [c]) = lastLine text ++ [c] :=
          List.rtakeWhile_concat_pos _ _ _ (by simpa using hc)
        rw [hlast]
        simp [Position.afterText, Position.after, hc, Text.lineFeeds, Text.byteLength_append,
          Text.byteLength]
        omega

theorem fill_of_yields {text filled : List Char} (h : Yields values text filled) :
    fill template firstLine values text = .ok filled := by
  have hfill : fillPieces template values ⟨firstLine, 1⟩ (pieces (text ++ [])) = _ :=
    fillPieces_append_of_yields h (by simp) ⟨firstLine, 1⟩
  rw [List.append_nil] at hfill
  rw [fill, hfill]
  simp [pieces, fillPieces, bind, Except.bind, pure, Except.pure]

theorem fill_of_faulty {text : List Char} {fault : Fault}
    (h : Faulty template firstLine values text fault) :
    fill template firstLine values text = .error fault := by
  cases h with
  | @missing before after rest name filled token hyields hlex hname hnone =>
      have hfirst : fillPieces template values
          (Position.afterText ⟨firstLine, 1⟩ before) (pieces ('$' :: after)) =
            .error (.missing template (String.ofList name)
              (firstLine + Text.lineFeeds before)) := by
        rw [hlex.pieces_eq, Position.afterText_eq]
        cases token with
        | run | dollar => cases hname
        | braced other | bare other =>
            cases hname
            simp [Token.pieces, fillPieces, Piece.value, hnone, bind, Except.bind]
      rw [fill, fillPieces_append_of_yields hyields (by simp), hfirst]
      rfl
  | @invalid before after filled hyields hnolex =>
      have hfirst : fillPieces template values
          (Position.afterText ⟨firstLine, 1⟩ before) (pieces ('$' :: after)) =
            .error (.invalid template (firstLine + Text.lineFeeds before)
              (Text.byteLength (lastLine before) + 1)) := by
        rw [pieces, nextPiece, if_pos rfl, pieceAfterDollar_of_not_lexes hnolex,
          Position.afterText_eq]
        rfl
      rw [fill, fillPieces_append_of_yields hyields (by simp), hfirst]
      rfl

end Faults

/-- **Filling a template follows the grammar.**  It succeeds exactly when the whole template reads
and all its placeholders have values, and then with the text that the template yields; otherwise it
fails with the first fault. -/
theorem fill_eq_iff_grammar (template : String) (firstLine : Nat) (values : Values)
    (text : List Char) :
    (∀ filled, fill template firstLine values text = .ok filled ↔ Yields values text filled) ∧
    (∀ fault, fill template firstLine values text = .error fault ↔
      Faulty template firstLine values text fault) := by
  constructor
  · intro filled
    constructor
    · intro hfill
      rcases yields_or_faulty template firstLine values text with ⟨other, hyields⟩ |
        ⟨fault, hfaulty⟩
      · rw [fill_of_yields hyields] at hfill
        cases hfill
        exact hyields
      · rw [fill_of_faulty hfaulty] at hfill
        cases hfill
    · exact fill_of_yields
  · intro fault
    constructor
    · intro hfill
      rcases yields_or_faulty template firstLine values text with ⟨filled, hyields⟩ |
        ⟨other, hfaulty⟩
      · rw [fill_of_yields hyields] at hfill
        cases hfill
      · rw [fill_of_faulty hfaulty] at hfill
        cases hfill
        exact hfaulty
    · exact fill_of_faulty

end Template
end Tunables
