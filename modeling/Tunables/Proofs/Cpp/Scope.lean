import Mathlib
import Tunables.Proofs.Template.Grammar
import Tunables.Template.Builtin
import Tunables.Text.Blank

/-!
# Reading the declarations of a class

A reader for templates of C++ that finds the names that a class declares in its own scope.  It knows
what such a class is made of: nested classes, which may be templates, type definitions, functions
with or without a body, variables, and labels such as `public:`.  What stands between curly brackets
is left aside, and so are the parameters of functions.

Placeholders are parts of words, and one placeholder stands for declarations of its own.

* `tokens`: the words and marks of a template; `tokens_append_blank`, `tokens_word`: where a word
  ends.
* `declarations`: the declarations in the body of a class, each up to its body or its semicolon.
* `names`: the names that declarations give, in order; `ofClass?`: those of a class.
-/

namespace Tunables
namespace Cpp
namespace Scope

open Template (Piece)

/-- A word, in which placeholders may stand, or another character that is no blank. -/
inductive Token where
  | word (source : List Char)
  | mark (c : Char)
deriving DecidableEq

/-- A piece of a word. -/
def isWordPart : Piece → Bool
  | .char c => isNamePart c
  | .braced _ => true
  | _ => false

/-- What a piece is that belongs to no word. -/
def marks : Piece → List Token
  | .char c => if Text.isBlank c then [] else [.mark c]
  | _ => [.mark '$']

/-- Puts a piece in front of the word that comes first. -/
def lengthen (source : List Char) : List Token → List Token
  | .word following :: rest => .word (source ++ following) :: rest
  | tokens => .word source :: tokens

/-- The tokens of a template. -/
def tokens : List Piece → List Token
  | [] => []
  | piece :: rest =>
      if isWordPart piece then
        if rest.head?.any isWordPart then lengthen piece.source (tokens rest)
        else .word piece.source :: tokens rest
      else marks piece ++ tokens rest

/-- The body of the class with a name, and what follows it. -/
def body? (className : List Char) : List Token → Option (List Token)
  | [] => none
  | token :: rest =>
      if token :: rest.take 2 = [.word "class".toList, .word className, .mark '\x7b'] then
        some (rest.drop 2)
      else body? className rest

/-- The words of the labels in front of declarations. -/
def labels : List (List Char) :=
  ["public", "protected", "private"].map String.toList

/-- The declarations up to the end of a class, at a depth of curly brackets and behind the first
tokens of a declaration.  The placeholder `hole` stands for declarations, and it is a
declaration of its own here. -/
def declarations (hole : List Char) : Nat → List Token → List Token → List (List Token)
  | _, front, [] => [front]
  | 0, front, token :: rest =>
      if token = .mark '\x7d' then [front]
      else if token = .mark '\x7b' then declarations hole 1 front rest
      else if token = .mark ';' then front :: declarations hole 0 [] rest
      else if token = .mark ':' ∧ front ∈ labels.map ([.word ·]) then declarations hole 0 [] rest
      else if front = [] ∧ token = .word hole then [token] :: declarations hole 0 [] rest
      else declarations hole 0 (front ++ [token]) rest
  | depth + 1, front, token :: rest =>
      if token = .mark '\x7d' then
        if depth = 0 then front :: declarations hole 0 [] rest
        else declarations hole depth front rest
      else declarations hole (if token = .mark '\x7b' then depth + 2 else depth + 1) front rest

/-- A declaration without the parameters of a template, in which there are no further angle
brackets. -/
def withoutTemplate (tokens : List Token) : List Token :=
  if tokens.head? = some (.word "template".toList) then
    (tokens.dropWhile fun token => token ≠ .mark '>').drop 1 else tokens

/-- The word of a token. -/
def Token.word? : Token → Option (List Char)
  | .word source => some source
  | .mark _ => none

/-- The name that a declaration gives: that of a class stands behind the keyword, that of a function
in front of its parameters, and all others come last. -/
def name? (declaration : List Token) : Option (List Char) :=
  let tokens := withoutTemplate declaration
  if tokens.head? = some (.word "class".toList) then (tokens.drop 1).head?.bind Token.word?
  else ((tokens.takeWhile fun token => token ≠ .mark '(').filterMap Token.word?).getLast?

/-- The names that the declarations in a text give. -/
def names (hole : List Char) (tokens : List Token) : List (List Char) :=
  (declarations hole 0 [] tokens).filterMap name?

/-- The names that a class declares in its own scope. -/
def ofClass? (hole className : List Char) (template : List Char) : Option (List (List Char)) :=
  (body? className (tokens (Template.pieces template))).map (names hole)

section Lines

variable {front back : List Piece}

theorem lengthen_append {source : List Char} {first second : List Token} (h : first ≠ []) :
    lengthen source (first ++ second) = lengthen source first ++ second := by
  obtain ⟨token, rest, rfl⟩ := List.exists_cons_of_ne_nil h
  cases token <;> rfl

theorem tokens_ne_nil (h : front.head?.any isWordPart = true) : tokens front ≠ [] := by
  cases front with
  | nil => cases h
  | cons piece rest =>
      have hpart : isWordPart piece = true := h
      rw [tokens, if_pos hpart]
      split
      · cases tokens rest with
        | nil => exact List.cons_ne_nil _ _
        | cons token others => cases token <;> exact List.cons_ne_nil _ _
      · exact List.cons_ne_nil _ _

/-- A blank ends a word. -/
theorem tokens_append_blank {c : Char} (hblank : Text.isBlank c = true)
    (hpart : isNamePart c = false) :
    tokens (front ++ .char c :: back) = tokens front ++ tokens back := by
  have hself : isWordPart (.char c) = false := hpart
  induction front with
  | nil =>
      simp only [List.nil_append, tokens, hself, marks, if_pos hblank, Bool.false_eq_true, if_false]
  | cons piece front ih =>
      have hhead : (front ++ .char c :: back).head?.any isWordPart =
          front.head?.any isWordPart := by
        cases front with
        | nil => exact hself
        | cons next front => rfl
      rw [List.cons_append, tokens, tokens, ih, hhead]
      split
      · split
        · next hjoined => exact lengthen_append (tokens_ne_nil hjoined)
        · rfl
      · rw [List.append_assoc]

/-- A word is one token if nothing joins it from behind. -/
theorem tokens_word {name : List Char} (hne : name ≠ []) (hname : ∀ c ∈ name, isNamePart c = true)
    (hend : back.head?.any isWordPart = false) :
    tokens (name.map .char ++ back) = .word name :: tokens back := by
  induction name with
  | nil => exact absurd rfl hne
  | cons c name ih =>
      have hc : isWordPart (.char c) = true := hname c List.mem_cons_self
      rw [List.map_cons, List.cons_append, tokens, if_pos hc]
      cases name with
      | nil =>
          rw [List.map_nil, List.nil_append, if_neg (by simp [hend])]
          rfl
      | cons d name =>
          have hjoined : ((d :: name).map Piece.char ++ back).head?.any isWordPart = true :=
            hname d (by simp)
          rw [ih (List.cons_ne_nil d name) fun e he => hname e (List.mem_cons_of_mem c he),
            if_pos hjoined]
          rfl

/-- The tokens of a text are those of its lines. -/
theorem tokens_ofLines (lines : List String) :
    tokens (Template.pieces (Templates.ofLines lines)) =
      lines.flatMap fun line => tokens (Template.pieces line.toList) := by
  induction lines with
  | nil =>
      rw [Templates.ofLines, List.flatMap_nil, Template.pieces]
      rfl
  | cons line lines ih =>
      rw [Template.pieces_ofLines_cons, tokens_append_blank (by decide) (by decide), ih,
        List.flatMap_cons]

end Lines

section Declarations

variable {hole name : List Char} {first : Token} {more type rest : List Token}

/-- Tokens within a declaration are gathered, unless it begins with a label. -/
theorem declarations_append (hlabel : ∀ label ∈ labels, first ≠ .word label)
    (hplain : ∀ token ∈ type, token ≠ .mark '\x7b' ∧ token ≠ .mark '\x7d' ∧ token ≠ .mark ';') :
    declarations hole 0 (first :: more) (type ++ rest) =
      declarations hole 0 (first :: more ++ type) rest := by
  induction type generalizing more with
  | nil => rw [List.nil_append, List.append_nil]
  | cons token type ih =>
      obtain ⟨hopen, hclose, hend⟩ := hplain token List.mem_cons_self
      have hnone : first :: more ∉ labels.map ([.word ·]) := by
        rw [List.mem_map]
        rintro ⟨label, hmem, heq⟩
        exact hlabel label hmem (List.cons.inj heq).1.symm
      rw [List.cons_append, declarations, if_neg hclose, if_neg hopen, if_neg hend,
        if_neg fun hboth => hnone hboth.2, if_neg fun hboth => List.cons_ne_nil _ _ hboth.1,
        List.cons_append,
        ih fun other hother => hplain other (List.mem_cons_of_mem token hother)]
      simp

/-- A variable is declared by its type and its name. -/
theorem names_variable (hhole : first ≠ .word hole) (hlabel : ∀ label ∈ labels, first ≠ .word label)
    (hclass : first ≠ .word "class".toList) (htemplate : first ≠ .word "template".toList)
    (hplain : ∀ token ∈ first :: type,
      (token ≠ .mark '\x7b' ∧ token ≠ .mark '\x7d' ∧ token ≠ .mark ';') ∧ token ≠ .mark '(') :
    names hole (first :: (type ++ [.word name]) ++ [.mark ';']) = [name] := by
  have hnone : [] ∉ labels.map ([Token.word ·]) := by simp
  have hgather : declarations hole 0 [] (first :: (type ++ [.word name]) ++ [.mark ';']) =
      [first :: (type ++ [.word name]), []] := by
    obtain ⟨⟨hopen, hclose, hend⟩, _⟩ := hplain first List.mem_cons_self
    rw [List.cons_append, declarations, if_neg hclose, if_neg hopen, if_neg hend,
      if_neg fun hboth => hnone hboth.2, if_neg fun hboth => hhole hboth.2, List.nil_append,
      declarations_append hlabel, List.singleton_append]
    · rfl
    · intro token hmem
      rcases List.mem_append.mp hmem with hmem | hmem
      · exact (hplain token (List.mem_cons_of_mem first hmem)).1
      · rw [List.mem_singleton.mp hmem]
        exact ⟨nofun, nofun, nofun⟩
  have hname : name? (first :: (type ++ [.word name])) = some name := by
    have hwhole : (first :: (type ++ [.word name])).takeWhile (fun token => token ≠ .mark '(') =
        first :: type ++ [.word name] := by
      rw [← List.cons_append, List.takeWhile_eq_self_iff]
      intro token hmem
      rcases List.mem_append.mp hmem with hmem | hmem
      · simpa using (hplain token hmem).2
      · rw [List.mem_singleton.mp hmem]
        rfl
    have hclass' : (first :: (type ++ [.word name])).head? ≠ some (.word "class".toList) :=
      fun heq => hclass (Option.some.inj heq)
    have htemplate' : (first :: (type ++ [.word name])).head? ≠ some (.word "template".toList) :=
      fun heq => htemplate (Option.some.inj heq)
    simp only [name?, withoutTemplate, if_neg hclass', if_neg htemplate', hwhole,
      List.filterMap_append]
    simp [Token.word?]
  rw [names, hgather, List.filterMap_cons_some hname]
  rfl

end Declarations

end Scope
end Cpp
end Tunables
