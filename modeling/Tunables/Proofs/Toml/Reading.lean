import Mathlib.Data.List.Basic
import Tunables.Toml.Document

/-!
# Readers move on

A reader only takes characters off the front of what is left of a text, and it counts their bytes.
All readers are made from a few that look at the place themselves, by combinators that keep this.

* `Cursor.behind`: the place behind the first part of a text.
* `IsReadAt`: what a reader made of some characters of a text, under their bytes.
* `Reader.Finds`: wherever a reader succeeds in a text, it has moved on, and what it
  found has a property.
* `Reader.FindsAt`: the same for a reader that starts at one place, with a property that also knows
  where it stopped; `Reader.Successive`: what is read in a row stands one behind the other.
-/

namespace Tunables
namespace Toml

/-- The place behind the first part of a text. -/
def Cursor.behind (before rest : List Char) : Cursor :=
  { Cursor.ofText rest with offset := Text.byteLength before }

@[simp]
theorem Cursor.rest_behind (before rest : List Char) : (Cursor.behind before rest).rest = rest :=
  rfl

@[simp]
theorem Cursor.offset_behind (before rest : List Char) :
    (Cursor.behind before rest).offset = Text.byteLength before :=
  rfl

theorem Cursor.eq_behind {cursor : Cursor} {before : List Char}
    (h : cursor.offset = Text.byteLength before) :
    cursor = .behind before cursor.rest := by
  obtain ⟨rest, offset, left, rfl⟩ := cursor
  cases h
  rfl

/-- A reader makes something of some characters of a text, and the span is that of their bytes. -/
def IsReadAt {α : Type} (text : List Char) (reader : Reader α) (found : Spanned α) : Prop :=
  ∃ before source after, text = before ++ source ++ after ∧
    found.span = ⟨Text.byteLength before, Text.byteLength (before ++ source)⟩ ∧
    reader (.behind before (source ++ after)) = some (found.value, .behind (before ++ source) after)

namespace Reader

variable {α β : Type}

/-- Wherever a reader succeeds in a text, it has taken some characters off, and what it
found has a property. -/
def Finds (text : List Char) (reader : Reader α) (P : α → Prop) : Prop :=
  ∀ before rest a next, text = before ++ rest → reader (.behind before rest) = some (a, next) →
    (∃ source after, rest = source ++ after ∧ next = .behind (before ++ source) after) ∧ P a

/-- Wherever a reader succeeds in a text, it has taken some characters off. -/
abbrev Advances (text : List Char) (reader : Reader α) : Prop :=
  Finds text reader fun _ => True

/-- Where a reader succeeds in a text behind some bytes, it has taken some characters off, and what
it found has a property that also depends on the place where it stopped. -/
def FindsAt (text : List Char) (start : Nat) (reader : Reader α) (P : α → Nat → Prop) : Prop :=
  ∀ before rest a next, text = before ++ rest → Text.byteLength before = start →
    reader (.behind before rest) = some (a, next) →
    (∃ source after, rest = source ++ after ∧ next = .behind (before ++ source) after) ∧
      P a next.offset

/-- Things that stand one behind the other between two places. -/
inductive Successive (P : Nat → α → Nat → Prop) : Nat → List α → Nat → Prop
  | nil (place : Nat) : Successive P place [] place
  | cons {start middle stop : Nat} {a : α} {others : List α} :
      start ≤ middle →
      P start a middle →
      Successive P middle others stop →
      Successive P start (a :: others) stop

/-- What holds between two places also holds between places further apart. -/
def Widens (P : Nat → α → Nat → Prop) : Prop :=
  ∀ ⦃start start' a stop stop'⦄, start' ≤ start → stop ≤ stop' → P start a stop → P start' a stop'

section Sequences

variable {P : Nat → α → Nat → Prop} {start stop : Nat} {found : List α}

theorem Successive.le (h : Successive P start found stop) : start ≤ stop := by
  induction h with
  | nil => exact Nat.le_refl _
  | cons hle _ _ ih => exact Nat.le_trans hle ih

theorem Successive.forall_mem (h : Successive P start found stop) (hP : Widens P) :
    ∀ a ∈ found, P start a stop := by
  induction h with
  | nil => simp
  | cons hle hfirst hothers ih =>
      refine List.forall_mem_cons.mpr ⟨hP (Nat.le_refl _) hothers.le hfirst, fun a hmem => ?_⟩
      exact hP hle (Nat.le_refl _) (ih a hmem)

/-- Of two things the first stops where the second has not begun. -/
theorem Successive.pairwise {R : α → α → Prop} (h : Successive P start found stop) (hP : Widens P)
    (hR : ∀ ⦃start a middle b stop⦄, P start a middle → P middle b stop → R a b) :
    found.Pairwise R := by
  induction h with
  | nil => exact .nil
  | cons _ hfirst hothers ih =>
      exact .cons (fun b hmem => hR hfirst (hothers.forall_mem hP b hmem)) ih

end Sequences

section Places

variable {text : List Char} {start : Nat} {reader other : Reader α} {P : α → Nat → Prop}
  {Q : β → Nat → Prop}

theorem exists_eq_behind (before rest : List Char) :
    ∃ source after, rest = source ++ after ∧
      Cursor.behind before rest = .behind (before ++ source) after :=
  ⟨[], rest, rfl, by rw [List.append_nil]⟩

theorem findsAt_pure {a : α} (h : P a start) : FindsAt text start (pure a) P := by
  rintro before rest _ _ _ rfl ⟨⟩
  exact ⟨exists_eq_behind before rest, h⟩

theorem findsAt_failure : FindsAt text start (failure : Reader α) P := by
  rintro before rest a next _ _ ⟨⟩

theorem FindsAt.mono {P' : α → Nat → Prop} (h : FindsAt text start reader P)
    (himp : ∀ a stop, P a stop → P' a stop) :
    FindsAt text start reader P' := by
  intro before rest a next htext hstart hread
  obtain ⟨hsource, ha⟩ := h before rest a next htext hstart hread
  exact ⟨hsource, himp a _ ha⟩

theorem FindsAt.bind {next : α → Reader β} (h : FindsAt text start reader P)
    (hnext : ∀ a middle, start ≤ middle → P a middle → FindsAt text middle (next a) Q) :
    FindsAt text start (reader >>= next) Q := by
  intro before rest b last htext hstart hread
  obtain ⟨⟨a, middle⟩, ha, hb⟩ := Option.bind_eq_some_iff.mp hread
  obtain ⟨⟨source, after, rfl, rfl⟩, hP⟩ := h before rest a middle htext hstart ha
  have hle : start ≤ Text.byteLength (before ++ source) := by
    rw [Text.byteLength_append]
    omega
  have hbehind := hnext a _ hle hP (before ++ source) after b last (by simp [htext]) rfl hb
  obtain ⟨⟨more, others, rfl, rfl⟩, hQ⟩ := hbehind
  exact ⟨⟨source ++ more, others, by simp, by simp⟩, hQ⟩

theorem FindsAt.orElse (h : FindsAt text start reader P) (hother : FindsAt text start other P) :
    FindsAt text start (reader <|> other) P := by
  intro before rest a next htext hstart hread
  change (reader (.behind before rest) <|> other (.behind before rest)) = some (a, next) at hread
  cases hfirst : reader (.behind before rest) with
  | none =>
      rw [hfirst] at hread
      exact hother before rest a next htext hstart hread
  | some found =>
      rw [hfirst] at hread
      cases hread
      exact h before rest a next htext hstart hfirst

theorem FindsAt.optional (h : FindsAt text start reader P) :
    FindsAt text start (optional reader) fun found stop => ∀ a ∈ found, P a stop := by
  refine FindsAt.orElse (h.bind fun a middle _ ha => findsAt_pure ?_) (findsAt_pure (by simp))
  rintro _ ⟨⟩
  exact ha

/-- What is read in a row stands one behind the other. -/
theorem FindsAt.many {P : Nat → α → Nat → Prop} (h : ∀ start, FindsAt text start reader (P start))
    (start : Nat) :
    FindsAt text start (many reader) (Successive P start) := by
  -- the recursion is on any cursor, so that its place is a hypothesis here
  have hfrom : ∀ cursor before, text = before ++ cursor.rest → cursor = .behind before cursor.rest →
      (∃ source after, cursor.rest = source ++ after ∧
        (manyFrom reader cursor).2 = .behind (before ++ source) after) ∧
        Successive P cursor.offset (manyFrom reader cursor).1
          (manyFrom reader cursor).2.offset := by
    intro cursor
    fun_induction manyFrom reader cursor with
    | case1 cursor hnone =>
        intro before _ hcursor
        exact ⟨⟨[], cursor.rest, rfl, by simpa using hcursor⟩, .nil _⟩
    | case2 cursor value next hread hless others ih =>
        intro before htext hcursor
        have hoffset : cursor.offset = Text.byteLength before := congrArg Cursor.offset hcursor
        obtain ⟨⟨source, after, hrest, rfl⟩, hvalue⟩ :=
          h _ before cursor.rest value next htext rfl (hcursor ▸ hread)
        obtain ⟨⟨more, last, hafter, hlast⟩, hothers⟩ :=
          ih (before ++ source) (by simp [htext, hrest]) rfl
        refine ⟨⟨source ++ more, last, ?_, by simp [others, hlast]⟩,
          .cons ?_ (hoffset ▸ hvalue) hothers⟩
        · rw [hrest, List.append_assoc]
          exact congrArg (source ++ ·) hafter
        · rw [hoffset, Cursor.offset_behind, Text.byteLength_append]
          exact Nat.le_add_right _ _
    | case3 cursor value next hread hmore =>
        intro before _ hcursor
        exact ⟨⟨[], cursor.rest, rfl, by simpa using hcursor⟩, .nil _⟩
  rintro before rest found next htext rfl hread
  have hfound : manyFrom reader (.behind before rest) = (found, next) := Option.some.inj hread
  have hmany := hfrom (.behind before rest) before htext rfl
  rwa [hfound] at hmany

/-- What is read with its place has the span from where the reader started to where it stopped. -/
theorem FindsAt.spanned (h : FindsAt text start reader P) :
    FindsAt text start (spanned reader) fun found stop =>
      found.span = ⟨start, stop⟩ ∧ P found.value stop := by
  intro before rest found next htext hstart hread
  obtain ⟨⟨a, middle⟩, ha, hspan⟩ := Option.bind_eq_some_iff.mp hread
  obtain ⟨hsource, hP⟩ := h before rest a middle htext hstart ha
  cases hspan
  exact ⟨hsource, hstart ▸ rfl, hP⟩

end Places

section Combinators

variable {text : List Char} {reader other : Reader α} {P : α → Prop} {Q : β → Prop}

theorem finds_iff : Finds text reader P ↔ ∀ start, FindsAt text start reader fun a _ => P a :=
  ⟨fun h _ before rest a next htext _ => h before rest a next htext,
    fun h before rest a next htext => h _ before rest a next htext rfl⟩

theorem Finds.findsAt (h : Finds text reader P) (start : Nat) :
    FindsAt text start reader fun a _ => P a :=
  finds_iff.mp h start

theorem finds_pure {a : α} (h : P a) : Finds text (pure a) P :=
  finds_iff.mpr fun _ => findsAt_pure h

theorem finds_failure : Finds text (failure : Reader α) P :=
  finds_iff.mpr fun _ => findsAt_failure

theorem advances_pure (a : α) : Advances text (pure a) :=
  finds_pure trivial

theorem advances_atEnd : Advances text atEnd := by
  intro before rest a next _ h
  unfold atEnd at h
  split at h
  · cases h
    exact ⟨exists_eq_behind before rest, trivial⟩
  · cases h

theorem advances_satisfy (accepts : Char → Bool) : Advances text (satisfy accepts) := by
  intro before rest a next _ h
  cases rest with
  | nil => cases h
  | cons c rest =>
      change (if accepts c then some (c, Cursor.mk rest _ _ _) else none) = _ at h
      split at h
      · cases h
        exact ⟨⟨[a], rest, rfl,
          Cursor.eq_behind (by simp [Text.byteLength_append, Text.byteLength])⟩, trivial⟩
      · cases h

theorem advances_takeWhile (accepts : Char → Bool) : Advances text (takeWhile accepts) := by
  rintro before rest _ _ _ ⟨⟩
  refine ⟨⟨rest.takeWhile accepts, rest.dropWhile accepts, List.takeWhile_append_dropWhile.symm,
    ?_⟩, trivial⟩
  exact Cursor.eq_behind (by simp [Text.byteLength_append])

theorem Finds.mono {P' : α → Prop} (h : Finds text reader P) (himp : ∀ a, P a → P' a) :
    Finds text reader P' :=
  finds_iff.mpr fun start => (h.findsAt start).mono fun a _ => himp a

theorem Finds.bind {next : α → Reader β} (h : Finds text reader P)
    (hnext : ∀ a, P a → Finds text (next a) Q) :
    Finds text (reader >>= next) Q :=
  finds_iff.mpr fun start => (h.findsAt start).bind fun a middle _ ha => (hnext a ha).findsAt middle

theorem Finds.orElse (h : Finds text reader P) (hother : Finds text other P) :
    Finds text (reader <|> other) P :=
  finds_iff.mpr fun start => (h.findsAt start).orElse (hother.findsAt start)

theorem Finds.optional (h : Finds text reader P) :
    Finds text (optional reader) fun found => ∀ a ∈ found, P a :=
  finds_iff.mpr fun start => (h.findsAt start).optional

theorem Finds.many (h : Finds text reader P) :
    Finds text (many reader) fun found => ∀ a ∈ found, P a :=
  finds_iff.mpr fun start => (FindsAt.many h.findsAt start).mono fun _ _ hrow =>
    hrow.forall_mem fun _ _ _ _ _ _ _ ha => ha

theorem Finds.exists_source (h : Finds text reader P) {before rest : List Char} {found : Spanned α}
    {next : Cursor} (htext : text = before ++ rest)
    (hread : Reader.spanned reader (.behind before rest) = some (found, next)) :
    ∃ source after, rest = source ++ after ∧ next = .behind (before ++ source) after ∧
      found.span = ⟨Text.byteLength before, Text.byteLength (before ++ source)⟩ ∧
      reader (.behind before rest) = some (found.value, next) ∧ P found.value := by
  obtain ⟨⟨a, middle⟩, ha, hspan⟩ := Option.bind_eq_some_iff.mp hread
  obtain ⟨⟨source, after, rfl, rfl⟩, hP⟩ := h before rest a middle htext ha
  cases hspan
  exact ⟨source, after, rfl, rfl, rfl, ha, hP⟩

/-- What is read with its place was read there. -/
theorem Finds.spanned (h : Finds text reader P) :
    Finds text (spanned reader) fun found => IsReadAt text reader found ∧ P found.value := by
  intro before rest found next htext hread
  obtain ⟨source, after, rfl, rfl, hspan, ha, hP⟩ := h.exists_source htext hread
  exact ⟨⟨source, after, rfl, rfl⟩, ⟨before, source, after, by simp [htext], hspan, ha⟩, hP⟩

theorem advances_char (c : Char) : Advances text (char c) :=
  (advances_satisfy _).bind fun _ _ => advances_pure _

theorem advances_word (cs : List Char) : Advances text (word cs) := by
  induction cs with
  | nil => exact advances_pure ()
  | cons c cs ih => exact (advances_char c).bind fun _ _ => ih

theorem advances_takeSome (accepts : Char → Bool) : Advances text (takeSome accepts) := by
  refine (advances_takeWhile accepts).bind fun taken _ => ?_
  split
  · exact finds_failure
  · exact advances_pure taken

end Combinators
end Reader

open Reader

section Blanks

variable {text : List Char}

theorem advances_blanks : Advances text blanks :=
  (advances_takeWhile _).bind fun _ _ => advances_pure _

theorem advances_newline : Advances text newline :=
  ((advances_char _).bind fun _ _ => advances_pure _).orElse
    ((advances_char _).bind fun _ _ => (advances_char _).bind fun _ _ => advances_pure _)

theorem advances_comment : Advances text comment :=
  (advances_char _).bind fun _ _ => (advances_takeWhile _).bind fun _ _ => advances_pure _

theorem advances_lineEnd : Advances text lineEnd :=
  advances_blanks.bind fun _ _ => advances_comment.optional.bind fun _ _ =>
    (advances_newline.bind fun _ _ => advances_pure _).orElse advances_atEnd

theorem advances_gap : Advances text gap := by
  have hblank : Advances text (do let _ ← takeSome isBlank) :=
    (advances_takeSome _).bind fun _ _ => advances_pure _
  have hline : Advances text (do let _ ← newline) :=
    advances_newline.bind fun _ _ => advances_pure _
  have hpart : Advances text gapPart :=
    hblank.orElse (hline.orElse (advances_comment.bind fun _ _ => hline))
  exact hpart.many.bind fun _ _ => advances_pure _

end Blanks

section Strings

variable {text : List Char} {part : Reader (List Char)}

theorem advances_hexNumber (count value : Nat) : Advances text (hexNumber count value) := by
  induction count generalizing value with
  | zero => exact advances_pure value
  | succ count ih =>
      refine (advances_satisfy _).bind fun c _ => ?_
      split
      · exact ih _
      · exact finds_failure

theorem advances_charByNumber (count : Nat) : Advances text (charByNumber count) := by
  refine (advances_hexNumber count 0).bind fun number _ => ?_
  split
  · exact advances_pure _
  · exact finds_failure

theorem advances_escape : Advances text escape := by
  have hescaped : Advances text escaped := by
    refine (advances_satisfy _).bind fun c _ => ?_
    split <;> first | exact advances_pure _ | exact advances_charByNumber _ | exact finds_failure
  exact (advances_char _).bind fun _ _ => hescaped.bind fun _ _ => advances_pure _

theorem advances_plain (quote : Char) : Advances text (plain quote) :=
  (advances_satisfy _).bind fun _ _ => advances_pure _

theorem advances_lineContinuation : Advances text lineContinuation := by
  have hblank : Advances text (do let _ ← takeSome isBlank) :=
    (advances_takeSome _).bind fun _ _ => advances_pure _
  have hpart : Advances text spacePart :=
    hblank.orElse (advances_newline.bind fun _ _ => advances_pure _)
  exact (advances_char _).bind fun _ _ => advances_blanks.bind fun _ _ =>
    advances_newline.bind fun _ _ =>
      hpart.many.bind fun _ _ => advances_pure _

theorem advances_between (quote : Char) (h : Advances text part) :
    Advances text (between quote part) :=
  (advances_char quote).bind fun _ _ => h.many.bind fun _ _ => (advances_char quote).bind fun _ _ =>
    advances_pure _

theorem advances_betweenTriple (quote : Char) (h : Advances text part) :
    Advances text (betweenTriple quote part) := by
  have hloose : Advances text (looseQuotes quote) := by
    refine (advances_takeWhile _).bind fun quotes _ => ?_
    split
    · exact advances_pure quotes
    · exact finds_failure
  have hend : Advances text (tripleEnd quote) := by
    refine (advances_takeWhile _).bind fun quotes _ => ?_
    split
    · exact advances_pure _
    · exact finds_failure
  exact (advances_word _).bind fun _ _ => advances_newline.optional.bind fun _ _ =>
    (h.orElse (advances_newline.orElse hloose)).many.bind fun _ _ => hend.bind fun _ _ =>
      advances_pure _

theorem advances_lineString : Advances text lineString :=
  (advances_between _ ((advances_plain _).orElse advances_escape)).orElse
    (advances_between _ (advances_plain _))

theorem advances_quoted : Advances text quoted := by
  have hpart : Advances text (plain '"' <|> lineContinuation <|> escape) :=
    (advances_plain _).orElse (advances_lineContinuation.orElse advances_escape)
  exact ((advances_betweenTriple _ hpart).orElse
    (advances_betweenTriple _ (advances_plain _))).orElse advances_lineString

end Strings

namespace Datetime

variable {text : List Char}

theorem advances_number (count value : Nat) : Advances text (number count value) := by
  induction count generalizing value with
  | zero => exact advances_pure value
  | succ count ih => exact (advances_satisfy _).bind fun _ _ => ih _

theorem advances_numberUpTo (count most : Nat) : Advances text (numberUpTo count most) := by
  refine (advances_number count 0).bind fun value _ => ?_
  split
  · exact advances_pure value
  · exact finds_failure

theorem advances_clock : Advances text clock :=
  (advances_numberUpTo _ _).bind fun _ _ => (advances_char _).bind fun _ _ =>
    (advances_numberUpTo _ _).bind fun _ _ => advances_pure _

theorem advances_date : Advances text date := by
  refine (advances_number _ _).bind fun year _ => (advances_char _).bind fun _ _ => ?_
  refine (advances_numberUpTo _ _).bind fun month _ => (advances_char _).bind fun _ _ => ?_
  refine (advances_numberUpTo _ _).bind fun day _ => ?_
  split
  · exact finds_failure
  · exact advances_pure _

theorem advances_time : Advances text time := by
  have hfraction : Advances text (do char '.'; let _ ← takeSome Char.isDigit) :=
    (advances_char _).bind fun _ _ => (advances_takeSome _).bind fun _ _ => advances_pure _
  have hseconds : Advances text seconds :=
    (advances_char _).bind fun _ _ => (advances_numberUpTo _ _).bind fun _ _ =>
      hfraction.optional.bind fun _ _ => advances_pure _
  exact advances_clock.bind fun _ _ => hseconds.optional.bind fun _ _ => advances_pure _

theorem advances_datetime : Advances text datetime := by
  have hshift : Advances text shift := ((advances_satisfy _).bind fun _ _ => advances_pure _).orElse
    ((advances_satisfy _).bind fun _ _ => advances_clock)
  have htime : Advances text timeOfDate :=
    (advances_satisfy _).bind fun _ _ => advances_time.bind fun _ _ =>
      hshift.optional.bind fun _ _ => advances_pure _
  exact (advances_date.bind fun _ _ => htime.optional.bind fun _ _ => advances_pure _).orElse
    advances_time

end Datetime
end Toml
end Tunables
