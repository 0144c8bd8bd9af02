import Mathlib.Data.List.Forall2
import Tunables.Proofs.Text.Numeral
import Tunables.Proofs.Text.Quoted
import Tunables.Text.Identifier
import Tunables.Text.Lines

/-!
# Reading values of Python

A reader for the part of Python in which data are written: lists and dictionaries of strings,
integers, truth values and floating-point numbers, nested as they may be, with blanks and line ends
between their parts and one more comma behind the last.  The keys of a dictionary are strings.  A
floating-point number is kept as it is written, and the calls that stand for the infinities are
recognized.  Whatever else Python has is refused.

* `read`: the value that a whole text writes.
* `Writes`: a text is read as a value wherever something follows that ends it.
* `writes_list`, `writes_dict`: lists and dictionaries are read when their parts are.
-/

namespace Tunables
namespace Python

/-- A value. -/
inductive Value where
  | text (content : List Char)
  | integer (n : Int)
  | truth (b : Bool)
  /-- A floating-point number as it is written, with its sign. -/
  | float (written : List Char)
  | infinity (isNegative : Bool)
  | list (items : List Value)
  | dict (entries : List (List Char × Value))

/-- A character that may stand between the parts of a value. -/
def isSpace (c : Char) : Bool :=
  c == ' ' || c == '\t' || c == '\n' || c == '\r' || c == '\x0c'

/-- Passes over the space in front of a text. -/
def skip (cs : List Char) : List Char :=
  cs.dropWhile isSpace

/-- The sign of a negative number. -/
def minus (isNegative : Bool) : List Char :=
  if isNegative then ['-'] else []

/-- Reads a number behind its sign. -/
def number (isNegative : Bool) (cs : List Char) : Option (Value × List Char) :=
  match Text.readNumber cs with
  | some (.whole n, rest) => some (.integer (if isNegative then -n else n), rest)
  | some (.floating written, rest) => some (.float (minus isNegative ++ written), rest)
  | none => none

/-- Reads the call that stands for infinity behind its sign. -/
def infinity (isNegative : Bool) : List Char → Option (Value × List Char)
  | 'f' :: 'l' :: 'o' :: 'a' :: 't' :: '(' :: call =>
      match Text.readPythonLiteral call with
      | some (content, ')' :: rest) =>
          if content = "inf".toList then some (.infinity isNegative, rest) else none
      | _ => none
  | _ => none

/-- Reads a number or infinity behind its sign. -/
def quantity (isNegative : Bool) (cs : List Char) : Option (Value × List Char) :=
  if cs.head?.any Char.isDigit then number isNegative cs else infinity isNegative cs

/-- Reads a truth value. -/
def truth (cs : List Char) : Option (Value × List Char) :=
  let name := cs.takeWhile isNamePart
  if name = "True".toList then some (.truth true, cs.dropWhile isNamePart)
  else if name = "False".toList then some (.truth false, cs.dropWhile isNamePart)
  else none

/-- Reads a value without brackets. -/
def scalar : List Char → Option (Value × List Char)
  | '-' :: cs => quantity true cs
  | cs =>
      ((Text.readPythonLiteral cs).map fun read => (.text read.1, read.2)) <|> truth cs <|>
        quantity false cs

/-- Reads items with commas between them up to a closing bracket; one more comma may
stand behind the last. -/
def sequence {α : Type} (item : List Char → Option (α × List Char)) (close : Char)
    (cs : List Char) :
    Option (List α × List Char) :=
  if cs.head? = some close then some ([], cs.tail)
  else
    match item cs with
    | none => none
    | some (found, more) =>
        match skip more with
        | [] => none
        | c :: rest =>
            if c = close then some ([found], rest)
            else if c = ',' ∧ (skip rest).length < cs.length then
              (sequence item close (skip rest)).map fun read => (found :: read.1, read.2)
            else none
termination_by cs.length

/-- Reads a key, a colon and a value. -/
def entry (value : List Char → Option (Value × List Char)) (cs : List Char) :
    Option ((List Char × Value) × List Char) := do
  let (key, behind) ← Text.readPythonLiteral cs
  match skip behind with
  | ':' :: written =>
      let (found, rest) ← value (skip written)
      return ((key, found), rest)
  | _ => none

/-- Reads a value whose brackets nest at most the given number of times. -/
def value : Nat → List Char → Option (Value × List Char)
  | 0, cs => scalar cs
  | depth + 1, cs =>
      match cs with
      | '[' :: rest =>
          (sequence (value depth) ']' (skip rest)).map fun read => (.list read.1, read.2)
      | '\x7b' :: rest =>
          (sequence (entry (value depth)) '\x7d' (skip rest)).map fun read => (.dict read.1, read.2)
      | _ => scalar cs

/-- How deep brackets may nest. -/
def maxDepth : Nat :=
  200

/-- The value that a text writes. -/
def read (cs : List Char) : Option Value :=
  match value maxDepth (skip cs) with
  | some (found, rest) => if (skip rest).isEmpty then some found else none
  | none => none

/-- A text that ends the value in front of it. -/
def Ends (rest : List Char) : Prop :=
  ∀ c ∈ rest.head?, c = ',' ∨ c = ']' ∨ c = '\x7d'

/-- A text is read as a value, wherever something follows that ends it. -/
structure Writes {α : Type} (item : List Char → Option (α × List Char)) (text : List Char) (a : α) :
    Prop where
  starts : ∃ c ∈ text.head?, isSpace c = false ∧ c ≠ ']' ∧ c ≠ '\x7d'
  reads : ∀ rest, Ends rest → item (text ++ rest) = some (a, rest)

section Scalars

variable {rest : List Char}

theorem Ends.endsNumber (h : Ends rest) : Text.EndsNumber rest := by
  intro c hc
  rcases h c hc with rfl | rfl | rfl <;> decide

theorem Ends.not_isQuote (h : Ends rest) : ∀ c ∈ rest.head?, ¬ Text.IsQuote c := by
  intro c hc hquote
  rcases h c hc with rfl | rfl | rfl <;> rcases hquote with h | h <;> cases h

theorem number_numeral (isNegative : Bool) (n : Nat) (h : Ends rest) :
    number isNegative (Text.numeral n ++ rest) =
      some (.integer (if isNegative then -n else n), rest) := by
  simp [number, Text.readNumber_numeral n h.endsNumber]

theorem number_floating (isNegative : Bool) {written : List Char}
    (hwritten : Text.IsFloatingText written) (h : Ends rest) :
    number isNegative (written ++ rest) = some (.float (minus isNegative ++ written), rest) := by
  simp [number, hwritten.readNumber_eq h.endsNumber]

theorem infinity_call (isNegative : Bool) (rest : List Char) :
    infinity isNegative ("float('inf')".toList ++ rest) = some (.infinity isNegative, rest) := by
  have hread : Text.readPythonLiteral ('\'' :: 'i' :: 'n' :: 'f' :: '\'' :: ')' :: rest) =
      some ("inf".toList, ')' :: rest) :=
    Text.readPythonLiteral_pythonLiteral "inf".toList (by simp [Text.IsQuote])
  simp [infinity, hread]

theorem quantity_of_isDigit (isNegative : Bool) {c : Char} {cs : List Char} (h : c.isDigit = true) :
    quantity isNegative (c :: cs) = number isNegative (c :: cs) := by
  simp [quantity, h]

theorem quantity_call (isNegative : Bool) (rest : List Char) :
    quantity isNegative ("float('inf')".toList ++ rest) = some (.infinity isNegative, rest) := by
  rw [quantity, infinity_call]
  rfl

theorem scalar_minus (cs : List Char) : scalar ('-' :: cs) = quantity true cs := by
  rw [scalar]

/-- What starts with a digit is a number. -/
theorem scalar_of_isDigit {c : Char} {cs : List Char} (h : c.isDigit = true) :
    scalar (c :: cs) = number false (c :: cs) := by
  have hne : ∀ d, d.isDigit = false → c ≠ d := fun _ => Text.ne_of_class h
  have hliteral : Text.readPythonLiteral (c :: cs) = none := by
    simp [Text.readPythonLiteral, hne '\'' (by decide), hne '"' (by decide)]
  have hname : isNamePart c = true := by
    simp [isNamePart, Char.isAlphanum, h]
  have htruth : truth (c :: cs) = none := by
    simp [truth, hname, hne 'T' (by decide), hne 'F' (by decide)]
  rw [scalar]
  · simp [hliteral, htruth, quantity_of_isDigit false h]
  · intro rest hsame
    exact hne '-' (by decide) (List.cons.inj hsame).1

theorem scalar_text (cs : List Char) (h : Ends rest) :
    scalar (Text.pythonLiteral cs ++ rest) = some (.text cs, rest) := by
  rw [scalar]
  · simp [Text.readPythonLiteral_pythonLiteral cs h.not_isQuote]
  · intro more hsame
    rcases Text.isQuote_pythonQuote cs with hquote | hquote <;>
      simp [Text.pythonLiteral, hquote] at hsame

/-- What starts with a letter may be a truth value. -/
theorem scalar_of_truth {c : Char} {cs : List Char} {read : Value × List Char}
    (hc : c.isAlpha = true) (h : truth (c :: cs) = some read) : scalar (c :: cs) = some read := by
  have hne : ∀ d, d.isAlpha = false → c ≠ d := fun _ => Text.ne_of_class hc
  have hliteral : Text.readPythonLiteral (c :: cs) = none := by
    simp [Text.readPythonLiteral, hne '\'' (by decide), hne '"' (by decide)]
  rw [scalar]
  · simp [hliteral, h]
  · intro rest hsame
    exact hne '-' (by decide) (List.cons.inj hsame).1

theorem scalar_truth (b : Bool) (h : Ends rest) :
    scalar ((if b then "True" else "False").toList ++ rest) = some (.truth b, rest) := by
  have hrest : rest.takeWhile isNamePart = [] ∧ rest.dropWhile isNamePart = rest := by
    cases rest with
    | nil => exact ⟨rfl, rfl⟩
    | cons c cs =>
        have hc : isNamePart c = false := by
          rcases h c rfl with rfl | rfl | rfl <;> decide
        simp [hc]
  have htake : ∀ name : List Char, name.all isNamePart = true →
      (name ++ rest).takeWhile isNamePart = name ∧ (name ++ rest).dropWhile isNamePart = rest := by
    intro name hname
    rw [List.all_eq_true] at hname
    rw [List.takeWhile_append_of_pos hname, List.dropWhile_append_of_pos hname, hrest.1, hrest.2]
    exact ⟨List.append_nil _, rfl⟩
  cases b with
  | true =>
      obtain ⟨htake, hdrop⟩ := htake "True".toList (by decide)
      have htruth : truth ("True".toList ++ rest) = some (.truth true, rest) := by
        simp only [truth, htake, hdrop, if_true]
      exact scalar_of_truth (by decide) htruth
  | false =>
      obtain ⟨htake, hdrop⟩ := htake "False".toList (by decide)
      have htruth : truth ("False".toList ++ rest) = some (.truth false, rest) := by
        simp only [truth, htake, hdrop, if_true,
          if_neg (show "False".toList ≠ "True".toList by decide)]
      exact scalar_of_truth (by decide) htruth

/-- A number with its sign is what `number` makes of it behind the sign. -/
theorem scalar_signed (isNegative : Bool) {c : Char} {cs : List Char} (h : c.isDigit = true) :
    scalar (minus isNegative ++ c :: cs) = number isNegative (c :: cs) := by
  cases isNegative with
  | false => exact scalar_of_isDigit h
  | true => exact (scalar_minus _).trans (quantity_of_isDigit true h)

theorem signedNumeral_eq_minus (n : Int) :
    Text.signedNumeral n = minus (decide (n < 0)) ++ Text.numeral n.natAbs := by
  simp [Text.signedNumeral_eq, minus]

theorem scalar_integer (n : Int) (h : Ends rest) :
    scalar (Text.signedNumeral n ++ rest) = some (.integer n, rest) := by
  have hnumber := number_numeral (decide (n < 0)) n.natAbs h
  have hvalue : (if decide (n < 0) then -(n.natAbs : Int) else n.natAbs) = n := by
    split
    · next hn =>
      have : n < 0 := of_decide_eq_true hn
      omega
    · next hn =>
      have : ¬ n < 0 := of_decide_eq_false (Bool.eq_false_iff.mpr hn)
      omega
  rw [hvalue] at hnumber
  rw [signedNumeral_eq_minus, List.append_assoc]
  obtain ⟨c, cs, hnumeral, hdigit⟩ := (Text.isDigits_numeral n.natAbs).exists_eq_cons
  rw [hnumeral] at hnumber ⊢
  exact (scalar_signed _ hdigit).trans hnumber

theorem scalar_float (isNegative : Bool) {written : List Char}
    (hwritten : Text.IsFloatingText written) (h : Ends rest) :
    scalar (minus isNegative ++ written ++ rest) =
      some (.float (minus isNegative ++ written), rest) := by
  obtain ⟨c, hc, hdigit⟩ := hwritten.head?_isDigit
  obtain ⟨cs, rfl⟩ := List.head?_eq_some_iff.mp hc
  rw [List.append_assoc]
  exact (scalar_signed isNegative hdigit).trans (number_floating isNegative hwritten h)

theorem scalar_infinity (isNegative : Bool) (rest : List Char) :
    scalar (minus isNegative ++ "float('inf')".toList ++ rest) =
      some (.infinity isNegative, rest) := by
  cases isNegative with
  | true =>
      exact (scalar_minus _).trans (quantity_call true rest)
  | false =>
      have htruth : truth ("float('inf')".toList ++ rest) = none := by
        simp [truth, show isNamePart 'f' = true by decide]
      have hliteral : Text.readPythonLiteral ("float('inf')".toList ++ rest) = none := by
        simp [Text.readPythonLiteral]
      rw [minus, if_neg Bool.false_ne_true, List.nil_append, scalar]
      · rw [hliteral, htruth, quantity_call]
        rfl
      · intro more hsame
        simp at hsame

end Scalars

section Brackets

variable {α : Type} {depth : Nat} {rest : List Char}

theorem scalar_of_bracket {c : Char} (hc : c = '[' ∨ c = '\x7b') : scalar (c :: rest) = none := by
  rcases hc with rfl | rfl <;>
    simp [scalar, Text.readPythonLiteral, truth, quantity, infinity, isNamePart]

/-- A value without brackets is read at every depth. -/
theorem value_of_scalar {cs : List Char} {read : Value × List Char} (h : scalar cs = some read)
    (depth : Nat) :
    value depth cs = some read := by
  cases depth with
  | zero =>
      exact h
  | succ depth =>
      rw [value]
      · exact h
      · rintro rest rfl
        rw [scalar_of_bracket (by decide)] at h
        cases h
      · rintro rest rfl
        rw [scalar_of_bracket (by decide)] at h
        cases h

/-- What is read as a value without brackets is read as one at every depth. -/
theorem writes_of_scalar {text : List Char} {v : Value}
    (hstarts : ∃ c ∈ text.head?, isSpace c = false ∧ c ≠ ']' ∧ c ≠ '\x7d')
    (hreads : ∀ rest, Ends rest → scalar (text ++ rest) = some (v, rest)) (depth : Nat) :
    Writes (value depth) text v :=
  ⟨hstarts, fun rest hrest => value_of_scalar (hreads rest hrest) depth⟩

/-- A number starts with its sign or with a digit. -/
theorem starts_signed (isNegative : Bool) {cs : List Char} (h : ∃ c ∈ cs.head?, c.isDigit = true) :
    ∃ c ∈ (minus isNegative ++ cs).head?, isSpace c = false ∧ c ≠ ']' ∧ c ≠ '\x7d' := by
  cases isNegative with
  | true =>
      exact ⟨'-', rfl, by decide⟩
  | false =>
      obtain ⟨c, hc, hdigit⟩ := h
      have hne : ∀ d, d.isDigit = false → c ≠ d := fun _ => Text.ne_of_class hdigit
      refine ⟨c, hc, ?_, hne ']' (by decide), hne '\x7d' (by decide)⟩
      simp [isSpace, hne ' ' (by decide), hne '\t' (by decide), hne '\n' (by decide),
        hne '\r' (by decide), hne '\x0c' (by decide)]

theorem starts_pythonLiteral (cs more : List Char) :
    ∃ c ∈ (Text.pythonLiteral cs ++ more).head?, isSpace c = false ∧ c ≠ ']' ∧ c ≠ '\x7d' := by
  refine ⟨Text.pythonQuote cs, rfl, ?_⟩
  rcases Text.isQuote_pythonQuote cs with hquote | hquote <;> rw [hquote] <;> decide

theorem writes_text (depth : Nat) (cs : List Char) :
    Writes (value depth) (Text.pythonLiteral cs) (.text cs) := by
  refine writes_of_scalar ?_ (fun _ hrest => scalar_text cs hrest) depth
  simpa using starts_pythonLiteral cs []

theorem writes_truth (depth : Nat) (b : Bool) :
    Writes (value depth) (if b then "True" else "False").toList (.truth b) := by
  refine writes_of_scalar ?_ (fun _ hrest => scalar_truth b hrest) depth
  cases b with
  | true => exact ⟨'T', rfl, by decide⟩
  | false => exact ⟨'F', rfl, by decide⟩

theorem writes_integer (depth : Nat) (n : Int) :
    Writes (value depth) (Text.signedNumeral n) (.integer n) := by
  refine writes_of_scalar ?_ (fun _ hrest => scalar_integer n hrest) depth
  rw [signedNumeral_eq_minus]
  obtain ⟨c, cs, hnumeral, hdigit⟩ := (Text.isDigits_numeral n.natAbs).exists_eq_cons
  rw [hnumeral]
  exact starts_signed _ ⟨c, rfl, hdigit⟩

theorem writes_float (depth : Nat) (isNegative : Bool) {written : List Char}
    (h : Text.IsFloatingText written) :
    Writes (value depth) (minus isNegative ++ written) (.float (minus isNegative ++ written)) :=
  writes_of_scalar (starts_signed isNegative h.head?_isDigit)
    (fun _ hrest => scalar_float isNegative h hrest) depth

theorem writes_infinity (depth : Nat) (isNegative : Bool) :
    Writes (value depth) (minus isNegative ++ "float('inf')".toList) (.infinity isNegative) := by
  refine writes_of_scalar ?_ (fun rest _ => scalar_infinity isNegative rest) depth
  cases isNegative with
  | true => exact ⟨'-', rfl, by decide⟩
  | false => exact ⟨'f', rfl, by decide⟩

theorem skip_of_starts {cs : List Char} (h : ∃ c ∈ cs.head?, isSpace c = false) : skip cs = cs := by
  obtain ⟨c, hc, hspace⟩ := h
  obtain ⟨more, rfl⟩ := List.head?_eq_some_iff.mp hc
  simp [skip, hspace]

variable {item : List Char → Option (α × List Char)} {close : Char} {text : List Char} {a : α}
  {v : Value}

theorem Writes.starts_append (h : Writes item text a) (more : List Char) :
    ∃ c ∈ (text ++ more).head?, isSpace c = false ∧ c ≠ ']' ∧ c ≠ '\x7d' := by
  obtain ⟨c, hc, hstarts⟩ := h.starts
  obtain ⟨cs, rfl⟩ := List.head?_eq_some_iff.mp hc
  exact ⟨c, rfl, hstarts⟩

theorem Writes.skip_append (h : Writes item text a) (more : List Char) :
    skip (text ++ more) = text ++ more := by
  obtain ⟨c, hc, hspace, _⟩ := h.starts_append more
  exact skip_of_starts ⟨c, hc, hspace⟩

theorem Writes.head?_ne (h : Writes item text a) (hclose : close = ']' ∨ close = '\x7d')
    (more : List Char) : (text ++ more).head? ≠ some close := by
  obtain ⟨c, hc, _, hbracket, hbrace⟩ := h.starts_append more
  rw [Option.mem_def.mp hc]
  rintro ⟨⟩
  exact hclose.elim hbracket hbrace

/-- The last item ends at the closing bracket. -/
theorem sequence_last (hclose : close = ']' ∨ close = '\x7d') (h : Writes item text a)
    (rest : List Char) :
    sequence item close (text ++ close :: rest) = some ([a], rest) := by
  have hends : Ends (close :: rest) := by
    rintro c ⟨⟩
    exact Or.inr hclose
  have hskip : skip (close :: rest) = close :: rest := by
    refine skip_of_starts ⟨close, rfl, ?_⟩
    rcases hclose with rfl | rfl <;> decide
  rw [sequence, if_neg (h.head?_ne hclose _), h.reads _ hends]
  simp [hskip]

/-- Behind an item and a comma come the other items. -/
theorem sequence_more (hclose : close = ']' ∨ close = '\x7d') (h : Writes item text a)
    {more : List Char} (hmore : skip more = more) :
    sequence item close (text ++ ',' :: ' ' :: more) =
      (sequence item close more).map fun read => (a :: read.1, read.2) := by
  have hends : Ends (',' :: ' ' :: more) := by
    rintro c ⟨⟩
    exact Or.inl rfl
  have hcomma : skip (',' :: ' ' :: more) = ',' :: ' ' :: more :=
    skip_of_starts ⟨',', rfl, by decide⟩
  have hblank : skip (' ' :: more) = more := by
    rw [skip, List.dropWhile_cons, if_pos (by decide)]
    exact hmore
  have hne : ',' ≠ close := by
    rcases hclose with rfl | rfl <;> decide
  have hshorter : more.length < (text ++ ',' :: ' ' :: more).length := by
    simp only [List.length_append, List.length_cons]
    omega
  rw [sequence, if_neg (h.head?_ne hclose _), h.reads _ hends]
  simp only [hcomma, if_neg hne, hblank, hshorter, and_true, if_true]

/-- Items between brackets start without space, or they are none and the closing bracket comes. -/
theorem skip_join (hclose : close = ']' ∨ close = '\x7d') {texts : List (List Char)}
    {values : List α} (h : List.Forall₂ (Writes item) texts values) (rest : List Char) :
    skip (Text.join [',', ' '] texts ++ close :: rest) =
      Text.join [',', ' '] texts ++ close :: rest := by
  cases h with
  | nil =>
      refine skip_of_starts ⟨close, rfl, ?_⟩
      rcases hclose with rfl | rfl <;> decide
  | @cons text _ texts _ hitem hitems =>
      cases texts with
      | nil =>
          exact hitem.skip_append _
      | cons next texts =>
          simp only [Text.join, List.append_assoc]
          exact hitem.skip_append _

/-- Items that are written with commas between them are read one after the other. -/
theorem sequence_join (hclose : close = ']' ∨ close = '\x7d') {texts : List (List Char)}
    {values : List α} (h : List.Forall₂ (Writes item) texts values) (rest : List Char) :
    sequence item close (Text.join [',', ' '] texts ++ close :: rest) = some (values, rest) := by
  induction h with
  | nil =>
      rw [Text.join, List.nil_append, sequence, List.head?_cons, if_pos rfl]
      rfl
  | @cons text a texts values hitem hitems ih =>
      cases hitems with
      | nil =>
          exact sequence_last hclose hitem rest
      | @cons next _ texts _ hnext hothers =>
          have hjoin : Text.join [',', ' '] (text :: next :: texts) ++ close :: rest =
              text ++ ',' :: ' ' :: (Text.join [',', ' '] (next :: texts) ++ close :: rest) := by
            simp [Text.join]
          have hskip := skip_join hclose (.cons hnext hothers) rest
          rw [hjoin, sequence_more hclose hitem hskip, ih]
          rfl

/-- A list is read when its items are. -/
theorem writes_list {texts : List (List Char)} {values : List Value}
    (h : List.Forall₂ (Writes (value depth)) texts values) :
    Writes (value (depth + 1)) ('[' :: Text.join [',', ' '] texts ++ [']']) (.list values) where
  starts := ⟨'[', rfl, by decide⟩
  reads rest _ := by
    have hitems := sequence_join (Or.inl rfl) h rest
    have hskip := skip_join (Or.inl rfl) h rest
    rw [List.append_assoc, List.cons_append, List.singleton_append, value, hskip, hitems]
    rfl

/-- A key, a colon, a blank and a value are read as an entry. -/
theorem writes_entry (key : List Char) (h : Writes (value depth) text v) :
    Writes (entry (value depth)) (Text.pythonLiteral key ++ ':' :: ' ' :: text) (key, v) where
  starts := starts_pythonLiteral key _
  reads rest hrest := by
    have hkey : Text.readPythonLiteral (Text.pythonLiteral key ++ ':' :: ' ' :: (text ++ rest)) =
        some (key, ':' :: ' ' :: (text ++ rest)) :=
      Text.readPythonLiteral_pythonLiteral key (by simp [Text.IsQuote])
    have hblank : skip (' ' :: (text ++ rest)) = text ++ rest := by
      rw [skip, List.dropWhile_cons, if_pos (by decide)]
      exact h.skip_append rest
    have hcolon : skip (':' :: ' ' :: (text ++ rest)) = ':' :: ' ' :: (text ++ rest) :=
      skip_of_starts ⟨':', rfl, by decide⟩
    simp only [List.append_assoc, List.cons_append, entry, hkey, Option.bind_eq_bind,
      Option.bind_some, hcolon, hblank, h.reads rest hrest]
    rfl

/-- A dictionary is read when its entries are. -/
theorem writes_dict {texts : List (List Char)} {entries : List (List Char × Value)}
    (h : List.Forall₂ (Writes (entry (value depth))) texts entries) :
    Writes (value (depth + 1)) ('\x7b' :: Text.join [',', ' '] texts ++ ['\x7d'])
      (.dict entries) where
  starts := ⟨'\x7b', rfl, by decide⟩
  reads rest _ := by
    have hitems := sequence_join (Or.inr rfl) h rest
    have hskip := skip_join (Or.inr rfl) h rest
    rw [List.append_assoc, List.cons_append, List.singleton_append, value, hskip, hitems]
    rfl

/-- A text that writes a value is read as the value. -/
theorem read_of_writes (h : Writes (value maxDepth) text v) : read text = some v := by
  have hread := h.reads [] (by simp [Ends])
  have hskip := h.skip_append []
  rw [List.append_nil] at hread hskip
  rw [read, hskip, hread]
  rfl

example : read "['a', -1,]".toList = some (.list [.text ['a'], .integer (-1)]) := by
  cbv

example : read "['a' -1]".toList = none := by
  cbv

end Brackets

end Python
end Tunables
