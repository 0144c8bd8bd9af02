import Mathlib.Data.List.TakeWhile
import Tunables.Text.Shown

/-!
# Reading numerals

How numbers are read in the generated languages.  A number is taken off the front of a text as far
as it reaches (`splitNumber`), and then it is a decimal numeral (`decimal?`) or a floating-point
literal (`isFloating`), or nothing that is read here.

* `IsDigits`: a text of digits, which is not empty.
* `IsFloatingText`: the forms in which floating-point numbers are written.
* `readNumber_numeral`, `IsFloatingText.readNumber_eq`: written numbers are read back.
-/

namespace Tunables
namespace Text

section Reading

/-- A sign of a number or of its exponent. -/
def isSign (c : Char) : Bool :=
  c == '+' || c == '-'

/-- The letter in front of an exponent. -/
def isExponentMark (c : Char) : Bool :=
  c == 'e' || c == 'E'

/-- A character of a number, wherever it stands. -/
def isNumberPart (c : Char) : Bool :=
  c.isAlphanum || c == '_' || c == '.'

/-- The longest number at the start of a text, and the text behind it.  A sign belongs to a
number right behind the letter of an exponent only, and the flag says that such a letter stands
in front of the text. -/
def splitNumber (isMarked : Bool) : List Char → List Char × List Char
  | [] => ([], [])
  | c :: cs =>
      if isNumberPart c || (isMarked && isSign c) then
        (c :: (splitNumber (isExponentMark c) cs).1, (splitNumber (isExponentMark c) cs).2)
      else ([], c :: cs)

/-- The number that a decimal numeral stands for.  Only the numeral of zero starts with a zero. -/
def decimal? : List Char → Option Nat
  | [] => none
  | c :: cs =>
      if (c :: cs).all Char.isDigit && (c != '0' || cs.isEmpty) then
        some (Nat.ofDigitChars 10 (c :: cs) 0)
      else none

/-- Digits, but not none. -/
def areDigits (cs : List Char) : Bool :=
  !cs.isEmpty && cs.all Char.isDigit

/-- The exponent of a floating-point literal: a letter, a sign that may be missing, and digits. -/
def isExponent : List Char → Bool
  | mark :: sign :: digits =>
      isExponentMark mark && areDigits (if isSign sign then digits else sign :: digits)
  | _ => false

/-- A floating-point literal: digits with a point among them, in front of them or behind them, and
an exponent, which only a literal with a point can do without. -/
def isFloating (cs : List Char) : Bool :=
  let whole := cs.takeWhile Char.isDigit
  match cs.dropWhile Char.isDigit with
  | '.' :: rest =>
      (areDigits whole || areDigits (rest.takeWhile Char.isDigit)) &&
        ((rest.dropWhile Char.isDigit).isEmpty || isExponent (rest.dropWhile Char.isDigit))
  | rest => areDigits whole && isExponent rest

/-- A number as it is read: what a decimal numeral stands for, or a floating-point literal
as it is written. -/
inductive Number where
  | whole (n : Nat)
  | floating (written : List Char)

/-- Reads a number. -/
def readNumber (cs : List Char) : Option (Number × List Char) :=
  let (written, rest) := splitNumber false cs
  match decimal? written with
  | some n => some (.whole n, rest)
  | none => if isFloating written then some (.floating written, rest) else none

end Reading

/-- Digits, but not none. -/
structure IsDigits (cs : List Char) : Prop where
  ne_nil : cs ≠ []
  all : ∀ c ∈ cs, c.isDigit = true

/-- A text that no number before it reaches into. -/
def EndsNumber (rest : List Char) : Prop :=
  ∀ c ∈ rest.head?, isNumberPart c = false ∧ isSign c = false

section Classes

theorem isNumberPart_of_isDigit {c : Char} (h : c.isDigit = true) : isNumberPart c = true := by
  simp [isNumberPart, Char.isAlphanum, h]

/-- Characters of which only one belongs to a class are different. -/
theorem ne_of_class {p : Char → Bool} {c d : Char} (hc : p c = true) (hd : p d = false) :
    c ≠ d := by
  rintro rfl
  rw [hc] at hd
  cases hd

theorem isExponentMark_of_isDigit {c : Char} (h : c.isDigit = true) : isExponentMark c = false := by
  simp [isExponentMark, ne_of_class h (show 'e'.isDigit = false by decide),
    ne_of_class h (show 'E'.isDigit = false by decide)]

theorem isSign_of_isDigit {c : Char} (h : c.isDigit = true) : isSign c = false := by
  simp [isSign, ne_of_class h (show '+'.isDigit = false by decide),
    ne_of_class h (show '-'.isDigit = false by decide)]

end Classes

section Splitting

/-- A number that is all of a text is taken off the front of a longer text, too. -/
theorem splitNumber_append {isMarked : Bool} {number rest : List Char}
    (h : splitNumber isMarked number = (number, [])) (hrest : EndsNumber rest) :
    splitNumber isMarked (number ++ rest) = (number, rest) := by
  induction number generalizing isMarked with
  | nil =>
      cases rest with
      | nil => rfl
      | cons c cs =>
          obtain ⟨hpart, hsign⟩ := hrest c rfl
          simp [splitNumber, hpart, hsign]
  | cons c cs ih =>
      by_cases hc : (isNumberPart c || (isMarked && isSign c)) = true
      · have hcs : splitNumber (isExponentMark c) cs = (cs, []) := by
          simp only [splitNumber, hc, if_true, Prod.mk.injEq, List.cons.injEq, true_and] at h
          exact Prod.ext h.1 h.2
        simp [splitNumber, hc, ih hcs]
      · simp [splitNumber, hc] at h

theorem splitNumber_cons {isMarked : Bool} {c : Char} {cs : List Char}
    (hc : (isNumberPart c || (isMarked && isSign c)) = true)
    (h : splitNumber (isExponentMark c) cs = (cs, [])) :
    splitNumber isMarked (c :: cs) = (c :: cs, []) := by
  simp [splitNumber, hc, h]

/-- Digits and points are taken off together with what follows them. -/
theorem splitNumber_figures {isMarked : Bool} (figures : List Char) {more : List Char}
    (hfigures : ∀ c ∈ figures, c.isDigit = true ∨ c = '.') (hne : figures ≠ [])
    (h : splitNumber false more = (more, [])) :
    splitNumber isMarked (figures ++ more) = (figures ++ more, []) := by
  induction figures generalizing isMarked with
  | nil =>
      exact absurd rfl hne
  | cons c cs ih =>
      have hpart : isNumberPart c = true ∧ isExponentMark c = false := by
        rcases hfigures c (by simp) with hdigit | rfl
        · exact ⟨isNumberPart_of_isDigit hdigit, isExponentMark_of_isDigit hdigit⟩
        · exact ⟨by decide, by decide⟩
      refine splitNumber_cons (by simp [hpart.1]) ?_
      rw [hpart.2]
      cases cs with
      | nil => exact h
      | cons d ds => exact ih (fun e he => hfigures e (List.mem_cons_of_mem _ he)) (by simp)

/-- Only characters of numbers are taken off. -/
theorem mem_splitNumber {isMarked : Bool} {cs : List Char} {c : Char}
    (h : c ∈ (splitNumber isMarked cs).1) :
    isNumberPart c = true ∨ isSign c = true := by
  induction cs generalizing isMarked with
  | nil =>
      simp [splitNumber] at h
  | cons d ds ih =>
      by_cases hd : (isNumberPart d || (isMarked && isSign d)) = true
      · simp only [splitNumber, hd, if_true, List.mem_cons] at h
        rcases h with rfl | h
        · rw [Bool.or_eq_true, Bool.and_eq_true] at hd
          exact hd.imp_right And.right
        · exact ih h
      · simp [splitNumber, hd] at h

end Splitting

section Numerals

theorem isDigits_numeral (n : Nat) : IsDigits (numeral n) :=
  ⟨Nat.toDigits_ne_nil, fun _ hc => Nat.isDigit_of_mem_toDigits (by decide) (by decide) hc⟩

theorem IsDigits.exists_eq_cons {cs : List Char} (h : IsDigits cs) :
    ∃ c rest, cs = c :: rest ∧ c.isDigit = true := by
  obtain ⟨c, rest, rfl⟩ := List.exists_cons_of_ne_nil h.ne_nil
  exact ⟨c, rest, rfl, h.all c List.mem_cons_self⟩

theorem IsDigits.splitNumber_eq {cs : List Char} (h : IsDigits cs) (isMarked : Bool) :
    splitNumber isMarked cs = (cs, []) := by
  have happend : splitNumber isMarked (cs ++ []) = (cs ++ [], []) :=
    splitNumber_figures cs (fun c hc => Or.inl (h.all c hc)) h.ne_nil rfl
  rwa [List.append_nil] at happend

theorem IsDigits.areDigits {cs : List Char} (h : IsDigits cs) : areDigits cs = true := by
  have hall : cs.all Char.isDigit = true := List.all_eq_true.mpr h.all
  simp [Text.areDigits, h.ne_nil, hall]

/-- The numeral of a positive number does not start with a zero. -/
theorem head?_numeral_ne {n : Nat} (h : 0 < n) : (numeral n).head? ≠ some '0' := by
  induction n using Nat.strongRecOn with
  | ind n ih =>
      by_cases hn : n < 10
      · rw [numeral, Nat.toDigits_of_lt_base hn]
        simp [Nat.digitChar_eq_zero]
        omega
      · have hfront := ih (n / 10) (by omega) (by omega)
        have hlast : numeral n = numeral (n / 10) ++ [(n % 10).digitChar] :=
          Nat.toDigits_of_base_le (by decide) (by omega)
        cases hnumeral : numeral (n / 10) with
        | nil =>
            exact absurd hnumeral Nat.toDigits_ne_nil
        | cons c cs =>
            rw [hnumeral] at hfront
            rw [hlast, hnumeral]
            exact hfront

/-- The numeral of a number is read as the number. -/
theorem decimal?_numeral (n : Nat) : decimal? (numeral n) = some n := by
  have hdigits := isDigits_numeral n
  cases hnumeral : numeral n with
  | nil =>
      exact absurd hnumeral hdigits.ne_nil
  | cons c cs =>
      have hall : (c :: cs).all Char.isDigit = true := by
        rw [← hnumeral]
        exact List.all_eq_true.mpr hdigits.all
      have hfront : (c != '0' || cs.isEmpty) = true := by
        rcases Nat.eq_zero_or_pos n with rfl | hpos
        · rw [numeral, Nat.toDigits_zero] at hnumeral
          cases hnumeral
          rfl
        · have hc := head?_numeral_ne hpos
          rw [hnumeral] at hc
          have hc : c ≠ '0' := by simpa using hc
          simp [hc]
      rw [decimal?, hall, hfront, ← hnumeral, numeral, Nat.ofDigitChars_ten_toDigits]
      rfl

end Numerals

/-- A number with a point, or one with an exponent, as it is written in a program. -/
inductive IsFloatingText : List Char → Prop
  | positional {whole fraction : List Char} :
      IsDigits whole →
      IsDigits fraction →
      IsFloatingText (whole ++ '.' :: fraction)
  | scientific {digit : Char} {exponent : Int} :
      digit.isDigit = true →
      IsFloatingText (digit :: 'e' :: signedNumeral exponent)
  | pointed {digit : Char} {fraction : List Char} {exponent : Int} :
      digit.isDigit = true →
      IsDigits fraction →
      IsFloatingText (digit :: '.' :: (fraction ++ 'e' :: signedNumeral exponent))

section Exponents

/-- The numeral of an integer is that of its size, with a sign in front or not. -/
theorem signedNumeral_eq (n : Int) :
    signedNumeral n = (if n < 0 then ['-'] else []) ++ numeral n.natAbs := by
  cases n with
  | ofNat n =>
      rfl
  | negSucc n =>
      rw [if_pos (Int.negSucc_lt_zero n)]
      rfl

theorem splitNumber_signedNumeral (n : Int) :
    splitNumber true (signedNumeral n) = (signedNumeral n, []) := by
  have hdigits := isDigits_numeral n.natAbs
  rw [signedNumeral_eq]
  split
  · exact splitNumber_cons (by decide) (hdigits.splitNumber_eq _)
  · exact hdigits.splitNumber_eq true

theorem isExponent_signedNumeral (n : Int) : isExponent ('e' :: signedNumeral n) = true := by
  have hdigits := isDigits_numeral n.natAbs
  rw [signedNumeral_eq]
  split
  · simp only [List.singleton_append, isExponent, if_pos (show isSign '-' = true by decide),
      hdigits.areDigits]
    rfl
  · obtain ⟨c, cs, hnumeral, hdigit⟩ := hdigits.exists_eq_cons
    rw [hnumeral] at hdigits ⊢
    simp only [List.nil_append, isExponent, isSign_of_isDigit hdigit, Bool.false_eq_true, if_false]
    rw [hdigits.areDigits]
    rfl

end Exponents

section Spans

variable {digits : List Char} {c : Char}

theorem IsDigits.takeWhile_append (h : IsDigits digits) (hc : c.isDigit = false)
    (more : List Char) : (digits ++ c :: more).takeWhile Char.isDigit = digits := by
  rw [List.takeWhile_append_of_pos h.all, List.takeWhile_cons, hc]
  simp

theorem IsDigits.dropWhile_append (h : IsDigits digits) (hc : c.isDigit = false)
    (more : List Char) : (digits ++ c :: more).dropWhile Char.isDigit = c :: more := by
  rw [List.dropWhile_append_of_pos h.all, List.dropWhile_cons, hc]
  simp

theorem IsDigits.dropWhile_eq (h : IsDigits digits) : digits.dropWhile Char.isDigit = [] :=
  List.dropWhile_eq_nil_iff.mpr h.all

theorem isDigits_singleton (h : c.isDigit = true) : IsDigits [c] :=
  ⟨by simp, by simpa using h⟩

end Spans

namespace IsFloatingText

variable {cs : List Char}

/-- A floating-point number starts with a digit. -/
theorem head?_isDigit (h : IsFloatingText cs) : ∃ c ∈ cs.head?, c.isDigit = true := by
  cases h with
  | positional hwhole _ =>
      obtain ⟨c, whole, rfl, hdigit⟩ := hwhole.exists_eq_cons
      exact ⟨c, rfl, hdigit⟩
  | scientific hdigit | pointed hdigit _ =>
      exact ⟨_, rfl, hdigit⟩

theorem splitNumber_eq (h : IsFloatingText cs) : splitNumber false cs = (cs, []) := by
  cases h with
  | positional hwhole hfraction =>
      refine splitNumber_figures _ (fun c hc => Or.inl (hwhole.all c hc)) hwhole.ne_nil ?_
      exact splitNumber_cons (by decide) (hfraction.splitNumber_eq _)
  | scientific hdigit =>
      refine splitNumber_figures [_] (fun c hc => Or.inl ?_) (by simp) ?_
      · rwa [List.mem_singleton.mp hc]
      · exact splitNumber_cons (by decide) (splitNumber_signedNumeral _)
  | @pointed digit fraction exponent hdigit hfraction =>
      refine splitNumber_figures (digit :: '.' :: fraction) (fun c hc => ?_) (by simp) ?_
      · rcases List.mem_cons.mp hc with rfl | hc
        · exact Or.inl hdigit
        rcases List.mem_cons.mp hc with rfl | hc
        · exact Or.inr rfl
        · exact Or.inl (hfraction.all c hc)
      · exact splitNumber_cons (by decide) (splitNumber_signedNumeral _)

theorem isFloating (h : IsFloatingText cs) : isFloating cs = true := by
  cases h with
  | positional hwhole hfraction =>
      simp [Text.isFloating, hwhole.takeWhile_append (c := '.') (by decide),
        hwhole.dropWhile_append (c := '.') (by decide), hwhole.areDigits, hfraction.dropWhile_eq]
  | @scientific digit exponent hdigit =>
      have hwhole := isDigits_singleton hdigit
      have htake := hwhole.takeWhile_append (c := 'e') (by decide) (signedNumeral exponent)
      have hdrop := hwhole.dropWhile_append (c := 'e') (by decide) (signedNumeral exponent)
      rw [List.singleton_append] at htake hdrop
      simp [Text.isFloating, htake, hdrop, hwhole.areDigits, isExponent_signedNumeral]
  | @pointed digit fraction exponent hdigit hfraction =>
      have hwhole := isDigits_singleton hdigit
      have htake :=
        hwhole.takeWhile_append (c := '.') (by decide) (fraction ++ 'e' :: signedNumeral exponent)
      have hdrop :=
        hwhole.dropWhile_append (c := '.') (by decide) (fraction ++ 'e' :: signedNumeral exponent)
      rw [List.singleton_append] at htake hdrop
      simp [Text.isFloating, htake, hdrop, hwhole.areDigits, isExponent_signedNumeral,
        hfraction.dropWhile_append (c := 'e') (by decide)]

/-- A floating-point number is no decimal numeral. -/
theorem decimal?_eq_none (h : IsFloatingText cs) : decimal? cs = none := by
  obtain ⟨c, hmem, hc⟩ : ∃ c ∈ cs, c.isDigit = false := by
    cases h with
    | positional _ _ | pointed _ _ => exact ⟨'.', by simp, by decide⟩
    | scientific _ => exact ⟨'e', by simp, by decide⟩
  cases cs with
  | nil =>
      rfl
  | cons d ds =>
      have hall : (d :: ds).all Char.isDigit = false := by
        rw [Bool.eq_false_iff]
        intro hall
        rw [List.all_eq_true.mp hall c hmem] at hc
        cases hc
      rw [decimal?, hall]
      rfl

end IsFloatingText

section Numbers

variable {rest : List Char}

/-- The numeral of a number is read back. -/
theorem readNumber_numeral (n : Nat) (h : EndsNumber rest) :
    readNumber (numeral n ++ rest) = some (.whole n, rest) := by
  have hsplit := splitNumber_append ((isDigits_numeral n).splitNumber_eq false) h
  simp [readNumber, hsplit, decimal?_numeral]

/-- A floating-point number is read as it is written. -/
theorem IsFloatingText.readNumber_eq {written : List Char} (hwritten : IsFloatingText written)
    (h : EndsNumber rest) :
    readNumber (written ++ rest) = some (.floating written, rest) := by
  have hsplit := splitNumber_append hwritten.splitNumber_eq h
  simp [readNumber, hsplit, hwritten.decimal?_eq_none, hwritten.isFloating]

end Numbers

end Text
end Tunables
