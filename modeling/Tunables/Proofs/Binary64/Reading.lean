import Mathlib
import Tunables.Proofs.Binary64.Shortest
import Tunables.Proofs.Binary64.Text

/-!
# Reading floating-point literals

What a floating-point literal stands for in a program: the decimal numeral that it writes, rounded
correctly.  In whichever layout a magnitude is written, its text stands for it again.

* `Text.numeralOf`: the numeral that a literal writes, with its point and its exponent.
* `Binary64.ofLiteral`: the number that a literal stands for.
* `rounds_ofLiteral`: it is the number that the literal writes, rounded correctly.
* `Magnitude.ofLiteral_text`: the text of a magnitude stands for the magnitude.
-/

namespace Tunables

namespace Text

section Reading

/-- The exponent behind its letter, or zero where there is none. -/
def exponentOf : List Char → ℤ
  | [] => 0
  | _ :: '-' :: digits => -Nat.ofDigitChars 10 digits 0
  | _ :: '+' :: digits => Nat.ofDigitChars 10 digits 0
  | _ :: digits => Nat.ofDigitChars 10 digits 0

/-- The digits behind the point of a literal, and the text behind them. -/
def splitFraction : List Char → List Char × List Char
  | '.' :: rest => (rest.takeWhile Char.isDigit, rest.dropWhile Char.isDigit)
  | rest => ([], rest)

/-- The numeral that a floating-point literal writes. -/
def numeralOf (cs : List Char) : Decimal :=
  let whole := cs.takeWhile Char.isDigit
  let (fraction, exponent) := splitFraction (cs.dropWhile Char.isDigit)
  ⟨Nat.ofDigitChars 10 (whole ++ fraction) 0, exponentOf exponent - fraction.length⟩

end Reading

section Forms

variable {whole fraction : List Char} {digit : Char}

theorem exponentOf_signedNumeral (mark : Char) (n : ℤ) :
    exponentOf (mark :: signedNumeral n) = n := by
  cases n with
  | negSucc n =>
      change -((Nat.ofDigitChars 10 (Nat.toDigits 10 (n + 1)) 0 : ℕ) : ℤ) = Int.negSucc n
      rw [Nat.ofDigitChars_ten_toDigits]
      rfl
  | ofNat n =>
      obtain ⟨c, cs, hnumeral, hdigit⟩ := (isDigits_numeral n).exists_eq_cons
      have hne : ∀ d, d.isDigit = false → c ≠ d := fun _ => ne_of_class hdigit
      have hread : exponentOf (mark :: numeral n) = Nat.ofDigitChars 10 (numeral n) 0 := by
        rw [hnumeral, exponentOf]
        · simpa using hne '-' (by decide)
        · simpa using hne '+' (by decide)
      rw [signedNumeral, hread, numeral, Nat.ofDigitChars_ten_toDigits]
      rfl

/-- Digits on both sides of a point are the digits of the numeral. -/
theorem numeralOf_positional (hwhole : IsDigits whole) (hfraction : IsDigits fraction) :
    numeralOf (whole ++ '.' :: fraction) =
      ⟨Nat.ofDigitChars 10 (whole ++ fraction) 0, -fraction.length⟩ := by
  have htake : fraction.takeWhile Char.isDigit = fraction :=
    List.takeWhile_eq_self_iff.mpr hfraction.all
  simp [numeralOf, splitFraction, exponentOf, hwhole.takeWhile_append (c := '.') (by decide),
    hwhole.dropWhile_append (c := '.') (by decide), htake, hfraction.dropWhile_eq]

theorem numeralOf_scientific (hdigit : digit.isDigit = true) (exponent : ℤ) :
    numeralOf (digit :: 'e' :: signedNumeral exponent) =
      ⟨Nat.ofDigitChars 10 [digit] 0, exponent⟩ := by
  have hwhole := isDigits_singleton hdigit
  have htake := hwhole.takeWhile_append (c := 'e') (by decide) (signedNumeral exponent)
  have hdrop := hwhole.dropWhile_append (c := 'e') (by decide) (signedNumeral exponent)
  rw [List.singleton_append] at htake hdrop
  simp [numeralOf, splitFraction, htake, hdrop, exponentOf_signedNumeral]

theorem numeralOf_pointed (hdigit : digit.isDigit = true) (hfraction : IsDigits fraction)
    (exponent : ℤ) :
    numeralOf (digit :: '.' :: (fraction ++ 'e' :: signedNumeral exponent)) =
      ⟨Nat.ofDigitChars 10 (digit :: fraction) 0, exponent - fraction.length⟩ := by
  have hwhole := isDigits_singleton hdigit
  have htake :=
    hwhole.takeWhile_append (c := '.') (by decide) (fraction ++ 'e' :: signedNumeral exponent)
  have hdrop :=
    hwhole.dropWhile_append (c := '.') (by decide) (fraction ++ 'e' :: signedNumeral exponent)
  rw [List.singleton_append] at htake hdrop
  simp [numeralOf, splitFraction, htake, hdrop, hfraction.takeWhile_append (c := 'e') (by decide),
    hfraction.dropWhile_append (c := 'e') (by decide), exponentOf_signedNumeral]

end Forms

end Text

open Text (IsDigits numeralOf)

section Layouts

variable {digits : List Char}

/-- The number that digits stand for, the leading one at the given exponent. -/
def digitsValue (digits : List Char) (lead : ℤ) : ℚ :=
  Nat.ofDigitChars 10 digits 0 * 10 ^ (lead + 1 - digits.length)

/-- Zeros in front do not change the number. -/
theorem ofDigitChars_zeros_append (count : ℕ) (digits : List Char) :
    Nat.ofDigitChars 10 (List.replicate count '0' ++ digits) 0 = Nat.ofDigitChars 10 digits 0 := by
  rw [Nat.ofDigitChars_append, Nat.ofDigitChars_replicate_zero, Nat.mul_zero]

/-- Each zero at the end is a factor of ten. -/
theorem ofDigitChars_append_zeros (digits : List Char) (count : ℕ) :
    Nat.ofDigitChars 10 (digits ++ List.replicate count '0') 0 =
      10 ^ count * Nat.ofDigitChars 10 digits 0 := by
  rw [Nat.ofDigitChars_append, Nat.ofDigitChars_replicate_zero]

/-- Zeros at the end, below the leading digit, do not change the number. -/
theorem digitsValue_append_zeros (digits : List Char) (count : ℕ) (lead : ℤ) :
    digitsValue (digits ++ List.replicate count '0') lead = digitsValue digits lead := by
  have hlead : lead + 1 - digits.length = count + (lead + 1 - (digits.length + count : ℕ)) := by
    push_cast
    ring
  rw [digitsValue, digitsValue, ofDigitChars_append_zeros, List.length_append,
    List.length_replicate, hlead, zpow_add₀ (by norm_num), zpow_natCast]
  push_cast
  ring

theorem trimZeros_append_zeros (digits : List Char) :
    ∃ count, trimZeros digits ++ List.replicate count '0' = digits := by
  cases digits with
  | nil => exact ⟨0, rfl⟩
  | cons digit digits =>
      refine ⟨(digits.reverse.takeWhile (· == '0')).length, ?_⟩
      have hzeros : digits.reverse.takeWhile (· == '0') =
          List.replicate (digits.reverse.takeWhile (· == '0')).length '0' :=
        List.eq_replicate_iff.mpr ⟨rfl, fun c hc => by simpa using List.mem_takeWhile_imp hc⟩
      have hreverse :=
        congrArg List.reverse
          (List.takeWhile_append_dropWhile (p := (· == '0')) (l := digits.reverse))
      rw [hzeros, List.reverse_append, List.reverse_replicate, List.reverse_reverse] at hreverse
      rw [trimZeros, List.cons_append, hreverse]

/-- Zeros at the end are not missed. -/
theorem digitsValue_trimZeros (digits : List Char) (lead : ℤ) :
    digitsValue (trimZeros digits) lead = digitsValue digits lead := by
  obtain ⟨count, hcount⟩ := trimZeros_append_zeros digits
  conv_rhs => rw [← hcount, digitsValue_append_zeros]

/-- Digits with a point stand for their number. -/
theorem Layout.value_positional (h : IsDigits digits) (lead : ℤ) :
    (numeralOf (positional digits lead)).value = digitsValue digits lead := by
  unfold positional
  split
  · next hnegative =>
    have hzeros := isDigits_zeros_append h (-lead - 1).toNat
    have hread := Text.numeralOf_positional (Text.isDigits_singleton (c := '0') (by decide)) hzeros
    have hexponent : -((List.replicate (-lead - 1).toNat '0' ++ digits).length : ℤ) =
        lead + 1 - digits.length := by
      rw [List.length_append, List.length_replicate]
      omega
    rw [show ['0'] ++ (List.replicate (-lead - 1).toNat '0' ++ digits) =
        List.replicate ((-lead - 1).toNat + 1) '0' ++ digits from rfl, ofDigitChars_zeros_append,
          hexponent] at hread
    rw [List.append_assoc, show ['0', '.'] ++ (List.replicate (-lead - 1).toNat '0' ++ digits) =
      ['0'] ++ '.' :: (List.replicate (-lead - 1).toNat '0' ++ digits) from rfl, hread]
    rfl
  split
  · next hnegative hshort =>
    have hwhole := isDigits_append_zeros h (lead.toNat + 1 - digits.length)
    have hread := Text.numeralOf_positional hwhole (Text.isDigits_singleton (c := '0') (by decide))
    have hdigits : (digits ++ List.replicate (lead.toNat + 1 - digits.length) '0') ++ ['0'] =
        digits ++ List.replicate (lead.toNat + 1 - digits.length + 1) '0' := by
      rw [List.append_assoc, List.replicate_succ']
    have hexponent : lead + 1 - (digits.length : ℤ) =
        ((lead.toNat + 1 - digits.length + 1 : ℕ) : ℤ) + -1 := by
      omega
    rw [hread, Decimal.value, hdigits, ofDigitChars_append_zeros, digitsValue, hexponent,
      zpow_add₀ (by norm_num), zpow_natCast]
    push_cast
    simp only [List.length_singleton, Nat.cast_one]
    ring
  · next hnegative hlong =>
    have hwhole : IsDigits (digits.take (lead.toNat + 1)) :=
      ⟨by simp [h.ne_nil], fun c hc => h.all c (List.mem_of_mem_take hc)⟩
    have hfraction : IsDigits (digits.drop (lead.toNat + 1)) :=
      ⟨by rwa [Ne, List.drop_eq_nil_iff], fun c hc => h.all c (List.mem_of_mem_drop hc)⟩
    have hexponent : -((digits.drop (lead.toNat + 1)).length : ℤ) = lead + 1 - digits.length := by
      rw [List.length_drop]
      omega
    rw [Text.numeralOf_positional hwhole hfraction, List.take_append_drop, hexponent]
    rfl

/-- Digits with a power of ten stand for their number. -/
theorem Layout.value_scientific (h : IsDigits digits) (lead : ℤ) :
    (numeralOf (scientific digits lead)).value = digitsValue digits lead := by
  match digits, h with
  | [], h =>
      exact absurd rfl h.ne_nil
  | [digit], h =>
      have hdigit := h.all digit (by simp)
      simp [scientific, Text.numeralOf_scientific hdigit, Decimal.value, digitsValue]
  | digit :: next :: rest, h =>
      have hdigit := h.all digit (by simp)
      have hfraction : IsDigits (next :: rest) :=
        ⟨by simp, fun c hc => h.all c (List.mem_cons_of_mem _ hc)⟩
      have hread := Text.numeralOf_pointed hdigit hfraction lead
      have hexponent : lead - ((next :: rest).length : ℤ) =
          lead + 1 - ((digit :: next :: rest).length : ℤ) := by
        simp only [List.length_cons]
        push_cast
        ring
      rw [hexponent] at hread
      exact congrArg Decimal.value hread

end Layouts

namespace Binary64

/-- The number that a floating-point literal stands for. -/
def ofLiteral (cs : List Char) : Binary64 :=
  let numeral := Text.numeralOf cs
  ofDecimal false numeral.digits numeral.exponent

theorem Magnitude.value_text (layout : Layout) (x : Magnitude) :
    (Text.numeralOf (x.text layout)).value = x.shortest.value := by
  have hdigits : IsDigits (trimZeros (Nat.toDigits 10 x.shortest.digits)) :=
    isDigits_trimZeros (Text.isDigits_numeral _)
  have hvalue : digitsValue (trimZeros (Nat.toDigits 10 x.shortest.digits))
      ((Nat.toDigits 10 x.shortest.digits).length - 1 + x.shortest.exponent) =
        x.shortest.value := by
    rw [digitsValue_trimZeros, digitsValue, Nat.ofDigitChars_ten_toDigits, Decimal.value]
    congr 2
    ring
  unfold text
  simp only
  split
  · rw [Layout.value_positional hdigits, hvalue]
  · rw [Layout.value_scientific hdigits, hvalue]

/-- What a literal stands for is the number that it writes, rounded correctly. -/
theorem rounds_ofLiteral (cs : List Char) : Rounds (Text.numeralOf cs).value false (ofLiteral cs) :=
  rounds_ofDecimal false (Text.numeralOf cs).digits (Text.numeralOf cs).exponent

/-- The text of a magnitude stands for the magnitude. -/
theorem Magnitude.ofLiteral_text (layout : Layout) (x : Magnitude) :
    ofLiteral (x.text layout) = .finite false x := by
  have hrounds := rounds_ofLiteral (x.text layout)
  rw [value_text] at hrounds
  exact hrounds.unique (rounds_shortest false x)

end Binary64
end Tunables
