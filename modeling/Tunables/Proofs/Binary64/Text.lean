import Tunables.Binary64.Text
import Tunables.Proofs.Text.Numeral

/-!
# The form of written floating-point numbers

In every layout a finite number is written as a floating-point literal: with a point between digits,
or with an exponent.
-/

namespace Tunables

open Text (IsDigits IsFloatingText)

theorem isDigits_trimZeros {digits : List Char} (h : IsDigits digits) :
    IsDigits (trimZeros digits) := by
  cases digits with
  | nil =>
      exact absurd rfl h.ne_nil
  | cons digit digits =>
      refine ⟨by simp [trimZeros], ?_⟩
      intro c hc
      rcases List.mem_cons.mp hc with rfl | hc
      · exact h.all c (by simp)
      · have hmem : c ∈ digits.reverse := (List.dropWhile_sublist _).subset (List.mem_reverse.mp hc)
        exact h.all c (List.mem_cons_of_mem _ (List.mem_reverse.mp hmem))

section Zeros

variable {digits : List Char}

theorem isDigit_of_mem_zeros {count : Nat} {c : Char} (hc : c ∈ List.replicate count '0') :
    c.isDigit = true := by
  rw [List.eq_of_mem_replicate hc]
  decide

theorem isDigits_append_zeros (h : IsDigits digits) (count : Nat) :
    IsDigits (digits ++ List.replicate count '0') := by
  refine ⟨by simp [h.ne_nil], fun c hc => ?_⟩
  rcases List.mem_append.mp hc with hc | hc
  · exact h.all c hc
  · exact isDigit_of_mem_zeros hc

theorem isDigits_zeros_append (h : IsDigits digits) (count : Nat) :
    IsDigits (List.replicate count '0' ++ digits) := by
  refine ⟨by simp [h.ne_nil], fun c hc => ?_⟩
  rcases List.mem_append.mp hc with hc | hc
  · exact isDigit_of_mem_zeros hc
  · exact h.all c hc

end Zeros

namespace Layout

variable {digits : List Char}

theorem isFloatingText_positional (h : IsDigits digits) (lead : Int) :
    IsFloatingText (positional digits lead) := by
  unfold positional
  split
  · have hwhole : IsDigits ['0'] := Text.isDigits_singleton (by decide)
    rw [List.append_assoc]
    exact IsFloatingText.positional hwhole (isDigits_zeros_append h _)
  split
  · have hfraction : IsDigits ['0'] := Text.isDigits_singleton (by decide)
    exact IsFloatingText.positional (isDigits_append_zeros h _) hfraction
  · next hlong =>
    have hwhole : IsDigits (digits.take (lead.toNat + 1)) :=
      ⟨by simp [h.ne_nil], fun c hc => h.all c (List.mem_of_mem_take hc)⟩
    have hfraction : IsDigits (digits.drop (lead.toNat + 1)) := by
      refine ⟨?_, fun c hc => h.all c (List.mem_of_mem_drop hc)⟩
      rw [Ne, List.drop_eq_nil_iff]
      exact hlong
    exact IsFloatingText.positional hwhole hfraction

theorem isFloatingText_scientific (h : IsDigits digits) (lead : Int) :
    IsFloatingText (scientific digits lead) := by
  match digits, h with
  | [], h =>
      exact absurd rfl h.ne_nil
  | [digit], h =>
      exact IsFloatingText.scientific (h.all digit (by simp))
  | digit :: next :: rest, h =>
      have hfraction : IsDigits (next :: rest) :=
        ⟨by simp, fun c hc => h.all c (List.mem_cons_of_mem _ hc)⟩
      exact IsFloatingText.pointed (h.all digit (by simp)) hfraction

end Layout

namespace Binary64

/-- A finite magnitude is written as a floating-point literal. -/
theorem Magnitude.isFloatingText (layout : Layout) (x : Magnitude) :
    IsFloatingText (x.text layout) := by
  have hdigits : IsDigits (trimZeros (Nat.toDigits 10 x.shortest.digits)) :=
    isDigits_trimZeros (Text.isDigits_numeral _)
  unfold Magnitude.text
  simp only
  split
  · exact Layout.isFloatingText_positional hdigits _
  · exact Layout.isFloatingText_scientific hdigits _

end Binary64
end Tunables
