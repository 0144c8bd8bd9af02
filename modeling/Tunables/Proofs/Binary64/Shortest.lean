import Mathlib
import Tunables.Binary64.Shortest
import Tunables.Proofs.Binary64.Rounding

/-!
# The shortest numeral rounds back

The numeral that is chosen for a magnitude is a number of the interval around it, and every number
of that interval is rounded to the magnitude.

* `Interval.Contains`: the numbers of an interval.
* `numeralAt?_ne_none`: with seventeen digits a numeral is found.
* `rounds_shortest`: the shortest numeral of a magnitude is rounded to it.
-/

namespace Tunables

/-- The number that a decimal numeral stands for. -/
def Decimal.value (numeral : Decimal) : ℚ :=
  numeral.digits * 10 ^ numeral.exponent

namespace Binary64

/-- The numbers of an interval whose quarters have the given size. -/
def Interval.Contains (interval : Interval) (quarter q : ℚ) : Prop :=
  if interval.closed then interval.low * quarter ≤ q ∧ q ≤ interval.high * quarter
  else interval.low * quarter < q ∧ q < interval.high * quarter

/-- A number is in the interval of a magnitude. -/
def Magnitude.Covers (x : Magnitude) (q : ℚ) : Prop :=
  x.interval.Contains (2 ^ (x.exponent - 2)) q

section Factors

variable {e place : ℤ} {num den digits : ℕ}

/-- The factors turn quarters into units of the decimal place. -/
theorem gridFactors_eq (h : gridFactors e place = (num, den)) :
    0 < num ∧ 0 < den ∧ (num : ℚ) * 10 ^ place = 2 ^ (e - 2) * den := by
  obtain ⟨rfl, rfl⟩ := Prod.mk.inj h
  refine ⟨Nat.mul_pos (Nat.two_pow_pos _) (Nat.pow_pos (by decide)),
    Nat.mul_pos (Nat.two_pow_pos _) (Nat.pow_pos (by decide)), ?_⟩
  have hexponent : 2 - e = -(e - 2) := by ring
  rw [zpow_eq_div_toNat two_ne_zero (e - 2), zpow_eq_div_toNat (by norm_num : (10 : ℚ) ≠ 0) place,
    hexponent]
  simp only [Nat.cast_mul, cast_twoPow, cast_tenPow]
  field_simp

theorem quarters_le_iff (h : gridFactors e place = (num, den)) (quarters digits : ℕ) :
    (quarters * num ≤ digits * den ↔ (quarters : ℚ) * 2 ^ (e - 2) ≤ digits * 10 ^ place) ∧
      (digits * den ≤ quarters * num ↔ (digits : ℚ) * 10 ^ place ≤ quarters * 2 ^ (e - 2)) := by
  obtain ⟨hnum, hden, hfactors⟩ := gridFactors_eq h
  have hden' : (0 : ℚ) < den := by exact_mod_cast hden
  have hplace : (0 : ℚ) < 10 ^ place := by positivity
  have hquarters : (quarters : ℚ) * 2 ^ (e - 2) * den = quarters * num * 10 ^ place := by
    rw [mul_assoc, ← hfactors, mul_assoc]
  have hdigits : (digits : ℚ) * 10 ^ place * den = digits * den * 10 ^ place := mul_right_comm _ _ _
  rw [← mul_le_mul_iff_left₀ hden', ← mul_le_mul_iff_left₀ hden' (b := (digits : ℚ) * 10 ^ place),
    hquarters, hdigits, mul_le_mul_iff_left₀ hplace, mul_le_mul_iff_left₀ hplace]
  exact_mod_cast And.intro Iff.rfl Iff.rfl

/-- The test of a numeral asks whether its number is in the interval. -/
theorem holds_iff (h : gridFactors e place = (num, den)) (interval : Interval) :
    interval.holds num den digits = true ↔
      interval.Contains (2 ^ (e - 2)) (digits * 10 ^ place) := by
  have hlow := quarters_le_iff h interval.low digits
  have hhigh := quarters_le_iff h interval.high digits
  unfold Interval.holds Interval.Contains
  split
  · simp only [Bool.and_eq_true, decide_eq_true_eq, hlow.1, hhigh.2]
  · simp only [Bool.and_eq_true, decide_eq_true_eq, ← not_le, hlow.2, hhigh.1]

end Factors

section Neighbours

variable {x : Magnitude} {place : ℤ} {numeral : Decimal}

/-- A numeral that is found is in the interval. -/
theorem covers_of_numeralAt? (h : numeralAt? x place = some numeral) : x.Covers numeral.value := by
  rcases hfactors : gridFactors x.exponent place with ⟨num, den⟩
  have hcovers : ∀ digits, x.interval.holds num den digits = true →
      x.Covers (Decimal.value ⟨digits, place⟩) :=
    fun digits hdigits => (holds_iff hfactors x.interval).mp hdigits
  unfold numeralAt? at h
  simp only [hfactors] at h
  split at h
  · next hbelow habove =>
    split at h
    · cases h
      exact hcovers _ habove
    · cases h
      exact hcovers _ hbelow
  · next hbelow _ =>
    cases h
    exact hcovers _ hbelow
  · next _ habove =>
    cases h
    exact hcovers _ habove
  · cases h

/-- The value of a magnitude in quarters of its last place. -/
theorem Magnitude.value_eq_middle (x : Magnitude) :
    x.value = x.interval.middle * 2 ^ (x.exponent - 2) := by
  rw [value, zpow_sub₀ two_ne_zero, interval]
  push_cast
  ring

/-- Where no numeral is found, neither neighbour is in the interval. -/
theorem not_covers_of_numeralAt? (h : numeralAt? x place = none) :
    ∃ below : ℕ, (below : ℚ) * 10 ^ place ≤ x.value ∧ x.value < (below + 1 : ℕ) * 10 ^ place ∧
      ¬ x.Covers (below * 10 ^ place) ∧ ¬ x.Covers ((below + 1 : ℕ) * 10 ^ place) := by
  rcases hfactors : gridFactors x.exponent place with ⟨num, den⟩
  have hden : 0 < den := (gridFactors_eq hfactors).2.1
  have hcovers : ∀ digits, x.interval.holds num den digits = false →
      ¬ x.Covers (digits * 10 ^ place) := by
    intro digits hdigits hcovers
    rw [(holds_iff hfactors x.interval).mpr hcovers] at hdigits
    cases hdigits
  have hbelow := Nat.div_mul_le_self (x.interval.middle * num) den
  have habove := Nat.lt_mul_of_div_lt (Nat.lt_succ_self (x.interval.middle * num / den)) hden
  rw [(quarters_le_iff hfactors _ _).2, ← Magnitude.value_eq_middle] at hbelow
  rw [← not_le, (quarters_le_iff hfactors _ _).2, ← Magnitude.value_eq_middle, not_le] at habove
  unfold numeralAt? at h
  simp only [hfactors] at h
  split at h
  · split at h <;> cases h
  · cases h
  · cases h
  · next hnotBelow hnotAbove => exact ⟨_, hbelow, habove, hcovers _ hnotBelow, hcovers _ hnotAbove⟩

/-- Only below a power of two the interval is shorter. -/
theorem Magnitude.low_cases (x : Magnitude) (h : 0 < x.significand) :
    ((x.significand = 2 ^ 52 ∧ x.exponent ≠ -1074) ∧ (x.interval.low : ℚ) = 4 * x.significand - 1) ∨
      ¬ (x.significand = 2 ^ 52 ∧ x.exponent ≠ -1074) ∧
        (x.interval.low : ℚ) = 4 * x.significand - 2 := by
  unfold interval
  simp only [Bool.and_eq_true, decide_eq_true_eq, bne_iff_ne, ne_eq]
  split_ifs with hpower
  · refine Or.inl ⟨hpower, ?_⟩
    rw [Nat.cast_sub (by omega)]
    push_cast
    rfl
  · refine Or.inr ⟨hpower, ?_⟩
    rw [Nat.cast_sub (by omega)]
    push_cast
    rfl

theorem Magnitude.covers_of_lt {q : ℚ} (hlow : x.interval.low * 2 ^ (x.exponent - 2) < q)
    (hhigh : q < (4 * x.significand + 2) * 2 ^ (x.exponent - 2)) : x.Covers q := by
  have hhigh' : q < x.interval.high * 2 ^ (x.exponent - 2) := by
    rw [interval]
    push_cast
    exact hhigh
  unfold Covers Interval.Contains
  split
  · exact ⟨hlow.le, hhigh'.le⟩
  · exact ⟨hlow, hhigh'⟩

/-- If the decimal place is fine enough, one of the neighbours of a magnitude is in its interval. -/
theorem numeralAt?_ne_none (h : 10 ^ 16 * 10 ^ place ≤ x.value) : numeralAt? x place ≠ none := by
  intro hnone
  obtain ⟨below, hbelow, habove, hnotBelow, hnotAbove⟩ := not_covers_of_numeralAt? hnone
  have hplace : (0 : ℚ) < 10 ^ place := by positivity
  have hquarter : (0 : ℚ) < 2 ^ (x.exponent - 2) := by positivity
  have hvalue := x.value_eq_middle
  have hmost : (x.significand : ℚ) * 2 ^ (x.exponent - 2) < 2 ^ 53 * 2 ^ (x.exponent - 2) :=
    mul_lt_mul_of_pos_right (by exact_mod_cast x.significand_lt) hquarter
  have hpositive : 0 < x.significand := by
    rcases Nat.eq_zero_or_pos x.significand with hzero | hpositive
    · rw [Magnitude.value, hzero, Nat.cast_zero, zero_mul] at h
      linarith
    · exact hpositive
  rw [Magnitude.interval] at hvalue
  push_cast at hvalue habove hnotAbove
  generalize (10 : ℚ) ^ place = unit at *
  rcases x.low_cases hpositive with ⟨⟨hpower, _⟩, hlow⟩ | ⟨_, hlow⟩
  · -- The unit is less than half of the last place, so that the neighbour above is in the interval.
    rw [hpower] at hvalue
    push_cast at hvalue
    refine hnotAbove (Magnitude.covers_of_lt ?_ ?_)
    · rw [hlow, hpower]
      push_cast
      linarith
    · rw [hpower]
      push_cast
      linarith
  · -- The unit is less than the last place, so that not both neighbours are half of it away.
    have hbelow' : (below : ℚ) * unit ≤ (4 * x.significand - 2) * 2 ^ (x.exponent - 2) := by
      rw [← hlow]
      refine not_lt.mp fun hless => hnotBelow (Magnitude.covers_of_lt hless ?_)
      linarith
    have habove' : (4 * x.significand + 2) * 2 ^ (x.exponent - 2) ≤ ((below : ℚ) + 1) * unit := by
      refine not_lt.mp fun hless => hnotAbove (Magnitude.covers_of_lt ?_ hless)
      rw [hlow]
      linarith
    linarith

end Neighbours

section Digits

variable {x : Magnitude} {top : ℤ}

/-- The decimal exponent is not too large. -/
theorem Magnitude.tenPow_decimalExponent_le (h : 0 < x.significand) :
    10 ^ x.decimalExponent ≤ x.value := by
  have hden : 0 < twoPow (-x.exponent).toNat := Nat.two_pow_pos _
  have hscaled : 0 <
      x.significand * twoPow x.exponent.toNat * tenPow 400 / twoPow (-x.exponent).toNat := by
    refine Nat.div_pos ?_ hden
    calc
      twoPow (-x.exponent).toNat ≤ 2 ^ 1074 :=
        Nat.pow_le_pow_right (by decide) (by have := x.canonical.2.1; omega)
      _ ≤ tenPow 400 := by decide +kernel
      _ ≤ x.significand * twoPow x.exponent.toNat * tenPow 400 :=
          Nat.le_mul_of_pos_left _ (Nat.mul_pos h (Nat.two_pow_pos _))
  have hvalue : ((x.significand * twoPow x.exponent.toNat * tenPow 400 : ℕ) : ℚ) /
      (twoPow (-x.exponent).toNat : ℕ) =
      x.value * 10 ^ (400 : ℤ) := by
    rw [value, zpow_eq_div_toNat two_ne_zero, zpow_ofNat]
    simp only [Nat.cast_mul, cast_twoPow, cast_tenPow]
    rw [mul_div_right_comm, mul_div_assoc]
  have hdigits := (toDigits_bounds hscaled).1
  have hquotient := hdigits.trans Nat.cast_div_le
  rw [hvalue] at hquotient
  simp only [decimalExponent]
  generalize ((Nat.toDigits 10 _).length : ℤ) = length at *
  have hshift : (10 : ℚ) ^ (length - 1) = 10 ^ (length - 401) * 10 ^ (400 : ℤ) := by
    rw [← zpow_add₀ (by norm_num)]
    congr 1
    ring
  rw [hshift] at hquotient
  exact le_of_mul_le_mul_right hquotient (by positivity)

/-- A numeral is found before there are more than seventeen digits. -/
theorem covers_shortestFrom (h : 10 ^ top ≤ x.value) {count fuel : ℕ} (hcount : count + fuel = 17) :
    x.Covers (shortestFrom x top count (fuel + 1)).value := by
  induction fuel generalizing count with
  | zero =>
      have hfine : 10 ^ 16 * 10 ^ (top + 1 - count) ≤ x.value := by
        have hplace : (10 : ℚ) ^ 16 * 10 ^ (top + 1 - count) = 10 ^ top := by
          rw [← zpow_natCast, ← zpow_add₀ (by norm_num)]
          congr 1
          omega
        rwa [hplace]
      unfold shortestFrom
      split
      · next hnumeral => exact covers_of_numeralAt? hnumeral
      · next hnone => exact absurd hnone (numeralAt?_ne_none hfine)
  | succ fuel ih =>
      unfold shortestFrom
      split
      · next hnumeral => exact covers_of_numeralAt? hnumeral
      · exact ih (by omega)

theorem Magnitude.covers_shortest (h : 0 < x.significand) : x.Covers x.shortest.value := by
  unfold shortest
  rw [if_neg h.ne']
  exact covers_shortestFrom (tenPow_decimalExponent_le h) rfl

end Digits

section Rounding

variable {x : Magnitude} {q : ℚ}

/-- The interval of a magnitude in units of its last place. -/
theorem Magnitude.Covers.bounds (h : x.Covers q) :
    x.interval.low / 4 ≤ q / 2 ^ x.exponent ∧ q / 2 ^ x.exponent ≤ x.significand + 1 / 2 ∧
      (¬ Even x.significand →
        x.interval.low / 4 < q / 2 ^ x.exponent ∧ q / 2 ^ x.exponent < x.significand + 1 / 2) := by
  have hpow : (0 : ℚ) < 2 ^ x.exponent := by positivity
  have hquarter : (2 : ℚ) ^ (x.exponent - 2) = 2 ^ x.exponent / 4 := by
    rw [zpow_sub₀ two_ne_zero]
    norm_num
  have hhigh : (x.interval.high : ℚ) = 4 * x.significand + 2 := by
    rw [interval]
    push_cast
    rfl
  have hclosed : x.interval.closed = true ↔ Even x.significand := by
    rw [interval, beq_iff_eq, Nat.even_iff]
  have hq : q = q / 2 ^ x.exponent * 2 ^ x.exponent := (div_mul_cancel₀ _ hpow.ne').symm
  unfold Covers Interval.Contains at h
  rw [hquarter, hhigh] at h
  generalize q / 2 ^ x.exponent = t at *
  rw [hq] at h
  by_cases heven : Even x.significand
  · rw [if_pos (hclosed.mpr heven)] at h
    refine ⟨?_, ?_, fun hodd => absurd heven hodd⟩
    · refine le_of_mul_le_mul_right ?_ hpow
      linarith
    · refine le_of_mul_le_mul_right ?_ hpow
      linarith
  · rw [if_neg fun hc => heven (hclosed.mp hc)] at h
    have hlow : x.interval.low / 4 < t := by
      refine lt_of_mul_lt_mul_right ?_ hpow.le
      linarith
    have hhigh : t < x.significand + 1 / 2 := by
      refine lt_of_mul_lt_mul_right ?_ hpow.le
      linarith
    exact ⟨hlow.le, hhigh.le, fun _ => ⟨hlow, hhigh⟩⟩

/-- The numbers in the interval of a magnitude are not too large. -/
theorem Magnitude.Covers.lt_overflow (h : x.Covers q) : q < overflow := by
  obtain ⟨_, hhigh, hodd⟩ := h.bounds
  have hpow : (0 : ℚ) < 2 ^ x.exponent := by positivity
  have hless : q / 2 ^ x.exponent < 2 ^ 53 - 1 / 2 := by
    by_cases hgreatest : x.significand = 2 ^ 53 - 1
    · obtain ⟨_, hstrict⟩ := hodd (by rw [hgreatest]; decide)
      rw [hgreatest] at hstrict
      push_cast at hstrict
      linarith
    · have hsignificand : (x.significand : ℚ) + 2 ≤ 2 ^ 53 := by
        have hbound := x.significand_lt
        have hsucc : x.significand + 2 ≤ 2 ^ 53 := by omega
        exact_mod_cast hsucc
      linarith
  calc
    q < (2 ^ 53 - 1 / 2) * 2 ^ x.exponent := (div_lt_iff₀ hpow).mp hless
    _ ≤ overflow := by
        rw [overflow]
        exact mul_le_mul_of_nonneg_left (zpow_le_zpow_right₀ one_le_two x.canonical.2.2.1)
          (by norm_num)

/-- A number in the interval of a magnitude is rounded to its significand, on the grid of its
exponent. -/
theorem Magnitude.Covers.isRounded (h : x.Covers q) (hpositive : 0 < x.significand) :
    IsRounded (q / 2 ^ x.exponent) x.significand := by
  obtain ⟨hlow, hhigh, hodd⟩ := h.bounds
  have hlow' : (x.significand : ℚ) - 1 / 2 ≤ x.interval.low / 4 := by
    rcases x.low_cases hpositive with ⟨_, hlow⟩ | ⟨_, hlow⟩ <;> rw [hlow] <;> linarith
  refine ⟨abs_le.mpr ⟨by linarith, by linarith⟩, fun hhalf => ?_⟩
  by_contra heven
  obtain ⟨hlow, hhigh⟩ := hodd heven
  exact (abs_lt.mpr ⟨by linarith, by linarith⟩).ne hhalf

/-- Only below a power of two may a number in the interval have fewer bits before the point, and
then it is near to it. -/
theorem Magnitude.Covers.power_of_lt (h : x.Covers q) (hpositive : 0 < x.significand)
    (hless : q / 2 ^ x.exponent < 2 ^ 52) (hexponent : x.exponent ≠ -1074) :
    x.significand = 2 ^ 52 ∧ 2 ^ 52 - 1 / 4 ≤ q / 2 ^ x.exponent := by
  have hsignificand : 2 ^ 52 ≤ x.significand := x.canonical.2.2.2.resolve_right hexponent
  obtain ⟨hlow, _, _⟩ := h.bounds
  rcases x.low_cases hpositive with ⟨⟨hpower, _⟩, hlow'⟩ | ⟨hpower, hlow'⟩
  · refine ⟨hpower, ?_⟩
    rw [hlow', hpower] at hlow
    push_cast at hlow
    linarith
  · have hmore : 2 ^ 52 + 1 ≤ x.significand := by
      have hne : x.significand ≠ 2 ^ 52 := fun hsame => hpower ⟨hsame, hexponent⟩
      omega
    have hmore' : (2 : ℚ) ^ 52 + 1 ≤ x.significand := by exact_mod_cast hmore
    rw [hlow'] at hlow
    linarith

/-- Below a power of two the grid is finer, and the numbers in the interval are rounded up. -/
theorem Magnitude.Covers.isNearest_of_lt (h : x.Covers q) (hpositive : 0 < x.significand)
    (hless : q / 2 ^ x.exponent < 2 ^ 52) (hexponent : x.exponent ≠ -1074) : x.IsNearest q := by
  have hpow : (0 : ℚ) < 2 ^ x.exponent := by positivity
  have hleast := x.canonical.2.1
  obtain ⟨hpower, hnear⟩ := h.power_of_lt hpositive hless hexponent
  have hfiner : (2 : ℚ) ^ (x.exponent - 1) = 2 ^ x.exponent / 2 := by
    rw [zpow_sub₀ two_ne_zero, zpow_one]
  have hbits : ∀ bits : ℕ, (2 : ℚ) ^ (x.exponent - 1 + bits) = 2 ^ bits / 2 * 2 ^ x.exponent :=
    fun bits => by
      rw [zpow_add₀ two_ne_zero, hfiner, zpow_natCast]
      ring
  have hgrid : IsGrid (x.exponent - 1) q := by
    refine ⟨by omega, ?_, Or.inl ?_⟩
    · have hupper := (div_lt_iff₀ hpow).mp hless
      have hscale := hbits 53
      push_cast at hscale
      rw [hscale]
      linarith
    · have hlower := (le_div_iff₀ hpow).mp hnear
      have hscale := hbits 52
      push_cast at hscale
      rw [hscale]
      linarith
  refine isNearest_of_isRounded (r := 2 ^ 53) hgrid ?_ ?_ fun _ => ?_
  · have htwice : q / 2 ^ (x.exponent - 1) = 2 * (q / 2 ^ x.exponent) := by
      rw [hfiner]
      field_simp
    refine ⟨?_, fun _ => ⟨2 ^ 52, by norm_num⟩⟩
    rw [htwice, abs_le]
    push_cast
    constructor <;> linarith
  · rw [value, hpower, hfiner]
    push_cast
    ring
  · rw [hpower]
    exact ⟨2 ^ 51, by norm_num⟩

/-- A number in the interval of a magnitude is nearest to it. -/
theorem Magnitude.Covers.isNearest (h : x.Covers q) (hpositive : 0 < x.significand) :
    x.IsNearest q := by
  have hpow : (0 : ℚ) < 2 ^ x.exponent := by positivity
  have hbits : ∀ bits : ℕ, (2 : ℚ) ^ (x.exponent + bits) = 2 ^ bits * 2 ^ x.exponent :=
    fun bits => by
      rw [zpow_add₀ two_ne_zero, zpow_natCast, mul_comm]
  by_cases hexponent : q / 2 ^ x.exponent < 2 ^ 52 ∧ x.exponent ≠ -1074
  · exact h.isNearest_of_lt hpositive hexponent.1 hexponent.2
  · have hupper : q < 2 ^ (x.exponent + 53) := by
      have hhigh := h.bounds.2.1
      have hsignificand : (x.significand : ℚ) + 1 ≤ 2 ^ 53 := by exact_mod_cast x.significand_lt
      have hscale := hbits 53
      push_cast at hscale
      rw [hscale, ← div_lt_iff₀ hpow]
      linarith
    have hlower : 2 ^ (x.exponent + 52) ≤ q ∨ x.exponent = -1074 := by
      refine (not_and_or.mp hexponent).imp (fun hmore => ?_) not_not.mp
      have hscale := hbits 52
      push_cast at hscale
      rw [hscale, ← le_div_iff₀ hpow]
      exact not_lt.mp hmore
    exact isNearest_of_isRounded ⟨x.canonical.2.1, hupper, hlower⟩ (h.isRounded hpositive) rfl id

/-- The shortest numeral of a magnitude is rounded to it. -/
theorem rounds_shortest (negative : Bool) (x : Magnitude) :
    Rounds x.shortest.value negative (.finite negative x) := by
  rcases Nat.eq_zero_or_pos x.significand with hzero | hpositive
  · have hx : x = .zero :=
      Magnitude.value_injective (by simp [Magnitude.value, hzero, Magnitude.zero])
    have hshortest : x.shortest.value = 0 := by
      rw [Magnitude.shortest, if_pos hzero, Decimal.value, Nat.cast_zero, zero_mul]
    rw [hshortest, hx]
    exact rounds_zero negative le_rfl (by positivity)
  · have hcovers := Magnitude.covers_shortest hpositive
    exact .finite x (hcovers.isNearest hpositive) hcovers.lt_overflow

end Rounding

end Binary64
end Tunables
