import Mathlib
import Tunables.Binary64.Nearest

/-!
# Rounding is correct

Quotients and decimal numerals are rounded to the nearest magnitude of the format, and of two that
are equally near to the one with an even significand.  A number is looked at on the grid of the
multiples of a power of two around it; the magnitudes are the significands on that grid, and
rounding to the format is rounding to an integer there.

* `Magnitude.value`: the number that a magnitude is.
* `IsRounded`, `IsGrid`: rounding to an integer, and the grid around a number.
* `Rounds`: correct rounding; `Rounds.unique`: it has one result.
* `rounds_nearest`, `rounds_ofDecimal`: quotients and decimal numerals are rounded correctly.
-/

namespace Tunables

/-- An integral power is a quotient of natural ones, one of which is trivial. -/
theorem zpow_eq_div_toNat {base : ℚ} (hbase : base ≠ 0) (z : ℤ) :
    base ^ z = base ^ z.toNat / base ^ (-z).toNat := by
  rw [← zpow_natCast base z.toNat, ← zpow_natCast base (-z).toNat, ← zpow_sub₀ hbase,
    Int.toNat_sub_toNat_neg]

theorem two_zpow_add (e : ℤ) (bits : ℕ) : (2 : ℚ) ^ (e + bits) = 2 ^ bits * 2 ^ e := by
  rw [zpow_add₀ two_ne_zero, zpow_natCast, mul_comm]

theorem cast_twoPow (n : ℕ) : ((twoPow n : ℕ) : ℚ) = 2 ^ n :=
  Nat.cast_pow 2 n

theorem cast_tenPow (n : ℕ) : ((tenPow n : ℕ) : ℚ) = 10 ^ n :=
  Nat.cast_pow 10 n

namespace Binary64

section Integers

/-- An integer that is nearest to a number, and the even one of two. -/
structure IsRounded (q : ℚ) (r : ℕ) : Prop where
  near : |q - r| ≤ 1 / 2
  even : |q - r| = 1 / 2 → Even r

variable {q : ℚ} {r s num den : ℕ}

/-- A quotient is a whole number and a part of one, which is compared with one half by twice the
rest. -/
theorem exists_part (hden : 0 < den) :
    ∃ part : ℚ, (num / den : ℚ) = (num / den : ℕ) + part ∧ 0 ≤ part ∧ part < 1 ∧
      (2 * (num % den) < den ↔ part < 1 / 2) ∧ (den < 2 * (num % den) ↔ 1 / 2 < part) := by
  have hden' : (0 : ℚ) < den := by exact_mod_cast hden
  refine ⟨((num % den : ℕ) : ℚ) / den, ?_, by positivity, ?_, ?_, ?_⟩
  · rw [div_eq_iff hden'.ne', add_mul, div_mul_cancel₀ _ hden'.ne']
    exact_mod_cast (Nat.div_add_mod' num den).symm
  · rw [div_lt_one hden']
    exact_mod_cast Nat.mod_lt num hden
  · rw [div_lt_div_iff₀ hden' two_pos, one_mul, mul_comm]
    exact_mod_cast Iff.rfl
  · rw [div_lt_div_iff₀ two_pos hden', one_mul, mul_comm _ (2 : ℚ)]
    exact_mod_cast Iff.rfl

theorem isRounded_roundQuotient (hden : 0 < den) :
    IsRounded (num / den) (roundQuotient num den) := by
  obtain ⟨part, hquotient, hnonneg, hrest, hless, hmore⟩ := @exists_part num den hden
  rw [hquotient]
  unfold roundQuotient
  simp only [hless, hmore]
  generalize num / den = whole at *
  split_ifs with hlow hhigh heven
  · constructor
    · rw [abs_le]
      constructor <;> linarith
    · intro h
      rw [add_sub_cancel_left, abs_of_nonneg hnonneg] at h
      linarith
  · constructor
    · rw [abs_le]
      push_cast
      constructor <;> linarith
    · intro h
      push_cast at h
      rw [add_sub_add_left_eq_sub, abs_of_neg (by linarith)] at h
      linarith
  · have hpart : part = 1 / 2 := le_antisymm (not_lt.mp hhigh) (not_lt.mp hlow)
    refine ⟨?_, fun _ => Nat.even_iff.mpr heven⟩
    rw [add_sub_cancel_left, hpart, abs_of_pos one_half_pos]
  · have hpart : part = 1 / 2 := le_antisymm (not_lt.mp hhigh) (not_lt.mp hlow)
    refine ⟨?_, fun _ => Nat.even_add_one.mpr fun h => heven (Nat.even_iff.mp h)⟩
    push_cast
    rw [add_sub_add_left_eq_sub, hpart, abs_le]
    norm_num

/-- Two integers are not both near to a number. -/
theorem one_le_distances {k : ℤ} (hk : k ≠ r) : 1 ≤ |q - r| + |q - k| := by
  have hfar : (1 : ℚ) ≤ |(r : ℚ) - k| := by
    have hne : (r : ℤ) - k ≠ 0 := sub_ne_zero.mpr hk.symm
    exact_mod_cast Int.one_le_abs hne
  have htriangle := abs_sub_le (r : ℚ) q k
  rw [abs_sub_comm (r : ℚ) q] at htriangle
  exact hfar.trans htriangle

/-- No integer is nearer than the rounded one. -/
theorem IsRounded.le (h : IsRounded q r) (k : ℤ) : |q - r| ≤ |q - k| := by
  by_cases hk : k = r
  · rw [hk, Int.cast_natCast]
  · linarith [h.near, one_le_distances (q := q) hk]

/-- If another integer is as near, the rounded one is even. -/
theorem IsRounded.even_of_eq (h : IsRounded q r) {k : ℤ} (hk : k ≠ r)
    (heq : |q - r| = |q - k|) : Even r :=
  h.even (le_antisymm h.near (by linarith [one_le_distances (q := q) hk]))

theorem IsRounded.le_of_le (h : IsRounded q r) (hs : q ≤ s) : r ≤ s := by
  by_contra hless
  have hmore : (s : ℚ) + 1 ≤ r := by exact_mod_cast not_le.mp hless
  linarith [(abs_le.mp h.near).1]

theorem IsRounded.ge_of_ge (h : IsRounded q r) (hs : s ≤ q) : s ≤ r := by
  by_contra hless
  have hmore : (r : ℚ) + 1 ≤ s := by exact_mod_cast not_le.mp hless
  linarith [(abs_le.mp h.near).2]

/-- What is rounded to an odd integer is not half way to the next. -/
theorem IsRounded.lt_of_odd (h : IsRounded q r) (hs : r ≤ s) (hodd : ¬ Even s) : q < s + 1 / 2 := by
  have hs' : (r : ℚ) ≤ s := by exact_mod_cast hs
  have hnear := (abs_le.mp h.near).2
  refine lt_of_le_of_ne (by linarith) fun hsame => hodd ?_
  have hrs : r = s := by
    have : (s : ℚ) ≤ r := by linarith
    exact le_antisymm hs (by exact_mod_cast this)
  rw [← hrs]
  refine h.even ?_
  rw [hsame, hrs, add_sub_cancel_left, abs_of_pos one_half_pos]

theorem IsRounded.unique (hr : IsRounded q r) (hs : IsRounded q s) : r = s := by
  by_contra hne
  have hdistance := one_le_distances (q := q) (r := r) (k := s) (by exact_mod_cast Ne.symm hne)
  rw [Int.cast_natCast] at hdistance
  have hrnear := hr.near
  have hsnear := hs.near
  obtain ⟨a, ha⟩ := hr.even (by linarith)
  obtain ⟨b, hb⟩ := hs.even (by linarith)
  have hclose : |(r : ℤ) - s| ≤ 1 := by
    have htriangle := abs_sub_le (r : ℚ) q s
    rw [abs_sub_comm (r : ℚ) q] at htriangle
    have hclose : |(r : ℚ) - s| ≤ 1 := by linarith
    exact_mod_cast hclose
  rw [abs_le] at hclose
  omega

end Integers

section Grid

/-- The numbers of the format around a number lie on the multiples of a power of two. -/
structure IsGrid (e : ℤ) (q : ℚ) : Prop where
  least : -1074 ≤ e
  upper : q < 2 ^ (e + 53)
  lower : 2 ^ (e + 52) ≤ q ∨ e = -1074

variable {q : ℚ} {e f : ℤ} {num den : ℕ}

theorem IsGrid.le (he : IsGrid e q) (hf : IsGrid f q) : e ≤ f := by
  rcases he.lower with hlower | hleast
  · have hpow : (2 : ℚ) ^ (e + 52) < 2 ^ (f + 53) := hlower.trans_lt hf.upper
    have hless := (zpow_lt_zpow_iff_right₀ one_lt_two).mp hpow
    omega
  · exact hleast ▸ hf.least

theorem IsGrid.unique (he : IsGrid e q) (hf : IsGrid f q) : e = f :=
  le_antisymm (he.le hf) (hf.le he)

theorem twoPow_mul_le_iff (hden : 0 < den) (z : ℤ) :
    den * twoPow z.toNat ≤ num * twoPow (-z).toNat ↔ (2 : ℚ) ^ z ≤ num / den := by
  have hden' : (0 : ℚ) < den := by exact_mod_cast hden
  have hpow : (0 : ℚ) < 2 ^ (-z).toNat := by positivity
  rw [zpow_eq_div_toNat two_ne_zero, div_le_div_iff₀ hpow hden', mul_comm ((2 : ℚ) ^ z.toNat)]
  exact_mod_cast Iff.rfl

theorem log2_bounds {n : ℕ} (hn : 0 < n) :
    (2 : ℚ) ^ (n.log2 : ℤ) ≤ n ∧ (n : ℚ) < 2 ^ ((n.log2 : ℤ) + 1) := by
  refine ⟨?_, ?_⟩
  · exact_mod_cast Nat.log2_self_le hn.ne'
  · exact_mod_cast Nat.lt_log2_self

/-- The numbers of bits tell a quotient up to a factor of two on either side. -/
theorem log2_div_bounds (hnum : 0 < num) (hden : 0 < den) :
    (2 : ℚ) ^ ((num.log2 : ℤ) - den.log2 - 1) ≤ num / den ∧
      (num / den : ℚ) < 2 ^ ((num.log2 : ℤ) - den.log2 + 1) := by
  have hden' : (0 : ℚ) < den := by exact_mod_cast hden
  rw [le_div_iff₀ hden', div_lt_iff₀ hden']
  constructor
  · calc
      (2 : ℚ) ^ ((num.log2 : ℤ) - den.log2 - 1) * den
          ≤ 2 ^ ((num.log2 : ℤ) - den.log2 - 1) * 2 ^ ((den.log2 : ℤ) + 1) := by
          gcongr
          exact (log2_bounds hden).2.le
      _ = 2 ^ (num.log2 : ℤ) := by
          rw [← zpow_add₀ two_ne_zero]
          congr 1
          ring
      _ ≤ num := (log2_bounds hnum).1
  · calc
      (num : ℚ) < 2 ^ ((num.log2 : ℤ) + 1) := (log2_bounds hnum).2
      _ = 2 ^ ((num.log2 : ℤ) - den.log2 + 1) * 2 ^ (den.log2 : ℤ) := by
          rw [← zpow_add₀ two_ne_zero]
          congr 1
          ring
      _ ≤ 2 ^ ((num.log2 : ℤ) - den.log2 + 1) * den := by
          gcongr
          exact (log2_bounds hden).1

/-- The exponent of the grid is that of the leading bit, less the other bits. -/
theorem isGrid_gridExponent (hnum : 0 < num) (hden : 0 < den) :
    IsGrid (gridExponent num den) (num / den) := by
  obtain ⟨hlower, hupper⟩ := log2_div_bounds hnum hden
  unfold gridExponent
  simp only [twoPow_mul_le_iff hden]
  generalize (num.log2 : ℤ) - den.log2 = size at *
  split_ifs with hreaches
  · refine ⟨le_max_right _ _, hupper.trans_le (zpow_le_zpow_right₀ one_le_two ?_), ?_⟩
    · omega
    · rcases le_total (-1074) (size - 52) with hsize | hsize
      · left
        rwa [max_eq_left hsize, sub_add_cancel]
      · exact Or.inr (max_eq_right hsize)
  · refine ⟨le_max_right _ _, (not_le.mp hreaches).trans_le (zpow_le_zpow_right₀ one_le_two ?_), ?_⟩
    · omega
    · rcases le_total (-1074) (size - 53) with hsize | hsize
      · left
        rwa [max_eq_left hsize, show size - 53 + 52 = size - 1 by ring]
      · exact Or.inr (max_eq_right hsize)

end Grid

section Nearest

variable {q : ℚ} {e : ℤ} {r num den : ℕ} {negative : Bool}

theorem isRounded_significand (hden : 0 < den) (e : ℤ) :
    IsRounded (num / den / 2 ^ e)
      (roundQuotient (num * twoPow (-e).toNat) (den * twoPow e.toNat)) := by
  have hscale : ((num * twoPow (-e).toNat : ℕ) : ℚ) / (den * twoPow e.toNat : ℕ) =
      num / den / 2 ^ e := by
    rw [zpow_eq_div_toNat two_ne_zero e, div_div_eq_mul_div, div_mul_eq_mul_div, div_div]
    simp only [Nat.cast_mul, cast_twoPow]
  rw [← hscale]
  exact isRounded_roundQuotient (Nat.mul_pos hden (Nat.two_pow_pos _))

/-- The nearest number has the exponent of the grid, and its significand is rounded. -/
theorem nearest_eq (negative : Bool) (hnum : 0 < num) (hden : 0 < den) (he : IsGrid e (num / den))
    (hr : IsRounded (num / den / 2 ^ e) r) :
    nearest negative num den =
      if r = 2 ^ 53 then ofParts negative (2 ^ 52) (e + 1) else ofParts negative r e := by
  have hgrid : gridExponent num den = e := (isGrid_gridExponent hnum hden).unique he
  unfold nearest
  rw [if_neg hnum.ne']
  simp only [hgrid, (isRounded_significand hden e).unique hr]
  rfl

/-- The number that a magnitude is. -/
def Magnitude.value (x : Magnitude) : ℚ :=
  x.significand * 2 ^ x.exponent

namespace Magnitude

variable {x y : Magnitude}

theorem significand_lt (x : Magnitude) : x.significand < 2 ^ 53 :=
  x.canonical.1

theorem value_lt (x : Magnitude) : x.value < 2 ^ (x.exponent + 53) := by
  rw [value, zpow_add₀ two_ne_zero, mul_comm]
  gcongr
  exact_mod_cast x.significand_lt

theorem le_value (h : x.exponent ≠ -1074) : 2 ^ (x.exponent + 52) ≤ x.value := by
  have hsignificand : 2 ^ 52 ≤ x.significand := x.canonical.2.2.2.resolve_right h
  rw [value, zpow_add₀ two_ne_zero, mul_comm]
  gcongr
  exact_mod_cast hsignificand

theorem value_lt_of_lt (h : x.exponent < e) : x.value < 2 ^ (e + 52) :=
  x.value_lt.trans_le (zpow_le_zpow_right₀ one_le_two (by omega))

/-- Magnitudes with a greater exponent are greater. -/
theorem value_lt_value (h : x.exponent < y.exponent) : x.value < y.value := by
  have hleast := x.canonical.2.1
  exact (value_lt_of_lt h).trans_le (le_value (by omega))

/-- Each number has one representation. -/
theorem value_injective : Function.Injective value := by
  intro x y h
  rcases lt_trichotomy x.exponent y.exponent with hless | hsame | hless
  · exact absurd h (value_lt_value hless).ne
  · have hpow : (0 : ℚ) < 2 ^ y.exponent := by positivity
    rw [value, value, hsame, mul_left_inj' hpow.ne'] at h
    have hsignificand : x.significand = y.significand := by exact_mod_cast h
    cases x
    cases y
    simp_all
  · exact absurd h (value_lt_value hless).ne'

/-- On a grid that is as fine as its own a magnitude is a multiple. -/
theorem exists_value_eq (h : e ≤ x.exponent) : ∃ k : ℤ, x.value = k * 2 ^ e := by
  refine ⟨x.significand * 2 ^ (x.exponent - e).toNat, ?_⟩
  have hexponent : ((x.exponent - e).toNat : ℤ) + e = x.exponent := by omega
  push_cast
  rw [mul_assoc, ← zpow_natCast, ← zpow_add₀ two_ne_zero, hexponent, value]

end Magnitude

/-- No magnitude is nearer to a number, and if another one is as near, the significand is even. -/
structure Magnitude.IsNearest (x : Magnitude) (q : ℚ) : Prop where
  le : ∀ y : Magnitude, |q - x.value| ≤ |q - y.value|
  even : ∀ y : Magnitude, y ≠ x → |q - x.value| = |q - y.value| → Even x.significand

/-- Half a unit above the greatest magnitude; from here on numbers are too large. -/
def overflow : ℚ :=
  (2 ^ 53 - 1 / 2) * 2 ^ (971 : ℤ)

theorem abs_sub_mul_zpow (q k : ℚ) (e : ℤ) : |q - k * 2 ^ e| = |q / 2 ^ e - k| * 2 ^ e := by
  have hpow : (0 : ℚ) < 2 ^ e := by positivity
  rw [← abs_of_pos hpow, ← abs_mul, abs_of_pos hpow, sub_mul, div_mul_cancel₀ _ hpow.ne']

/-- A magnitude off the grid around a number lies below all that have the full number of bits there,
so it is farther than the rounded multiple. -/
theorem abs_sub_lt_of_exponent_lt (he : IsGrid e q) (hr : IsRounded (q / 2 ^ e) r) {y : Magnitude}
    (hy : y.exponent < e) :
    |q - r * 2 ^ e| < |q - y.value| := by
  have hpow : (0 : ℚ) < 2 ^ e := by positivity
  have hlower : (2 : ℚ) ^ (e + 52) ≤ q := he.lower.resolve_right (by have := y.canonical.2.1; omega)
  have hless := Magnitude.value_lt_of_lt hy
  calc
    |q - r * 2 ^ e| ≤ |q - (2 ^ 52 : ℤ) * 2 ^ e| := by
        rw [abs_sub_mul_zpow, abs_sub_mul_zpow]
        exact mul_le_mul_of_nonneg_right (hr.le _) hpow.le
    _ = q - 2 ^ (e + 52) := by
        have hsame : ((2 ^ 52 : ℤ) : ℚ) * 2 ^ e = 2 ^ (e + 52) := by
          rw [zpow_add₀ two_ne_zero, mul_comm]
          norm_num
        rw [hsame, abs_of_nonneg (by linarith)]
    _ < q - y.value := by linarith
    _ ≤ |q - y.value| := le_abs_self _

/-- A magnitude that is a rounded multiple on the grid around a number is nearest to it. -/
theorem isNearest_of_isRounded (he : IsGrid e q) (hr : IsRounded (q / 2 ^ e) r) {x : Magnitude}
    (hx : x.value = r * 2 ^ e) (heven : Even r → Even x.significand) : x.IsNearest q := by
  have hpow : (0 : ℚ) < 2 ^ e := by positivity
  have hoff : ∀ y : Magnitude, y.exponent < e → |q - x.value| < |q - y.value| := fun y hy =>
    hx ▸ abs_sub_lt_of_exponent_lt he hr hy
  constructor
  · intro y
    rcases lt_or_ge y.exponent e with hy | hy
    · exact (hoff y hy).le
    · obtain ⟨k, hk⟩ := Magnitude.exists_value_eq hy
      rw [hx, hk, abs_sub_mul_zpow, abs_sub_mul_zpow]
      exact mul_le_mul_of_nonneg_right (hr.le k) hpow.le
  · intro y hne hsame
    rcases lt_or_ge y.exponent e with hy | hy
    · exact absurd hsame (hoff y hy).ne
    · obtain ⟨k, hk⟩ := Magnitude.exists_value_eq hy
      refine heven (hr.even_of_eq (k := k) ?_ ?_)
      · rintro rfl
        exact hne (Magnitude.value_injective (hk.trans (by rw [hx, Int.cast_natCast])))
      · rw [hx, hk, abs_sub_mul_zpow, abs_sub_mul_zpow] at hsame
        exact mul_right_cancel₀ hpow.ne' hsame

/-- The significand on the grid has the full number of bits, or the grid is the finest. -/
theorem significand_bounds (he : IsGrid e q) (hr : IsRounded (q / 2 ^ e) r) :
    q / 2 ^ e < 2 ^ 53 ∧ r ≤ 2 ^ 53 ∧ (2 ^ 52 ≤ r ∨ e = -1074) := by
  have hpow : (0 : ℚ) < 2 ^ e := by positivity
  have hupper : q / 2 ^ e < 2 ^ 53 := by
    rw [div_lt_iff₀ hpow, ← two_zpow_add e 53]
    exact he.upper
  refine ⟨hupper, hr.le_of_le (by exact_mod_cast hupper.le),
    he.lower.imp_left fun hlower => hr.ge_of_ge ?_⟩
  rw [le_div_iff₀ hpow]
  exact_mod_cast (two_zpow_add e 52).symm.le.trans hlower

theorem overflow_bounds : 2 ^ (1023 : ℤ) ≤ overflow ∧ overflow ≤ 2 ^ (1024 : ℤ) := by
  constructor
  · rw [overflow, show (1023 : ℤ) = 971 + (52 : ℕ) by norm_num, two_zpow_add]
    gcongr
    norm_num
  · rw [overflow, show (1024 : ℤ) = 971 + (53 : ℕ) by norm_num, two_zpow_add]
    gcongr
    norm_num

/-- Correct rounding of a number that is not negative: to the nearest magnitude, or to infinity
where it is too large for all of them. -/
inductive Rounds (q : ℚ) (negative : Bool) : Binary64 → Prop
  | finite (x : Magnitude) : x.IsNearest q → q < overflow → Rounds q negative (.finite negative x)
  | infinite : overflow ≤ q → Rounds q negative (.infinite negative)

/-- Rounding up to a power of two. -/
theorem rounds_carry (negative : Bool) (he : IsGrid e q) (hr : IsRounded (q / 2 ^ e) (2 ^ 53)) :
    Rounds q negative (ofParts negative (2 ^ 52) (e + 1)) := by
  have hpow : (0 : ℚ) < 2 ^ e := by positivity
  by_cases hfits : e + 1 ≤ 971
  · have hcanonical : Canonical (2 ^ 52) (e + 1) :=
      ⟨by norm_num [twoPow], by linarith [he.least], hfits, Or.inl le_rfl⟩
    have hvalue : (⟨2 ^ 52, e + 1, hcanonical⟩ : Magnitude).value = (2 ^ 53 : ℕ) * 2 ^ e := by
      rw [Magnitude.value, zpow_add₀ two_ne_zero]
      push_cast
      ring
    have heven : Even (2 ^ 52) := ⟨2 ^ 51, by norm_num⟩
    have hless : q < overflow :=
      calc
        q < 2 ^ (e + 53) := he.upper
        _ ≤ 2 ^ (1023 : ℤ) := zpow_le_zpow_right₀ one_le_two (by omega)
        _ ≤ overflow := overflow_bounds.1
    rw [ofParts, dif_pos hcanonical]
    exact .finite _ (isNearest_of_isRounded he hr hvalue fun _ => heven) hless
  · have hnear := (abs_le.mp hr.near).1
    push_cast at hnear
    have hmore : overflow ≤ q :=
      calc
        overflow ≤ (2 ^ 53 - 1 / 2) * 2 ^ e := by
            rw [overflow]
            exact mul_le_mul_of_nonneg_left (zpow_le_zpow_right₀ one_le_two (by omega))
              (by norm_num)
        _ ≤ q / 2 ^ e * 2 ^ e := mul_le_mul_of_nonneg_right (by linarith) hpow.le
        _ = q := div_mul_cancel₀ _ hpow.ne'
    rw [ofParts, dif_neg fun hcanonical => hfits hcanonical.2.2.1]
    exact .infinite hmore

/-- Rounding to a significand on the grid. -/
theorem rounds_significand (negative : Bool) (he : IsGrid e q) (hr : IsRounded (q / 2 ^ e) r)
    (hcarry : r ≠ 2 ^ 53) :
    Rounds q negative (ofParts negative r e) := by
  obtain ⟨_, hmost, hleast⟩ := significand_bounds he hr
  have hpow : (0 : ℚ) < 2 ^ e := by positivity
  by_cases hfits : e ≤ 971
  · have hcanonical : Canonical r e := ⟨Nat.lt_of_le_of_ne hmost hcarry, he.least, hfits, hleast⟩
    have hmiddle := hr.lt_of_odd (s := 2 ^ 53 - 1) (by omega) (by decide)
    have hless : q < overflow :=
      calc
        q < (2 ^ 53 - 1 / 2) * 2 ^ e := by
            rw [← div_lt_iff₀ hpow]
            push_cast at hmiddle
            linarith
        _ ≤ overflow := by
            rw [overflow]
            exact mul_le_mul_of_nonneg_left (zpow_le_zpow_right₀ one_le_two hfits) (by norm_num)
    rw [ofParts, dif_pos hcanonical]
    exact .finite _ (isNearest_of_isRounded he hr rfl id) hless
  · have hmore : overflow ≤ q :=
      calc
        overflow ≤ 2 ^ (1024 : ℤ) := overflow_bounds.2
        _ ≤ 2 ^ (e + 52) := zpow_le_zpow_right₀ one_le_two (by omega)
        _ ≤ q := he.lower.resolve_right (by omega)
    rw [ofParts, dif_neg fun hcanonical => hfits hcanonical.2.2.1]
    exact .infinite hmore

/-- A number below half the least magnitude is rounded to zero. -/
theorem rounds_zero (negative : Bool) (hzero : 0 ≤ q) (hq : q < 1 / 2 * 2 ^ (-1074 : ℤ)) :
    Rounds q negative (.finite negative .zero) := by
  have hpow : (0 : ℚ) < 2 ^ (-1074 : ℤ) := by positivity
  have hless : q < 2 ^ (-1021 : ℤ) :=
    calc
      q < 1 / 2 * 2 ^ (-1074 : ℤ) := hq
      _ ≤ 1 * 2 ^ (-1074 : ℤ) := mul_le_mul_of_nonneg_right (by norm_num) hpow.le
      _ = 2 ^ (-1074 : ℤ) := one_mul _
      _ ≤ 2 ^ (-1021 : ℤ) := zpow_le_zpow_right₀ one_le_two (by norm_num)
  have hgrid : IsGrid (-1074) q := ⟨le_rfl, hless, Or.inr rfl⟩
  have hquotient : q / 2 ^ (-1074 : ℤ) < 1 / 2 := (div_lt_iff₀ hpow).mpr hq
  have hrounded : IsRounded (q / 2 ^ (-1074 : ℤ)) 0 := by
    refine ⟨?_, fun _ => Even.zero⟩
    rw [Nat.cast_zero, sub_zero, abs_of_nonneg (by positivity)]
    exact hquotient.le
  refine .finite _ (isNearest_of_isRounded hgrid hrounded ?_ id) ?_
  · simp [Magnitude.value, Magnitude.zero]
  · calc
      q < 2 ^ (-1021 : ℤ) := hless
      _ ≤ 2 ^ (1023 : ℤ) := zpow_le_zpow_right₀ one_le_two (by norm_num)
      _ ≤ overflow := overflow_bounds.1

/-- A quotient is rounded correctly. -/
theorem rounds_nearest (negative : Bool) (num : ℕ) (hden : 0 < den) :
    Rounds (num / den) negative (nearest negative num den) := by
  rcases Nat.eq_zero_or_pos num with rfl | hnum
  · rw [Nat.cast_zero, zero_div]
    exact rounds_zero negative le_rfl (by positivity)
  · have he := isGrid_gridExponent hnum hden
    have hr : IsRounded (num / den / 2 ^ gridExponent num den) _ :=
      isRounded_significand hden (gridExponent num den)
    rw [nearest_eq negative hnum hden he hr]
    split_ifs with hcarry
    · exact rounds_carry negative he (hcarry ▸ hr)
    · exact rounds_significand negative he hr hcarry

end Nearest

section Unique

variable {q : ℚ} {x y : Magnitude}

/-- Between two magnitudes with even significands there is another one. -/
theorem Magnitude.exists_between (hx : Even x.significand) (hy : Even y.significand)
    (h : x.value < y.value) :
    ∃ z : Magnitude, x.value < z.value ∧ z.value < y.value := by
  have hexponent : x.exponent ≤ y.exponent := by
    by_contra hless
    exact absurd (value_lt_value (not_le.mp hless)) h.not_gt
  have hpow : (0 : ℚ) < 2 ^ x.exponent := by positivity
  have hcanonical : Canonical (x.significand + 1) x.exponent := by
    obtain ⟨hupper, hleast, hmost, hlower⟩ := x.canonical
    obtain ⟨k, hk⟩ := hx
    have hupper : x.significand < 2 ^ 53 := hupper
    exact ⟨show x.significand + 1 < 2 ^ 53 by omega, hleast, hmost,
      hlower.imp_left fun h => h.trans (Nat.le_succ _)⟩
  have hvalue : (⟨x.significand + 1, x.exponent, hcanonical⟩ : Magnitude).value =
      x.value + 2 ^ x.exponent := by
    rw [value, value]
    push_cast
    ring
  refine ⟨⟨x.significand + 1, x.exponent, hcanonical⟩, ?_, lt_of_le_of_ne ?_ ?_⟩
  · rw [hvalue]
    linarith
  · obtain ⟨k, hk⟩ := exists_value_eq hexponent
    have hmore : (x.significand : ℤ) < k := by
      rw [hk, value, mul_lt_mul_iff_left₀ hpow] at h
      exact_mod_cast h
    have hmore' : (x.significand : ℚ) + 1 ≤ k := by exact_mod_cast hmore
    rw [value, hk]
    push_cast
    exact mul_le_mul_of_nonneg_right hmore' hpow.le
  · intro hsame
    have hparity := congrArg significand (value_injective hsame)
    obtain ⟨k, hk⟩ := hx
    obtain ⟨l, hl⟩ := hy
    simp only at hparity
    omega

/-- There is one nearest magnitude. -/
theorem Magnitude.IsNearest.unique (hx : x.IsNearest q) (hy : y.IsNearest q) : x = y := by
  have hsame : |q - x.value| = |q - y.value| := le_antisymm (hx.le y) (hy.le x)
  by_contra hne
  have hxeven := hx.even y (Ne.symm hne) hsame
  have hyeven := hy.even x hne hsame.symm
  -- Both are equally far away, so that what lies between them is nearer.
  have hbetween : ∀ {x y z : Magnitude}, |q - x.value| = |q - y.value| → x.value < z.value →
      z.value < y.value →
      |q - z.value| < |q - x.value| := by
    intro x y z hsame hxz hzy
    rcases abs_eq_abs.mp hsame with h | h
    · linarith
    · rw [abs_of_pos (by linarith : 0 < q - x.value), abs_lt]
      constructor <;> linarith
  rcases lt_or_gt_of_ne fun h => hne (value_injective h) with hless | hless
  · obtain ⟨z, hxz, hzy⟩ := exists_between hxeven hyeven hless
    exact absurd (hx.le z) (hbetween hsame hxz hzy).not_ge
  · obtain ⟨z, hyz, hzx⟩ := exists_between hyeven hxeven hless
    exact absurd (hy.le z) (hbetween hsame.symm hyz hzx).not_ge

/-- Correct rounding has one outcome. -/
theorem Rounds.unique {negative : Bool} {a b : Binary64} (ha : Rounds q negative a)
    (hb : Rounds q negative b) :
    a = b := by
  cases ha with
  | finite x hx hless =>
      cases hb with
      | finite y hy _ => rw [hx.unique hy]
      | infinite hmore => exact absurd hmore (not_le.mpr hless)
  | infinite hmore =>
      cases hb with
      | finite y _ hless => exact absurd hmore (not_le.mpr hless)
      | infinite _ => rfl

end Unique

section Decimals

/-- The numeral of a number has as many digits as its size asks for. -/
theorem toDigits_bounds {n : ℕ} (h : 0 < n) :
    (10 : ℚ) ^ ((Nat.toDigits 10 n).length - 1 : ℤ) ≤ n ∧
      (n : ℚ) < 10 ^ ((Nat.toDigits 10 n).length : ℤ) := by
  have hlength : 0 < (Nat.toDigits 10 n).length := Nat.length_toDigits_pos
  constructor
  · have hlower : 10 ^ ((Nat.toDigits 10 n).length - 1) ≤ n := by
      rcases Nat.eq_zero_or_pos ((Nat.toDigits 10 n).length - 1) with hone | hmore
      · rw [hone, pow_zero]
        exact h
      · by_contra hless
        have hshort := (Nat.length_toDigits_le_iff (by decide) hmore).mpr (not_le.mp hless)
        omega
    have hcast : ((Nat.toDigits 10 n).length - 1 : ℤ) = ((Nat.toDigits 10 n).length - 1 : ℕ) := by
      omega
    rw [hcast]
    exact_mod_cast hlower
  · exact_mod_cast (Nat.length_toDigits_le_iff (by decide) hlength).mp le_rfl

theorem tenPow_le_half_least : (10 : ℚ) ^ (-401 : ℤ) ≤ 1 / 2 * 2 ^ (-1074 : ℤ) := by
  have hpowers : (2 : ℚ) ^ 1075 ≤ 10 ^ 401 := by
    exact_mod_cast show 2 ^ 1075 ≤ 10 ^ 401 by decide +kernel
  rw [zpow_neg, zpow_neg, zpow_ofNat, zpow_ofNat, one_div, ← mul_inv, ← pow_succ']
  exact inv_anti₀ (by positivity) hpowers

theorem twoPow_le_tenPow : (2 : ℚ) ^ (1024 : ℤ) ≤ 10 ^ (400 : ℤ) := by
  rw [zpow_ofNat, zpow_ofNat]
  exact_mod_cast show 2 ^ 1024 ≤ 10 ^ 400 by decide +kernel

/-- A decimal numeral is rounded correctly. -/
theorem rounds_ofDecimal (negative : Bool) (digits : ℕ) (exponent : ℤ) :
    Rounds (digits * 10 ^ exponent) negative (ofDecimal negative digits exponent) := by
  rcases Nat.eq_zero_or_pos digits with rfl | hdigits
  · rw [Nat.cast_zero, zero_mul]
    exact rounds_zero negative le_rfl (by positivity)
  · obtain ⟨hlower, hupper⟩ := toDigits_bounds hdigits
    have hpow : (0 : ℚ) < 10 ^ exponent := by positivity
    unfold ofDecimal
    generalize ((Nat.toDigits 10 digits).length : ℤ) = length at *
    simp only [hdigits.ne', decide_false, Bool.false_or, decide_eq_true_eq]
    split_ifs with hsmall hlarge
    · refine rounds_zero negative (by positivity) ?_
      calc
        (digits : ℚ) * 10 ^ exponent < 10 ^ length * 10 ^ exponent :=
          mul_lt_mul_of_pos_right hupper hpow
        _ = 10 ^ (length + exponent) := (zpow_add₀ (by norm_num) _ _).symm
        _ ≤ 10 ^ (-401 : ℤ) := zpow_le_zpow_right₀ (by norm_num) (by omega)
        _ ≤ 1 / 2 * 2 ^ (-1074 : ℤ) := tenPow_le_half_least
    · refine .infinite ?_
      calc
        overflow ≤ 2 ^ (1024 : ℤ) := overflow_bounds.2
        _ ≤ 10 ^ (400 : ℤ) := twoPow_le_tenPow
        _ ≤ 10 ^ (length - 1 + exponent) := zpow_le_zpow_right₀ (by norm_num) (by omega)
        _ = 10 ^ (length - 1) * 10 ^ exponent := zpow_add₀ (by norm_num) _ _
        _ ≤ digits * 10 ^ exponent := mul_le_mul_of_nonneg_right hlower hpow.le
    · have hquotient : (digits : ℚ) * 10 ^ exponent =
          (digits * tenPow exponent.toNat : ℕ) / (tenPow (-exponent).toNat : ℕ) := by
        rw [zpow_eq_div_toNat (by norm_num), mul_div_assoc']
        simp only [Nat.cast_mul, cast_tenPow]
      rw [hquotient]
      exact rounds_nearest negative _ (Nat.pow_pos (by decide))

end Decimals

end Binary64
end Tunables
