import Mathlib
import Tunables.Proofs.Binary64.Rounding
import Tunables.Proofs.Parameter.Acceptance
import Tunables.Toml.Number

/-!
# Numbers that are not kept

An accepted parameter holds the numbers of its declaration, but for one exception: an integer that
is given for a floating-point number is rounded.  It is kept exactly if its significand has at most
53 bits, and no other integer is refused.

* `Value.quantity`, `Literal.quantity`: the numbers that are given and the numbers that are held.
* `HasSignificand`: the integers that are numbers of the format.
* `quantity_value`: which numbers are held as they were given.
-/

namespace Tunables

/-- A number on the extended line. -/
inductive Quantity where
  | finite (q : ℚ)
  | infinite (negative : Bool)
deriving DecidableEq

/-- The number that a floating-point number is. -/
def Binary64.quantity : Binary64 → Option Quantity
  | .nan => none
  | .infinite negative => some (.infinite negative)
  | .finite negative x => some (.finite (if negative then -x.value else x.value))

/-- The number that is given. -/
def Value.quantity : Value → Option Quantity
  | .int n => some (.finite n)
  | .double x => x.quantity
  | _ => none

/-- The number that is held. -/
def Literal.quantity : Literal → Option Quantity
  | .int n => some (.finite n.val)
  | .double x => x.quantity
  | _ => none

/-- An integer whose significand has at most 53 bits, and which is not too large for the format. -/
def HasSignificand (n : ℤ) : Prop :=
  ∃ significand shift : ℕ, n.natAbs = significand * 2 ^ shift ∧ significand < 2 ^ 53 ∧ shift ≤ 971

namespace Binary64

section Exact

variable {q : ℚ} {n : ℤ} {negative : Bool}

theorem Magnitude.value_lt_overflow (x : Magnitude) : x.value < overflow := by
  have hless : (x.significand : ℚ) < 2 ^ 53 - 1 / 2 := by
    have hbound : (x.significand : ℚ) + 1 ≤ 2 ^ 53 := by exact_mod_cast x.significand_lt
    linarith
  calc
    x.value < (2 ^ 53 - 1 / 2) * 2 ^ x.exponent := mul_lt_mul_of_pos_right hless (by positivity)
    _ ≤ overflow := by
        rw [overflow]
        exact mul_le_mul_of_nonneg_left (zpow_le_zpow_right₀ one_le_two x.canonical.2.2.1)
          (by norm_num)

/-- A magnitude is rounded to itself. -/
theorem Magnitude.rounds_value (negative : Bool) (x : Magnitude) :
    Rounds x.value negative (.finite negative x) := by
  refine .finite x ⟨fun y => ?_, fun y hne hsame => ?_⟩ x.value_lt_overflow
  · rw [sub_self, abs_zero]
    exact abs_nonneg _
  · rw [sub_self, abs_zero, eq_comm, abs_eq_zero, sub_eq_zero] at hsame
    exact absurd (Magnitude.value_injective hsame.symm) hne

/-- A significand of at most 53 bits can be moved to the place where the format has it. -/
theorem exists_value_eq_shift {significand shift : ℕ} (hsignificand : significand < 2 ^ 53)
    (hshift : shift ≤ 971) :
    ∃ x : Magnitude, x.value = significand * 2 ^ shift := by
  rcases Nat.eq_zero_or_pos significand with rfl | hpositive
  · exact ⟨.zero, by simp [Magnitude.value, Magnitude.zero]⟩
  have hnum : 0 < significand * 2 ^ shift := Nat.mul_pos hpositive (Nat.two_pow_pos _)
  have he := isGrid_gridExponent hnum one_pos
  set e := gridExponent (significand * 2 ^ shift) 1
  have hq : ((significand * 2 ^ shift : ℕ) : ℚ) / (1 : ℕ) = significand * 2 ^ (shift : ℤ) := by simp
  rw [hq] at he
  -- The number lies on its grid, because it is less than the next power of two.
  have hle : e ≤ shift := by
    rcases he.lower with hlower | hleast
    · have hless : (2 : ℚ) ^ (e + 52) < 2 ^ ((shift : ℤ) + 53) := by
        refine hlower.trans_lt ?_
        rw [zpow_add₀ two_ne_zero, mul_comm]
        gcongr
        exact_mod_cast hsignificand
      have := (zpow_lt_zpow_iff_right₀ one_lt_two).mp hless
      omega
    · omega
  have hmultiple : (significand : ℚ) * 2 ^ (shift : ℤ) / 2 ^ e =
      (significand * 2 ^ (shift - e).toNat : ℕ) := by
    have hexponent : ((shift - e).toNat : ℤ) = shift - e := by omega
    push_cast
    rw [← zpow_natCast (2 : ℚ) (shift - e).toNat, hexponent, zpow_sub₀ two_ne_zero, mul_div_assoc]
  have hr : IsRounded ((significand : ℚ) * 2 ^ (shift : ℤ) / 2 ^ e)
      (significand * 2 ^ (shift - e).toNat) := by
    rw [hmultiple]
    exact ⟨by norm_num, fun hhalf => by norm_num at hhalf⟩
  obtain ⟨hupper, _, hlower⟩ := significand_bounds he hr
  rw [hmultiple] at hupper
  have hcanonical : Canonical (significand * 2 ^ (shift - e).toNat) e :=
    ⟨show _ < 2 ^ 53 by exact_mod_cast hupper, he.least, by omega, hlower⟩
  refine ⟨⟨_, e, hcanonical⟩, ?_⟩
  change ((significand * 2 ^ (shift - e).toNat : ℕ) : ℚ) * 2 ^ e = _
  rw [← hmultiple, div_mul_cancel₀ _ (by positivity), zpow_natCast]

/-- The integers that are numbers of the format. -/
theorem exists_value_eq_natAbs_iff : (∃ x : Magnitude, x.value = n.natAbs) ↔ HasSignificand n := by
  constructor
  · rintro ⟨x, hx⟩
    rcases le_total 0 x.exponent with hexponent | hexponent
    · have hshift : x.exponent = (x.exponent.toNat : ℤ) := by omega
      have hmost := x.canonical.2.2.1
      refine ⟨x.significand, x.exponent.toNat, ?_, x.significand_lt, by omega⟩
      rw [Magnitude.value, hshift, zpow_natCast] at hx
      exact_mod_cast hx.symm
    · have hless : (n.natAbs : ℚ) < 2 ^ 53 := by
        rw [← hx]
        refine lt_of_le_of_lt ?_
          (show (x.significand : ℚ) < 2 ^ 53 by exact_mod_cast x.significand_lt)
        exact mul_le_of_le_one_right (Nat.cast_nonneg _)
          (zpow_le_one_of_nonpos₀ one_le_two hexponent)
      exact ⟨n.natAbs, 0, by simp, by exact_mod_cast hless, by omega⟩
  · rintro ⟨significand, shift, hn, hsignificand, hshift⟩
    obtain ⟨x, hx⟩ := exists_value_eq_shift hsignificand hshift
    refine ⟨x, hx.trans ?_⟩
    rw [hn]
    push_cast
    rfl

/-- An integer is rounded correctly. -/
theorem rounds_ofInt (n : ℤ) : Rounds n.natAbs (n < 0) (ofInt n) := by
  have hrounds := rounds_nearest (decide (n < 0)) n.natAbs one_pos
  rwa [Nat.cast_one, div_one] at hrounds

theorem quantity_finite_eq_iff (x : Magnitude) :
    (Binary64.finite (n < 0) x).quantity = some (.finite n) ↔ x.value = n.natAbs := by
  rw [quantity, Option.some_inj, Quantity.finite.injEq]
  by_cases hn : n < 0
  · have habs : ((n.natAbs : ℤ) : ℚ) = -n := by
      rw [Int.ofNat_natAbs_of_nonpos hn.le, Int.cast_neg]
    rw [Int.cast_natCast] at habs
    simp only [hn, decide_true, if_true]
    rw [habs, neg_eq_iff_eq_neg]
  · have habs : ((n.natAbs : ℤ) : ℚ) = n := by
      rw [Int.natAbs_of_nonneg (not_lt.mp hn)]
    rw [Int.cast_natCast] at habs
    simp only [hn, decide_false, Bool.false_eq_true, if_false]
    rw [habs]

/-- An integer is kept exactly if it is a number of the format. -/
theorem quantity_ofInt_iff : (ofInt n).quantity = some (.finite n) ↔ HasSignificand n := by
  rw [← exists_value_eq_natAbs_iff]
  have hrounds := rounds_ofInt n
  constructor
  · intro hkept
    cases hresult : ofInt n with
    | nan | infinite _ =>
        rw [hresult] at hkept
        cases hkept
    | finite negative x =>
        rw [hresult] at hkept hrounds
        cases hrounds with
        | finite _ _ _ => exact ⟨x, (quantity_finite_eq_iff x).mp hkept⟩
  · rintro ⟨x, hx⟩
    rw [← hx] at hrounds
    rw [hrounds.unique (x.rounds_value _)]
    exact (quantity_finite_eq_iff x).mpr hx

/-- The integers that can be written are not too large. -/
theorem exists_ofInt_eq_finite (h : Toml.FitsInteger n) : ∃ x, ofInt n = .finite (n < 0) x := by
  have hrounds := rounds_ofInt n
  cases hresult : ofInt n with
  | nan =>
      rw [hresult] at hrounds
      cases hrounds
  | finite negative x =>
      rw [hresult] at hrounds
      cases hrounds with
      | finite _ _ _ => exact ⟨x, rfl⟩
  | infinite negative =>
      rw [hresult] at hrounds
      cases hrounds with
      | infinite hmore =>
          have hsize : n.natAbs ≤ 2 ^ 63 := by
            obtain ⟨hleast, hmost⟩ := h
            omega
          have hless : (n.natAbs : ℚ) < overflow :=
            calc
              (n.natAbs : ℚ) ≤ 2 ^ 63 := by exact_mod_cast hsize
              _ = 2 ^ (63 : ℤ) := by norm_cast
              _ < 2 ^ (1023 : ℤ) := zpow_lt_zpow_right₀ one_lt_two (by norm_num)
              _ ≤ overflow := overflow_bounds.1
          exact absurd hmore (not_le.mpr hless)

end Exact

end Binary64

/-- An integer is given for a floating-point number. -/
def Kind.Coerces (kind : Kind) (value : Value) (n : ℤ) : Prop :=
  kind = .double ∧ value = .int n

namespace Parameter

variable {declaration : Declaration} {location : Location} {parameter : Parameter} {field : Field}
  {value : Value}

/-- A number that is given is held as it is, unless it is an integer that is given for a
floating-point number.  Such an integer is held as the nearest number of the format, which is the
integer itself exactly if its significand has at most 53 bits. -/
theorem quantity_value (h : accept declaration location = .ok parameter)
    (hvalue : declaration.value field = some value) {given : Quantity}
    (hgiven : value.quantity = some given) :
    ((parameter.value field).quantity = some given ↔
      ∀ n, declaration.kind.Coerces value n → HasSignificand n) ∧
      ∀ n, declaration.kind.Coerces value n → ∃ x, parameter.value field = .double x ∧
        Binary64.Rounds n.natAbs (n < 0) x ∧ (Toml.FitsInteger n → ∃ y, x = .finite (n < 0) y) := by
  have hsettles := (accept_eq_ok_iff.mp h).2.values field
  rw [Declaration.Settles, hvalue] at hsettles
  generalize parameter.value field = literal at hsettles ⊢
  generalize declaration.kind = kind at hsettles ⊢
  cases hsettles with
  | text _ | bool _ =>
      cases hgiven
  | int n =>
      have hfree : ∀ k, ¬ Kind.int.Coerces (.int n) k :=
        fun k hcoerces => Kind.noConfusion hcoerces.1
      exact ⟨⟨fun _ k hcoerces => absurd hcoerces (hfree k), fun _ => hgiven⟩,
        fun k hcoerces => absurd hcoerces (hfree k)⟩
  | double x hnumber =>
      have hfree : ∀ k, ¬ Kind.double.Coerces (.double x) k :=
        fun k hcoerces => Value.noConfusion hcoerces.2
      exact ⟨⟨fun _ k hcoerces => absurd hcoerces (hfree k), fun _ => hgiven⟩,
        fun k hcoerces => absurd hcoerces (hfree k)⟩
  | integral n =>
      obtain rfl : .finite n = given := Option.some.inj hgiven
      refine ⟨?_, ?_⟩
      · change (Binary64.ofInt n).quantity = _ ↔ _
        rw [Binary64.quantity_ofInt_iff]
        exact ⟨fun hkept k hcoerces => Value.int.inj hcoerces.2 ▸ hkept,
          fun hkept => hkept n ⟨rfl, rfl⟩⟩
      · rintro k ⟨_, hk⟩
        obtain rfl : n = k := Value.int.inj hk
        exact ⟨.ofInt n, rfl, Binary64.rounds_ofInt n, Binary64.exists_ofInt_eq_finite⟩

/-- The least positive integer that the format does not have has 54 bits. -/
theorem not_hasSignificand : ¬ HasSignificand 9007199254740993 := by
  rintro ⟨significand, shift, hn, hsignificand, _⟩
  cases shift with
  | zero => omega
  | succ shift =>
      rw [pow_succ, ← mul_assoc] at hn
      omega

/-- The integer is accepted, and what is held is the integer below it. -/
theorem quantity_value_odd :
    accept ⟨"rate", .double, 0, "", some (.int 9007199254740993), none, none, ""⟩
      ⟨"params.toml", 1⟩ =
        .ok ⟨"rate", .double (.ofInt 9007199254740993) .negInfinity .infinity, 0, "", "",
          ⟨"params.toml", 1⟩⟩ ∧
      Binary64.ofInt 9007199254740993 = .ofInt 9007199254740992 ∧
      (Binary64.ofInt 9007199254740993).quantity ≠ some (.finite 9007199254740993) := by
  have haccept : accept ⟨"rate", .double, 0, "", some (.int 9007199254740993), none, none, ""⟩
      ⟨"params.toml", 1⟩ =
      .ok ⟨"rate", .double (.ofInt 9007199254740993) .negInfinity .infinity, 0, "", "",
        ⟨"params.toml", 1⟩⟩ := rfl
  refine ⟨haccept, by decide +kernel, fun hkept => not_hasSignificand ?_⟩
  have hgiven : Declaration.value
      ⟨"rate", .double, 0, "", some (.int 9007199254740993), none, none, ""⟩ .default =
      some (.int 9007199254740993) := rfl
  exact (quantity_value haccept hgiven rfl).1.mp hkept 9007199254740993 ⟨rfl, rfl⟩

end Parameter
end Tunables
