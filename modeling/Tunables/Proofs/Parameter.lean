import Tunables.Parameter.Basic
import Tunables.Proofs.Except

/-!
# Accepted parameters

What holds of every parameter that comes from a declaration: no value of it is NaN.  A
declaration that has NaN for a value is refused, and neither an integer nor a value that was
left out becomes NaN.
-/

namespace Tunables

namespace Binary64

theorem isNaN_ofParts (negative : Bool) (significand : Nat) (exponent : Int) :
    (ofParts negative significand exponent).isNaN = false := by
  unfold ofParts
  split
  · rfl
  · rfl

theorem isNaN_nearest (negative : Bool) (num den : Nat) :
    (nearest negative num den).isNaN = false := by
  unfold nearest
  split
  · rfl
  simp only
  split
  · exact isNaN_ofParts _ _ _
  · exact isNaN_ofParts _ _ _

end Binary64

/-- A value that is NaN. -/
def Literal.isNaN : Literal → Bool
  | .double value => value.isNaN
  | _ => false

/-- A value that is held against the kind of floating-point numbers does not become NaN. -/
theorem Value.isNaN_of_asDouble {mismatch : DeclarationFault} {value : Value} {x : Binary64}
    (h : value.asDouble mismatch = .ok x) : x.isNaN = false := by
  cases value with
  | text _ | bool _ =>
      cases h
  | int n =>
      cases h
      exact Binary64.isNaN_nearest _ _ _
  | double y =>
      rw [Value.asDouble] at h
      split at h
      · cases h
      · next hy =>
        cases h
        exact Bool.eq_false_iff.mpr hy

theorem Declaration.isNaN_of_read {declaration : Declaration} {field : Field} {absent x : Binary64}
    (habsent : absent.isNaN = false) (h : declaration.read field absent Value.asDouble = .ok x) :
    x.isNaN = false := by
  unfold Declaration.read at h
  split at h
  · cases h
    exact habsent
  · exact Value.isNaN_of_asDouble h

/-- The values of a declaration are of its kind. -/
theorem Declaration.kind_of_payload {declaration : Declaration} {payload : Payload}
    (h : declaration.payload = .ok payload) : payload.kind = declaration.kind := by
  unfold Declaration.payload at h
  split at h
  · next hkind =>
    split at h
    · cases h
    · obtain ⟨_, _, ⟨⟩⟩ := except_bind_eq_ok_iff.mp h
      exact hkind.symm
  · next hkind =>
    simp only [except_bind_eq_ok_iff] at h
    obtain ⟨_, _, _, _, _, _, ⟨⟩⟩ := h
    exact hkind.symm
  · next hkind =>
    simp only [except_bind_eq_ok_iff] at h
    obtain ⟨_, _, _, _, _, _, ⟨⟩⟩ := h
    exact hkind.symm
  · next hkind =>
    simp only [except_bind_eq_ok_iff] at h
    obtain ⟨_, _, _, _, _, _, ⟨⟩⟩ := h
    exact hkind.symm

/-- No value of a declaration that fits its kind is NaN. -/
theorem Declaration.isNaN_of_payload {declaration : Declaration} {payload : Payload}
    (h : declaration.payload = .ok payload) :
    payload.default.isNaN = false ∧ payload.min.isNaN = false ∧ payload.max.isNaN = false := by
  have hkind := kind_of_payload h
  cases payload with
  | str _ | bool _ _ _ | int _ _ _ =>
      exact ⟨rfl, rfl, rfl⟩
  | double default min max =>
      simp only [Declaration.payload, ← hkind, Payload.kind, except_bind_eq_ok_iff] at h
      obtain ⟨_, hdefault, _, hmin, _, hmax, ⟨⟩⟩ := h
      exact ⟨isNaN_of_read rfl hdefault, isNaN_of_read rfl hmin, isNaN_of_read rfl hmax⟩

namespace Parameter

/-- A parameter that comes from a declaration. -/
def IsAccepted (parameter : Parameter) : Prop :=
  ∃ declaration location, accept declaration location = .ok parameter

theorem IsAccepted.isNaN_eq_false {parameter : Parameter} (h : parameter.IsAccepted) :
    parameter.default.isNaN = false ∧ parameter.min.isNaN = false ∧
      parameter.max.isNaN = false := by
  obtain ⟨declaration, location, haccept⟩ := h
  rw [accept, except_bind_eq_ok_iff] at haccept
  obtain ⟨payload, hpayload, ⟨⟩⟩ := haccept
  exact Declaration.isNaN_of_payload hpayload

end Parameter
end Tunables
