import Mathlib
import GameScoring.Proofs.Numeral.Finite

/-!
# Equal doubles

Doubles are compared as numbers, so the two zeros are equal. A finite double is equal to
itself and only to finite ones.
-/
namespace GameScoring.Binary
open Float.Model.UnpackedFloat
open Float.Model.Format (binary64)

variable {x y : Float}

/-- Equal doubles are numbers with the same bits, or zeros of different signs. -/
theorem beq_iff_packed : (x == y) = true ↔
    packed x ≠ packedNaN binary64 ∧ packed y ≠ packedNaN binary64 ∧
      (packed x = packed y ∨
        packed x = packedZero binary64 .positive ∧ packed y = packedZero binary64 .negative ∨
        packed x = packedZero binary64 .negative ∧ packed y = packedZero binary64 .positive) := by
  have compared : (x == y) = (unpack binary64 (packed x)).beq (unpack binary64 (packed y)) := rfl
  rw [compared]
  exact unpack_beq_unpack_iff x.toModel.valid y.toModel.valid

theorem isFinite_of_packedZero {sign : Sign} (h : packed x = packedZero binary64 sign) :
    isFinite x = true := by
  rw [isFinite_iff_field, field_eq, h, packedZero, unpackExponent_packComponents]
  decide

theorem isFinite_of_beq (same : (x == y) = true) (finite : isFinite y = true) : isFinite x = true := by
  obtain ⟨-, -, equal⟩ := beq_iff_packed.1 same
  rcases equal with equal | ⟨positive, -⟩ | ⟨negative, -⟩
  · rwa [isFinite_iff_field, field_eq, equal, ← field_eq, ← isFinite_iff_field]
  · exact isFinite_of_packedZero positive
  · exact isFinite_of_packedZero negative

theorem beq_self_of_finite (h : isFinite x = true) : (x == x) = true := by
  rw [isFinite_iff_field, field_eq] at h
  have number : packed x ≠ packedNaN binary64 := by
    intro nan
    rw [nan] at h
    exact h (by decide)
  exact beq_iff_packed.2 ⟨number, number, .inl rfl⟩

end GameScoring.Binary
