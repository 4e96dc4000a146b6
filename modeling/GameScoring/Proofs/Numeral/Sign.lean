import Mathlib
import GameScoring.Proofs.Numeral.Nearest

/-!
# Doubles that are not negative

Sums and products of doubles that are not negative are not negative. A zero counts with
either sign.
-/
namespace GameScoring.Binary
open Float.Model (Format UnpackedFloat)
open Float.Model.UnpackedFloat
open Float.Model.Format (binary64)

/-! ## Unpacked numbers -/

/-- A number whose sign is positive, unless it is a zero; also what is not a number. -/
def Unsigned : UnpackedFloat → Prop
  | .finite sign .. => sign = .positive
  | .infinity sign => sign = .positive
  | _ => True

theorem unsigned_unpack {b : BitVec binary64.numBits} (positive : Sign.ofBitVec (unpackSign b) = .positive) :
    Unsigned (unpack binary64 b) := by
  unfold unpack
  dsimp only
  rw [positive]
  split
  next => split <;> trivial
  next =>
    split
    next => split <;> trivial
    next => rfl

theorem unsigned_roundWithAccuracy (spec : Format) (mantissa : Nat) (exponent : Int) (accuracy : Accuracy) :
    Unsigned (roundWithAccuracy spec .positive mantissa exponent accuracy) := by
  unfold roundWithAccuracy
  dsimp only
  split
  next => trivial
  next => rfl

/-- A sum that is not negative is rounded to what is not negative. -/
theorem unsigned_normalize (spec : Format) {mantissa : Int} (exponent : Int) (least : 0 ≤ mantissa) :
    Unsigned (UnpackedFloat.normalize spec mantissa exponent .positive) := by
  unfold UnpackedFloat.normalize
  split
  next less => exact absurd (Int.compare_eq_lt.1 less) (by omega)
  next => trivial
  next => exact unsigned_roundWithAccuracy ..

theorem unsigned_of_greater {u : UnpackedFloat} (h : (zero .positive).compare u = some .lt) :
    Unsigned u := by
  cases u with
  | finite sign | infinity sign =>
    cases sign with
    | positive => rfl
    | negative => cases h
  | _ => trivial

theorem unsigned_of_not_less {u : UnpackedFloat} (h : ¬ u.compare (.zero .positive) = some .lt) :
    Unsigned u := by
  cases u with
  | finite sign | infinity sign =>
    cases sign with
    | positive => rfl
    | negative => exact absurd rfl h
  | _ => trivial

theorem not_less_of_unsigned {u : UnpackedFloat} (h : Unsigned u) : ¬ u.compare (.zero .positive) = some .lt := by
  cases u with
  | finite sign | infinity sign =>
    cases h
    nofun
  | _ => nofun

namespace Unsigned

variable {u v : UnpackedFloat} (spec : Format)

theorem unpack_pack (h : Unsigned u) : Unsigned (unpack binary64 (pack binary64 u)) := by
  have components (e m) : Unsigned (unpack binary64 (packComponents binary64 .positive e m)) :=
    unsigned_unpack (by rw [unpackSign_packComponents, Sign.ofBitVec_toBitVec])
  cases u with
  | zero sign =>
    show Unsigned (unpack binary64 (packedZero binary64 sign))
    rw [unpack_packedZero]
    trivial
  | finite sign mantissa exponent pos =>
    cases h
    rw [pack_finite]
    split
    next => exact components ..
    next => split <;> exact components ..
  | infinity sign =>
    cases h
    exact components ..
  | notANumber =>
    show Unsigned (unpack binary64 (packedNaN binary64))
    rw [unpack_packedNaN]
    trivial

theorem mul (hu : Unsigned u) (hv : Unsigned v) : Unsigned (UnpackedFloat.mul spec u v) := by
  cases u with
  | notANumber => trivial
  | zero sign => cases v <;> trivial
  | infinity sign =>
    cases hu
    cases v with
    | infinity sign | finite sign => cases hv; rfl
    | _ => trivial
  | finite sign =>
    cases hu
    cases v with
    | infinity sign => cases hv; rfl
    | finite sign =>
      cases hv
      exact unsigned_roundWithAccuracy ..
    | _ => trivial

theorem add (hu : Unsigned u) (hv : Unsigned v) : Unsigned (UnpackedFloat.add spec u v) := by
  cases u with
  | notANumber => trivial
  | zero sign =>
    cases v with
    | zero other => cases sign <;> cases other <;> trivial
    | _ => exact hv
  | infinity sign =>
    cases hu
    cases v with
    | infinity sign => cases hv; rfl
    | notANumber => trivial
    | _ => rfl
  | finite sign mantissa exponent =>
    cases hu
    cases v with
    | finite sign other shift =>
      cases hv
      exact unsigned_normalize spec _ (Int.add_nonneg (Int.natCast_nonneg _) (Int.natCast_nonneg _))
    | infinity sign => cases hv; rfl
    | zero sign => rfl
    | notANumber => trivial

end Unsigned

/-! ## Doubles -/

def NonNegative (x : Float) : Prop := Unsigned (unpack binary64 (packed x))

theorem unpack_zero : unpack binary64 (packed 0.0) = .zero .positive := by
  have zero : packed 0.0 = packedZero binary64 .positive := by decide
  rw [zero, unpack_packedZero]

theorem nonNegative_zero : NonNegative 0.0 := by
  rw [NonNegative, unpack_zero]
  trivial

theorem NonNegative.mul {x y : Float} (hx : NonNegative x) (hy : NonNegative y) : NonNegative (x * y) :=
  (Unsigned.mul binary64 hx hy).unpack_pack

theorem NonNegative.add {x y : Float} (hx : NonNegative x) (hy : NonNegative y) : NonNegative (x + y) :=
  (Unsigned.add binary64 hx hy).unpack_pack

theorem lt_iff_compare {x y : Float} :
    x < y ↔ (unpack binary64 (packed x)).compare (unpack binary64 (packed y)) = some .lt := by
  rw [← beq_iff_eq]
  exact ⟨of_decide_eq_true, decide_eq_true⟩

theorem nonNegative_of_lt {x : Float} (h : 0.0 < x) : NonNegative x := by
  rw [lt_iff_compare, unpack_zero] at h
  exact unsigned_of_greater h

theorem nonNegative_of_not_lt {x : Float} (h : ¬ x < 0.0) : NonNegative x := by
  rw [lt_iff_compare, unpack_zero] at h
  exact unsigned_of_not_less h

theorem NonNegative.not_lt {x : Float} (h : NonNegative x) : ¬ x < 0.0 := by
  rw [lt_iff_compare, unpack_zero]
  exact not_less_of_unsigned h

/-! ## Signs of bits -/

theorem toNat_unpackSign (b : BitVec binary64.numBits) : (unpackSign b).toNat = b.toNat / signBit % 2 := by
  simp [unpackSign, signBit, Nat.shiftRight_eq_div_pow]

theorem sign_of_lt {b : BitVec binary64.numBits} (small : b.toNat < signBit) :
    Sign.ofBitVec (unpackSign b) = .positive := by
  have zero : unpackSign b = 0#1 := by
    apply BitVec.eq_of_toNat_eq
    rw [toNat_unpackSign, Nat.div_eq_of_lt small]
    rfl
  rw [zero]
  rfl

theorem nonNegative_ofMagnitude {magnitude : Nat} (h : magnitude ≤ infinityMagnitude) :
    NonNegative (ofMagnitude false magnitude) := by
  apply unsigned_unpack
  apply sign_of_lt
  show (ofMagnitude false magnitude).toBits.toNat < signBit
  rw [toBits_ofMagnitude h]
  have most : magnitude ≤ 2047 * 4503599627370496 := h
  show magnitude + 0 < 9223372036854775808
  omega

theorem nonNegative_negative_zero : NonNegative (ofMagnitude true 0) := by
  have zero : packed (ofMagnitude true 0) = packedZero binary64 .negative := by decide
  rw [NonNegative, zero, unpack_packedZero]
  trivial

theorem sign_of_isNegative {x : Float} (negative : isNegative x = true) :
    Sign.ofBitVec (unpackSign (packed x)) = .negative := by
  have set : unpackSign (packed x) = 1#1 := by
    apply BitVec.eq_of_toNat_eq
    rw [toNat_unpackSign]
    have least : 9223372036854775808 ≤ (packed x).toNat := of_decide_eq_true negative
    have most : (packed x).toNat < 2 * 9223372036854775808 := (packed x).isLt
    show (packed x).toNat / 9223372036854775808 % 2 = 1
    omega
  rw [set]
  rfl

/-- Only a zero has a set sign and is not negative. -/
theorem NonNegative.mantissa {x : Float} {mantissa : Nat} {exponent : Int} (h : NonNegative x)
    (shaped : shape x = .finite true mantissa exponent) : mantissa = 0 := by
  have finite : field x ≠ 2047 := by
    rw [← isFinite_iff_field, isFinite, shaped]
  have unfull : ¬ unpackExponent (packed x) = -1#11 := by
    intro full
    rw [field_eq, full] at finite
    exact finite rfl
  rw [shape_eq, if_neg finite] at shaped
  unfold NonNegative unpack at h
  dsimp only at h
  rw [if_neg unfull] at h
  by_cases subnormal : field x = 0
  · rw [if_pos subnormal] at shaped
    obtain ⟨negative, same, -⟩ := Shape.finite.inj shaped
    have exponent : unpackExponent (packed x) = 0#11 := by
      apply BitVec.eq_of_toNat_eq
      rw [← field_eq, subnormal]
      rfl
    rw [if_pos exponent, sign_of_isNegative negative] at h
    by_cases zero : unpackMantissa (packed x) = 0#52
    · rw [← same, fraction]
      show (packed x).toNat % leadingUnit = 0
      rw [← toNat_unpackMantissa, zero]
      rfl
    · rw [dif_neg zero] at h
      cases h
  · rw [if_neg subnormal] at shaped
    obtain ⟨negative, -, -⟩ := Shape.finite.inj shaped
    have exponent : ¬ unpackExponent (packed x) = 0#11 := by
      intro zero
      rw [field_eq, zero] at subnormal
      exact subnormal rfl
    rw [if_neg exponent, sign_of_isNegative negative] at h
    cases h

end GameScoring.Binary
