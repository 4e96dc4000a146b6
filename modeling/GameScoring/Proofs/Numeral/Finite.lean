import GameScoring.Numeral.Binary

/-!
# Finite doubles

A double is finite unless all bits of its exponent are set. Then its mantissa has at most
53 bits and its exponent is bounded, and its negative is finite too.
-/
namespace GameScoring.Binary
open Float.Model.UnpackedFloat
open Float.Model.Format (binary64)

/-- The biased exponent of a double. -/
def field (x : Float) : Nat := x.toBits.toNat / leadingUnit % 2048

def fraction (x : Float) : Nat := x.toBits.toNat % leadingUnit

theorem shape_eq (x : Float) : shape x =
    if field x = 2047 then
      if fraction x = 0 then .infinite (isNegative x) else .notANumber
    else if field x = 0 then .finite (isNegative x) (fraction x) (-1074)
    else .finite (isNegative x) (fraction x + leadingUnit) ((field x : Int) - 1075) := rfl

theorem shape_of_full {x : Float} (full : field x = 2047) :
    shape x = .infinite (isNegative x) ∨ shape x = .notANumber := by
  rw [shape_eq, if_pos full]
  split
  next => exact .inl rfl
  next => exact .inr rfl

/-- The mantissa and the exponent of a finite double are bounded. -/
theorem shape_of_field {x : Float} (h : field x ≠ 2047) :
    ∃ mantissa exponent, shape x = .finite (isNegative x) mantissa exponent ∧
      mantissa < 2 * leadingUnit ∧ -1074 ≤ exponent ∧ exponent ≤ 971 := by
  have small : fraction x < leadingUnit := Nat.mod_lt _ (by decide)
  have bounded : field x < 2048 := Nat.mod_lt _ (by decide)
  rw [shape_eq, if_neg h]
  by_cases zero : field x = 0
  · rw [if_pos zero]
    exact ⟨_, _, rfl, by omega, by omega, by omega⟩
  · rw [if_neg zero]
    exact ⟨_, _, rfl, by omega, by omega, by omega⟩

theorem isFinite_iff_field (x : Float) : isFinite x = true ↔ field x ≠ 2047 := by
  constructor
  · intro finite full
    rw [isFinite] at finite
    rcases shape_of_full full with h | h <;> rw [h] at finite <;> cases finite
  · intro h
    obtain ⟨mantissa, exponent, same, -⟩ := shape_of_field h
    rw [isFinite, same]

theorem exists_shape {x : Float} (h : isFinite x = true) :
    ∃ mantissa exponent, shape x = .finite (isNegative x) mantissa exponent ∧
      mantissa < 2 * leadingUnit ∧ -1074 ≤ exponent ∧ exponent ≤ 971 :=
  shape_of_field ((isFinite_iff_field x).1 h)

/-- The bits of a double in the format that its operations are defined with. -/
def packed (x : Float) : BitVec binary64.numBits := x.toModel.toBits.toBitVec

theorem toNat_unpackMantissa (b : BitVec binary64.numBits) :
    (unpackMantissa b).toNat = b.toNat % leadingUnit := by
  simp [unpackMantissa, leadingUnit]

theorem toNat_unpackExponent (b : BitVec binary64.numBits) :
    (unpackExponent b).toNat = b.toNat / leadingUnit % 2048 := by
  simp [unpackExponent, leadingUnit, Nat.shiftRight_eq_div_pow]

theorem field_eq (x : Float) : field x = (unpackExponent (packed x)).toNat :=
  (toNat_unpackExponent (packed x)).symm

theorem packed_neg (x : Float) :
    packed (-x) = pack binary64 (neg (unpack binary64 (packed x))) := rfl

/-- A number that a finite double can hold, as far as its exponent goes. -/
def Moderate : Float.Model.UnpackedFloat → Prop
  | .zero _ => True
  | .finite _ _ exponent _ => exponent ≤ 971
  | _ => False

theorem moderate_unpack {b : BitVec binary64.numBits} (h : (unpackExponent b).toNat ≠ 2047) :
    Moderate (unpack binary64 b) := by
  have bounded : (unpackExponent b).toNat < 2048 := (unpackExponent b).isLt
  have unfull : ¬ unpackExponent b = -1#11 := fun full => h (congrArg BitVec.toNat full)
  unfold unpack
  dsimp only
  rw [if_neg unfull]
  by_cases subnormal : unpackExponent b = 0#11
  · rw [if_pos subnormal]
    by_cases zero : unpackMantissa b = 0#52
    · rw [dif_pos zero]
      trivial
    · rw [dif_neg zero, subnormal]
      show (0 : Int) - 1075 + 1 ≤ 971
      decide
  · rw [if_neg subnormal]
    show ((unpackExponent b).toNat : Int) - 1075 ≤ 971
    omega

theorem Moderate.neg {u : Float.Model.UnpackedFloat} (h : Moderate u) : Moderate u.neg := by
  cases u with
  | zero sign => trivial
  | finite sign mantissa exponent pos => exact h
  | infinity sign => cases h
  | notANumber => cases h

theorem pack_finite (sign : Sign) (mantissa : Nat) (exponent : Int) (pos : 0 < mantissa) :
    pack binary64 (.finite sign mantissa exponent pos) =
      if 2048 ≤ (exponent + 1023 + 52).toNat + 1 then packedInfinity binary64 sign
      else if mantissa.log2 + 1 = 53 then
        packComponents binary64 sign (BitVec.ofNat 11 (exponent + 1023 + 52).toNat) (BitVec.ofNat 52 mantissa)
      else packComponents binary64 sign 0#11 (BitVec.ofNat 52 mantissa) := rfl

theorem Moderate.exponent_pack {u : Float.Model.UnpackedFloat} (h : Moderate u) :
    (unpackExponent (pack binary64 u)).toNat ≠ 2047 := by
  cases u with
  | zero sign =>
    show (unpackExponent (packComponents binary64 sign 0 0)).toNat ≠ 2047
    rw [unpackExponent_packComponents]
    decide
  | finite sign mantissa exponent pos =>
    have small : exponent ≤ 971 := h
    rw [pack_finite, if_neg (by omega)]
    split
    next =>
      rw [unpackExponent_packComponents, BitVec.toNat_ofNat]
      show _ % 2048 ≠ 2047
      omega
    next =>
      rw [unpackExponent_packComponents]
      decide
  | infinity sign => cases h
  | notANumber => cases h

/-- The negative of a finite double is finite. -/
theorem isFinite_neg {x : Float} (h : isFinite x = true) : isFinite (-x) = true := by
  rw [isFinite_iff_field, field_eq] at h ⊢
  rw [packed_neg]
  exact (moderate_unpack h).neg.exponent_pack

end GameScoring.Binary
