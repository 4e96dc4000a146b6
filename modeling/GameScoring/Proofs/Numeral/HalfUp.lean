import Mathlib
import GameScoring.Proofs.Numeral.Decimals

/-!
# Rounding half up

A finite double is rounded to places by rounding the decimal that is written for it, a half away from zero, and reading
what this gives. So rounding does not fail, it is odd and monotone, and it gives the double closest to the rounded
decimal.
-/
namespace GameScoring.Decimal
open Binary

/-- A magnitude rounded to places after the point, a half upwards. -/
def halfUp (places : Int) (magnitude : ℚ) : ℚ := ⌊magnitude * 10 ^ places + 1 / 2⌋₊ / 10 ^ places

variable {places : Int} {precision : Nat} {d e r s : Decimal}

theorem halfUp_nonneg (places : Int) (magnitude : ℚ) : 0 ≤ halfUp places magnitude :=
  div_nonneg (Nat.cast_nonneg _) (ten_zpow_pos places).le

theorem halfUp_zero (places : Int) : halfUp places 0 = 0 := by
  have half : ⌊(0 : ℚ) * 10 ^ places + 1 / 2⌋₊ = 0 := by
    rw [zero_mul, zero_add]
    exact Nat.floor_eq_zero.2 (by norm_num)
  rw [halfUp, half, Nat.cast_zero, zero_div]

theorem halfUp_le {q q' : ℚ} (places : Int) (le : q ≤ q') : halfUp places q ≤ halfUp places q' := by
  have scaled := mul_le_mul_of_nonneg_right le (ten_zpow_pos places).le
  have floors : ⌊q * 10 ^ places + 1 / 2⌋₊ ≤ ⌊q' * 10 ^ places + 1 / 2⌋₊ := Nat.floor_mono (by linarith)
  exact div_le_div_of_nonneg_right (by exact_mod_cast floors) (ten_zpow_pos places).le

/-- Rounding with a sign keeps the order, too: what has a sign is rounded downwards. -/
theorem withSign_halfUp_le {negative negative' : Bool} {q q' : ℚ} (least : 0 ≤ q) (least' : 0 ≤ q')
    (le : withSign negative q ≤ withSign negative' q') :
    withSign negative (halfUp places q) ≤ withSign negative' (halfUp places q') := by
  have rounded := halfUp_nonneg places q
  have rounded' := halfUp_nonneg places q'
  cases negative <;> cases negative'
  · exact halfUp_le places le
  · have sizes : q ≤ -q' := le
    have zero : q = 0 := by linarith
    have zero' : q' = 0 := by linarith
    rw [zero, zero', halfUp_zero, withSign_zero, withSign_zero]
  · exact (neg_nonpos.2 rounded).trans rounded'
  · exact neg_le_neg (halfUp_le places (neg_le_neg_iff.1 le))

/-! ## Decimals -/

/-- A quotient is rounded to the whole number at or below it with a half added. -/
theorem roundQuotient_away {n m : Nat} (pos : 0 < m) : roundQuotient .away n m = ⌊(n / m : ℚ) + 1 / 2⌋₊ := by
  have pos' : (0 : ℚ) < m := by exact_mod_cast pos
  have whole : (n : ℚ) = m * (n / m : Nat) + (n % m : Nat) := by exact_mod_cast (Nat.div_add_mod n m).symm
  have quotient : (n / m : ℚ) = (n / m : Nat) + (n % m : Nat) / m := by
    rw [div_eq_iff pos'.ne', add_mul, div_mul_cancel₀ _ pos'.ne', mul_comm]
    exact whole
  have rest_least : (0 : ℚ) ≤ (n % m : Nat) / m := by positivity
  have rest_most : ((n % m : Nat) / m : ℚ) < 1 := by
    rw [div_lt_one pos']
    exact_mod_cast Nat.mod_lt n pos
  have less_iff : 2 * (n % m) < m ↔ ((n % m : Nat) / m : ℚ) < 1 / 2 := by
    rw [div_lt_iff₀ pos', ← Nat.cast_lt (α := ℚ)]
    push_cast
    constructor <;> intro h <;> linarith
  rw [quotient, eq_comm, Nat.floor_eq_iff (by positivity), roundQuotient]
  split
  next less =>
    have less := less_iff.1 less
    constructor <;> linarith
  next more =>
    have more := mt less_iff.2 more
    have up : (if m < 2 * (n % m) then n / m + 1 else n / m + 1) = n / m + 1 := ite_self _
    rw [up, Nat.cast_add, Nat.cast_one]
    constructor <;> linarith

/-- A decimal that can be rounded to places is rounded to a multiple of the unit of the last place. -/
theorem quantize?_eq_some (h : d.quantize? precision places = some r) :
    r = ⟨d.negative, ⌊d.size * 10 ^ places + 1 / 2⌋₊, -places⟩ := by
  rw [quantize?] at h
  dsimp only at h
  split at h
  next none =>
    cases h
    have small : d.size * 10 ^ places < 1 / 2 := by
      rcases none with zero | few
      · rw [size, zero, Nat.cast_zero, zero_mul, zero_mul]
        norm_num
      · calc d.size * 10 ^ places
            < 10 ^ ((digitCount d.coefficient : Int) + d.exponent) * 10 ^ places :=
              mul_lt_mul_of_pos_right d.size_lt (ten_zpow_pos _)
          _ = 10 ^ ((digitCount d.coefficient : Int) + d.exponent + places) := (ten_zpow_add ..).symm
          _ ≤ 10 ^ (-1 : Int) := ten_zpow_le (by omega)
          _ ≤ 1 / 2 := by norm_num
    rw [Nat.floor_eq_zero.2 (by linarith)]
  next =>
    split at h
    next => cases h
    next =>
      cases h
      have scaled := @scale_quotient 10 d.coefficient 1 (-(-places - d.exponent))
      rw [Nat.cast_one, div_one, Nat.cast_ofNat] at scaled
      rw [roundQuotient_away (scale_pos (by decide) Nat.one_pos), scaled, size, mul_assoc, ← ten_zpow_add,
        show -(-places - d.exponent) = d.exponent + places by omega]

/-- What a decimal is rounded to has its sign, and the size of the decimal is rounded half up. -/
theorem size_of_quantize? (h : d.quantize? precision places = some r) :
    r.negative = d.negative ∧ r.size = halfUp places d.size := by
  cases quantize?_eq_some h
  exact ⟨rfl, by rw [size, zpow_neg, ← div_eq_mul_inv]; rfl⟩

theorem number_of_quantize? (h : d.quantize? precision places = some r) :
    r.number = withSign d.negative (halfUp places d.size) := by
  obtain ⟨sign, size⟩ := size_of_quantize? h
  rw [number, sign, size]

/-- The negative of a decimal is rounded to the negative. -/
theorem quantize?_negate (precision : Nat) (places : Int) (d : Decimal) :
    d.negate.quantize? precision places = (d.quantize? precision places).map negate := by
  obtain ⟨negative, coefficient, exponent⟩ := d
  rw [quantize?, quantize?, negate]
  dsimp only
  split
  next => rfl
  next =>
    split
    next => rfl
    next => rfl

end GameScoring.Decimal

namespace GameScoring.Numeral
open Binary Decimal

variable {x y z : Float} {places : Int}

/-- The negative of a double is rounded to the negative, also to a zero with the other sign. -/
theorem roundHalfUp_neg (finite : isFinite x = true) (low : 0 ≤ places) (high : places ≤ 10)
    (rounded : roundHalfUp x places = .ok y) : roundHalfUp (-x) places = .ok (-y) := by
  obtain ⟨d, decimal, -⟩ := exists_ofFloat? finite
  obtain ⟨r, quantized, rfl⟩ := of_roundHalfUp decimal rounded
  have decimal' : ofFloat? (-x) = some d.negate := by rw [ofFloat?_neg finite, decimal, Option.map_some]
  have quantized' : d.negate.quantize? roundingPrecision places = some r.negate := by
    rw [quantize?_negate, quantized, Option.map_some]
  rw [roundHalfUp_of_quantize? decimal' low high quantized', toFloat_negate]

/-- Larger doubles are rounded to larger ones. -/
theorem roundHalfUp_le {w : Float} (hx : isFinite x = true) (hz : isFinite z = true) (low : 0 ≤ places)
    (le : x ≤ z) (x_rounded : roundHalfUp x places = .ok y) (z_rounded : roundHalfUp z places = .ok w) : y ≤ w := by
  have hy := isFinite_roundHalfUp hx low x_rounded
  have hw := isFinite_roundHalfUp hz low z_rounded
  obtain ⟨d, decimal, -⟩ := exists_ofFloat? hx
  obtain ⟨e, decimal', -⟩ := exists_ofFloat? hz
  obtain ⟨r, quantized, rfl⟩ := of_roundHalfUp decimal x_rounded
  obtain ⟨s, quantized', rfl⟩ := of_roundHalfUp decimal' z_rounded
  rw [le_iff_number_le hy hw]
  apply number_toFloat_le hy hw
  rw [number_of_quantize? quantized, number_of_quantize? quantized']
  exact withSign_halfUp_le d.size_nonneg e.size_nonneg (number_ofFloat?_le hx hz decimal decimal' le)

/-- Rounding to places is rounding the decimal that is written for a double. It does not fail and gives the double
closest to the rounded decimal, with the same sign, and it is odd and monotone. -/
theorem roundHalfUp_rounds_decimals (finite : isFinite x = true) (low : 0 ≤ places) (high : places ≤ 10) :
    ∃ d y, ofFloat? x = some d ∧ d.toFloat = x ∧ roundHalfUp x places = .ok y ∧
      Closest (withSign d.negative (halfUp places d.size)) y ∧ isNegative y = d.negative ∧
      roundHalfUp (-x) places = .ok (-y) ∧
      ∀ z, isFinite z = true → x ≤ z → ∃ w, roundHalfUp z places = .ok w ∧ y ≤ w := by
  obtain ⟨d, decimal, -, read⟩ := exists_ofFloat? finite
  obtain ⟨y, rounded⟩ := exists_roundHalfUp finite low high
  obtain ⟨r, quantized, rfl⟩ := of_roundHalfUp decimal rounded
  have finite' := isFinite_roundHalfUp finite low rounded
  refine ⟨d, r.toFloat, decimal, read, rounded, ?_, ?_, roundHalfUp_neg finite low high rounded, fun z hz le => ?_⟩
  · rw [← number_of_quantize? quantized]
    exact closest_toFloat finite'
  · rw [isNegative_toFloat, (size_of_quantize? quantized).1]
  · obtain ⟨w, rounded'⟩ := exists_roundHalfUp hz low high
    exact ⟨w, rounded', roundHalfUp_le finite hz low le rounded rounded'⟩

/-- The decimal that is written for a double is a half between hundredths, although the double is below it. -/
theorem roundHalfUp_rounds_decimals_half : isFinite 2.675 = true ∧ (0 : Int) ≤ 2 ∧ (2 : Int) ≤ 10 ∧
    ofFloat? 2.675 = some ⟨false, 2675, -3⟩ ∧ roundHalfUp 2.675 2 = .ok 2.68 ∧
    Closest (halfUp 2 (size ⟨false, 2675, -3⟩)) 2.68 ∧ roundHalfUp (-2.675) 2 = .ok (-2.68) := by
  have finite : isFinite 2.675 = true := by decide
  obtain ⟨d, y, decimal, -, rounded, closest, -, odd, -⟩ :=
    roundHalfUp_rounds_decimals finite (by decide : (0 : Int) ≤ 2) (by decide)
  have written : ofFloat? 2.675 = some ⟨false, 2675, -3⟩ := by decide +kernel
  have value : (roundHalfUp 2.675 2).toOption = some 2.68 := by decide +kernel
  rw [rounded] at value
  obtain rfl : y = 2.68 := Option.some_inj.1 value
  obtain rfl := Option.some_inj.1 (decimal.symm.trans written)
  exact ⟨finite, by decide, by decide, written, rounded, closest, odd⟩

end GameScoring.Numeral
