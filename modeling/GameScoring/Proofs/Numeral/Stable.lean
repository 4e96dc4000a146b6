import Mathlib
import GameScoring.Proofs.Numeral.HalfUp

/-!
# Rounding is stable

A double that was read from a decimal of a few places is written with no more of them. So a double that was rounded is
not changed by rounding it once more, although it is in general not the rounded decimal itself.
-/
namespace GameScoring.Binary

/-- A number that is not too small is at most half a unit of the last bit away from its nearest double. -/
theorem IsNearest.relative {q : ℚ} {place : Nat} (h : IsNearest q place) (finite : place < infinityMagnitude)
    (normal : 2 ^ (-1022 : Int) ≤ q) : |q - valueAt place| ≤ q / 2 ^ 53 := by
  obtain @⟨exponent, mantissa, binade, rounds⟩ := h
  have reached : placeOf exponent mantissa < infinityMagnitude := by omega
  have unit := two_zpow_pos exponent
  have units : (leadingUnit : ℚ) = 2 ^ 52 := by norm_num [leadingUnit]
  rw [Nat.min_eq_left reached.le, valueAt_placeOf binade rounds]
  have leading : (leadingUnit : ℚ) * 2 ^ exponent ≤ q := by
    rcases binade.leading with rfl | leading
    · rw [units, ← zpow_natCast, ← zpow_add₀ two_ne_zero]
      exact normal
    · exact (le_div_iff₀ unit).1 leading
  have near : |q / 2 ^ exponent - mantissa| ≤ 1 / 2 :=
    abs_le.2 ⟨by linarith [rounds.least], by linarith [rounds.most]⟩
  have scaled : |q - mantissa * 2 ^ exponent| = |q / 2 ^ exponent - mantissa| * 2 ^ exponent := by
    rw [← abs_of_pos unit, ← abs_mul, sub_mul, abs_of_pos unit, div_mul_cancel₀ _ unit.ne']
  rw [units] at leading
  rw [scaled, le_div_iff₀ (by norm_num)]
  calc |q / 2 ^ exponent - mantissa| * 2 ^ exponent * 2 ^ 53 ≤ 1 / 2 * 2 ^ exponent * 2 ^ 53 := by gcongr
    _ = 2 ^ 52 * 2 ^ exponent := by ring
    _ ≤ q := leading

end GameScoring.Binary

namespace GameScoring.Decimal
open Binary

variable {negative : Bool} {place : Nat} {places : Int} {precision : Nat} {d e r : Decimal}

/-- A decimal needs no more than so many places after the point. -/
def HasPlaces (places : Int) (d : Decimal) : Prop := ∃ units : Nat, d.size = units * 10 ^ (-places)

theorem hasPlaces_of_le (fine : -places ≤ d.exponent) : d.HasPlaces places := by
  obtain ⟨k, exponent⟩ : ∃ k : Nat, d.exponent = k + -places := ⟨(d.exponent + places).toNat, by omega⟩
  refine ⟨d.coefficient * 10 ^ k, ?_⟩
  rw [size, exponent, ten_zpow_add, zpow_natCast]
  push_cast
  ring

/-- Multiples of the unit of a place are not rounded at it. -/
theorem halfUp_units (units : Nat) (places : Int) :
    halfUp places (units * 10 ^ (-places)) = units * 10 ^ (-places) := by
  have unit := ten_zpow_pos places
  have floor : ⌊(units : ℚ) + 1 / 2⌋₊ = units := by
    rw [Nat.floor_eq_iff (by positivity)]
    constructor <;> linarith
  rw [halfUp, zpow_neg, inv_mul_cancel_right₀ unit.ne', floor, div_eq_mul_inv]

theorem HasPlaces.halfUp_size (short : d.HasPlaces places) : halfUp places d.size = d.size := by
  obtain ⟨units, size⟩ := short
  rw [size, halfUp_units]

theorem hasPlaces_of_quantize? (h : d.quantize? precision places = some r) : r.HasPlaces places :=
  ⟨r.coefficient, by cases quantize?_eq_some h; rfl⟩

/-- A decimal is read from its sign and its size alone. -/
theorem toFloat_congr (sign : d.negative = e.negative) (size : d.size = e.size) : d.toFloat = e.toFloat := by
  obtain ⟨place, read, nearest⟩ := e.exists_toFloat
  rw [read, ← sign]
  exact toFloat_of_isNearest (size ▸ nearest)

/-- Two multiples of a unit of which one is ten are read as different doubles. -/
theorem eq_ten {units : Nat} {unit : ℚ} (finite : place < infinityMagnitude) (normal : 2 ^ (-1022 : Int) ≤ unit)
    (h : IsNearest (units * unit) place) (ten : IsNearest (10 * unit) place) : units = 10 := by
  have pos : 0 < unit := (two_zpow_pos _).trans_le normal
  have ten_near := ten.relative finite (by linarith)
  have some : units ≠ 0 := by
    rintro rfl
    rw [Nat.cast_zero, zero_mul] at h
    obtain rfl := h.unique isNearest_zero
    rw [valueAt_zero, sub_zero, abs_of_pos (by linarith)] at ten_near
    linarith
  have least : (1 : ℚ) ≤ units := by exact_mod_cast Nat.one_le_iff_ne_zero.2 some
  have near := h.relative finite (normal.trans (le_mul_of_one_le_left pos.le least))
  have apart : |(units : ℚ) - 10| * unit ≤ (units + 10) * unit / 2 ^ 53 := by
    have triangle := abs_sub_le (units * unit) (valueAt place) (10 * unit)
    rw [abs_sub_comm (valueAt place), ← sub_mul, abs_mul, abs_of_pos pos] at triangle
    linarith
  have apart : |(units : ℚ) - 10| ≤ (units + 10) / 2 ^ 53 := by
    rw [mul_div_right_comm] at apart
    exact le_of_mul_le_mul_right apart pos
  by_contra other
  rcases Nat.lt_or_gt_of_ne other with fewer | more
  · have fewer : (units : ℚ) + 1 ≤ 10 := by exact_mod_cast fewer
    rw [abs_of_neg (by linarith)] at apart
    linarith
  · have more : (10 : ℚ) + 1 ≤ units := by exact_mod_cast more
    rw [abs_of_pos (by linarith)] at apart
    linarith

theorem normal_tenth (high : places ≤ 10) : (2 : ℚ) ^ (-1022 : Int) ≤ 10 ^ (-places - 1) := by
  calc (2 : ℚ) ^ (-1022 : Int) ≤ 2 ^ (-37 : Int) := zpow_le_zpow_right₀ one_le_two (by decide)
    _ ≤ 10 ^ (-11 : Int) := by norm_num
    _ ≤ 10 ^ (-places - 1) := ten_zpow_le (by omega)

/-- The double that the unit of a place is read as is written with no more places. Where it is below the unit it is
found on the next finer grid, with a zero at the end. -/
theorem exists_hasPlaces_unit (negative : Bool) (finite : place < infinityMagnitude)
    (read : IsNearest (10 ^ (-places)) place) (high : places ≤ 10) :
    ∃ d, ofFloat? (ofMagnitude negative place) = some d ∧ d.HasPlaces places := by
  have normal := normal_tenth high
  have pos := ten_zpow_pos (-places - 1)
  have tenth : (10 : ℚ) ^ (-places) = 10 * 10 ^ (-places - 1) := by
    rw [← zpow_one_add₀ (by norm_num)]
    congr 1
    omega
  rw [tenth] at read
  have near := (abs_le.1 (read.relative finite (by linarith))).2
  have some : place ≠ 0 := by
    rintro rfl
    rw [valueAt_zero] at near
    linarith
  obtain ⟨d, decimal, -, nearest, coarsest⟩ := @exists_shortest negative place (Nat.pos_of_ne_zero some) finite
  refine ⟨d, decimal, ?_⟩
  have next : -places - 1 ≤ d.exponent := coarsest _ 10 (by linarith) (by exact_mod_cast read)
  rcases next.lt_or_eq with coarser | same
  · exact hasPlaces_of_le (by omega)
  · have size : d.size = d.coefficient * 10 ^ (-places - 1) := by rw [size, same]
    have ten := eq_ten finite normal (size ▸ nearest) read
    exact ⟨1, by rw [size, ten, tenth]; push_cast; ring⟩

/-- What is read from a few places is written with no more. -/
theorem exists_hasPlaces (negative : Bool) {units : Nat} (finite : place < infinityMagnitude)
    (read : IsNearest (units * 10 ^ (-places)) place) (high : places ≤ 10) :
    ∃ d, ofFloat? (ofMagnitude negative place) = some d ∧ d.HasPlaces places := by
  have pos := ten_zpow_pos (-places)
  rcases Nat.eq_zero_or_pos place with rfl | some
  · exact ⟨_, ofFloat?_zero negative, 0, by rw [size, Nat.cast_zero, zero_mul, zero_mul]⟩
  · by_cases above : 10 ^ (-places) ≤ valueAt place
    · obtain ⟨d, decimal, -, -, coarsest⟩ := @exists_shortest negative place some finite
      exact ⟨d, decimal, hasPlaces_of_le (coarsest _ units above read)⟩
    · -- The unit of the last place lies between the double and what it was read from.
      have more : units ≠ 0 := by
        rintro rfl
        rw [Nat.cast_zero, zero_mul] at read
        exact some.ne (isNearest_zero.unique read)
      have least : (1 : ℚ) ≤ units := by exact_mod_cast Nat.one_le_iff_ne_zero.2 more
      have unit_read : IsNearest (10 ^ (-places)) place :=
        (isNearest_valueAt finite.le).between read pos.le (not_le.1 above).le (le_mul_of_one_le_left pos.le least)
      exact exists_hasPlaces_unit negative finite unit_read high

/-- The double that a decimal of a few places is read as is written with no more. -/
theorem HasPlaces.written (short : e.HasPlaces places) (finite : isFinite e.toFloat = true) (high : places ≤ 10) :
    ∃ d, ofFloat? e.toFloat = some d ∧ d.HasPlaces places := by
  obtain ⟨units, size⟩ := short
  obtain ⟨place, read, nearest⟩ := e.exists_toFloat
  rw [read] at finite ⊢
  exact exists_hasPlaces e.negative ((isFinite_ofMagnitude nearest.le_infinity).1 finite) (size ▸ nearest) high

end GameScoring.Decimal

namespace GameScoring.Numeral
open Binary Decimal

variable {x y : Float} {places : Int}

/-- A double that is written with a few places is not changed by rounding it to them. -/
theorem roundHalfUp_of_hasPlaces {d : Decimal} (finite : isFinite x = true) (decimal : ofFloat? x = some d)
    (short : d.HasPlaces places) (low : 0 ≤ places) (high : places ≤ 10) : roundHalfUp x places = .ok x := by
  obtain ⟨_, decimal', -, read⟩ := exists_ofFloat? finite
  obtain rfl := Option.some_inj.1 (decimal'.symm.trans decimal)
  obtain ⟨y, rounded⟩ := exists_roundHalfUp finite low high
  obtain ⟨r, quantized, rfl⟩ := of_roundHalfUp decimal rounded
  obtain ⟨sign, size⟩ := size_of_quantize? quantized
  rw [rounded, toFloat_congr sign (size.trans short.halfUp_size), read]

/-- What is read from a few places is not changed by rounding it to them. -/
theorem roundHalfUp_toFloat {e : Decimal} (finite : isFinite e.toFloat = true) (short : e.HasPlaces places)
    (low : 0 ≤ places) (high : places ≤ 10) : roundHalfUp e.toFloat places = .ok e.toFloat := by
  obtain ⟨d, decimal, short'⟩ := short.written finite high
  exact roundHalfUp_of_hasPlaces finite decimal short' low high

/-- What was rounded to a few places is written with no more. -/
theorem hasPlaces_of_roundHalfUp (rounded : roundHalfUp x places = .ok y) (finite : isFinite y = true)
    (high : places ≤ 10) : ∃ d, ofFloat? y = some d ∧ d.HasPlaces places := by
  cases decimal : ofFloat? x with
  | none =>
    -- Only not-a-number has no decimal and can be rounded, and it stays as it is.
    obtain ⟨d, written, -⟩ := exists_ofFloat? finite
    rw [roundHalfUp, decimal] at rounded
    split at rounded
    next => cases rounded
    next found => cases found
    next =>
      split at rounded <;> cases rounded
      rw [decimal] at written
      cases written
  | some d =>
    obtain ⟨r, quantized, rfl⟩ := of_roundHalfUp decimal rounded
    exact (hasPlaces_of_quantize? quantized).written finite high

/-- What was rounded to a few places is not changed by rounding it to them once more. -/
theorem roundHalfUp_again (rounded : roundHalfUp x places = .ok y) (finite : isFinite y = true) (low : 0 ≤ places)
    (high : places ≤ 10) : roundHalfUp y places = .ok y := by
  obtain ⟨d, decimal, short⟩ := hasPlaces_of_roundHalfUp rounded finite high
  exact roundHalfUp_of_hasPlaces finite decimal short low high

/-- Rounding to hundredths twice is rounding to them once. -/
theorem roundHalfUp_hundredths (rounded : roundHalfUp x 2 = .ok y) (finite : isFinite y = true) :
    roundHalfUp y 2 = .ok y :=
  roundHalfUp_again rounded finite (by decide) (by decide)

/-- Rounding is idempotent, as a double that was read from a decimal of a few places is written with no more. -/
theorem roundHalfUp_is_idempotent (finite : isFinite x = true) (low : 0 ≤ places) (high : places ≤ 10) :
    (∃ y, roundHalfUp x places = .ok y ∧ roundHalfUp y places = .ok y) ∧
      ∀ e : Decimal, e.HasPlaces places → isFinite e.toFloat = true →
        ∃ d, ofFloat? e.toFloat = some d ∧ d.HasPlaces places := by
  obtain ⟨y, rounded⟩ := exists_roundHalfUp finite low high
  have finite' := isFinite_roundHalfUp finite low rounded
  exact ⟨⟨y, rounded, roundHalfUp_again rounded finite' low high⟩, fun e short read => short.written read high⟩

/-- A millionth is read as a double below it, and it is still a double that rounding to six places leaves alone. -/
theorem roundHalfUp_is_idempotent_millionth : isFinite 1.4e-6 = true ∧ (0 : Int) ≤ 6 ∧ (6 : Int) ≤ 10 ∧
    roundHalfUp 1.4e-6 6 = .ok 1e-6 ∧ roundHalfUp 1e-6 6 = .ok 1e-6 := by
  have finite : isFinite 1.4e-6 = true := by decide
  obtain ⟨⟨y, rounded, again⟩, -⟩ := roundHalfUp_is_idempotent finite (by decide : (0 : Int) ≤ 6) (by decide)
  have value : (roundHalfUp 1.4e-6 6).toOption = some 1e-6 := by decide +kernel
  rw [rounded] at value
  obtain rfl : y = 1e-6 := Option.some_inj.1 value
  exact ⟨finite, by decide, by decide, rounded, again⟩

end GameScoring.Numeral
