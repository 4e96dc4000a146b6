import Mathlib
import GameScoring.Proofs.Numeral.Stable

/-!
# Differences of decimals

Decimals are subtracted exactly, and their difference changes its sign if they are exchanged. Keeping leading digits
does nothing to a difference that has no more of them, so the difference of doubles that are written with a few places
is the double closest to the exact difference of what is written.
-/
namespace GameScoring.Decimal
open Binary

variable {a b d e : Decimal} {places : Int} {precision : Nat}

/-! ## Exact differences -/

theorem abs_number (d : Decimal) : |d.number| = d.size := abs_withSign d.negative d.size_nonneg

theorem number_congr (sign : d.negative = e.negative) (size : d.size = e.size) : d.number = e.number := by
  rw [number, number, sign, size]

/-- A decimal is a whole number of units of a grid that is fine enough. -/
theorem units_mul {grid : Int} (fine : grid ≤ d.exponent) : (d.units grid : ℚ) * 10 ^ grid = d.number := by
  obtain ⟨k, gap⟩ : ∃ k : Nat, d.exponent = k + grid := ⟨(d.exponent - grid).toNat, by omega⟩
  have magnitude : ((d.coefficient * Nat.pow 10 (d.exponent - grid).toNat : Nat) : ℚ) * 10 ^ grid = d.size := by
    rw [gap, Int.add_sub_cancel, Int.toNat_natCast, Nat.pow_eq, size, gap, ten_zpow_add, zpow_natCast]
    push_cast
    ring
  rw [number, ← magnitude, units, withSign]
  split
  next => rw [Int.cast_neg, Int.cast_natCast, neg_mul]
  next => rw [Int.cast_natCast]

/-- A whole number of units with the sign that a difference has. -/
theorem withSign_natAbs {negative : Bool} {n : Int} (sign : n ≠ 0 → negative = decide (n < 0)) (unit : ℚ) :
    withSign negative (n.natAbs * unit) = n * unit := by
  rcases eq_or_ne n 0 with rfl | some
  · rw [Int.natAbs_zero, Nat.cast_zero, Int.cast_zero, zero_mul, withSign_zero]
  · rw [sign some, withSign, Nat.cast_natAbs, Int.cast_abs]
    by_cases less : n < 0
    · rw [decide_eq_true less, if_pos rfl, abs_of_neg (by exact_mod_cast less), neg_mul, neg_neg]
    · rw [decide_eq_false less, if_neg (by decide), abs_of_nonneg (by exact_mod_cast not_lt.1 less)]

/-- Decimals are subtracted as the numbers they stand for. -/
theorem number_sub (a b : Decimal) : (a - b).number = a.number - b.number := by
  have grid_a : min a.exponent b.exponent ≤ a.exponent := Int.min_le_left ..
  have grid_b : min a.exponent b.exponent ≤ b.exponent := Int.min_le_right ..
  rw [← units_mul grid_a, ← units_mul grid_b, ← sub_mul, ← Int.cast_sub]
  exact withSign_natAbs (fun some => if_neg some) _

/-- Decimals that are exchanged have the negative difference. Only a difference of zero may keep its sign. -/
theorem sub_swap (a b : Decimal) : (a - b).coefficient = 0 ∧ (b - a).coefficient = 0 ∨ b - a = (a - b).negate := by
  have units : b.units (min b.exponent a.exponent) - a.units (min b.exponent a.exponent) =
      -(a.units (min a.exponent b.exponent) - b.units (min a.exponent b.exponent)) := by
    rw [Int.min_comm, Int.neg_sub]
  have forth : a - b = difference a b := rfl
  have back : b - a = difference b a := rfl
  rw [forth, back, difference, difference, units, Int.min_comm b.exponent]
  generalize a.units (min a.exponent b.exponent) - b.units (min a.exponent b.exponent) = n
  dsimp only
  rcases eq_or_ne n 0 with rfl | some
  · exact .inl ⟨rfl, rfl⟩
  · refine .inr ?_
    rw [if_neg (by omega), if_neg some, Int.natAbs_neg, negate, mk.injEq]
    refine ⟨?_, rfl, rfl⟩
    rw [← decide_not, decide_eq_decide]
    omega

theorem HasPlaces.exists_units (short : d.HasPlaces places) : ∃ n : Int, d.number = n * 10 ^ (-places) := by
  obtain ⟨units, size⟩ := short
  rw [number, size]
  cases d.negative with
  | false => exact ⟨units, rfl⟩
  | true => exact ⟨-units, by rw [withSign, if_pos rfl]; push_cast; ring⟩

/-- A difference needs no more places than its sides. -/
theorem HasPlaces.sub (ha : a.HasPlaces places) (hb : b.HasPlaces places) : (a - b).HasPlaces places := by
  obtain ⟨m, a_number⟩ := ha.exists_units
  obtain ⟨n, b_number⟩ := hb.exists_units
  refine ⟨(m - n).natAbs, ?_⟩
  rw [← abs_number, number_sub, a_number, b_number, ← sub_mul, abs_mul, abs_of_pos (ten_zpow_pos _), Nat.cast_natAbs,
    Int.cast_abs, Int.cast_sub]

/-! ## Leading digits -/

theorem limit_negative (precision : Nat) (d : Decimal) : (d.limit precision).negative = d.negative := by
  rw [limit]
  split <;> rfl

theorem limit_negate (precision : Nat) (d : Decimal) : d.negate.limit precision = (d.limit precision).negate := by
  obtain ⟨negative, coefficient, exponent⟩ := d
  rw [limit, limit, negate]
  dsimp only
  split
  next => rfl
  next => rfl

theorem limit_zero (zero : d.coefficient = 0) : (d.limit precision).size = 0 := by
  have one : digitCount 0 = 1 := by simp [digitCount]
  rw [limit, zero, one]
  split
  next => rw [size, zero, Nat.cast_zero, zero_mul]
  next =>
    have none : roundQuotient .even 0 (Nat.pow 10 (1 - precision)) = 0 :=
      Nat.le_zero.1 (roundQuotient_le (Nat.pow_pos (by decide)) (Nat.zero_le _))
    rw [size, none, Nat.cast_zero, zero_mul]

theorem roundQuotient_mul {tie : Tie} (n : Nat) {m : Nat} (pos : 0 < m) : roundQuotient tie (n * m) m = n :=
  Nat.le_antisymm (roundQuotient_le pos le_rfl) (le_roundQuotient pos le_rfl)

/-- A decimal that has fewer units on another grid ends in the zeros that this grid leaves out. -/
theorem exists_zeros {units : Nat} {grid : Int} (size_eq : d.size = units * 10 ^ grid) (fewer : units < d.coefficient) :
    ∃ zeros : Nat, grid = zeros + d.exponent ∧ d.coefficient = units * 10 ^ zeros := by
  rw [size] at size_eq
  have coarser : d.exponent < grid := by
    by_contra finer
    have powers := ten_zpow_le (not_lt.1 finer)
    have more : (units : ℚ) + 1 ≤ d.coefficient := by exact_mod_cast fewer
    have product : ((units : ℚ) + 1) * 10 ^ grid ≤ d.coefficient * 10 ^ d.exponent :=
      mul_le_mul more powers (ten_zpow_pos _).le (Nat.cast_nonneg _)
    have unit := ten_zpow_pos grid
    linarith
  obtain ⟨zeros, gap⟩ : ∃ zeros : Nat, grid = zeros + d.exponent := ⟨(grid - d.exponent).toNat, by omega⟩
  refine ⟨zeros, gap, ?_⟩
  rw [gap, ten_zpow_add, ← mul_assoc, zpow_natCast] at size_eq
  exact_mod_cast mul_right_cancel₀ (ten_zpow_pos d.exponent).ne' size_eq

/-- A decimal that has no more digits on some grid is kept: what is dropped are zeros at its end. -/
theorem size_limit_of_short {units : Nat} {grid : Int} (pos : 0 < precision) (size_eq : d.size = units * 10 ^ grid)
    (short : units < 10 ^ precision) : (d.limit precision).size = d.size := by
  rw [limit]
  split
  next => rfl
  next long =>
    have large : ¬ d.coefficient < 10 ^ precision := by
      rw [← digitCount_le_iff pos]
      omega
    obtain ⟨zeros, gap, coefficient⟩ := exists_zeros size_eq (short.trans_le (not_lt.1 large))
    have digits : digitCount d.coefficient ≤ precision + zeros := by
      rw [digitCount_le_iff (by omega), coefficient, Nat.pow_add]
      exact Nat.mul_lt_mul_of_pos_right short (Nat.pow_pos (by decide))
    obtain ⟨rest, split⟩ : ∃ rest, zeros = digitCount d.coefficient - precision + rest :=
      Nat.exists_eq_add_of_le (by omega)
    generalize digitCount d.coefficient - precision = drop at split ⊢
    have rounded : roundQuotient .even d.coefficient (10 ^ drop) = units * 10 ^ rest := by
      rw [coefficient, split, Nat.add_comm, Nat.pow_add, ← Nat.mul_assoc]
      exact roundQuotient_mul _ (Nat.pow_pos (by decide))
    rw [Nat.pow_eq, rounded, size, size_eq, gap, split]
    push_cast
    rw [ten_zpow_add, ten_zpow_add, ten_zpow_add, zpow_natCast, zpow_natCast]
    ring

end GameScoring.Decimal

namespace GameScoring.Numeral
open Binary Decimal

variable {x y z w : Float} {a b : Decimal} {places : Int}

theorem difference_of_decimals (hx : ofFloat? x = some a) (hy : ofFloat? y = some b) :
    difference x y = .ok ((a - b).limit differencePrecision).toFloat := by rw [difference, hx, hy]

/-- What doubles with a few places are subtracted to is what they are written as, subtracted exactly. -/
theorem number_limit_sub (ha : a.HasPlaces places) (hb : b.HasPlaces places)
    (small : |a.number - b.number| < 10 ^ (differencePrecision - places : Int)) :
    ((a - b).limit differencePrecision).number = a.number - b.number ∧
      ((a - b).limit differencePrecision).HasPlaces places := by
  obtain ⟨units, size⟩ := ha.sub hb
  have short : units < 10 ^ differencePrecision := by
    rw [← number_sub, abs_number, size, sub_eq_add_neg, ten_zpow_add, zpow_natCast] at small
    exact_mod_cast lt_of_mul_lt_mul_right small (ten_zpow_pos (-places)).le
  have kept := size_limit_of_short (by decide) size short
  refine ⟨?_, units, kept.trans size⟩
  rw [← number_sub]
  exact number_congr (limit_negative ..) kept

/-- The decimal that is read as a double is less than twice as large as a bound of it. -/
theorem size_lt_of_number_lt {d : Decimal} {bound : ℚ} (finite : isFinite d.toFloat = true) (some : 1 ≤ bound)
    (small : |Binary.number d.toFloat| < bound) : d.size < 2 * bound := by
  obtain ⟨place, less, nearest, value⟩ := exists_read finite
  rw [value, abs_withSign _ (valueAt_nonneg place)] at small
  by_cases normal : 2 ^ (-1022 : Int) ≤ d.size
  · have near := (abs_le.1 (nearest.relative less normal)).2
    linarith
  · have tiny : (2 : ℚ) ^ (-1022 : Int) ≤ 1 := zpow_le_one_of_nonpos₀ one_le_two (by decide)
    linarith

/-- Doubles that are exchanged have the negative difference, up to the sign of zero. -/
theorem number_difference_swap (forth : difference x y = .ok z) (back : difference y x = .ok w)
    (hx : isFinite x = true) (hy : isFinite y = true) (hz : isFinite z = true) :
    Binary.number w = -Binary.number z := by
  obtain ⟨a, a_decimal, -⟩ := exists_ofFloat? hx
  obtain ⟨b, b_decimal, -⟩ := exists_ofFloat? hy
  cases (difference_of_decimals a_decimal b_decimal).symm.trans forth
  cases (difference_of_decimals b_decimal a_decimal).symm.trans back
  rcases sub_swap a b with ⟨zero, zero'⟩ | swapped
  · have none {d : Decimal} (zero : d.coefficient = 0) :
        Binary.number (d.limit differencePrecision).toFloat = 0 := by
      have read : IsNearest (d.limit differencePrecision).size 0 := by
        rw [limit_zero zero]
        exact isNearest_zero
      rw [toFloat_of_isNearest read, number_ofMagnitude (by decide), valueAt_zero, withSign_zero]
    rw [none zero, none zero', neg_zero]
  · rw [swapped, limit_negate, toFloat_negate, number_neg hz]

/-- Doubles that stand for a number and for its negative are rounded to doubles that do. -/
theorem number_roundHalfUp_neg {r s : Float} (hz : isFinite z = true) (hw : isFinite w = true) (low : 0 ≤ places)
    (high : places ≤ 10) (opposite : Binary.number w = -Binary.number z) (z_rounded : roundHalfUp z places = .ok r)
    (w_rounded : roundHalfUp w places = .ok s) : Binary.number s = -Binary.number r := by
  have neg_rounded := roundHalfUp_neg hz low high z_rounded
  have hr := isFinite_roundHalfUp hz low z_rounded
  have hs := isFinite_roundHalfUp hw low w_rounded
  have same : Binary.number w = Binary.number (-z) := opposite.trans (number_neg hz).symm
  have le : w ≤ -z := (le_iff_number_le hw (isFinite_neg hz)).2 same.le
  have ge : -z ≤ w := (le_iff_number_le (isFinite_neg hz) hw).2 same.ge
  have below := roundHalfUp_le hw (isFinite_neg hz) low le w_rounded neg_rounded
  have above := roundHalfUp_le (isFinite_neg hz) hw low ge neg_rounded w_rounded
  rw [le_iff_number_le hs (isFinite_neg hr), number_neg hr] at below
  rw [le_iff_number_le (isFinite_neg hr) hs, number_neg hr] at above
  exact le_antisymm below above

/-- Numbers are negatives of each other exactly if their doubles are, up to the sign of zero. -/
theorem beq_neg_iff (hz : isFinite z = true) (hw : isFinite w = true) :
    (w == -z) = true ↔ Binary.number w = -Binary.number z := by
  rw [beq_iff_number_eq hw (isFinite_neg hz), number_neg hz]

end GameScoring.Numeral
