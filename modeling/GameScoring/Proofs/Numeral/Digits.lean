import Mathlib
import GameScoring.Numeral.Rounding
import GameScoring.Proofs.Numeral.Nearest

/-!
# Digits and sizes of decimals

The digits of a decimal tell its size up to a factor of ten. Rounding to places and keeping the leading
digits add little to the size, and a difference of decimals that are not negative is not larger than both.
-/
namespace GameScoring.Decimal
open Binary

/-! ## Digits -/

theorem digitCount_pos (n : Nat) : 0 < digitCount n := by
  rw [digitCount]
  split <;> omega

theorem digitCount_le_iff {n k : Nat} (pos : 0 < k) : digitCount n ≤ k ↔ n < 10 ^ k := by
  induction k generalizing n with
  | zero => omega
  | succ k ih =>
    rw [digitCount, Nat.pow_succ]
    have power : 0 < 10 ^ k := Nat.pow_pos (by decide)
    split
    next small => exact ⟨fun _ => by omega, fun _ => Nat.succ_le_succ (Nat.zero_le k)⟩
    next large =>
      cases k with
      | zero =>
        have := digitCount_pos (n / 10)
        omega
      | succ k =>
        rw [Nat.add_le_add_iff_right, ih (Nat.succ_pos k)]
        omega

/-- A number of more than one digit is at least the power of ten with as many digits. -/
theorem ten_pow_le {n : Nat} (more : digitCount n ≠ 1) : 10 ^ (digitCount n - 1) ≤ n := by
  by_contra less
  have pos := digitCount_pos n
  have fewer := (digitCount_le_iff (by omega)).2 (not_le.1 less)
  omega

theorem lt_ten_zpow_leadingDigit {num den : Nat} (num_pos : 0 < num) (pos : 0 < den) :
    (num / den : ℚ) < 10 ^ (leadingDigit num den + 1) := by
  have den_pos : (0 : ℚ) < den := by exact_mod_cast pos
  rw [leadingDigit, div_lt_iff₀ den_pos]
  split
  next =>
    have digits := (digitCount_le_iff (digitCount_pos (num / den))).1 (Nat.le_refl _)
    have product : num < 10 ^ digitCount (num / den) * den := (Nat.div_lt_iff_lt_mul pos).1 digits
    rw [Int.sub_add_cancel, zpow_natCast]
    exact_mod_cast product
  next =>
    have count := digitCount_pos ((den - 1) / num)
    have digits : 10 ^ (digitCount ((den - 1) / num) - 1) * num < den := by
      by_cases one : digitCount ((den - 1) / num) = 1
      · rw [one]
        omega
      · have product := (Nat.le_div_iff_mul_le num_pos).1 (ten_pow_le one)
        omega
    have exponent : -(digitCount ((den - 1) / num) : Int) + 1 = -((digitCount ((den - 1) / num) - 1 : Nat) : Int) := by
      omega
    rw [exponent, zpow_neg, zpow_natCast, ← div_eq_inv_mul, lt_div_iff₀ (by positivity), mul_comm]
    exact_mod_cast digits

theorem ten_zpow_leadingDigit_le {num den : Nat} (num_pos : 0 < num) (pos : 0 < den) :
    (10 : ℚ) ^ leadingDigit num den ≤ num / den := by
  have den_pos : (0 : ℚ) < den := by exact_mod_cast pos
  rw [leadingDigit, le_div_iff₀ den_pos]
  split
  next whole =>
    have count := digitCount_pos (num / den)
    have digits : 10 ^ (digitCount (num / den) - 1) ≤ num / den := by
      by_cases one : digitCount (num / den) = 1
      · rw [one]
        exact (Nat.one_le_div_iff pos).2 whole
      · exact ten_pow_le one
    have product := (Nat.le_div_iff_mul_le pos).1 digits
    rw [show (digitCount (num / den) : Int) - 1 = ((digitCount (num / den) - 1 : Nat) : Int) by omega, zpow_natCast]
    exact_mod_cast product
  next =>
    have digits := (digitCount_le_iff (digitCount_pos ((den - 1) / num))).1 (Nat.le_refl _)
    have product := (Nat.div_lt_iff_lt_mul num_pos).1 digits
    rw [zpow_neg, zpow_natCast, ← div_eq_inv_mul, div_le_iff₀ (by positivity), mul_comm]
    have product : den ≤ 10 ^ digitCount ((den - 1) / num) * num := by omega
    exact_mod_cast product

/-! ## Sizes -/

/-- The number that a decimal is, without its sign. -/
def size (d : Decimal) : ℚ := d.coefficient * 10 ^ d.exponent

/-- No sign is set, unless the decimal is zero. -/
def Unsigned (d : Decimal) : Prop := d.negative = true → d.coefficient = 0

/-- Powers that are made of equally many parts are ordered as the parts are. -/
theorem pow_le_pow_of_parts {a b k m whole whole' : Nat} (parts : Nat) (h : a ^ k ≤ b ^ m)
    (left : whole = k * parts) (right : whole' = m * parts) : a ^ whole ≤ b ^ whole' := by
  rw [left, right, Nat.pow_mul, Nat.pow_mul]
  exact Nat.pow_le_pow_left h parts

theorem ten_zpow_pos (k : Int) : (0 : ℚ) < 10 ^ k := by positivity

theorem ten_zpow_le {j k : Int} (h : j ≤ k) : (10 : ℚ) ^ j ≤ 10 ^ k := zpow_le_zpow_right₀ (by norm_num) h

theorem ten_zpow_add (j k : Int) : (10 : ℚ) ^ (j + k) = 10 ^ j * 10 ^ k := zpow_add₀ (by norm_num) j k

theorem size_nonneg (d : Decimal) : 0 ≤ d.size := mul_nonneg (Nat.cast_nonneg _) (ten_zpow_pos _).le

theorem size_lt (d : Decimal) : d.size < 10 ^ ((digitCount d.coefficient : Int) + d.exponent) := by
  have digits := (digitCount_le_iff (digitCount_pos d.coefficient)).1 (Nat.le_refl _)
  rw [ten_zpow_add, zpow_natCast]
  exact mul_lt_mul_of_pos_right (by exact_mod_cast digits) (ten_zpow_pos _)

theorem le_size {d : Decimal} (some : d.coefficient ≠ 0) :
    10 ^ ((digitCount d.coefficient : Int) + d.exponent - 1) ≤ d.size := by
  have digits : 10 ^ (digitCount d.coefficient - 1) ≤ d.coefficient := by
    by_cases one : digitCount d.coefficient = 1
    · rw [one]
      exact Nat.pos_of_ne_zero some
    · exact ten_pow_le one
  have pos := digitCount_pos d.coefficient
  have exponents : (digitCount d.coefficient : Int) + d.exponent - 1 =
      ((digitCount d.coefficient - 1 : Nat) : Int) + d.exponent := by omega
  rw [exponents, ten_zpow_add, zpow_natCast]
  exact mul_le_mul_of_nonneg_right (by exact_mod_cast digits) (ten_zpow_pos _).le

/-- A decimal that is not zero has no more digits before the point than a power of ten above it. -/
theorem digits_le {d : Decimal} {k : Int} (some : d.coefficient ≠ 0) (below : d.size < 10 ^ k) :
    (digitCount d.coefficient : Int) + d.exponent ≤ k := by
  have power : (10 : ℚ) ^ ((digitCount d.coefficient : Int) + d.exponent - 1) < 10 ^ k :=
    (le_size some).trans_lt below
  have exponents := (zpow_lt_zpow_iff_right₀ (by norm_num)).1 power
  omega

/-! ## Rounding and differences -/

/-- A rounded quotient is at most one more than the quotient. -/
theorem roundQuotient_le_add_one {tie : Tie} {n m : Nat} (pos : 0 < m) :
    (roundQuotient tie n m : ℚ) ≤ n / m + 1 := by
  have quotient : n ≤ (n / m + 1) * m := ((Nat.div_lt_iff_lt_mul pos).1 (Nat.lt_succ_self _)).le
  have rounded : roundQuotient tie n m ≤ n / m + 1 := roundQuotient_le pos quotient
  calc (roundQuotient tie n m : ℚ) ≤ ((n / m : Nat) : ℚ) + 1 := by exact_mod_cast rounded
    _ ≤ n / m + 1 := by
      have := @Nat.cast_div_le ℚ _ _ _ n m
      linarith

/-- What has few digits before the point can be rounded to a few places. -/
theorem exists_quantize? {precision : Nat} {k places : Int} {d : Decimal} (below : d.size < 10 ^ k)
    (enough : k + places ≤ precision) : ∃ r, d.quantize? precision places = some r := by
  rw [quantize?]
  dsimp only
  split
  next => exact ⟨_, rfl⟩
  next some =>
    have digits := digits_le (fun zero => some (.inl zero)) below
    rw [if_neg (by omega)]
    exact ⟨_, rfl⟩

/-- Rounding to places adds at most a unit of the last place, and no sign. -/
theorem size_quantize? {precision : Nat} {places : Int} {d r : Decimal}
    (h : d.quantize? precision places = some r) :
    r.size ≤ d.size + 10 ^ (-places) ∧ (d.Unsigned → r.Unsigned) := by
  have unit := ten_zpow_pos (-places)
  rw [quantize?] at h
  dsimp only at h
  split at h
  next =>
    cases h
    refine ⟨?_, fun _ _ => rfl⟩
    rw [size, Nat.cast_zero, zero_mul]
    exact add_nonneg d.size_nonneg unit.le
  next some =>
    split at h
    next => cases h
    next =>
      cases h
      have scaled := @scale_quotient 10 d.coefficient 1 (-(-places - d.exponent))
      rw [Nat.cast_one, div_one, Nat.cast_ofNat] at scaled
      have rounded := @roundQuotient_le_add_one .away (scale 10 d.coefficient 1 (-(-places - d.exponent))).1 _
        (scale_pos (by decide) Nat.one_pos : 0 < (scale 10 d.coefficient 1 (-(-places - d.exponent))).2)
      refine ⟨?_, fun unsigned set => absurd (.inl (unsigned set)) some⟩
      rw [scaled] at rounded
      calc (roundQuotient .away (scale 10 d.coefficient 1 (-(-places - d.exponent))).1
              (scale 10 d.coefficient 1 (-(-places - d.exponent))).2 : ℚ) * 10 ^ (-places)
          ≤ (d.coefficient * 10 ^ (-(-places - d.exponent)) + 1) * 10 ^ (-places) :=
            mul_le_mul_of_nonneg_right rounded unit.le
        _ = d.coefficient * (10 ^ (-(-places - d.exponent)) * 10 ^ (-places)) + 10 ^ (-places) := by ring
        _ = d.size + 10 ^ (-places) := by
          rw [← ten_zpow_add, size, show -(-places - d.exponent) + -places = d.exponent by omega]

/-- Keeping the leading digits adds at most a unit of the last of them. -/
theorem size_limit {precision : Nat} (pos : 0 < precision) (d : Decimal) :
    (d.limit precision).size ≤ d.size + d.size * 10 ^ (1 - precision : Int) := by
  have nonneg : 0 ≤ d.size * 10 ^ (1 - precision : Int) := mul_nonneg d.size_nonneg (ten_zpow_pos _).le
  rw [limit]
  split
  next => linarith
  next long =>
    have some : d.coefficient ≠ 0 := by
      intro zero
      rw [zero, show digitCount 0 = 1 by simp [digitCount]] at long
      omega
    have power : (10 : ℚ) ^ (digitCount d.coefficient - precision) ≠ 0 := by positivity
    have rounded := @roundQuotient_le_add_one .even d.coefficient (10 ^ (digitCount d.coefficient - precision))
      (Nat.pow_pos (by decide))
    rw [Nat.cast_pow, Nat.cast_ofNat] at rounded
    have unit : (10 : ℚ) ^ (d.exponent + (digitCount d.coefficient - precision : Nat)) ≤
        d.size * 10 ^ (1 - precision : Int) := by
      rw [show d.exponent + (digitCount d.coefficient - precision : Nat) =
        (digitCount d.coefficient + d.exponent - 1) + (1 - precision : Int) by omega, ten_zpow_add]
      exact mul_le_mul_of_nonneg_right (le_size some) (ten_zpow_pos _).le
    calc (roundQuotient .even d.coefficient (10 ^ (digitCount d.coefficient - precision)) : ℚ) *
          10 ^ (d.exponent + (digitCount d.coefficient - precision : Nat))
        ≤ (d.coefficient / 10 ^ (digitCount d.coefficient - precision) + 1) *
          10 ^ (d.exponent + (digitCount d.coefficient - precision : Nat)) :=
          mul_le_mul_of_nonneg_right rounded (ten_zpow_pos _).le
      _ = d.size + 10 ^ (d.exponent + (digitCount d.coefficient - precision : Nat)) := by
        rw [ten_zpow_add, zpow_natCast, size]
        field_simp
      _ ≤ d.size + d.size * 10 ^ (1 - precision : Int) := by linarith

/-- The units of a decimal that is not negative, on a grid that is fine enough. -/
theorem exists_units {d : Decimal} {grid : Int} (h : d.Unsigned) (fine : grid ≤ d.exponent) :
    ∃ n : Nat, d.units grid = n ∧ (n : ℚ) * 10 ^ grid = d.size := by
  refine ⟨d.coefficient * 10 ^ (d.exponent - grid).toNat, ?_, ?_⟩
  · rw [units]
    split
    next negative =>
      rw [h negative, Nat.zero_mul, Nat.zero_mul]
      rfl
    next => rfl
  · obtain ⟨k, gap⟩ : ∃ k : Nat, d.exponent - grid = k := ⟨(d.exponent - grid).toNat, by omega⟩
    rw [gap, Int.toNat_natCast, Nat.cast_mul, Nat.cast_pow, Nat.cast_ofNat, mul_assoc, ← zpow_natCast,
      ← ten_zpow_add, size, show (k : Int) + grid = d.exponent by omega]

/-- A difference of decimals that are not negative is not larger than both. -/
theorem size_difference {a b : Decimal} (ha : a.Unsigned) (hb : b.Unsigned) :
    (a - b).size ≤ max a.size b.size := by
  obtain ⟨m, a_units, a_size⟩ := exists_units ha (Int.min_le_left a.exponent b.exponent)
  obtain ⟨n, b_units, b_size⟩ := exists_units hb (Int.min_le_right a.exponent b.exponent)
  have coefficient : (a - b).coefficient ≤ max m n := by
    show (a.units (min a.exponent b.exponent) - b.units (min a.exponent b.exponent)).natAbs ≤ max m n
    rw [a_units, b_units]
    omega
  have nonneg := (ten_zpow_pos (min a.exponent b.exponent)).le
  calc (a - b).size = (a - b).coefficient * 10 ^ min a.exponent b.exponent := rfl
    _ ≤ (max m n : Nat) * 10 ^ min a.exponent b.exponent :=
      mul_le_mul_of_nonneg_right (by exact_mod_cast coefficient) nonneg
    _ = max a.size b.size := by rw [Nat.cast_max, max_mul_of_nonneg _ _ nonneg, a_size, b_size]

end GameScoring.Decimal
