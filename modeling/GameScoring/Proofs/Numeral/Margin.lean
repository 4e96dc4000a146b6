import Mathlib
import GameScoring.Proofs.Numeral.Digits
import GameScoring.Proofs.Numeral.Equality
import GameScoring.Proofs.Numeral.Sign

/-!
# Decimals of finite doubles keep a margin

The decimal that stands for a finite double is not only below the ceiling, it stays clear of it by a
margin. What rounding to a few places and to the digits of a difference can add is less than the margin,
so rounded scores and differences of scores are finite.
-/
namespace GameScoring.Decimal
open Binary

/-- The ceiling as a whole number. -/
def ceilingUnits : Nat := 2 ^ 970 * 18014398509481983

theorem ceiling_eq : ceiling = ceilingUnits := by
  have units (n : Nat) : ((2 : ℚ) ^ 53 - 1 / 2) * 2 ^ ((n : Int) + 1) = (2 ^ n * 18014398509481983 : Nat) := by
    rw [zpow_add_one₀ two_ne_zero, zpow_natCast]
    push_cast
    ring
  exact units 970

theorem ceilingUnits_lt : ceilingUnits < 10 ^ 309 := by decide +kernel

theorem ceiling_lt_ten : ceiling < 10 ^ (309 : Int) := by
  rw [ceiling_eq]
  exact_mod_cast ceilingUnits_lt

/-- A decimal reads as a finite double exactly if it is below the ceiling. -/
theorem isFinite_toFloat_iff (d : Decimal) : isFinite d.toFloat = true ↔ d.size < ceiling := by
  rw [toFloat]
  dsimp only
  split
  next small =>
    rw [isFinite_nearest_iff _ Nat.one_pos, Nat.cast_zero, zero_div]
    refine ⟨fun _ => ?_, fun _ => ceiling_pos⟩
    rcases small with zero | small
    · rw [size, zero, Nat.cast_zero, zero_mul]
      exact ceiling_pos
    · calc d.size < 10 ^ ((digitCount d.coefficient : Int) + d.exponent) := d.size_lt
        _ ≤ 10 ^ (0 : Int) := ten_zpow_le (by omega)
        _ = 2 ^ (0 : Int) := by rw [zpow_zero, zpow_zero]
        _ ≤ 2 ^ (1023 : Int) := zpow_le_zpow_right₀ one_le_two (by omega)
        _ < ceiling := lt_ceiling
  next some =>
    have some : d.coefficient ≠ 0 := fun zero => some (.inl zero)
    split
    next large =>
      have infinite : isFinite (infinity d.negative) = false := by cases d.negative <;> decide
      rw [infinite]
      refine ⟨fun finite => absurd finite Bool.false_ne_true, fun below => absurd below (not_lt.2 ?_)⟩
      calc ceiling ≤ 10 ^ (309 : Int) := ceiling_lt_ten.le
        _ ≤ 10 ^ ((digitCount d.coefficient : Int) + d.exponent - 1) := ten_zpow_le (by omega)
        _ ≤ d.size := le_size some
    next =>
      have scaled := @scale_quotient 10 d.coefficient 1 d.exponent
      rw [Nat.cast_one, div_one, Nat.cast_ofNat] at scaled
      rw [isFinite_nearest_iff _ (scale_pos (by decide) Nat.one_pos), scaled]
      rfl

/-! ## The margin -/

/-- How far the decimal of a finite double is below the ceiling at least. -/
def margin : ℚ := 10 ^ (290 : Int)

/-- A decimal that is clear of the ceiling by the margin. -/
def Clear (d : Decimal) : Prop := d.size + margin ≤ ceiling

theorem Clear.size_lt {d : Decimal} (h : d.Clear) : d.size < 10 ^ (309 : Int) := by
  have pos : 0 < margin := ten_zpow_pos _
  calc d.size < d.size + margin := lt_add_of_pos_right _ pos
    _ ≤ ceiling := h
    _ < 10 ^ (309 : Int) := ceiling_lt_ten

/-- What the digits of the ceiling leave over past any of its first eighteen digits. -/
theorem margin_le_mod : ∀ k < 18, 10 ^ 290 ≤ ceilingUnits % 10 ^ (291 + k) := by decide +kernel

/-- A decimal of few digits that is below the ceiling is clear of it. -/
theorem clear_of_short {d : Decimal} (few : d.coefficient ≤ 10 ^ 17) (below : d.size < ceiling) :
    d.Clear := by
  have few : (d.coefficient : ℚ) ≤ 10 ^ 17 := by exact_mod_cast few
  rw [Clear, margin]
  by_cases low : d.exponent ≤ 290
  · have whole : 10 ^ 17 * 10 ^ 290 + 10 ^ 290 ≤ ceilingUnits := by decide +kernel
    have whole : (10 : ℚ) ^ 17 * 10 ^ (290 : Int) + 10 ^ (290 : Int) ≤ ceiling := by
      rw [ceiling_eq]
      exact_mod_cast whole
    have size : d.size ≤ 10 ^ 17 * 10 ^ (290 : Int) :=
      mul_le_mul few (ten_zpow_le low) (ten_zpow_pos _).le (by positivity)
    linarith
  · obtain ⟨k, exponent⟩ : ∃ k : Nat, d.exponent = (291 + k : Nat) := ⟨(d.exponent - 291).toNat, by omega⟩
    have size : d.size = (d.coefficient * 10 ^ (291 + k) : Nat) := by
      rw [size, exponent, zpow_natCast]
      push_cast
      rfl
    rw [size, ceiling_eq] at below ⊢
    have below : d.coefficient * 10 ^ (291 + k) < ceilingUnits := by exact_mod_cast below
    have clear : d.coefficient * 10 ^ (291 + k) + 10 ^ 290 ≤ ceilingUnits := by
      by_cases large : 18 ≤ k
      · -- Beyond the last digit of the ceiling only zero is below it.
        have digits : 309 ≤ 291 + k := by omega
        have power : ceilingUnits < 10 ^ (291 + k) :=
          ceilingUnits_lt.trans_le (pow_le_pow_right₀ (by decide) digits)
        have zero : d.coefficient = 0 := by
          by_contra some
          have := Nat.le_mul_of_pos_left (10 ^ (291 + k)) (Nat.pos_of_ne_zero some)
          omega
        rw [zero, Nat.zero_mul, Nat.zero_add]
        exact (margin_le_mod 0 (by decide)).trans (Nat.mod_le _ _)
      · have rest := margin_le_mod k (by omega)
        have whole := Nat.div_add_mod ceilingUnits (10 ^ (291 + k))
        have units : d.coefficient ≤ ceilingUnits / 10 ^ (291 + k) :=
          (Nat.le_div_iff_mul_le (Nat.pow_pos (by decide))).2 below.le
        have product := Nat.mul_le_mul_right (10 ^ (291 + k)) units
        rw [Nat.mul_comm (ceilingUnits / _)] at product
        omega
    exact_mod_cast clear

theorem size_exact (negative : Bool) (mantissa : Nat) (exponent : Int) :
    (exact negative mantissa exponent).size = mantissa * 2 ^ exponent := by
  rw [exact]
  split
  next whole =>
    obtain ⟨k, rfl⟩ := Int.eq_ofNat_of_zero_le whole
    simp [size]
  next fraction =>
    obtain ⟨k, rfl⟩ : ∃ k : Nat, exponent = -(k : Int) := ⟨exponent.natAbs, by omega⟩
    have tens : (10 : ℚ) ^ k = 5 ^ k * 2 ^ k := by rw [← mul_pow]; norm_num
    simp only [size, Int.neg_neg, Int.toNat_natCast, Nat.pow_eq, Nat.cast_mul, Nat.cast_pow,
      Nat.cast_ofNat, zpow_neg, zpow_natCast, tens]
    field_simp

/-- The decimal that is equal to a finite double is clear, since the last unit of a large double is more
than twice the margin. -/
theorem clear_exact {negative : Bool} {mantissa : Nat} {exponent : Int} (hm : mantissa < 2 ^ 53)
    (he : exponent ≤ 971) : (exact negative mantissa exponent).Clear := by
  have units : 10 ^ 290 ≤ 2 ^ 970 := pow_le_pow_of_parts 10 (by decide : 10 ^ 29 ≤ 2 ^ 97) rfl rfl
  have units : 2 * margin ≤ 2 ^ (971 : Int) := by
    have half : margin ≤ 2 ^ (970 : Int) := by
      rw [margin]
      exact_mod_cast units
    calc 2 * margin ≤ 2 * 2 ^ (970 : Int) := mul_le_mul_of_nonneg_left half zero_le_two
      _ = 2 ^ (971 : Int) := (zpow_one_add₀ two_ne_zero 970).symm
  have hm : (mantissa : ℚ) + 1 ≤ 2 ^ 53 := by exact_mod_cast hm
  have size : (mantissa : ℚ) * 2 ^ exponent ≤ (2 ^ 53 - 1) * 2 ^ (971 : Int) :=
    mul_le_mul (by linarith) (zpow_le_zpow_right₀ one_le_two he) (two_zpow_pos _).le (by norm_num)
  rw [Clear, size_exact, ceiling]
  linarith

/-! ## The decimal of a double -/

/-- What is found on a grid is a neighbour of the double, and it reads as it. -/
theorem onGrid?_eq_some {x : Float} {negative : Bool} {num den : Nat} {grid : Int} {d : Decimal}
    (found : onGrid? x negative num den grid = some d) :
    d.negative = negative ∧ d.exponent = grid ∧ (d.toFloat == x) = true ∧
      d.coefficient ≤ (scale 10 num den (-grid)).1 / (scale 10 num den (-grid)).2 + 1 := by
  rw [onGrid?] at found
  generalize scale 10 num den (-grid) = quotient at found ⊢
  obtain ⟨n, m⟩ := quotient
  have reads := List.find?_some found
  obtain ⟨coefficient, neighbour, rfl⟩ := List.mem_map.1 (List.mem_of_find?_eq_some found)
  refine ⟨rfl, rfl, reads, ?_⟩
  dsimp only at neighbour ⊢
  split at neighbour <;> simp only [List.mem_cons, List.not_mem_nil, or_false] at neighbour <;> omega

/-- What is on a grid of few digits has few digits. -/
theorem coefficient_le_of_onGrid? {x : Float} {negative : Bool} {num den below : Nat} {d : Decimal}
    (num_pos : 0 < num) (pos : 0 < den) (few : below ≤ 16)
    (found : onGrid? x negative num den (leadingDigit num den - below) = some d) : d.coefficient ≤ 10 ^ 17 := by
  have scaled := @scale_quotient 10 num den (-(leadingDigit num den - below))
  have scaled_pos := @scale_pos 10 num den (-(leadingDigit num den - below)) (by decide) pos
  obtain ⟨-, -, -, neighbour⟩ := onGrid?_eq_some found
  generalize scale 10 num den (-(leadingDigit num den - below)) = quotient at neighbour scaled scaled_pos
  obtain ⟨n, m⟩ := quotient
  have scaled_pos' : (0 : ℚ) < m := by exact_mod_cast scaled_pos
  have digits : n / m < 10 ^ 17 := by
    have quotient : (n / m : ℚ) < 10 ^ 17 := by
      rw [scaled]
      calc (num / den : ℚ) * (10 : Nat) ^ (-(leadingDigit num den - below))
          < 10 ^ (leadingDigit num den + 1) * 10 ^ (-(leadingDigit num den - below)) :=
            mul_lt_mul_of_pos_right (lt_ten_zpow_leadingDigit num_pos pos) (ten_zpow_pos _)
        _ = 10 ^ ((below : Int) + 1) := by rw [← ten_zpow_add]; congr 1; omega
        _ ≤ 10 ^ (17 : Int) := ten_zpow_le (by omega)
        _ = 10 ^ 17 := by norm_num
    rw [div_lt_iff₀ scaled_pos'] at quotient
    exact (Nat.div_lt_iff_lt_mul scaled_pos).2 (by exact_mod_cast quotient)
  exact neighbour.trans digits

theorem negative_exact (negative : Bool) (mantissa : Nat) (exponent : Int) :
    (exact negative mantissa exponent).negative = negative := by
  rw [exact]
  split <;> rfl

/-- What is found on one of the grids has few digits, and it reads as the double. -/
theorem of_grids {x : Float} {negative : Bool} {mantissa : Nat} {exponent : Int} {d : Decimal}
    (nonzero : mantissa ≠ 0)
    (found : List.findSome?
      (onGrid? x negative (scale 2 mantissa 1 exponent).1 (scale 2 mantissa 1 exponent).2)
      ((List.range 17).map fun (below : Nat) =>
        leadingDigit (scale 2 mantissa 1 exponent).1 (scale 2 mantissa 1 exponent).2 - below) = some d) :
    d.coefficient ≤ 10 ^ 17 ∧ d.negative = negative ∧ (d.toFloat == x) = true := by
  obtain ⟨grid, listed, onGrid⟩ := List.exists_of_findSome?_eq_some found
  obtain ⟨below, range, rfl⟩ := List.mem_map.1 listed
  have few : below ≤ 16 := Nat.le_of_lt_succ (List.mem_range.1 range)
  have num_pos : 0 < (scale 2 mantissa 1 exponent).1 := by
    rw [scale]
    split
    next => exact Nat.mul_pos (Nat.pos_of_ne_zero nonzero) (Nat.two_pow_pos _)
    next => exact Nat.pos_of_ne_zero nonzero
  obtain ⟨same, -, reads, -⟩ := onGrid?_eq_some onGrid
  exact ⟨coefficient_le_of_onGrid? num_pos (scale_pos two_pos Nat.one_pos) few onGrid, same, reads⟩

/-- The decimal of a finite double is clear of the ceiling. It has a sign only if the double has. -/
theorem exists_clear {x : Float} (finite : isFinite x = true) :
    ∃ d, ofFloat? x = some d ∧ d.Clear ∧ (NonNegative x → d.Unsigned) := by
  obtain ⟨mantissa, exponent, shaped, hm, -, he⟩ := exists_shape finite
  rw [ofFloat?, shaped]
  dsimp only
  split
  next =>
    refine ⟨_, rfl, ?_, fun _ _ => rfl⟩
    exact clear_of_short (Nat.zero_le _) (by rw [size, Nat.cast_zero, zero_mul]; exact ceiling_pos)
  next nonzero =>
    have unsigned {d : Decimal} (same : d.negative = isNegative x) (h : NonNegative x) : d.Unsigned := by
      intro negative
      rw [← same, negative] at shaped
      exact absurd (h.mantissa shaped) nonzero
    refine ⟨_, rfl, ?_⟩
    cases found : List.findSome?
        (onGrid? x (isNegative x) (scale 2 mantissa 1 exponent).1 (scale 2 mantissa 1 exponent).2)
        ((List.range 17).map fun (below : Nat) =>
          leadingDigit (scale 2 mantissa 1 exponent).1 (scale 2 mantissa 1 exponent).2 - below) with
    | none => exact ⟨clear_exact hm he, unsigned (negative_exact ..)⟩
    | some d =>
      obtain ⟨short, same, reads⟩ := of_grids nonzero found
      exact ⟨clear_of_short short ((isFinite_toFloat_iff d).1 (isFinite_of_beq reads finite)), unsigned same⟩

theorem Unsigned.nonNegative_toFloat {d : Decimal} (h : d.Unsigned) : NonNegative d.toFloat := by
  have least (n m) : NonNegative (nearest false n m) := by
    rw [nearest]
    split
    next => exact nonNegative_ofMagnitude (Nat.zero_le _)
    next => exact nonNegative_ofMagnitude (Nat.min_le_right ..)
  rw [toFloat]
  dsimp only
  cases negative : d.negative with
  | true =>
    rw [if_pos (.inl (h negative))]
    exact nonNegative_negative_zero
  | false =>
    split
    next => exact least ..
    next =>
      split
      next => exact nonNegative_ofMagnitude (Nat.le_refl _)
      next => exact least ..

end GameScoring.Decimal

namespace GameScoring.Numeral
open Binary Decimal

/-- What is rounded to a number of places that a formula or a score uses is the decimal of a double. -/
theorem roundHalfUp_of_quantize? {x : Float} {places : Int} {d r : Decimal} (decimal : ofFloat? x = some d)
    (low : 0 ≤ places) (high : places ≤ 10) (quantized : d.quantize? roundingPrecision places = some r) :
    roundHalfUp x places = .ok r.toFloat := by
  have grid : gridFault? places = none := by
    rw [gridFault?, mostPlaces, mostPlacesBefore, if_neg (by omega), if_neg (by omega)]
  rw [roundHalfUp, grid, decimal]
  simp only [quantized]

/-- A finite double can be rounded to any number of places that a formula or a score uses. -/
theorem exists_roundHalfUp {x : Float} {places : Int} (h : isFinite x = true)
    (low : 0 ≤ places) (high : places ≤ 10) : ∃ y, roundHalfUp x places = .ok y := by
  obtain ⟨d, decimal, clear, -⟩ := exists_clear h
  have precise : (309 : Int) + places ≤ roundingPrecision := by
    show (309 : Int) + places ≤ 400
    omega
  obtain ⟨r, quantized⟩ := exists_quantize? clear.size_lt precise
  exact ⟨r.toFloat, roundHalfUp_of_quantize? decimal low high quantized⟩

/-- What is rounded is the decimal of a double. -/
theorem of_roundHalfUp {x y : Float} {places : Int} {d : Decimal} (decimal : ofFloat? x = some d)
    (rounded : roundHalfUp x places = .ok y) :
    ∃ r, d.quantize? roundingPrecision places = some r ∧ r.toFloat = y := by
  rw [roundHalfUp, decimal] at rounded
  cases grid : gridFault? places with
  | some fault =>
    rw [grid] at rounded
    cases rounded
  | none =>
    cases quantized : d.quantize? roundingPrecision places with
    | none =>
      simp only [grid, quantized] at rounded
      cases rounded
    | some r =>
      simp only [grid, quantized] at rounded
      cases rounded
      exact ⟨r, rfl, rfl⟩

/-- A finite double is rounded to one. -/
theorem isFinite_roundHalfUp {x y : Float} {places : Int} (finite : isFinite x = true) (low : 0 ≤ places)
    (rounded : roundHalfUp x places = .ok y) : isFinite y = true := by
  obtain ⟨d, decimal, clear, -⟩ := exists_clear finite
  obtain ⟨r, quantized, rfl⟩ := of_roundHalfUp decimal rounded
  obtain ⟨size, -⟩ := size_quantize? quantized
  have unit : (10 : ℚ) ^ (-places) < margin := zpow_lt_zpow_right₀ (by norm_num) (by omega)
  rw [Clear] at clear
  rw [isFinite_toFloat_iff]
  linarith

/-- A finite double that is not negative is rounded to one. -/
theorem finite_roundHalfUp {x y : Float} {places : Int} (finite : isFinite x = true) (h : NonNegative x)
    (low : 0 ≤ places) (rounded : roundHalfUp x places = .ok y) : isFinite y = true ∧ NonNegative y := by
  refine ⟨isFinite_roundHalfUp finite low rounded, ?_⟩
  obtain ⟨d, decimal, -, sign⟩ := exists_clear finite
  obtain ⟨r, quantized, rfl⟩ := of_roundHalfUp decimal rounded
  exact ((size_quantize? quantized).2 (sign h)).nonNegative_toFloat

/-- The difference of finite doubles that are not negative is finite. -/
theorem finite_difference {x y : Float} (hx : isFinite x = true) (hy : isFinite y = true)
    (x_least : NonNegative x) (y_least : NonNegative y) :
    ∃ z, difference x y = .ok z ∧ isFinite z = true := by
  obtain ⟨a, a_decimal, a_clear, a_sign⟩ := exists_clear hx
  obtain ⟨b, b_decimal, b_clear, b_sign⟩ := exists_clear hy
  refine ⟨_, by rw [difference, a_decimal, b_decimal], (isFinite_toFloat_iff _).2 ?_⟩
  have larger := size_difference (a_sign x_least) (b_sign y_least)
  have clear : max a.size b.size + margin ≤ ceiling := by
    rw [max_add]
    exact max_le a_clear b_clear
  have limited := @size_limit differencePrecision (by decide) (a - b)
  have digits : (a - b).size * 10 ^ (1 - (differencePrecision : Int)) < margin := by
    have below : (a - b).size < 10 ^ (309 : Int) := by
      have := ceiling_lt_ten
      have : 0 < margin := ten_zpow_pos _
      linarith
    calc (a - b).size * 10 ^ (1 - (differencePrecision : Int)) < 10 ^ (309 : Int) * 10 ^ (-27 : Int) :=
          mul_lt_mul_of_pos_right below (ten_zpow_pos _)
      _ = 10 ^ (282 : Int) := by rw [← ten_zpow_add]; rfl
      _ ≤ margin := ten_zpow_le (by decide)
  linarith

end GameScoring.Numeral
