import Mathlib
import GameScoring.Proofs.Numeral.Number

/-!
# The closest double

The nearest double is found by its binade and by rounding to a whole mantissa. It is the one that no finite double is
closer than, and of two that are equally close the one whose last bit is not set.
-/
namespace GameScoring.Binary

/-- A finite double is the closest to a number if no finite double is closer. Of two that are equally close it is the
one whose last bit is not set. -/
structure Closest (q : ℚ) (x : Float) : Prop where
  finite : isFinite x = true
  least : ∀ y, isFinite y = true → |q - number x| ≤ |q - number y|
  even : ∀ y, isFinite y = true → number y ≠ number x → |q - number y| = |q - number x| → x.toBits.toNat % 2 = 0

variable {negative negative' : Bool} {place other : Nat} {q : ℚ}

/-! ## Whole numbers -/

/-- Another whole number is not closer than the one that is rounded to, and it is as close only if that one is even. -/
theorem Rounds.nearest_whole {units : Nat} (h : Rounds q units) (whole : Int) :
    |q - units| ≤ |q - whole| ∧ (whole ≠ units → |q - whole| = |q - units| → units % 2 = 0) := by
  obtain ⟨least, most, even⟩ := h
  have near : |q - units| ≤ 1 / 2 := abs_le.2 ⟨by linarith, by linarith⟩
  rcases eq_or_ne whole units with rfl | distinct
  · rw [Int.cast_natCast]
    exact ⟨le_rfl, fun other => absurd rfl other⟩
  · have apart : (1 : ℚ) ≤ |(whole : ℚ) - units| := by
      have gap := Int.one_le_abs (sub_ne_zero.2 distinct)
      exact_mod_cast gap
    have far : 1 / 2 ≤ |q - whole| := by
      have triangle := abs_sub_le (whole : ℚ) q units
      rw [abs_sub_comm (whole : ℚ) q] at triangle
      linarith
    refine ⟨near.trans far, fun _ tie => even ?_⟩
    have half : |q - units| = 1 / 2 := le_antisymm near (far.trans_eq tie)
    rcases abs_eq (by norm_num) |>.1 half with above | below
    · exact .inr (by linarith)
    · exact .inl (by linarith)

/-! ## Places -/

theorem valueAt_placeOf {exponent : Int} {mantissa : Nat} (binade : Binade q exponent)
    (rounds : Rounds (q / 2 ^ exponent) mantissa) : valueAt (placeOf exponent mantissa) = mantissa * 2 ^ exponent := by
  have bounded := binade.bounded
  have leading : exponent = -1074 ∨ leadingUnit ≤ mantissa :=
    binade.leading.imp_right fun least => (Rounds.whole leadingUnit).mono rounds least
  have small : mantissa ≤ 2 * leadingUnit := by
    have whole := Rounds.whole (2 * leadingUnit)
    push_cast at whole
    exact rounds.mono whole binade.below.le
  rcases small.lt_or_eq with small | rfl
  · obtain ⟨mantissa_eq, exponent_eq⟩ := at_placeOf bounded leading small
    rw [valueAt, mantissa_eq, exponent_eq]
  · -- A mantissa that was rounded up to the next power of two stands at the next exponent.
    have carried : placeOf exponent (2 * leadingUnit) = placeOf (exponent + 1) leadingUnit := by
      rw [placeOf, placeOf, show (exponent + 1 + 1074).toNat = (exponent + 1074).toNat + 1 by omega]
      ring
    have unit : 0 < leadingUnit := by decide
    obtain ⟨mantissa_eq, exponent_eq⟩ := @at_placeOf (exponent + 1) leadingUnit (by omega) (.inr le_rfl) (by omega)
    rw [carried, valueAt, mantissa_eq, exponent_eq, zpow_add_one₀ two_ne_zero]
    push_cast
    ring

/-- A whole number that a mantissa can be is a double itself. -/
theorem IsNearest.whole {n : Nat} (h : IsNearest n place) (small : n < 2 ^ 53) :
    place < infinityMagnitude ∧ valueAt place = n := by
  obtain @⟨exponent, mantissa, binade, rounds⟩ := h
  have unit := two_zpow_pos exponent
  have units : (leadingUnit : ℚ) = 2 ^ 52 := by norm_num [leadingUnit]
  have bounded := binade.bounded
  have fine : exponent ≤ 0 := by
    by_contra coarse
    have leading := (le_div_iff₀ unit).1 (binade.leading.resolve_left (by omega))
    have power : (2 : ℚ) ^ (1 : Int) ≤ 2 ^ exponent := zpow_le_zpow_right₀ one_le_two (by omega)
    have small : (n : ℚ) < 2 ^ 53 := by exact_mod_cast small
    rw [units] at leading
    rw [zpow_one] at power
    linarith
  obtain ⟨k, rfl⟩ : ∃ k : Nat, exponent = -k := ⟨(-exponent).toNat, by omega⟩
  have scaled : (n : ℚ) / 2 ^ (-(k : Int)) = (n * 2 ^ k : Nat) := by
    rw [zpow_neg, zpow_natCast, div_inv_eq_mul]
    push_cast
    rfl
  have same : mantissa = n * 2 ^ k := by
    rw [scaled] at rounds
    exact Nat.le_antisymm (rounds.mono (.whole _) le_rfl) ((Rounds.whole _).mono rounds le_rfl)
  have reached : placeOf (-k) mantissa < infinityMagnitude := by
    have below := binade.below
    rw [scaled, ← same] at below
    have below : mantissa < 2 * leadingUnit := by exact_mod_cast below
    have lead : 0 < leadingUnit := by decide
    have shift : (-(k : Int) + 1074).toNat * leadingUnit ≤ 1074 * leadingUnit := Nat.mul_le_mul_right _ (by omega)
    rw [placeOf, infinityMagnitude]
    omega
  rw [Nat.min_eq_left reached.le]
  refine ⟨reached, ?_⟩
  rw [valueAt_placeOf binade rounds, same, ← scaled, div_mul_cancel₀ _ unit.ne']

/-- From one double to the next it is one unit of the mantissa, also where the next one has another exponent. -/
theorem valueAt_succ (place : Nat) : valueAt (place + 1) = valueAt place + 2 ^ exponentAt place := by
  have unit := two_zpow_pos (exponentAt place)
  obtain ⟨small, leading⟩ := mantissaAt_spec place
  have whole : (mantissaAt place : ℚ) + 1 ≤ 2 * leadingUnit := by exact_mod_cast small
  obtain ⟨q, scaled⟩ : ∃ q : ℚ, q / 2 ^ exponentAt place = mantissaAt place + 3 / 4 :=
    ⟨_, mul_div_cancel_right₀ _ unit.ne'⟩
  -- The number three quarters of a unit further on is rounded up to the next double.
  have binade : Binade q (exponentAt place) := by
    refine ⟨by rw [exponentAt]; omega, ?_, by rw [scaled]; linarith⟩
    rcases leading with low | leading
    · exact .inl (by rw [exponentAt, low]; rfl)
    · have least : (leadingUnit : ℚ) ≤ mantissaAt place := by exact_mod_cast leading
      exact .inr (by rw [scaled]; linarith)
  have rounds : Rounds (q / 2 ^ exponentAt place) (mantissaAt place + 1) := by
    rw [scaled]
    refine .of_near ?_
    rw [Nat.cast_add_one, add_sub_add_left_eq_sub]
    norm_num
  have next : placeOf (exponentAt place) (mantissaAt place + 1) = place + 1 := by
    rw [placeOf, ← Nat.add_assoc]
    exact congrArg (· + 1) (placeOf_at place)
  rw [← next, valueAt_placeOf binade rounds, valueAt]
  push_cast
  ring

/-- A double lies on the grid of an exponent, or below all mantissas that have their leading bit at it. -/
theorem on_grid_or_below (exponent : Int) (place : Nat) :
    (∃ whole : Int, valueAt place = whole * 2 ^ exponent) ∨
      exponentAt place < exponent ∧ valueAt place < leadingUnit * 2 ^ exponent := by
  by_cases fine : exponent ≤ exponentAt place
  · obtain ⟨k, gap⟩ : ∃ k : Nat, exponentAt place = k + exponent := ⟨(exponentAt place - exponent).toNat, by omega⟩
    refine .inl ⟨mantissaAt place * 2 ^ k, ?_⟩
    rw [valueAt, gap, zpow_add₀ two_ne_zero, zpow_natCast]
    push_cast
    ring
  · refine .inr ⟨not_le.1 fine, ?_⟩
    have small : (mantissaAt place : ℚ) < 2 * leadingUnit := by exact_mod_cast (mantissaAt_spec place).1
    calc valueAt place < 2 * leadingUnit * 2 ^ exponentAt place := mul_lt_mul_of_pos_right small (two_zpow_pos _)
      _ = leadingUnit * 2 ^ (exponentAt place + 1) := by rw [zpow_add_one₀ two_ne_zero]; ring
      _ ≤ leadingUnit * 2 ^ exponent :=
        mul_le_mul_of_nonneg_left (zpow_le_zpow_right₀ one_le_two (by omega)) (Nat.cast_nonneg _)

/-- No double without a sign is closer than the nearest one, and another is as close only if the nearest is even. -/
theorem IsNearest.least (h : IsNearest q place) (finite : place < infinityMagnitude) (other : Nat) :
    |q - valueAt place| ≤ |q - valueAt other| ∧
      (valueAt other ≠ valueAt place → |q - valueAt other| = |q - valueAt place| → place % 2 = 0) := by
  obtain @⟨exponent, mantissa, binade, rounds⟩ := h
  have reached : placeOf exponent mantissa < infinityMagnitude := by omega
  have unit := two_zpow_pos exponent
  have parity : placeOf exponent mantissa % 2 = mantissa % 2 := by
    rw [placeOf]
    show ((exponent + 1074).toNat * 4503599627370496 + mantissa) % 2 = mantissa % 2
    omega
  -- On the grid of the exponent distances are those of whole numbers.
  have scaled (whole : ℚ) : |q - whole * 2 ^ exponent| = |q / 2 ^ exponent - whole| * 2 ^ exponent := by
    rw [← abs_of_pos unit, ← abs_mul, sub_mul, abs_of_pos unit, div_mul_cancel₀ _ unit.ne']
  rw [Nat.min_eq_left reached.le, valueAt_placeOf binade rounds, parity]
  rcases on_grid_or_below exponent other with ⟨whole, value⟩ | ⟨lower, below⟩
  · obtain ⟨near, even⟩ := rounds.nearest_whole whole
    rw [value, scaled, scaled]
    refine ⟨mul_le_mul_of_nonneg_right near unit.le, fun distinct tie => even ?_ (mul_right_cancel₀ unit.ne' tie)⟩
    rintro rfl
    exact distinct (by rw [Int.cast_natCast])
  · have leading : (leadingUnit : ℚ) * 2 ^ exponent ≤ q := by
      have bounded : -1074 ≤ exponentAt other := by rw [exponentAt]; omega
      exact (le_div_iff₀ unit).1 (binade.leading.resolve_left (by omega))
    have near := mul_le_mul_of_nonneg_right (rounds.nearest_whole leadingUnit).1 unit.le
    rw [← scaled, ← scaled, Int.cast_natCast, abs_of_nonneg (sub_nonneg.2 leading)] at near
    have strict : |q - mantissa * 2 ^ exponent| < |q - valueAt other| := by
      rw [abs_of_pos (by linarith : 0 < q - valueAt other)]
      linarith
    exact ⟨strict.le, fun _ tie => absurd tie strict.ne'⟩

/-! ## Doubles -/

theorem toBits_mod_two (h : place ≤ infinityMagnitude) : (ofMagnitude negative place).toBits.toNat % 2 = place % 2 := by
  rw [toBits_ofMagnitude h]
  show (place + if negative then 9223372036854775808 else 0) % 2 = place % 2
  split <;> omega

theorem abs_sub_withSign (negative : Bool) (q r : ℚ) : |withSign negative q - withSign negative r| = |q - r| := by
  cases negative with
  | false => rfl
  | true => rw [withSign, withSign, if_pos rfl, if_pos rfl, neg_sub_neg, abs_sub_comm]

/-- A double of the other sign is at least as far away as zero is. -/
theorem abs_sub_opposite (least : 0 ≤ q) (h : negative ≠ negative') :
    |withSign negative q - withSign negative' (valueAt other)| = q + valueAt other := by
  have value := valueAt_nonneg other
  obtain rfl : negative' = !negative := by cases negative <;> cases negative' <;> simp_all
  rw [withSign_not, sub_neg_eq_add]
  have sum : withSign negative q + withSign negative (valueAt other) = withSign negative (q + valueAt other) := by
    cases negative with
    | false => rfl
    | true => exact (neg_add ..).symm
  rw [sum, abs_withSign _ (add_nonneg least value)]

/-- The nearest double with a sign is the closest one to the number with this sign. -/
theorem IsNearest.closest (negative : Bool) (h : IsNearest q place) (least : 0 ≤ q)
    (finite : place < infinityMagnitude) :
    Closest (withSign negative q) (ofMagnitude negative place) := by
  have number_eq := @number_ofMagnitude negative place finite
  have zero := h.least finite 0
  rw [valueAt_zero, sub_zero, abs_of_nonneg least] at zero
  refine ⟨(isFinite_ofMagnitude finite.le).2 finite, fun y finite' => ?_, fun y finite' distinct tie => ?_⟩ <;>
    obtain ⟨negative', other, less, rfl⟩ := exists_ofMagnitude finite'
  · rw [number_eq, number_ofMagnitude less, abs_sub_withSign]
    by_cases same : negative = negative'
    · subst same
      rw [abs_sub_withSign]
      exact (h.least finite other).1
    · rw [abs_sub_opposite least same]
      exact zero.1.trans (le_add_of_nonneg_right (valueAt_nonneg other))
  · rw [toBits_mod_two finite.le]
    rw [number_eq, number_ofMagnitude less] at distinct tie
    rw [abs_sub_withSign] at tie
    by_cases same : negative = negative'
    · subst same
      rw [abs_sub_withSign] at tie
      exact (h.least finite other).2 (fun values => distinct (by rw [values])) tie
    · -- Only a zero of the other sign is as close, and it stands for the number that the zero of this sign does.
      rw [abs_sub_opposite least same] at tie
      have value := valueAt_nonneg other
      have none : valueAt other = 0 := by linarith [zero.1]
      rw [none, withSign_zero] at distinct
      refine zero.2 (fun values => distinct ?_) (by linarith)
      rw [← values, withSign_zero]

/-! ## Integers -/

/-- The least size of an integer without a finite double. It is half a unit past the largest one. -/
def integerLimit : Nat := 2 ^ 1024 - 2 ^ 970

theorem ceiling_eq_integerLimit : ceiling = (integerLimit : ℚ) := by
  have limit : integerLimit = (2 ^ 54 - 1) * 2 ^ 970 := by rw [integerLimit, Nat.sub_mul, ← pow_add, one_mul]
  have halves : (2 ^ 53 - 1 / 2 : ℚ) * 2 = ((2 ^ 54 - 1 : Nat) : ℚ) := by norm_num
  rw [ceiling, limit, show (971 : Int) = 1 + (970 : Nat) from rfl, zpow_add₀ two_ne_zero, zpow_one, zpow_natCast,
    ← mul_assoc, halves, Nat.cast_mul, Nat.cast_pow, Nat.cast_ofNat]

/-- An integer below the limit has a closest double, and there is none for another. -/
theorem ofInt?_cases (i : Int) :
    (∃ x, ofInt? i = some x ∧ i.natAbs < integerLimit ∧ Closest i x) ∨
      ofInt? i = none ∧ integerLimit ≤ i.natAbs := by
  obtain ⟨place, near, rounded⟩ := exists_nearest (decide (i < 0)) i.natAbs Nat.one_pos
  have finite_iff := @isFinite_nearest_iff i.natAbs 1 (decide (i < 0)) Nat.one_pos
  rw [Nat.cast_one, div_one] at rounded finite_iff
  rw [ceiling_eq_integerLimit, Nat.cast_lt] at finite_iff
  rw [ofInt?]
  by_cases small : i.natAbs < integerLimit
  · have finite := finite_iff.2 small
    have signed : withSign (decide (i < 0)) (i.natAbs : ℚ) = i := by
      rw [withSign, Nat.cast_natAbs]
      by_cases negative : i < 0
      · simp [negative, abs_of_neg]
      · simp [negative, abs_of_nonneg (not_lt.1 negative)]
    have closest := rounded.closest (decide (i < 0)) (Nat.cast_nonneg _)
      ((isFinite_ofMagnitude rounded.le_infinity).1 (near ▸ finite))
    rw [signed, ← near] at closest
    exact .inl ⟨_, if_pos finite, small, closest⟩
  · exact .inr ⟨if_neg (mt finite_iff.1 small), not_lt.1 small⟩

end GameScoring.Binary
