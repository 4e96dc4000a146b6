import Mathlib
import GameScoring.Proofs.Numeral.Finite

/-!
# When the nearest double is finite

A quotient is rounded to infinity if it is at least half a unit past the largest double, and
to a finite double if it is less.
-/
namespace GameScoring.Binary
open Float.Model.UnpackedFloat
open Float.Model.Format (binary64)

/-! ## Rounding a quotient -/

section RoundQuotient

variable {tie : Tie} {n d N : Nat}

theorem roundQuotient_le (pos : 0 < d) (h : n ≤ N * d) : roundQuotient tie n d ≤ N := by
  have whole : n / d ≤ N := Nat.div_le_of_le_mul (by rwa [Nat.mul_comm])
  have rest := Nat.div_add_mod n d
  have up : 0 < n % d → n / d < N := by
    intro left
    by_contra most
    have same : n / d = N := by omega
    rw [same, Nat.mul_comm] at rest
    omega
  unfold roundQuotient
  dsimp only
  split
  next => exact whole
  next more =>
    have above := up (by omega)
    split
    next => omega
    next => cases tie <;> dsimp only <;> omega

theorem le_roundQuotient (pos : 0 < d) (h : N * d ≤ n) : N ≤ roundQuotient tie n d := by
  have whole : N ≤ n / d := (Nat.le_div_iff_mul_le pos).2 h
  unfold roundQuotient
  dsimp only
  split
  next => exact whole
  next =>
    split
    next => omega
    next => cases tie <;> dsimp only <;> omega

/-- What is less than half a unit below a number is rounded to less than it. -/
theorem roundQuotient_lt (pos : 0 < d) (h : 2 * n + d < 2 * (N * d)) : roundQuotient tie n d < N := by
  have whole : n / d < N := Nat.div_lt_of_lt_mul (by rw [Nat.mul_comm]; omega)
  have rest := Nat.div_add_mod n d
  unfold roundQuotient
  dsimp only
  split
  next => exact whole
  next more =>
    have last : n / d + 1 ≠ N := by
      rintro rfl
      rw [Nat.add_mul, Nat.one_mul, Nat.mul_comm (n / d)] at h
      omega
    split
    next => omega
    next => cases tie <;> dsimp only <;> omega

/-- What is half a unit below an even number is rounded to it. -/
theorem le_roundQuotient_of_half (pos : 0 < d) (even : N % 2 = 0) (h : 2 * (N * d) ≤ 2 * n + d) :
    N ≤ roundQuotient .even n d := by
  by_cases above : N * d ≤ n
  · exact le_roundQuotient pos above
  · have whole : n / d < N := Nat.div_lt_of_lt_mul (by rw [Nat.mul_comm]; omega)
    have rest := Nat.div_add_mod n d
    have small := Nat.mod_lt n pos
    have last : n / d + 1 = N := by
      by_contra other
      have product : (n / d + 2) * d ≤ N * d := Nat.mul_le_mul_right d (by omega)
      rw [Nat.add_mul, Nat.mul_comm (n / d)] at product
      omega
    have half : d ≤ 2 * (n % d) := by
      rw [← last, Nat.add_mul, Nat.one_mul, Nat.mul_comm (n / d)] at h
      omega
    unfold roundQuotient
    dsimp only
    rw [if_neg (by omega)]
    split <;> omega

end RoundQuotient

/-! ## Scaling and the leading bit -/

theorem scale_pos {base num den : Nat} {shift : Int} (base_pos : 0 < base) (pos : 0 < den) :
    0 < (scale base num den shift).2 := by
  rw [scale]
  split
  next => exact pos
  next => exact Nat.mul_pos pos (Nat.pow_pos base_pos)

theorem scale_quotient {base : Nat} (num den : Nat) (shift : Int) :
    ((scale base num den shift).1 : ℚ) / (scale base num den shift).2 = num / den * (base : ℚ) ^ shift := by
  rw [scale]
  split
  next up =>
    obtain ⟨k, rfl⟩ := Int.eq_ofNat_of_zero_le up
    simp only [Int.toNat_natCast, Nat.pow_eq, Nat.cast_mul, Nat.cast_pow, zpow_natCast]
    ring
  next down =>
    obtain ⟨k, rfl⟩ : ∃ k : Nat, shift = -(k : Int) := ⟨shift.natAbs, by omega⟩
    simp only [Int.neg_neg, Int.toNat_natCast, Nat.pow_eq, Nat.cast_mul, Nat.cast_pow, zpow_neg, zpow_natCast]
    rw [div_mul_eq_div_div, div_eq_mul_inv _ ((base : ℚ) ^ k)]

theorem two_zpow_pos (k : Int) : (0 : ℚ) < 2 ^ k := by positivity

theorem two_zpow_log2 {n : Nat} (pos : 0 < n) :
    (2 : ℚ) ^ (n.log2 : Int) ≤ n ∧ (n : ℚ) < 2 ^ ((n.log2 : Int) + 1) := by
  have least : (2 : ℚ) ^ n.log2 ≤ n := by exact_mod_cast Nat.log2_self_le (by omega)
  have most : (n : ℚ) < 2 ^ (n.log2 + 1) := by exact_mod_cast Nat.lt_log2_self
  exact ⟨by exact_mod_cast least, by exact_mod_cast most⟩

/-- A quotient in units of a power of two. -/
theorem scaled_quotient {num den : Nat} (pos : 0 < den) (exponent : Int) :
    ((scale 2 num den (-exponent)).1 : ℚ) / (scale 2 num den (-exponent)).2 = num / den / 2 ^ exponent ∧
      (0 : ℚ) < (scale 2 num den (-exponent)).2 := by
  have scaled := @scale_quotient 2 num den (-exponent)
  rw [zpow_neg, ← div_eq_mul_inv, Nat.cast_ofNat] at scaled
  exact ⟨scaled, by exact_mod_cast scale_pos two_pos pos⟩

/-- The leading bit tells the size of a quotient up to a factor of two. -/
theorem leadingBit_spec {num den : Nat} (num_pos : 0 < num) (pos : 0 < den) :
    (2 : ℚ) ^ leadingBit num den ≤ num / den ∧ (num / den : ℚ) < 2 ^ (leadingBit num den + 1) := by
  obtain ⟨num_least, num_most⟩ := two_zpow_log2 num_pos
  obtain ⟨den_least, den_most⟩ := two_zpow_log2 pos
  have den_pos : (0 : ℚ) < den := by exact_mod_cast pos
  have lower : (2 : ℚ) ^ ((num.log2 : Int) - den.log2 - 1) < num / den := by
    rw [lt_div_iff₀ den_pos]
    calc (2 : ℚ) ^ ((num.log2 : Int) - den.log2 - 1) * den
        < 2 ^ ((num.log2 : Int) - den.log2 - 1) * 2 ^ ((den.log2 : Int) + 1) :=
          mul_lt_mul_of_pos_left den_most (two_zpow_pos _)
      _ = 2 ^ (num.log2 : Int) := by rw [← zpow_add₀ two_ne_zero]; congr 1; omega
      _ ≤ num := num_least
  have upper : (num / den : ℚ) < 2 ^ ((num.log2 : Int) - den.log2 + 1) := by
    rw [div_lt_iff₀ den_pos]
    calc (num : ℚ) < 2 ^ ((num.log2 : Int) + 1) := num_most
      _ = 2 ^ ((num.log2 : Int) - den.log2 + 1) * 2 ^ (den.log2 : Int) := by
        rw [← zpow_add₀ two_ne_zero]; congr 1; omega
      _ ≤ 2 ^ ((num.log2 : Int) - den.log2 + 1) * den :=
        mul_le_mul_of_nonneg_left den_least (two_zpow_pos _).le
  obtain ⟨scaled, scaled_pos⟩ := @scaled_quotient num _ pos ((num.log2 : Int) - den.log2)
  have guess_pos := two_zpow_pos ((num.log2 : Int) - den.log2)
  have decides : (scale 2 num den (-((num.log2 : Int) - den.log2))).2 ≤
      (scale 2 num den (-((num.log2 : Int) - den.log2))).1 ↔
      (2 : ℚ) ^ ((num.log2 : Int) - den.log2) ≤ num / den := by
    rw [← Nat.cast_le (α := ℚ), ← one_le_div scaled_pos, scaled, one_le_div guess_pos]
  rw [leadingBit]
  dsimp only
  split
  next whole => exact ⟨decides.1 whole, upper⟩
  next less =>
    rw [Int.sub_add_cancel]
    exact ⟨lower.le, not_le.1 fun whole => less (decides.2 whole)⟩

/-! ## The largest finite doubles -/

/-- The bits of a double up to infinity are its magnitude and its sign. -/
theorem toBits_ofMagnitude {negative : Bool} {magnitude : Nat} (h : magnitude ≤ infinityMagnitude) :
    (ofMagnitude negative magnitude).toBits.toNat = magnitude + if negative then signBit else 0 := by
  have largest : magnitude ≤ 2047 * 4503599627370496 := h
  have bits : (UInt64.ofNat (magnitude + if negative then signBit else 0)).toNat =
      magnitude + if negative then signBit else 0 := by
    rw [UInt64.toNat_ofNat']
    apply Nat.mod_eq_of_lt
    cases negative
    · simp; omega
    · simp [signBit]; omega
  rw [ofMagnitude]
  generalize UInt64.ofNat (magnitude + if negative then signBit else 0) = u at bits ⊢
  rw [← bits]
  -- Only the bits of a number that is not one are packed differently.
  have number : isNaNBits (show BitVec binary64.numBits from u.toBitVec) = false := by
    rw [isNaNBits, decide_eq_false_iff_not]
    rintro ⟨full, fraction⟩
    have full := congrArg BitVec.toNat full
    rw [toNat_unpackExponent] at full
    apply fraction
    apply BitVec.eq_of_toNat_eq
    rw [toNat_unpackMantissa]
    have full : u.toNat / 4503599627370496 % 2048 = 2047 := full
    show u.toNat % 4503599627370496 = 0
    cases negative
    · simp at bits
      omega
    · simp [signBit] at bits
      omega
  show (pack binary64 (unpack binary64 u.toBitVec)).toNat = u.toBitVec.toNat
  rw [pack_unpack, if_neg]
  rw [number]
  decide

theorem isFinite_ofMagnitude {negative : Bool} {magnitude : Nat} (h : magnitude ≤ infinityMagnitude) :
    isFinite (ofMagnitude negative magnitude) = true ↔ magnitude < infinityMagnitude := by
  rw [isFinite_iff_field, field, toBits_ofMagnitude h]
  have largest : magnitude ≤ 2047 * 4503599627370496 := h
  show (magnitude + if negative then 9223372036854775808 else 0) / 4503599627370496 % 2048 ≠ 2047 ↔
    magnitude < 2047 * 4503599627370496
  cases negative <;> simp <;> omega

/-- Half a unit past the largest double: the least number that is rounded to infinity. -/
def ceiling : ℚ := (2 ^ 53 - 1 / 2) * 2 ^ (971 : Int)

theorem ceiling_lt : ceiling < 2 ^ (1024 : Int) := by
  have power : (2 : ℚ) ^ (1024 : Int) = 2 ^ 53 * 2 ^ (971 : Int) := by
    rw [← zpow_natCast, ← zpow_add₀ two_ne_zero]
    rfl
  rw [power, ceiling]
  exact mul_lt_mul_of_pos_right (by norm_num) (two_zpow_pos _)

theorem lt_ceiling : 2 ^ (1023 : Int) < ceiling := by
  have power : (2 : ℚ) ^ (1023 : Int) = 2 ^ 52 * 2 ^ (971 : Int) := by
    rw [← zpow_natCast, ← zpow_add₀ two_ne_zero]
    rfl
  rw [power, ceiling]
  exact mul_lt_mul_of_pos_right (by norm_num) (two_zpow_pos _)

theorem ceiling_pos : 0 < ceiling := (two_zpow_pos 1023).trans lt_ceiling

/-- The ceiling is half a unit below a power of two. -/
theorem ceiling_eq_half_below : ceiling = (((2 ^ 53 : Nat) : ℚ) - 1 / 2) * 2 ^ (971 : Int) := by
  rw [ceiling, Nat.cast_pow, Nat.cast_ofNat]

/-- The magnitude of a double that is nearest to a quotient with a leading bit. -/
def magnitude (num den : Nat) (lead : Int) : Nat :=
  let exponent := max (-1074) (lead - 52)
  (exponent + 1074).toNat * leadingUnit +
    roundQuotient .even (scale 2 num den (-exponent)).1 (scale 2 num den (-exponent)).2

section Magnitude

variable {num den : Nat} {lead : Int} (pos : 0 < den) (least : (2 : ℚ) ^ lead ≤ num / den)
  (most : (num / den : ℚ) < 2 ^ (lead + 1))
include pos

/-- A scaled quotient that is compared with a number. -/
theorem le_scaled_iff {exponent : Int} {N : Nat} :
    N * (scale 2 num den (-exponent)).2 ≤ (scale 2 num den (-exponent)).1 ↔
      (N : ℚ) * 2 ^ exponent ≤ num / den := by
  obtain ⟨scaled, scaled_pos⟩ := scaled_quotient pos exponent
  rw [← le_div_iff₀ (two_zpow_pos exponent), ← scaled, le_div_iff₀ scaled_pos]
  exact_mod_cast Iff.rfl

/-- A scaled quotient that is compared with half a unit below a number. -/
theorem half_below_iff {exponent : Int} {N : Nat} :
    2 * (N * (scale 2 num den (-exponent)).2) ≤
      2 * (scale 2 num den (-exponent)).1 + (scale 2 num den (-exponent)).2 ↔
      ((N : ℚ) - 1 / 2) * 2 ^ exponent ≤ num / den := by
  obtain ⟨scaled, scaled_pos⟩ := scaled_quotient pos exponent
  rw [← le_div_iff₀ (two_zpow_pos exponent), ← scaled, le_div_iff₀ scaled_pos]
  constructor
  · intro h
    have h : (2 : ℚ) * (N * (scale 2 num den (-exponent)).2) ≤
        2 * (scale 2 num den (-exponent)).1 + (scale 2 num den (-exponent)).2 := by exact_mod_cast h
    linarith
  · intro h
    have h : (2 : ℚ) * (N * (scale 2 num den (-exponent)).2) ≤
        2 * (scale 2 num den (-exponent)).1 + (scale 2 num den (-exponent)).2 := by linarith
    exact_mod_cast h

theorem scaled_le_iff {exponent : Int} {N : Nat} :
    (scale 2 num den (-exponent)).1 ≤ N * (scale 2 num den (-exponent)).2 ↔
      (num / den : ℚ) ≤ N * 2 ^ exponent := by
  obtain ⟨scaled, scaled_pos⟩ := scaled_quotient pos exponent
  rw [← div_le_iff₀ (two_zpow_pos exponent), ← scaled, div_le_iff₀ scaled_pos]
  exact_mod_cast Iff.rfl

include least most

theorem magnitude_lt (small : (num / den : ℚ) < ceiling) : magnitude num den lead < infinityMagnitude := by
  have below : lead < 1024 := by
    have power : (2 : ℚ) ^ lead < 2 ^ (1024 : Int) :=
      least.trans_lt (small.trans ceiling_lt)
    exact (zpow_lt_zpow_iff_right₀ one_lt_two).1 power
  have limit : infinityMagnitude = 2047 * leadingUnit := rfl
  have unit : 2 ^ 53 = 2 * leadingUnit := by decide
  rw [magnitude]
  by_cases last : lead = 1023
  · subst last
    have rounded : roundQuotient .even (scale 2 num den (-971)).1 (scale 2 num den (-971)).2 < 2 ^ 53 := by
      apply roundQuotient_lt (scale_pos two_pos pos)
      by_contra half
      rw [ceiling_eq_half_below] at small
      exact absurd ((half_below_iff pos).1 (not_lt.1 half)) (not_le.2 small)
    show 2045 * leadingUnit + roundQuotient .even (scale 2 num den (-971)).1 (scale 2 num den (-971)).2 < _
    omega
  · have rounded : roundQuotient .even (scale 2 num den (-max (-1074) (lead - 52))).1
        (scale 2 num den (-max (-1074) (lead - 52))).2 ≤ 2 ^ 53 := by
      apply roundQuotient_le (scale_pos two_pos pos)
      rw [scaled_le_iff pos]
      calc (num / den : ℚ) ≤ 2 ^ (lead + 1) := most.le
        _ ≤ 2 ^ (53 + max (-1074) (lead - 52)) := zpow_le_zpow_right₀ one_le_two (by omega)
        _ = ((2 ^ 53 : Nat) : ℚ) * 2 ^ max (-1074) (lead - 52) := by
          rw [zpow_add₀ two_ne_zero]
          norm_num
    have exponents : (max (-1074) (lead - 52) + 1074).toNat ≤ 2044 := by omega
    have shift := Nat.mul_le_mul_right leadingUnit exponents
    omega

theorem le_magnitude (large : ceiling ≤ (num / den : ℚ)) : infinityMagnitude ≤ magnitude num den lead := by
  have above : 1023 ≤ lead := by
    have power : (2 : ℚ) ^ (1023 : Int) < 2 ^ (lead + 1) :=
      (lt_ceiling.trans_le large).trans most
    have := (zpow_lt_zpow_iff_right₀ one_lt_two).1 power
    omega
  have limit : infinityMagnitude = 2047 * leadingUnit := rfl
  have unit : 2 ^ 53 = 2 * leadingUnit := by decide
  rw [magnitude]
  by_cases last : lead = 1023
  · subst last
    have rounded : 2 ^ 53 ≤ roundQuotient .even (scale 2 num den (-971)).1 (scale 2 num den (-971)).2 := by
      apply le_roundQuotient_of_half (scale_pos two_pos pos) (by decide)
      rw [ceiling_eq_half_below] at large
      exact (half_below_iff pos).2 large
    show _ ≤ 2045 * leadingUnit + roundQuotient .even (scale 2 num den (-971)).1 (scale 2 num den (-971)).2
    omega
  · have rounded : leadingUnit ≤ roundQuotient .even (scale 2 num den (-max (-1074) (lead - 52))).1
        (scale 2 num den (-max (-1074) (lead - 52))).2 := by
      apply le_roundQuotient (scale_pos two_pos pos)
      rw [le_scaled_iff pos]
      calc ((leadingUnit : Nat) : ℚ) * 2 ^ max (-1074) (lead - 52)
          = 2 ^ (52 + max (-1074) (lead - 52)) := by
            rw [zpow_add₀ two_ne_zero]
            congr 1
        _ ≤ 2 ^ lead := zpow_le_zpow_right₀ one_le_two (by omega)
        _ ≤ num / den := least
    have exponents : 2046 ≤ (max (-1074) (lead - 52) + 1074).toNat := by omega
    have shift := Nat.mul_le_mul_right leadingUnit exponents
    omega

end Magnitude

/-- The double nearest to a quotient is finite exactly if the quotient is below the ceiling. -/
theorem isFinite_nearest_iff {num den : Nat} (negative : Bool) (pos : 0 < den) :
    isFinite (nearest negative num den) = true ↔ (num / den : ℚ) < ceiling := by
  rw [nearest]
  by_cases zero : num = 0
  · subst zero
    rw [if_pos rfl, isFinite_ofMagnitude (Nat.zero_le _)]
    exact ⟨fun _ => by rw [Nat.cast_zero, zero_div]; exact ceiling_pos, fun _ => by decide⟩
  · obtain ⟨least, most⟩ := leadingBit_spec (Nat.pos_of_ne_zero zero) pos
    rw [if_neg zero]
    show isFinite (ofMagnitude negative (min (magnitude num den (leadingBit num den)) infinityMagnitude)) = true ↔ _
    rw [isFinite_ofMagnitude (Nat.min_le_right ..)]
    constructor
    · intro finite
      by_contra large
      have := le_magnitude pos least most (not_lt.1 large)
      omega
    · intro small
      have := magnitude_lt pos least most small
      omega

end GameScoring.Binary
