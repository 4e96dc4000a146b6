import Mathlib
import GameScoring.Proofs.Numeral.Place

/-!
# Products of doubles

The product of two finite doubles is the double nearest to the product of the numbers they stand for, so a product
grows with its factors.
-/
namespace GameScoring.Binary
open Float.Model (UnpackedFloat totalExponent)
open Float.Model.UnpackedFloat
open Float.Model.Format (binary64)

/-! ## Mantissas that are shifted -/

/-- The mantissa of a quotient, and what is kept of its rest. -/
structure Shifted (num den : Nat) (em : ExtendedMantissa) : Prop where
  whole : em.mantissa = num / den
  round : em.roundBit = true ↔ den ≤ 2 * (num % den)
  sticky : em.stickyBit = true ↔ 2 * (num % den) ≠ 0 ∧ 2 * (num % den) ≠ den

variable {num den : Nat} {em : ExtendedMantissa}

/-- A shift by one bit is a division by two, and nothing of the rest is lost that matters. -/
theorem Shifted.next (pos : 0 < den) (h : Shifted num den em) : Shifted num (den * 2) em.shiftRightOne := by
  obtain ⟨whole, round, sticky⟩ := h
  have small : num % den < den := Nat.mod_lt _ pos
  have rest : num % (den * 2) = num % den + den * (num / den % 2) := Nat.mod_mul
  refine ⟨?_, ?_, ?_⟩
  · show em.mantissa / 2 = _
    rw [whole, Nat.div_div_eq_div_mul]
  · show (em.mantissa % 2 != 0) = true ↔ _
    rw [whole, rest, bne_iff_ne]
    rcases Nat.mod_two_eq_zero_or_one (num / den) with even | odd
    · rw [even]
      omega
    · rw [odd]
      omega
  · show (em.roundBit || em.stickyBit) = true ↔ _
    rw [Bool.or_eq_true, round, sticky, rest]
    rcases Nat.mod_two_eq_zero_or_one (num / den) with even | odd
    · rw [even]
      omega
    · rw [odd]
      omega

theorem Shifted.shift (pos : 0 < den) (h : Shifted num den em) (count : Nat) :
    Shifted num (den * 2 ^ count) (em >>> count) := by
  induction count with
  | zero => rwa [Nat.pow_zero, Nat.mul_one]
  | succ count ih =>
    rw [Nat.pow_succ, ← Nat.mul_assoc]
    exact ih.next (Nat.mul_pos pos (Nat.two_pow_pos count))

/-- A quotient is told by its whole part and the accuracy of its rest. -/
theorem shifted_quotient (num : Nat) (pos : 0 < den) :
    Shifted num den (ExtendedMantissa.ofMantissaAndAccuracy (num / den) (accuracyOfFraction (num % den) den)) := by
  rw [accuracyOfFraction]
  by_cases exact : num % den = 0
  · rw [if_pos exact]
    refine ⟨rfl, ?_, ?_⟩
    · exact ⟨nofun, fun h => by omega⟩
    · exact ⟨nofun, fun h => absurd (by omega) h.1⟩
  · rw [if_neg exact]
    rcases lt_trichotomy (2 * (num % den)) den with less | half | more
    · rw [Nat.compare_eq_lt.2 less]
      exact ⟨rfl, ⟨nofun, fun h => by omega⟩, ⟨fun _ => by omega, fun _ => rfl⟩⟩
    · rw [Nat.compare_eq_eq.2 half]
      exact ⟨rfl, ⟨fun _ => half.ge, fun _ => rfl⟩, ⟨nofun, fun h => absurd half h.2⟩⟩
    · rw [Nat.compare_eq_gt.2 more]
      exact ⟨rfl, ⟨fun _ => more.le, fun _ => rfl⟩, ⟨fun _ => by omega, fun _ => rfl⟩⟩

/-- What is shifted is rounded like the quotient. -/
theorem Shifted.rounded (h : Shifted num den em) : em.roundedMantissa = roundQuotient .even num den := by
  obtain ⟨whole, round, sticky⟩ := h
  unfold roundQuotient
  obtain ⟨units, half, more⟩ := em
  dsimp only at whole round sticky ⊢
  subst whole
  generalize 2 * (num % den) = rest at round sticky ⊢
  cases half with
  | false =>
    rw [if_pos (Nat.not_le.1 fun reached => Bool.false_ne_true (round.2 reached))]
    cases more <;> rfl
  | true =>
    have reached := round.1 rfl
    rw [if_neg (Nat.not_lt.2 reached)]
    cases more with
    | false =>
      by_cases above : den < rest
      · exact absurd (sticky.2 ⟨by omega, by omega⟩) Bool.false_ne_true
      · rw [if_neg above]
        rfl
    | true =>
      have above : den < rest := Nat.lt_of_le_of_ne reached (sticky.1 rfl).2.symm
      rw [if_pos above]
      rfl

/-! ## The double that a product is packed to -/

/-- The exponent that a number is rounded at. -/
def targetOf (mantissa : Nat) (exponent : Int) : Int := max ((mantissa.log2 : Int) + exponent - 52) (-1074)

theorem targetExponent_eq (mantissa : Nat) (exponent : Int) :
    binary64.targetExponent (totalExponent mantissa exponent) = targetOf mantissa exponent := by
  show max ((mantissa.log2 : Int) + 1 + exponent - 53) (-1074) = max ((mantissa.log2 : Int) + exponent - 52) (-1074)
  omega

theorem shiftToTargetExponent_eq (mantissa : Nat) (exponent : Int) (accuracy : Accuracy) :
    shiftToTargetExponent binary64 mantissa exponent accuracy =
      (ExtendedMantissa.ofMantissaAndAccuracy mantissa accuracy >>> (targetOf mantissa exponent - exponent).toNat,
        exponent + (targetOf mantissa exponent - exponent).toNat) := by
  rw [shiftToTargetExponent, targetExponent_eq]
  rfl

theorem pack_unpack_packed (x : Float) : pack binary64 (unpack binary64 (packed x)) = packed x :=
  pack_unpack_of_valid x.toModel.valid

variable {negative : Bool} {place : Nat}

theorem pack_unpackedAt (h : place ≤ infinityMagnitude) :
    pack binary64 (unpackedAt negative place) = packed (ofMagnitude negative place) := by
  rw [← unpack_ofMagnitude h, pack_unpack_packed]

/-- An exponent and a mantissa are those of their place. -/
theorem at_placeOf {exponent : Int} {mantissa : Nat} (bounded : -1074 ≤ exponent)
    (leading : exponent = -1074 ∨ leadingUnit ≤ mantissa) (small : mantissa < 2 * leadingUnit) :
    mantissaAt (placeOf exponent mantissa) = mantissa ∧ exponentAt (placeOf exponent mantissa) = exponent := by
  have count : placeOf exponent mantissa / leadingUnit - 1 = (exponent + 1074).toNat := by
    rw [placeOf]
    generalize unit : leadingUnit = u at leading small ⊢
    obtain rfl : 4503599627370496 = u := unit
    omega
  rw [mantissaAt, exponentAt, count, placeOf]
  omega

/-- A number is packed to the double at its place, or to an infinity if it is too large for one. -/
theorem pack_canonical {exponent : Int} {mantissa : Nat} (pos : 0 < mantissa) (bounded : -1074 ≤ exponent)
    (leading : exponent = -1074 ∨ leadingUnit ≤ mantissa) (small : mantissa < 2 * leadingUnit) :
    pack binary64 (.finite (signOf negative) mantissa exponent pos) =
      packed (ofMagnitude negative (min (placeOf exponent mantissa) infinityMagnitude)) := by
  rw [← pack_unpackedAt (Nat.min_le_right ..)]
  by_cases finite : placeOf exponent mantissa < infinityMagnitude
  · obtain ⟨mantissa_eq, exponent_eq⟩ := at_placeOf bounded leading small
    have some : 0 < mantissaAt (placeOf exponent mantissa) := by rwa [mantissa_eq]
    rw [Nat.min_eq_left finite.le, unpackedAt, if_neg finite.ne, dif_pos some]
    exact congrArg (pack binary64) (finite_congr mantissa_eq.symm exponent_eq.symm)
  · have large : 972 ≤ exponent := by
      have limit : infinityMagnitude = 2047 * leadingUnit := rfl
      rw [placeOf] at finite
      by_contra less
      have exponents : (exponent + 1074).toNat ≤ 2045 := by omega
      have shift := Nat.mul_le_mul_right leadingUnit exponents
      omega
    rw [Nat.min_eq_right (not_lt.1 finite), unpackedAt, if_pos rfl, pack_finite, if_pos (by omega)]
    rfl

/-- A mantissa that fits stays as it is. -/
theorem shift_small {mantissa : Nat} {exponent : Int} (bounded : -1074 ≤ exponent)
    (small : mantissa < 2 * leadingUnit) :
    shiftToTargetExponent binary64 mantissa exponent .exact = (⟨mantissa, false, false⟩, exponent) := by
  have log : mantissa.log2 ≤ 52 := by
    by_cases zero : mantissa = 0
    · rw [zero]
      decide
    · exact Nat.le_of_lt_succ ((Nat.log2_lt zero).2 small)
  have stay : (targetOf mantissa exponent - exponent).toNat = 0 := by
    rw [targetOf]
    omega
  rw [shiftToTargetExponent_eq, stay]
  exact congrArg (_, ·) (Int.add_zero _)

/-- A mantissa that was rounded up to the next power of two is shifted by one bit. -/
theorem shift_carry {exponent : Int} (bounded : -1074 ≤ exponent) :
    shiftToTargetExponent binary64 (2 * leadingUnit) exponent .exact = (⟨leadingUnit, false, false⟩, exponent + 1) := by
  have log : (2 * leadingUnit).log2 = 53 := by decide
  have one : (targetOf (2 * leadingUnit) exponent - exponent).toNat = 1 := by
    rw [targetOf, log]
    omega
  rw [shiftToTargetExponent_eq, one]
  rfl

/-- A quotient is rounded at the exponent of its binade, if its whole part fills a mantissa or the exponent is low. -/
theorem binade_quotient (num : Nat) (pos : 0 < den) {exponent : Int}
    (enough : exponent ≤ -1074 ∨ leadingUnit ≤ num / den) :
    Binade (num / den * 2 ^ exponent) (targetOf (num / den) exponent) := by
  have pos' : (0 : ℚ) < den := by exact_mod_cast pos
  have least : ((num / den : Nat) : ℚ) ≤ num / den := Nat.cast_div_le
  have most : (num / den : ℚ) < (num / den : Nat) + 1 := by
    rw [div_lt_iff₀ pos']
    have h := Nat.lt_mul_div_succ num pos
    rw [mul_comm] at h
    exact_mod_cast h
  by_cases zero : num / den = 0
  · -- Nothing of the quotient is left but its rest, which is less than a unit at the least exponent.
    have low : exponent ≤ -1074 := enough.resolve_right (by rw [zero]; decide)
    have target : targetOf (num / den) exponent = -1074 := by
      rw [targetOf, zero, Nat.log2_zero]
      omega
    rw [zero, Nat.cast_zero, zero_add] at most
    refine ⟨by rw [target], .inl target, ?_⟩
    rw [target, div_lt_iff₀ (two_zpow_pos _)]
    calc (num / den * 2 ^ exponent : ℚ) ≤ 1 * 2 ^ (-1074 : Int) :=
          mul_le_mul most.le (zpow_le_zpow_right₀ one_le_two low) (two_zpow_pos _).le zero_le_one
      _ < 2 * leadingUnit * 2 ^ (-1074 : Int) := mul_lt_mul_of_pos_right (by norm_num [leadingUnit]) (two_zpow_pos _)
  · obtain ⟨log_least, -⟩ := two_zpow_log2 (Nat.pos_of_ne_zero zero)
    have log_most : ((num / den : Nat) + 1 : ℚ) ≤ 2 ^ (((num / den).log2 : Int) + 1) := by
      have h : num / den + 1 ≤ 2 ^ ((num / den).log2 + 1) := Nat.lt_log2_self
      exact_mod_cast h
    have h := @binade_of_lead (num / den * 2 ^ exponent) ((num / den).log2 + exponent)
      (by rw [zpow_add₀ two_ne_zero]; exact mul_le_mul_of_nonneg_right (log_least.trans least) (two_zpow_pos _).le)
      (by rw [add_right_comm, zpow_add₀ two_ne_zero]
          exact mul_lt_mul_of_pos_right (most.trans_le log_most) (two_zpow_pos _))
    rwa [max_comm] at h

/-- The exponent of a quotient is at most the one that the quotient is rounded at. -/
theorem le_targetOf_of_enough {mantissa : Nat} {exponent : Int} (enough : exponent ≤ -1074 ∨ leadingUnit ≤ mantissa) :
    exponent ≤ targetOf mantissa exponent := by
  rw [targetOf]
  rcases enough with low | large
  · omega
  · have unit : 0 < leadingUnit := by decide
    have bits : 52 ≤ mantissa.log2 := (Nat.le_log2 (by omega)).2 large
    omega

/-- A quotient that is rounded is packed to the nearest double. -/
theorem pack_roundWithAccuracy (num : Nat) (pos : 0 < den) {exponent : Int}
    (enough : exponent ≤ -1074 ∨ leadingUnit ≤ num / den) :
    ∃ place, pack binary64 (roundWithAccuracy binary64 (signOf negative) (num / den) exponent
          (accuracyOfFraction (num % den) den)) = packed (ofMagnitude negative place) ∧
        IsNearest (num / den * 2 ^ exponent) place := by
  have binade := binade_quotient num pos enough
  have fine := le_targetOf_of_enough enough
  obtain ⟨count, gap⟩ : ∃ count : Nat, targetOf (num / den) exponent - exponent = count :=
    ⟨(targetOf (num / den) exponent - exponent).toNat, by omega⟩
  have rounds : Rounds (num / den * 2 ^ exponent / 2 ^ targetOf (num / den) exponent)
      (roundQuotient .even num (den * 2 ^ count)) := by
    have h := @rounds_roundQuotient num (den * 2 ^ count) (Nat.mul_pos pos (Nat.two_pow_pos count))
    have scaled : (num / den * 2 ^ exponent / 2 ^ targetOf (num / den) exponent : ℚ) =
        num / (den * 2 ^ count : Nat) := by
      rw [show targetOf (num / den) exponent = exponent + count by omega, zpow_add₀ two_ne_zero, zpow_natCast,
        mul_comm (2 ^ exponent : ℚ), mul_div_mul_right _ _ (two_zpow_pos exponent).ne', div_div]
      push_cast
      rfl
    rwa [scaled]
  have small : roundQuotient .even num (den * 2 ^ count) ≤ 2 * leadingUnit := by
    have whole := Rounds.whole (2 * leadingUnit)
    push_cast at whole
    exact rounds.mono whole binade.below.le
  refine ⟨_, ?_, .rounded binade rounds⟩
  have bounded := binade.bounded
  have first : exponent + count = targetOf (num / den) exponent := by omega
  rw [roundWithAccuracy, shiftToTargetExponent_eq, gap, Int.toNat_natCast, first]
  dsimp only
  rw [((shifted_quotient num pos).shift pos count).rounded]
  have leading : targetOf (num / den) exponent = -1074 ∨ leadingUnit ≤ roundQuotient .even num (den * 2 ^ count) :=
    binade.leading.imp_right fun least => (Rounds.whole leadingUnit).mono rounds least
  generalize roundQuotient .even num (den * 2 ^ count) = units at small leading ⊢
  generalize targetOf (num / den) exponent = target at bounded leading ⊢
  have unit : 0 < leadingUnit := by decide
  rcases small.lt_or_eq with small | rfl
  · rw [shift_small bounded small]
    dsimp only
    by_cases zero : units = 0
    · -- Only at the least exponent a number can be rounded to zero.
      obtain rfl : target = -1074 := leading.resolve_right (by omega)
      rw [dif_pos zero, zero]
      exact pack_unpackedAt (Nat.zero_le _)
    · rw [dif_neg zero]
      exact pack_canonical _ bounded leading small
  · rw [shift_carry bounded]
    dsimp only
    rw [dif_neg unit.ne']
    have carried : placeOf (target + 1) leadingUnit = placeOf target (2 * leadingUnit) := by
      rw [placeOf, placeOf, show (target + 1 + 1074).toNat = (target + 1074).toNat + 1 by omega]
      ring
    rw [← carried]
    exact pack_canonical _ (by omega) (.inr le_rfl) (by omega)

/-- A whole mantissa that is rounded is packed to the nearest double. -/
theorem pack_roundWithAccuracy_exact {mantissa : Nat} {exponent : Int}
    (enough : exponent ≤ -1074 ∨ leadingUnit ≤ mantissa) :
    ∃ place, pack binary64 (roundWithAccuracy binary64 (signOf negative) mantissa exponent .exact) =
        packed (ofMagnitude negative place) ∧ IsNearest (mantissa * 2 ^ exponent) place := by
  obtain ⟨place, packs, nearest⟩ :=
    @pack_roundWithAccuracy 1 negative mantissa Nat.one_pos exponent (by rwa [Nat.div_one])
  rw [Nat.cast_one, div_one] at nearest
  rw [Nat.div_one, Nat.mod_one] at packs
  exact ⟨place, packs, nearest⟩

/-! ## Products -/

theorem eq_of_packed {x y : Float} (same : packed x = packed y) : x = y :=
  Float.toBits_inj.1 (UInt64.toNat_inj.1 (congrArg BitVec.toNat same))

theorem signOf_mul (negative negative' : Bool) :
    signOf negative * signOf negative' = signOf (negative != negative') := by
  cases negative <;> cases negative' <;> rfl

/-- The product of two mantissas of doubles has bits enough to be rounded. -/
theorem enough_product {place other : Nat} (pos : 0 < mantissaAt place) (pos' : 0 < mantissaAt other) :
    exponentAt place + exponentAt other ≤ -1074 ∨ leadingUnit ≤ mantissaAt place * mantissaAt other := by
  obtain ⟨-, low | leading⟩ := mantissaAt_spec place
  · obtain ⟨-, low' | leading⟩ := mantissaAt_spec other
    · refine .inl ?_
      rw [exponentAt, exponentAt, low, low']
      omega
    · exact .inr (leading.trans (Nat.le_mul_of_pos_left _ pos))
  · exact .inr (leading.trans (Nat.le_mul_of_pos_right _ pos'))

/-- What is multiplied is packed to the double nearest to the product. -/
theorem pack_mul_unpackedAt (negative negative' : Bool) {place other : Nat} (h : place < infinityMagnitude)
    (h' : other < infinityMagnitude) :
    ∃ product, pack binary64 (mul binary64 (unpackedAt negative place) (unpackedAt negative' other)) =
        packed (ofMagnitude (negative != negative') product) ∧ IsNearest (valueAt place * valueAt other) product := by
  have zero_value : valueAt 0 = 0 := zero_mul _
  have zero : pack binary64 (.zero (signOf negative * signOf negative')) =
      packed (ofMagnitude (negative != negative') 0) := by
    rw [signOf_mul, ← pack_unpackedAt (Nat.zero_le _)]
    rfl
  rcases unpackedAt_cases negative h.le with ⟨rfl, u⟩ | ⟨-, -, pos, u⟩ | ⟨full, -⟩
  · refine ⟨0, ?_, by rw [zero_value, zero_mul]; exact isNearest_zero⟩
    rw [← zero, u]
    rcases unpackedAt_cases negative' h'.le with ⟨-, v⟩ | ⟨-, -, _, v⟩ | ⟨full, -⟩
    · rw [v]
      rfl
    · rw [v]
      rfl
    · exact absurd full h'.ne
  · rcases unpackedAt_cases negative' h'.le with ⟨rfl, v⟩ | ⟨-, -, pos', v⟩ | ⟨full, -⟩
    · refine ⟨0, ?_, by rw [zero_value, mul_zero]; exact isNearest_zero⟩
      rw [← zero, u, v]
      rfl
    · obtain ⟨product, packs, nearest⟩ :=
        @pack_roundWithAccuracy_exact (negative != negative') _ _ (enough_product pos pos')
      refine ⟨product, ?_, ?_⟩
      · rw [u, v, ← packs, ← signOf_mul]
        rfl
      · rw [valueAt, valueAt, mul_mul_mul_comm, ← zpow_add₀ two_ne_zero]
        rwa [Nat.cast_mul] at nearest
    · exact absurd full h'.ne
  · exact absurd full h.ne

/-- The product of two finite doubles is the double nearest to the product of the numbers they stand for. -/
theorem mul_ofMagnitude (negative negative' : Bool) {place other : Nat} (h : place < infinityMagnitude)
    (h' : other < infinityMagnitude) :
    ∃ product, ofMagnitude negative place * ofMagnitude negative' other = ofMagnitude (negative != negative') product ∧
      IsNearest (valueAt place * valueAt other) product := by
  obtain ⟨product, packs, nearest⟩ := pack_mul_unpackedAt negative negative' h h'
  refine ⟨product, eq_of_packed ?_, nearest⟩
  rw [← packs, ← unpack_ofMagnitude h.le, ← unpack_ofMagnitude h'.le]
  rfl

/-- A product with a double that is not negative grows with its other factor. -/
theorem mul_le_mul_of_place_le {negative : Bool} {place other factor : Nat} (le : place ≤ other)
    (h : other < infinityMagnitude) (h' : factor < infinityMagnitude) (unsigned : negative = true → factor = 0) :
    ofMagnitude false place * ofMagnitude negative factor ≤ ofMagnitude false other * ofMagnitude negative factor := by
  obtain ⟨product, multiplied, nearest⟩ := mul_ofMagnitude false negative (le.trans_lt h) h'
  obtain ⟨product', multiplied', nearest'⟩ := mul_ofMagnitude false negative h h'
  rw [multiplied, multiplied']
  cases negative with
  | false =>
    have values : valueAt place ≤ valueAt other := by
      rcases le.lt_or_eq with less | rfl
      · exact (valueAt_lt less h.le).le
      · exact le_rfl
    have products := nearest.mono nearest' (mul_le_mul_of_nonneg_right values (valueAt_nonneg factor))
    exact (ofMagnitude_le_iff nearest.le_infinity nearest'.le_infinity).2 products
  | true =>
    have zero_value : valueAt factor = 0 := by rw [unsigned rfl]; exact zero_mul _
    rw [zero_value, mul_zero] at nearest nearest'
    rw [nearest.unique isNearest_zero, nearest'.unique isNearest_zero]
    decide

end GameScoring.Binary
