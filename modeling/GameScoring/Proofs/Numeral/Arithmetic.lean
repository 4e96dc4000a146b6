import Mathlib
import GameScoring.Proofs.Numeral.Number

/-!
# Sums, differences and quotients of doubles

The sum, the difference and the quotient of two finite doubles that are not negative are, like their product, the
doubles nearest to what the numbers give. So what is calculated from larger numbers is not less, however many
roundings there are on the way.
-/
namespace GameScoring.Binary
open Float.Model (UnpackedFloat totalExponent)
open Float.Model.UnpackedFloat
open Float.Model.Format (binary64)

variable {negative negative' : Bool} {place other : Nat}

/-! ## Sums of mantissas -/

/-- A mantissa that is shifted to the left stands for the same number at the lower exponent. -/
theorem shiftLeft_value (mantissa count : Nat) (exponent : Int) :
    ((mantissa <<< count : Nat) * 2 ^ (exponent - count) : ℚ) = mantissa * 2 ^ exponent := by
  rw [Nat.shiftLeft_eq, zpow_sub₀ two_ne_zero, zpow_natCast]
  push_cast
  field_simp

theorem aligned_value (mantissa : Nat) {exponent low : Int} (le : low ≤ exponent) :
    ((mantissa <<< (exponent - low).toNat : Nat) * 2 ^ low : ℚ) = mantissa * 2 ^ exponent := by
  have value := shiftLeft_value mantissa (exponent - low).toNat exponent
  rwa [show exponent - ((exponent - low).toNat : Int) = low by omega] at value

/-- A mantissa is packed to the nearest double at whatever exponent it is given. -/
theorem pack_round {mantissa : Nat} (pos : 0 < mantissa) (exponent : Int) :
    ∃ place, pack binary64 (UnpackedFloat.round binary64 (signOf negative) mantissa exponent) =
        packed (ofMagnitude negative place) ∧ IsNearest (mantissa * 2 ^ exponent) place := by
  obtain ⟨count, shift⟩ : ∃ count, count = (exponent - targetOf mantissa exponent).toNat := ⟨_, rfl⟩
  have enough : exponent - count ≤ -1074 ∨ leadingUnit ≤ mantissa <<< count := by
    by_cases low : exponent - count ≤ -1074
    · exact .inl low
    · refine .inr ?_
      -- The leading bit of the mantissa is moved to where it belongs, if it was not there already.
      rw [targetOf] at shift
      have bits : 52 ≤ mantissa.log2 + count := by omega
      calc leadingUnit = 2 ^ 52 := rfl
        _ ≤ 2 ^ (mantissa.log2 + count) := Nat.pow_le_pow_right two_pos bits
        _ = 2 ^ mantissa.log2 * 2 ^ count := Nat.pow_add ..
        _ ≤ mantissa * 2 ^ count := Nat.mul_le_mul_right _ (Nat.log2_self_le pos.ne')
        _ = mantissa <<< count := (Nat.shiftLeft_eq ..).symm
  obtain ⟨place, packs, nearest⟩ := @pack_roundWithAccuracy_exact negative _ _ enough
  refine ⟨place, ?_, ?_⟩
  · rw [← packs, shift, ← targetExponent_eq]
    rfl
  · rwa [shiftLeft_value] at nearest

/-- A sum of mantissas that is not negative is packed to the nearest double. -/
theorem pack_normalize (mantissa : Nat) (exponent : Int) :
    ∃ place, pack binary64 (UnpackedFloat.normalize binary64 mantissa exponent .positive) =
        packed (ofMagnitude false place) ∧ IsNearest (mantissa * 2 ^ exponent) place := by
  rw [UnpackedFloat.normalize]
  rcases Nat.eq_zero_or_pos mantissa with rfl | pos
  · refine ⟨0, ?_, ?_⟩
    · rw [← pack_unpackedAt (Nat.zero_le _)]
      rfl
    · rw [Nat.cast_zero, zero_mul]
      exact isNearest_zero
  · rw [Int.compare_eq_gt.2 (by exact_mod_cast pos)]
    exact @pack_round false mantissa pos exponent

/-! ## Quotients of mantissas -/

/-- A dividend that is shifted far enough has a quotient that fills a mantissa. -/
theorem leadingUnit_le_div {mantissa divisor count : Nat} (pos : 0 < mantissa) (pos' : 0 < divisor)
    (bits : 53 + divisor.log2 ≤ mantissa.log2 + count) : leadingUnit ≤ (mantissa <<< count) / divisor := by
  rw [Nat.le_div_iff_mul_le pos']
  calc leadingUnit * divisor ≤ 2 ^ 52 * 2 ^ (divisor.log2 + 1) := Nat.mul_le_mul_left _ Nat.lt_log2_self.le
    _ = 2 ^ (53 + divisor.log2) := by
      rw [← Nat.pow_add]
      congr 1
      omega
    _ ≤ 2 ^ (mantissa.log2 + count) := Nat.pow_le_pow_right two_pos bits
    _ = 2 ^ mantissa.log2 * 2 ^ count := Nat.pow_add ..
    _ ≤ mantissa * 2 ^ count := Nat.mul_le_mul_right _ (Nat.log2_self_le pos.ne')
    _ = mantissa <<< count := (Nat.shiftLeft_eq ..).symm

/-- A quotient of mantissas is packed to the nearest double. -/
theorem pack_divCore {mantissa divisor : Nat} (pos : 0 < mantissa) (pos' : 0 < divisor) (exponent exponent' : Int) :
    ∃ place,
      pack binary64 (roundWithAccuracy binary64 (signOf negative)
        (divCore binary64 mantissa exponent divisor exponent').1
        (divCore binary64 mantissa exponent divisor exponent').2.1
        (divCore binary64 mantissa exponent divisor exponent').2.2) = packed (ofMagnitude negative place) ∧
        IsNearest (mantissa * 2 ^ exponent / (divisor * 2 ^ exponent')) place := by
  obtain ⟨target, target_eq⟩ : ∃ target : Int, target = min (exponent - exponent')
      (max ((mantissa.log2 + 1 + exponent) - (divisor.log2 + 1 + exponent') - 53) (-1074)) := ⟨_, rfl⟩
  obtain ⟨count, count_eq⟩ : ∃ count, count = (exponent - exponent' - target).toNat := ⟨_, rfl⟩
  have core : divCore binary64 mantissa exponent divisor exponent' = ((mantissa <<< count) / divisor, target,
      accuracyOfFraction ((mantissa <<< count) % divisor) divisor) := by
    rw [count_eq, target_eq]
    rfl
  have enough : target ≤ -1074 ∨ leadingUnit ≤ (mantissa <<< count) / divisor := by
    by_cases low : target ≤ -1074
    · exact .inl low
    · exact .inr (leadingUnit_le_div pos pos' (by omega))
  obtain ⟨place, packs, nearest⟩ := @pack_roundWithAccuracy _ negative (mantissa <<< count) pos' _ enough
  rw [core]
  refine ⟨place, packs, ?_⟩
  have value : ((mantissa <<< count : Nat) / divisor * 2 ^ target : ℚ) =
      mantissa * 2 ^ exponent / (divisor * 2 ^ exponent') := by
    have shifted := shiftLeft_value mantissa count (exponent - exponent')
    rw [show exponent - exponent' - count = target by omega, zpow_sub₀ two_ne_zero] at shifted
    rw [div_mul_eq_mul_div, shifted, mul_div_assoc', div_div, mul_comm (2 ^ exponent' : ℚ)]
  rwa [value] at nearest

theorem signOf_div (negative negative' : Bool) :
    signOf negative / signOf negative' = signOf (negative != negative') := by
  cases negative <;> cases negative' <;> rfl

/-- The quotient of two finite doubles is the double nearest to the quotient of the numbers they stand for. -/
theorem div_ofMagnitude (negative negative' : Bool) (h : place < infinityMagnitude) (h' : other < infinityMagnitude)
    (pos : 0 < other) :
    ∃ quotient, ofMagnitude negative place / ofMagnitude negative' other =
        ofMagnitude (negative != negative') quotient ∧ IsNearest (valueAt place / valueAt other) quotient := by
  have packs : packed (ofMagnitude negative place / ofMagnitude negative' other) =
      pack binary64 (div binary64 (unpackedAt negative place) (unpackedAt negative' other)) := by
    rw [← unpack_ofMagnitude h.le, ← unpack_ofMagnitude h'.le]
    rfl
  rcases unpackedAt_cases negative' h'.le with ⟨zero, -⟩ | ⟨-, -, pos', v⟩ | ⟨full, -⟩
  · exact absurd zero pos.ne'
  · rcases unpackedAt_cases negative h.le with ⟨rfl, u⟩ | ⟨-, -, some, u⟩ | ⟨full, -⟩
    · refine ⟨0, eq_of_packed ?_, by rw [valueAt_zero, zero_div]; exact isNearest_zero⟩
      rw [packs, u, v, ← pack_unpackedAt (Nat.zero_le _)]
      exact congrArg (fun sign => pack binary64 (.zero sign)) (signOf_div negative negative')
    · obtain ⟨quotient, rounds, nearest⟩ :=
        @pack_divCore (negative != negative') _ _ some pos' (exponentAt place) (exponentAt other)
      refine ⟨quotient, eq_of_packed ?_, nearest⟩
      rw [packs, u, v, ← rounds, ← signOf_div]
      rfl
    · exact absurd full h.ne
  · exact absurd full h'.ne

/-! ## Doubles at places -/

/-- A double that is not negative stands at a place. A zero may have a sign. -/
inductive At (place : Nat) : Float → Prop
  | at (negative : Bool) (unsigned : negative = true → place = 0) : At place (ofMagnitude negative place)

theorem NonNegative.exists_at {x : Float} (h : NonNegative x) (finite : isFinite x = true) :
    ∃ place, place < infinityMagnitude ∧ At place x := by
  obtain ⟨negative, place, rfl, less, unsigned⟩ := h.exists_place finite
  exact ⟨place, less, .at negative unsigned⟩

/-- A zero is compared without its sign. -/
theorem compare_zero (sign : Sign) (u : UnpackedFloat) :
    (UnpackedFloat.zero sign).compare u = (UnpackedFloat.zero .positive).compare u ∧
      u.compare (.zero sign) = u.compare (.zero .positive) := by
  cases u with
  | infinity other | finite other => cases other <;> exact ⟨rfl, rfl⟩
  | _ => exact ⟨rfl, rfl⟩

theorem compare_unpackedAt_unsigned (h : place ≤ infinityMagnitude) (h' : other ≤ infinityMagnitude)
    (unsigned : negative = true → place = 0) (unsigned' : negative' = true → other = 0) :
    (unpackedAt negative place).compare (unpackedAt negative' other) = some (compare place other) := by
  have left (u : UnpackedFloat) : (unpackedAt negative place).compare u = (unpackedAt false place).compare u := by
    cases negative with
    | false => rfl
    | true =>
      obtain rfl := unsigned rfl
      exact (compare_zero _ u).1
  have right (u : UnpackedFloat) : u.compare (unpackedAt negative' other) = u.compare (unpackedAt false other) := by
    cases negative' with
    | false => rfl
    | true =>
      obtain rfl := unsigned' rfl
      exact (compare_zero _ u).2
  rw [left, right, compare_unpackedAt h h']

namespace At
variable {x y : Float}

theorem finite (h : At place x) (less : place < infinityMagnitude) : isFinite x = true := by
  cases h
  exact (isFinite_ofMagnitude less.le).2 less

theorem number_eq (h : At place x) (less : place < infinityMagnitude) : number x = valueAt place := by
  obtain ⟨negative, unsigned⟩ := h
  rw [number_ofMagnitude less]
  cases negative with
  | false => rfl
  | true => rw [unsigned rfl, valueAt_zero, withSign_zero]

theorem le_iff (hx : At place x) (hy : At other y) (h : place ≤ infinityMagnitude) (h' : other ≤ infinityMagnitude) :
    x ≤ y ↔ place ≤ other := by
  obtain ⟨negative, unsigned⟩ := hx
  obtain ⟨negative', unsigned'⟩ := hy
  rw [le_iff_compare, unpack_ofMagnitude h, unpack_ofMagnitude h', compare_unpackedAt_unsigned h h' unsigned unsigned']
  exact Nat.isLE_compare

theorem lt_iff (hx : At place x) (hy : At other y) (h : place ≤ infinityMagnitude) (h' : other ≤ infinityMagnitude) :
    x < y ↔ place < other := by
  obtain ⟨negative, unsigned⟩ := hx
  obtain ⟨negative', unsigned'⟩ := hy
  rw [lt_iff_compare, unpack_ofMagnitude h, unpack_ofMagnitude h', compare_unpackedAt_unsigned h h' unsigned unsigned',
    Option.some_inj, Nat.compare_eq_lt]

theorem beq_zero_iff (h : At place x) (le : place ≤ infinityMagnitude) : (x == 0.0) = true ↔ place = 0 := by
  obtain ⟨negative, unsigned⟩ := h
  constructor
  · intro same
    cases negative with
    | true => exact unsigned rfl
    | false =>
      rw [zero_at] at same
      exact place_eq_of_beq le (Nat.zero_le _) same
  · rintro rfl
    cases negative <;> decide

theorem zero : At 0 (0.0 : Float) := by
  rw [zero_at]
  exact .at false nofun

/-- A double that is packed as a zero stands at the place of zero. -/
theorem of_pack_zero {sign : Sign} (packs : packed x = pack binary64 (.zero sign)) : At 0 x := by
  have negative : ∃ negative, sign = signOf negative := by
    cases sign with
    | positive => exact ⟨false, rfl⟩
    | negative => exact ⟨true, rfl⟩
  obtain ⟨negative, rfl⟩ := negative
  have same : x = ofMagnitude negative 0 := eq_of_packed (packs.trans (pack_unpackedAt (Nat.zero_le _)))
  rw [same]
  exact .at negative fun _ => rfl

/-- A double that is packed as a sum of mantissas stands at the place nearest to it. -/
theorem of_pack_normalize (mantissa : Nat) (exponent : Int)
    (packs : packed x = pack binary64 (UnpackedFloat.normalize binary64 mantissa exponent .positive)) :
    ∃ place, At place x ∧ IsNearest (mantissa * 2 ^ exponent) place := by
  obtain ⟨place, rounds, nearest⟩ := pack_normalize mantissa exponent
  have same : x = ofMagnitude false place := eq_of_packed (packs.trans rounds)
  rw [same]
  exact ⟨place, .at false nofun, nearest⟩

theorem sign_eq (unsigned : negative = true → place = 0) (pos : 0 < place) : signOf negative = .positive := by
  cases negative with
  | false => rfl
  | true => exact absurd (unsigned rfl) pos.ne'

/-- The sum of two finite doubles that are not negative is the double nearest to the sum of their numbers. -/
theorem add (hx : At place x) (hy : At other y) (h : place < infinityMagnitude) (h' : other < infinityMagnitude) :
    ∃ sum, At sum (x + y) ∧ IsNearest (valueAt place + valueAt other) sum := by
  obtain ⟨negative, unsigned⟩ := hx
  obtain ⟨negative', unsigned'⟩ := hy
  have packs : packed (ofMagnitude negative place + ofMagnitude negative' other) =
      pack binary64 (UnpackedFloat.add binary64 (unpackedAt negative place) (unpackedAt negative' other)) := by
    rw [← unpack_ofMagnitude h.le, ← unpack_ofMagnitude h'.le]
    rfl
  rcases unpackedAt_cases negative h.le with ⟨rfl, u⟩ | ⟨pos, -, some, u⟩ | ⟨full, -⟩
  · rw [valueAt_zero, zero_add]
    refine ⟨other, ?_, isNearest_valueAt h'.le⟩
    rcases unpackedAt_cases negative' h'.le with ⟨rfl, v⟩ | ⟨pos', -, some', v⟩ | ⟨full', -⟩
    · obtain ⟨sign, sum⟩ : ∃ sign, UnpackedFloat.add binary64 (.zero (signOf negative)) (.zero (signOf negative')) =
          .zero sign := by cases negative <;> cases negative' <;> exact ⟨_, rfl⟩
      rw [u, v, sum] at packs
      exact of_pack_zero packs
    · have same : ofMagnitude negative 0 + ofMagnitude negative' other = ofMagnitude negative' other := by
        apply eq_of_packed
        rw [packs, ← pack_unpackedAt h'.le, u, v]
        rfl
      rw [same]
      exact .at negative' unsigned'
    · exact absurd full' h'.ne
  · rcases unpackedAt_cases negative' h'.le with ⟨rfl, v⟩ | ⟨pos', -, some', v⟩ | ⟨full', -⟩
    · have same : ofMagnitude negative place + ofMagnitude negative' 0 = ofMagnitude negative place := by
        apply eq_of_packed
        rw [packs, ← pack_unpackedAt h.le, u, v]
        rfl
      rw [same, valueAt_zero, add_zero]
      exact ⟨place, .at negative unsigned, isNearest_valueAt h.le⟩
    · rw [u, v, sign_eq unsigned pos, sign_eq unsigned' pos'] at packs
      obtain ⟨sum, stands, nearest⟩ := of_pack_normalize
        (mantissaAt place <<< (exponentAt place - min (exponentAt place) (exponentAt other)).toNat +
          mantissaAt other <<< (exponentAt other - min (exponentAt place) (exponentAt other)).toNat)
        (min (exponentAt place) (exponentAt other)) packs
      rw [Nat.cast_add, add_mul, aligned_value _ (min_le_left ..), aligned_value _ (min_le_right ..)] at nearest
      exact ⟨sum, stands, nearest⟩
    · exact absurd full' h'.ne
  · exact absurd full h.ne

/-- The difference of two finite doubles that are not negative is the double nearest to the difference of their
numbers, if it is not negative either. -/
theorem sub (hx : At place x) (hy : At other y) (h : place < infinityMagnitude) (le : other ≤ place) :
    ∃ difference, At difference (x - y) ∧ IsNearest (valueAt place - valueAt other) difference := by
  have h' := le.trans_lt h
  obtain ⟨negative, unsigned⟩ := hx
  obtain ⟨negative', unsigned'⟩ := hy
  have packs : packed (ofMagnitude negative place - ofMagnitude negative' other) =
      pack binary64 (UnpackedFloat.sub binary64 (unpackedAt negative place) (unpackedAt negative' other)) := by
    rw [← unpack_ofMagnitude h.le, ← unpack_ofMagnitude h'.le]
    rfl
  rcases unpackedAt_cases negative h.le with ⟨rfl, u⟩ | ⟨pos, -, some, u⟩ | ⟨full, -⟩
  · obtain rfl := Nat.le_zero.1 le
    obtain ⟨sign, difference⟩ : ∃ sign,
        UnpackedFloat.sub binary64 (.zero (signOf negative)) (unpackedAt negative' 0) = .zero sign := by
      cases negative <;> cases negative' <;> exact ⟨_, rfl⟩
    rw [u, difference] at packs
    rw [valueAt_zero, sub_zero]
    exact ⟨0, of_pack_zero packs, isNearest_zero⟩
  · rcases unpackedAt_cases negative' h'.le with ⟨rfl, v⟩ | ⟨pos', -, some', v⟩ | ⟨full', -⟩
    · have same : ofMagnitude negative place - ofMagnitude negative' 0 = ofMagnitude negative place := by
        apply eq_of_packed
        rw [packs, ← pack_unpackedAt h.le, u, v]
        rfl
      rw [same, valueAt_zero, sub_zero]
      exact ⟨place, .at negative unsigned, isNearest_valueAt h.le⟩
    · rw [u, v, sign_eq unsigned pos, sign_eq unsigned' pos'] at packs
      obtain ⟨low, low_eq⟩ : ∃ low, low = min (exponentAt place) (exponentAt other) := ⟨_, rfl⟩
      have value := aligned_value (mantissaAt place) (low_eq ▸ min_le_left _ _ : low ≤ exponentAt place)
      have value' := aligned_value (mantissaAt other) (low_eq ▸ min_le_right _ _ : low ≤ exponentAt other)
      have fewer : mantissaAt other <<< (exponentAt other - low).toNat ≤
          mantissaAt place <<< (exponentAt place - low).toNat := by
        have values := valueAt_le le h.le
        rw [valueAt, valueAt, ← value, ← value'] at values
        exact_mod_cast le_of_mul_le_mul_right values (two_zpow_pos low)
      obtain ⟨difference, stands, nearest⟩ := of_pack_normalize
        (mantissaAt place <<< (exponentAt place - low).toNat - mantissaAt other <<< (exponentAt other - low).toNat) low
        (packs.trans (by rw [Int.ofNat_sub fewer, low_eq]; rfl))
      rw [Nat.cast_sub fewer, sub_mul, value, value'] at nearest
      exact ⟨difference, stands, nearest⟩
    · exact absurd full' h'.ne
  · exact absurd full h.ne

/-- The product of two finite doubles that are not negative is the double nearest to the product of their numbers. -/
theorem mul (hx : At place x) (hy : At other y) (h : place < infinityMagnitude) (h' : other < infinityMagnitude) :
    ∃ product, At product (x * y) ∧ IsNearest (valueAt place * valueAt other) product := by
  obtain ⟨negative, unsigned⟩ := hx
  obtain ⟨negative', unsigned'⟩ := hy
  obtain ⟨product, multiplied, nearest⟩ := mul_ofMagnitude negative negative' h h'
  rw [multiplied]
  refine ⟨product, .at _ fun signed => ?_, nearest⟩
  have zero : valueAt place * valueAt other = 0 := by
    cases negative with
    | true => rw [unsigned rfl, valueAt_zero, zero_mul]
    | false => rw [unsigned' (by simpa using signed), valueAt_zero, mul_zero]
  rw [zero] at nearest
  exact nearest.unique isNearest_zero

/-- The quotient of two finite doubles that are not negative is the double nearest to the quotient of their numbers. -/
theorem div (hx : At place x) (hy : At other y) (h : place < infinityMagnitude) (h' : other < infinityMagnitude)
    (pos : 0 < other) : ∃ quotient, At quotient (x / y) ∧ IsNearest (valueAt place / valueAt other) quotient := by
  obtain ⟨negative, unsigned⟩ := hx
  obtain ⟨negative', unsigned'⟩ := hy
  obtain ⟨quotient, divided, nearest⟩ := div_ofMagnitude negative negative' h h' pos
  rw [divided]
  refine ⟨quotient, .at _ fun signed => ?_, nearest⟩
  have plain : negative' = false := Bool.eq_false_iff.2 fun set => pos.ne' (unsigned' set)
  rw [unsigned (by simpa [plain] using signed), valueAt_zero, zero_div] at nearest
  exact nearest.unique isNearest_zero

/-- A finite double is no part of infinity. -/
theorem div_infinity (hx : At place x) (hy : At infinityMagnitude y) (h : place < infinityMagnitude) :
    At 0 (x / y) := by
  obtain ⟨negative, unsigned⟩ := hx
  obtain ⟨negative', unsigned'⟩ := hy
  have packs : packed (ofMagnitude negative place / ofMagnitude negative' infinityMagnitude) =
      pack binary64 (UnpackedFloat.div binary64 (unpackedAt negative place)
        (.infinity (signOf negative'))) := by
    rw [← unpack_ofMagnitude h.le]
    show pack binary64 (UnpackedFloat.div binary64 _ (unpack binary64 (packed _))) = _
    rw [unpack_ofMagnitude le_rfl]
    rfl
  rcases unpackedAt_cases negative h.le with ⟨-, u⟩ | ⟨-, -, some, u⟩ | ⟨full, -⟩
  · rw [u] at packs
    exact of_pack_zero packs
  · rw [u] at packs
    exact of_pack_zero packs
  · exact absurd full h.ne

/-- An infinite part of infinity is no number. -/
theorem infinity_div_infinity (hx : At infinityMagnitude x) (hy : At infinityMagnitude y) :
    unpack binary64 (packed (x / y)) = .notANumber := by
  obtain ⟨negative, unsigned⟩ := hx
  obtain ⟨negative', unsigned'⟩ := hy
  show unpack binary64 (pack binary64 (UnpackedFloat.div binary64 (unpack binary64 (packed _))
    (unpack binary64 (packed _)))) = _
  rw [unpack_ofMagnitude le_rfl, unpack_ofMagnitude le_rfl]
  exact unpack_packedNaN

/-- A multiple of what is no number is not finite. -/
theorem not_finite_mul (h : unpack binary64 (packed x) = .notANumber) : isFinite (x * y) = false := by
  have undefined : x * y = 0.0 / 0.0 := by
    have none : packed (0.0 / 0.0) = pack binary64 .notANumber := by decide
    apply eq_of_packed
    rw [none]
    show pack binary64 (UnpackedFloat.mul binary64 (unpack binary64 (packed x)) _) = _
    rw [h]
    rfl
  rw [undefined]
  decide

end At

end GameScoring.Binary
