import Mathlib
import GameScoring.Proofs.Numeral.Product

/-!
# The numbers that doubles stand for

A finite double stands for a number, and finite doubles are ordered as their numbers are. Only the two zeros stand
for one number, so a double is known from its number up to the sign of zero.
-/
namespace GameScoring.Binary
open Float.Model (UnpackedFloat)
open Float.Model.UnpackedFloat
open Float.Model.Format (binary64)

/-- A magnitude with a sign. -/
def withSign (negative : Bool) (magnitude : ℚ) : ℚ := if negative then -magnitude else magnitude

theorem withSign_not (negative : Bool) (magnitude : ℚ) :
    withSign (!negative) magnitude = -withSign negative magnitude := by
  cases negative <;> simp [withSign]

theorem withSign_zero (negative : Bool) : withSign negative 0 = 0 := by cases negative <;> simp [withSign]

theorem abs_withSign (negative : Bool) {magnitude : ℚ} (least : 0 ≤ magnitude) :
    |withSign negative magnitude| = magnitude := by
  cases negative <;> simp [withSign, abs_of_nonneg least]

/-- The number that a finite double stands for. -/
def number (x : Float) : ℚ :=
  match shape x with
  | .finite negative mantissa exponent => withSign negative (mantissa * 2 ^ exponent)
  | _ => 0

variable {negative negative' : Bool} {place other : Nat} {x y : Float}

theorem number_ofMagnitude (h : place < infinityMagnitude) :
    number (ofMagnitude negative place) = withSign negative (valueAt place) := by
  rw [number, shape_ofMagnitude h]
  rfl

/-- A finite double is known from its sign and its place. -/
theorem exists_ofMagnitude (finite : isFinite x = true) :
    ∃ negative place, place < infinityMagnitude ∧ x = ofMagnitude negative place := by
  obtain ⟨place, less, same, -⟩ := exists_place finite
  exact ⟨_, place, less, same⟩

/-! ## Negatives -/

theorem neg_ofMagnitude (h : place ≤ infinityMagnitude) :
    -ofMagnitude negative place = ofMagnitude (!negative) place := by
  apply eq_of_packed
  rw [packed_neg, unpack_ofMagnitude h, ← pack_unpackedAt h]
  have signs : -signOf negative = signOf !negative := by cases negative <;> rfl
  congr 1
  rcases unpackedAt_cases negative h with ⟨zero, u⟩ | ⟨pos, less, some, u⟩ | ⟨full, u⟩
  · rw [u, unpackedAt, if_neg (by rw [zero]; decide), dif_neg (by rw [zero]; decide), ← signs]
    rfl
  · rw [u, unpackedAt, if_neg less.ne, dif_pos some, ← signs]
    rfl
  · rw [u, unpackedAt, if_pos full, ← signs]
    rfl

theorem number_neg (finite : isFinite x = true) : number (-x) = -number x := by
  obtain ⟨negative, place, less, rfl⟩ := exists_ofMagnitude finite
  rw [neg_ofMagnitude less.le, number_ofMagnitude less, number_ofMagnitude less, withSign_not]

/-! ## Order -/

theorem valueAt_zero : valueAt 0 = 0 := zero_mul _

theorem valueAt_le (le : place ≤ other) (most : other ≤ infinityMagnitude) : valueAt place ≤ valueAt other := by
  rcases le.lt_or_eq with less | rfl
  · exact (valueAt_lt less most).le
  · exact le_rfl

theorem compare_valueAt (h : place ≤ infinityMagnitude) (h' : other ≤ infinityMagnitude) :
    compare (valueAt place) (valueAt other) = compare place other := by
  rcases lt_trichotomy place other with less | rfl | more
  · rw [Nat.compare_eq_lt.2 less, compare_lt_iff_lt]
    exact valueAt_lt less h'
  · rw [Nat.compare_eq_eq.2 rfl, compare_eq_iff_eq]
  · rw [Nat.compare_eq_gt.2 more, compare_gt_iff_gt]
    exact valueAt_lt more h

theorem compare_neg (q r : ℚ) : compare (-q) (-r) = (compare q r).swap := by
  rcases lt_trichotomy q r with less | rfl | more
  · rw [compare_lt_iff_lt.2 less, Ordering.swap, compare_gt_iff_gt]
    exact neg_lt_neg less
  · rw [compare_eq_iff_eq.2 rfl, compare_eq_iff_eq.2 rfl, Ordering.swap]
  · rw [compare_gt_iff_gt.2 more, Ordering.swap, compare_lt_iff_lt]
    exact neg_lt_neg more

/-- What is unpacked is compared as the numbers are that it stands for. -/
theorem compare_withSign (h : place < infinityMagnitude) (h' : other < infinityMagnitude) :
    (unpackedAt negative place).compare (unpackedAt negative' other) =
      some (compare (withSign negative (valueAt place)) (withSign negative' (valueAt other))) := by
  have swapped : compare (-valueAt place) (-valueAt other) = (compare place other).swap := by
    rw [compare_neg, compare_valueAt h.le h'.le]
  rcases unpackedAt_cases negative h.le with ⟨rfl, u⟩ | ⟨pos, -, _, u⟩ | ⟨full, -⟩
  · rw [u, valueAt_zero, withSign_zero]
    rcases unpackedAt_cases negative' h'.le with ⟨rfl, v⟩ | ⟨pos', -, _, v⟩ | ⟨full, -⟩
    · rw [v, valueAt_zero, withSign_zero, compare_eq_iff_eq.2 rfl]
      rfl
    · rw [v]
      have least := valueAt_pos pos'
      cases negative' with
      | false => exact congrArg some (compare_lt_iff_lt.2 least).symm
      | true => exact congrArg some (compare_gt_iff_gt.2 (neg_lt_zero.2 least)).symm
    · exact absurd full h'.ne
  · have least := valueAt_pos pos
    rcases unpackedAt_cases negative' h'.le with ⟨rfl, v⟩ | ⟨pos', -, _, v⟩ | ⟨full, -⟩
    · rw [u, v, valueAt_zero, withSign_zero]
      cases negative with
      | false => exact congrArg some (compare_gt_iff_gt.2 least).symm
      | true => exact congrArg some (compare_lt_iff_lt.2 (neg_lt_zero.2 least)).symm
    · have least' := valueAt_pos pos'
      rw [u, v]
      cases negative <;> cases negative'
      · exact congrArg some ((compare_at place other).trans (compare_valueAt h.le h'.le).symm)
      · exact congrArg some (compare_gt_iff_gt.2 ((neg_lt_zero.2 least').trans least)).symm
      · exact congrArg some (compare_lt_iff_lt.2 ((neg_lt_zero.2 least).trans least')).symm
      · exact congrArg some ((congrArg Ordering.swap (compare_at place other)).trans swapped.symm)
    · exact absurd full h'.ne
  · exact absurd full h.ne

/-- Finite doubles are ordered as their numbers are. -/
theorem le_iff_number_le (hx : isFinite x = true) (hy : isFinite y = true) : x ≤ y ↔ number x ≤ number y := by
  obtain ⟨negative, place, less, rfl⟩ := exists_ofMagnitude hx
  obtain ⟨negative', other, less', rfl⟩ := exists_ofMagnitude hy
  rw [le_iff_compare, unpack_ofMagnitude less.le, unpack_ofMagnitude less'.le, compare_withSign less less',
    number_ofMagnitude less, number_ofMagnitude less']
  rw [Option.any_some, Ordering.isLE_iff_ne_gt, compare_gt_iff_gt, not_lt]

theorem lt_iff_number_lt (hx : isFinite x = true) (hy : isFinite y = true) : x < y ↔ number x < number y := by
  obtain ⟨negative, place, less, rfl⟩ := exists_ofMagnitude hx
  obtain ⟨negative', other, less', rfl⟩ := exists_ofMagnitude hy
  rw [lt_iff_compare, unpack_ofMagnitude less.le, unpack_ofMagnitude less'.le, compare_withSign less less',
    number_ofMagnitude less, number_ofMagnitude less', Option.some_inj, compare_lt_iff_lt]

theorem number_zero : number 0.0 = 0 := by
  rw [zero_at, number_ofMagnitude (by decide), valueAt_zero, withSign_zero]

theorem NonNegative.number_nonneg (h : NonNegative x) (finite : isFinite x = true) : 0 ≤ number x := by
  have zero := (le_iff_number_le (by decide) finite).1 (h.zero_le finite)
  rwa [number_zero] at zero

theorem lt_zero_iff (finite : isFinite x = true) : x < 0.0 ↔ number x < 0 := by
  rw [lt_iff_number_lt finite (by decide), number_zero]

/-! ## Equal numbers -/

/-- A number that is not zero has one sign. -/
theorem withSign_inj {magnitude : ℚ} (pos : 0 < magnitude)
    (same : withSign negative magnitude = withSign negative' magnitude) : negative = negative' := by
  cases negative <;> cases negative' <;> grind [withSign]

/-- Doubles that stand for one number are one double, or both are zeros. -/
theorem eq_or_zero (hx : isFinite x = true) (hy : isFinite y = true) (same : number x = number y) :
    x = y ∨ ∃ negative negative', x = ofMagnitude negative 0 ∧ y = ofMagnitude negative' 0 := by
  obtain ⟨negative, place, less, rfl⟩ := exists_ofMagnitude hx
  obtain ⟨negative', other, less', rfl⟩ := exists_ofMagnitude hy
  rw [number_ofMagnitude less, number_ofMagnitude less'] at same
  have places : place = other := by
    have sizes := congrArg (|·|) same
    rw [abs_withSign _ (valueAt_nonneg _), abs_withSign _ (valueAt_nonneg _)] at sizes
    rw [← Nat.compare_eq_eq, ← compare_valueAt less.le less'.le, sizes, compare_eq_iff_eq]
  subst places
  rcases Nat.eq_zero_or_pos place with rfl | pos
  · exact .inr ⟨negative, negative', rfl, rfl⟩
  · have least := valueAt_pos pos
    exact .inl (congrArg (ofMagnitude · place) (withSign_inj least same))

/-- Finite doubles are equal exactly if they stand for one number. -/
theorem beq_iff_number_eq (hx : isFinite x = true) (hy : isFinite y = true) :
    (x == y) = true ↔ number x = number y := by
  constructor
  · intro same
    have zero {x : Float} {sign : Sign} (packs : packed x = packedZero binary64 sign) : number x = 0 := by
      obtain ⟨negative, zeros⟩ : ∃ negative, packedZero binary64 sign = packed (ofMagnitude negative 0) := by
        cases sign with
        | negative => exact ⟨true, by decide⟩
        | positive => exact ⟨false, by decide⟩
      rw [eq_of_packed (packs.trans zeros), number_ofMagnitude (by decide), valueAt_zero, withSign_zero]
    obtain ⟨-, -, equal | ⟨left, right⟩ | ⟨left, right⟩⟩ := beq_iff_packed.1 same
    · rw [eq_of_packed equal]
    · rw [zero left, zero right]
    · rw [zero left, zero right]
  · intro same
    rcases eq_or_zero hx hy same with rfl | ⟨negative, negative', rfl, rfl⟩
    · exact beq_self_of_finite hx
    · cases negative <;> cases negative' <;> decide

/-! ## Whole numbers -/

/-- A double that is equal to an integer stands for it. -/
theorem number_of_toInt? {x : Float} {i : Int} (whole : toInt? x = some i) : isFinite x = true ∧ number x = i := by
  unfold toInt? at whole
  split at whole
  next negative mantissa exponent shaped =>
    have pos : 0 < (scale 2 mantissa 1 exponent).2 := scale_pos two_pos one_pos
    have quotient := @scale_quotient 2 mantissa 1 exponent
    by_cases divides : (scale 2 mantissa 1 exponent).1 % (scale 2 mantissa 1 exponent).2 = 0
    · have exact := Nat.cast_div (K := ℚ) (Nat.dvd_of_mod_eq_zero divides) (by positivity)
      rw [quotient, Nat.cast_one, div_one, Nat.cast_ofNat] at exact
      dsimp only at whole
      rw [if_pos divides, Option.some_inj] at whole
      refine ⟨by rw [isFinite, shaped], ?_⟩
      rw [number, shaped, ← whole]
      dsimp only
      rw [← exact, withSign]
      split
      · push_cast; rfl
      · push_cast; rfl
    · dsimp only at whole
      rw [if_neg divides] at whole
      cases whole
  next => cases whole

/-- A double that is equal to a whole number is zero exactly if the number is. -/
theorem beq_zero_of_toInt? {x : Float} {i : Int} (whole : toInt? x = some i) : (x == 0.0) = decide (i = 0) := by
  obtain ⟨finite, value⟩ := number_of_toInt? whole
  rw [Bool.eq_iff_iff, beq_iff_number_eq finite (by decide), number_zero, value, decide_eq_true_iff, Int.cast_eq_zero]

end GameScoring.Binary
