import Mathlib
import GameScoring.Proofs.Numeral.Equality
import GameScoring.Proofs.Numeral.Monotone
import GameScoring.Proofs.Numeral.Sign

/-!
# Places of doubles

A double that is a number has a sign and a place, and doubles without a sign are ordered as their places are. The
product of two finite doubles is the double nearest to the product of the numbers they stand for.
-/
namespace GameScoring.Binary
open Float.Model (Format UnpackedFloat)
open Float.Model.UnpackedFloat
open Float.Model.Format (binary64)

variable {negative : Bool} {place other : Nat}

/-! ## Finite doubles -/

/-- A finite double has a place, which its mantissa and its exponent are known from. -/
theorem exists_place {x : Float} (finite : isFinite x = true) :
    ∃ place, place < infinityMagnitude ∧ x = ofMagnitude (isNegative x) place ∧
      shape x = .finite (isNegative x) (mantissaAt place) (exponentAt place) := by
  have bits : x.toBits.toNat < 2 * 9223372036854775808 := x.toBits.toNat_lt
  have unfull : x.toBits.toNat / 4503599627370496 % 2048 ≠ 2047 := (isFinite_iff_field x).1 finite
  have sign : isNegative x = decide (9223372036854775808 ≤ x.toBits.toNat) := rfl
  have less : x.toBits.toNat % 9223372036854775808 < infinityMagnitude := by
    show _ < 2047 * 4503599627370496
    omega
  refine ⟨x.toBits.toNat % 9223372036854775808, less, ?_, ?_⟩
  · apply Float.toBits_inj.1
    apply UInt64.toNat_inj.1
    rw [toBits_ofMagnitude less.le, sign]
    show _ = _ + if _ then 9223372036854775808 else 0
    by_cases set : 9223372036854775808 ≤ x.toBits.toNat
    · rw [decide_eq_true set, if_pos rfl]
      omega
    · rw [decide_eq_false set, if_neg (by decide)]
      omega
  · rw [shape_eq, if_neg ((isFinite_iff_field x).1 finite)]
    show (if x.toBits.toNat / 4503599627370496 % 2048 = 0 then
        Shape.finite (isNegative x) (x.toBits.toNat % 4503599627370496) (-1074)
      else .finite (isNegative x) (x.toBits.toNat % 4503599627370496 + 4503599627370496)
        (((x.toBits.toNat / 4503599627370496 % 2048 : Nat) : Int) - 1075)) =
      .finite (isNegative x)
        (x.toBits.toNat % 9223372036854775808 -
          (x.toBits.toNat % 9223372036854775808 / 4503599627370496 - 1) * 4503599627370496)
        (((x.toBits.toNat % 9223372036854775808 / 4503599627370496 - 1 : Nat) : Int) - 1074)
    split <;> congr 1 <;> omega

theorem toNat_packed_ofMagnitude (h : place ≤ infinityMagnitude) :
    (packed (ofMagnitude negative place)).toNat = place + if negative then signBit else 0 := toBits_ofMagnitude h

/-- Doubles of one sign are equal only if they have one place. -/
theorem place_eq_of_beq (h : place ≤ infinityMagnitude) (h' : other ≤ infinityMagnitude)
    (same : (ofMagnitude negative place == ofMagnitude negative other) = true) : place = other := by
  have limit : infinityMagnitude < signBit := by decide
  have positive : (packedZero binary64 .positive).toNat = 0 := by decide
  have set : (packedZero binary64 .negative).toNat = signBit := by decide
  obtain ⟨-, -, same⟩ := beq_iff_packed.1 same
  rcases same with same | ⟨zero, zero'⟩ | ⟨zero, zero'⟩
  · have same := congrArg BitVec.toNat same
    rw [toNat_packed_ofMagnitude h, toNat_packed_ofMagnitude h'] at same
    omega
  -- The two zeros have different signs.
  · have zero := congrArg BitVec.toNat zero
    have zero' := congrArg BitVec.toNat zero'
    rw [toNat_packed_ofMagnitude h, positive] at zero
    rw [toNat_packed_ofMagnitude h', set] at zero'
    cases negative <;> simp at zero zero' <;> omega
  · have zero := congrArg BitVec.toNat zero
    have zero' := congrArg BitVec.toNat zero'
    rw [toNat_packed_ofMagnitude h, set] at zero
    rw [toNat_packed_ofMagnitude h', positive] at zero'
    cases negative <;> simp at zero zero' <;> omega

theorem isNegative_iff {x : Float} : isNegative x = true ↔ signBit ≤ (packed x).toNat := decide_eq_true_iff

theorem isNegative_ofMagnitude (h : place ≤ infinityMagnitude) :
    isNegative (ofMagnitude negative place) = negative := by
  have limit : infinityMagnitude < signBit := by decide
  rw [Bool.eq_iff_iff, isNegative_iff, toNat_packed_ofMagnitude h]
  split
  next set => exact iff_of_true (Nat.le_add_left ..) set
  next unset => exact iff_of_false (by omega) unset

theorem shape_ofMagnitude (h : place < infinityMagnitude) :
    shape (ofMagnitude negative place) = .finite negative (mantissaAt place) (exponentAt place) := by
  have finite : isFinite (ofMagnitude negative place) = true := (isFinite_ofMagnitude h.le).2 h
  obtain ⟨own, less, same, shaped⟩ := exists_place finite
  rw [isNegative_ofMagnitude h.le] at same shaped
  obtain rfl : place = own := place_eq_of_beq h.le less.le (by rw [← same]; exact beq_self_of_finite finite)
  exact shaped

/-! ## Unpacked doubles -/

def signOf (negative : Bool) : Sign := if negative then .negative else .positive

/-- The number that is unpacked from a double with a place. -/
def unpackedAt (negative : Bool) (place : Nat) : UnpackedFloat :=
  if place = infinityMagnitude then .infinity (signOf negative)
  else if pos : 0 < mantissaAt place then .finite (signOf negative) (mantissaAt place) (exponentAt place) pos
  else .zero (signOf negative)

theorem unpackSign_ofMagnitude (h : place ≤ infinityMagnitude) :
    Sign.ofBitVec (unpackSign (packed (ofMagnitude negative place))) = signOf negative := by
  have limit : infinityMagnitude < signBit := by decide
  have bits := @toNat_packed_ofMagnitude negative place h
  cases negative with
  | false =>
    have small : (packed (ofMagnitude false place)).toNat < signBit := by
      rw [bits, if_neg (by decide), Nat.add_zero]
      exact Nat.lt_of_le_of_lt h limit
    exact sign_of_lt small
  | true =>
    have large : signBit ≤ (packed (ofMagnitude true place)).toNat := by
      rw [bits, if_pos rfl]
      exact Nat.le_add_left ..
    rw [sign_of_isNegative (isNegative_iff.2 large)]
    rfl

theorem unpackExponent_ofMagnitude (h : place ≤ infinityMagnitude) :
    (unpackExponent (packed (ofMagnitude negative place))).toNat = place / leadingUnit := by
  have limit : place ≤ 2047 * 4503599627370496 := h
  have sign : signBit = 2048 * 4503599627370496 := by decide
  rw [toNat_unpackExponent, toNat_packed_ofMagnitude h, sign]
  generalize unit : leadingUnit = u
  obtain rfl : 4503599627370496 = u := unit
  split <;> omega

theorem unpackMantissa_ofMagnitude (h : place ≤ infinityMagnitude) :
    (unpackMantissa (packed (ofMagnitude negative place))).toNat = place % leadingUnit := by
  have sign : signBit = 2048 * 4503599627370496 := by decide
  rw [toNat_unpackMantissa, toNat_packed_ofMagnitude h, sign]
  generalize unit : leadingUnit = u
  obtain rfl : 4503599627370496 = u := unit
  split <;> omega

theorem finite_congr {sign : Sign} {m m' : Nat} {e e' : Int} {pos : 0 < m} {pos' : 0 < m'} (mantissa : m = m')
    (exponent : e = e') : UnpackedFloat.finite sign m e pos = .finite sign m' e' pos' := by
  subst mantissa exponent
  rfl

theorem unpack_ofMagnitude (h : place ≤ infinityMagnitude) :
    unpack binary64 (packed (ofMagnitude negative place)) = unpackedAt negative place := by
  have exponent := @unpackExponent_ofMagnitude negative place h
  have mantissa := @unpackMantissa_ofMagnitude negative place h
  have sign := @unpackSign_ofMagnitude negative place h
  generalize packed (ofMagnitude negative place) = b at exponent mantissa sign
  have limit : place ≤ 2047 * 4503599627370496 := h
  have unit : leadingUnit = 4503599627370496 := rfl
  have full : unpackExponent b = -1#11 ↔ place = infinityMagnitude := by
    have all : (-1#11).toNat = 2047 := by decide
    have last : infinityMagnitude = 2047 * 4503599627370496 := rfl
    rw [← BitVec.toNat_inj, exponent, all, unit, last]
    omega
  have low : unpackExponent b = 0#11 ↔ place / 4503599627370496 = 0 := by
    rw [← BitVec.toNat_inj, exponent, unit]
    rfl
  have empty : unpackMantissa b = 0#52 ↔ place % 4503599627370496 = 0 := by
    rw [← BitVec.toNat_inj, mantissa, unit]
    rfl
  have whole : mantissaAt place = place - (place / 4503599627370496 - 1) * 4503599627370496 := rfl
  unfold unpack unpackedAt
  dsimp only
  rw [sign]
  by_cases infinite : place = infinityMagnitude
  · have zero : unpackMantissa b = 0#52 := by
      rw [empty, infinite]
      rfl
    rw [if_pos (full.2 infinite), if_pos infinite, if_pos zero]
  · rw [if_neg (mt full.1 infinite), if_neg infinite]
    by_cases subnormal : place / 4503599627370496 = 0
    · rw [if_pos (low.2 subnormal)]
      by_cases zero : place % 4503599627370496 = 0
      · rw [dif_pos (empty.2 zero), dif_neg (by omega)]
      · rw [dif_neg (mt empty.1 zero), dif_pos (by omega)]
        apply finite_congr
        · rw [mantissa, unit]
          omega
        · rw [exponent, exponentAt, unit, subnormal]
          rfl
    · rw [if_neg (mt low.1 subnormal), dif_pos (by omega)]
      apply finite_congr
      · rw [BitVec.toNat_append, ← Nat.shiftLeft_add_eq_or_of_lt (unpackMantissa b).isLt, mantissa, unit, whole]
        show 4503599627370496 + place % 4503599627370496 = _
        omega
      · rw [exponent, exponentAt, unit]
        show ((place / 4503599627370496 : Nat) : Int) - (1023 + 52) = _
        omega

/-! ## The order of doubles -/

/-- What is unpacked at a place is a zero, a finite number or an infinity. -/
theorem unpackedAt_cases (negative : Bool) (h : place ≤ infinityMagnitude) :
    (place = 0 ∧ unpackedAt negative place = .zero (signOf negative)) ∨
      (0 < place ∧ place < infinityMagnitude ∧
        ∃ pos, unpackedAt negative place = .finite (signOf negative) (mantissaAt place) (exponentAt place) pos) ∨
      (place = infinityMagnitude ∧ unpackedAt negative place = .infinity (signOf negative)) := by
  rw [unpackedAt]
  by_cases infinite : place = infinityMagnitude
  · exact .inr (.inr ⟨infinite, if_pos infinite⟩)
  · rw [if_neg infinite]
    by_cases zero : place = 0
    · subst zero
      exact .inl ⟨rfl, dif_neg (by decide)⟩
    · have some := Nat.pos_of_ne_zero zero
      exact .inr (.inl ⟨some, Nat.lt_of_le_of_ne h infinite, mantissaAt_pos some, dif_pos (mantissaAt_pos some)⟩)

/-- The places of finite numbers are ordered by their exponents, and then by their mantissas. -/
theorem compare_at (place other : Nat) :
    (compare (exponentAt place) (exponentAt other)).then (compare (mantissaAt place) (mantissaAt other)) =
      compare place other := by
  have first := placeOf_at place
  have second := placeOf_at other
  have exponents {a b : Nat} (less : a < b) : exponentAt a ≤ exponentAt b := by
    have := Nat.div_le_div_right (c := leadingUnit) less.le
    rw [exponentAt, exponentAt]
    omega
  have mantissas {a b : Nat} (less : a < b) (same : exponentAt a = exponentAt b) : mantissaAt a < mantissaAt b := by
    have first := placeOf_at a
    have second := placeOf_at b
    rw [placeOf, same] at first
    rw [placeOf] at second
    omega
  rcases lt_trichotomy place other with less | rfl | more
  · rw [Nat.compare_eq_lt.2 less]
    rcases (exponents less).lt_or_eq with below | same
    · rw [Int.compare_eq_lt.2 below]
      rfl
    · rw [Int.compare_eq_eq.2 same, Nat.compare_eq_lt.2 (mantissas less same)]
      rfl
  · rw [Int.compare_eq_eq.2 rfl, Nat.compare_eq_eq.2 rfl, Nat.compare_eq_eq.2 rfl]
    rfl
  · rw [Nat.compare_eq_gt.2 more]
    rcases (exponents more).lt_or_eq with below | same
    · rw [Int.compare_eq_gt.2 below]
      rfl
    · rw [Int.compare_eq_eq.2 same.symm, Nat.compare_eq_gt.2 (mantissas more same)]
      rfl

theorem compare_unpackedAt (h : place ≤ infinityMagnitude) (h' : other ≤ infinityMagnitude) :
    (unpackedAt false place).compare (unpackedAt false other) = some (compare place other) := by
  rcases unpackedAt_cases false h with ⟨zero, u⟩ | ⟨pos, less, _, u⟩ | ⟨full, u⟩ <;>
    rcases unpackedAt_cases false h' with ⟨zero', v⟩ | ⟨pos', less', _, v⟩ | ⟨full', v⟩ <;>
      rw [u, v]
  · exact congrArg some (Nat.compare_eq_eq.2 (zero.trans zero'.symm)).symm
  · exact congrArg some (Nat.compare_eq_lt.2 (zero ▸ pos')).symm
  · exact congrArg some (Nat.compare_eq_lt.2 (by rw [zero, full']; decide)).symm
  · exact congrArg some (Nat.compare_eq_gt.2 (zero' ▸ pos)).symm
  · exact congrArg some (compare_at place other)
  · exact congrArg some (Nat.compare_eq_lt.2 (full' ▸ less)).symm
  · exact congrArg some (Nat.compare_eq_gt.2 (by rw [full, zero']; decide)).symm
  · exact congrArg some (Nat.compare_eq_gt.2 (full ▸ less')).symm
  · exact congrArg some (Nat.compare_eq_eq.2 (full.trans full'.symm)).symm

theorem ofMagnitude_lt_iff (h : place ≤ infinityMagnitude) (h' : other ≤ infinityMagnitude) :
    ofMagnitude false place < ofMagnitude false other ↔ place < other := by
  rw [lt_iff_compare, unpack_ofMagnitude h, unpack_ofMagnitude h', compare_unpackedAt h h', Option.some_inj,
    Nat.compare_eq_lt]

theorem le_iff_compare {x y : Float} :
    x ≤ y ↔ ((unpack binary64 (packed x)).compare (unpack binary64 (packed y))).any (·.isLE) = true :=
  ⟨of_decide_eq_true, decide_eq_true⟩

/-- Doubles without a sign are ordered as their places are. -/
theorem ofMagnitude_le_iff (h : place ≤ infinityMagnitude) (h' : other ≤ infinityMagnitude) :
    ofMagnitude false place ≤ ofMagnitude false other ↔ place ≤ other := by
  rw [le_iff_compare, unpack_ofMagnitude h, unpack_ofMagnitude h', compare_unpackedAt h h']
  exact Nat.isLE_compare

/-! ## Doubles that are not negative -/

theorem zero_at : (0.0 : Float) = ofMagnitude false 0 := by
  apply Float.toBits_inj.1
  decide

/-- What is unpacked from a double that is not finite is an infinity or no number. -/
theorem unpack_of_not_finite {x : Float} (h : isFinite x ≠ true) :
    unpack binary64 (packed x) = .notANumber ∨ ∃ sign, unpack binary64 (packed x) = .infinity sign := by
  rw [ne_eq, isFinite_iff_field, not_ne_iff, field_eq] at h
  have full : unpackExponent (packed x) = -1#11 := BitVec.eq_of_toNat_eq h
  unfold unpack
  dsimp only
  rw [if_pos full]
  split
  next => exact .inr ⟨_, rfl⟩
  next => exact .inl rfl

/-- What lies above zero and below a double is finite. -/
theorem isFinite_of_between {x y : Float} (least : 0.0 < x) (less : x < y) : isFinite x = true := by
  by_contra infinite
  rw [lt_iff_compare, unpack_zero] at least
  rw [lt_iff_compare] at less
  rcases unpack_of_not_finite infinite with none | ⟨sign, unpacked⟩
  · rw [none] at least
    cases least
  · rw [unpacked] at least less
    obtain rfl : sign = .positive := unsigned_of_greater least
    cases other : unpack binary64 (packed y) <;> rw [other] at less
    next sign => cases sign <;> cases less
    all_goals cases less

/-- A finite double that is not negative has no sign, unless it is a zero. -/
theorem NonNegative.exists_place {x : Float} (h : NonNegative x) (finite : isFinite x = true) :
    ∃ negative place, x = ofMagnitude negative place ∧ place < infinityMagnitude ∧ (negative = true → place = 0) := by
  obtain ⟨place, less, same, shaped⟩ := Binary.exists_place finite
  refine ⟨_, place, same, less, fun negative => ?_⟩
  by_contra some
  rw [negative] at shaped
  exact (mantissaAt_pos (Nat.pos_of_ne_zero some)).ne' (h.mantissa shaped)

theorem NonNegative.zero_le {x : Float} (h : NonNegative x) (finite : isFinite x = true) : 0.0 ≤ x := by
  obtain ⟨negative, place, rfl, less, unsigned⟩ := h.exists_place finite
  cases negative with
  | false =>
    rw [zero_at]
    exact (ofMagnitude_le_iff (Nat.zero_le _) less.le).2 (Nat.zero_le _)
  | true =>
    rw [unsigned rfl]
    decide

end GameScoring.Binary
