import Mathlib
import GameScoring.Proofs.Numeral.Closest
import GameScoring.Proofs.Numeral.Shortest

/-!
# Decimals and doubles

A decimal stands for a number and is read as the double closest to it, so larger decimals are read as larger doubles.
The decimal of a double reads as this double, and its negative is the decimal of the negative double.
-/
namespace GameScoring.Decimal
open Binary

variable {negative : Bool} {place : Nat} {d e : Decimal}

/-- The number that a decimal stands for. -/
def number (d : Decimal) : ℚ := withSign d.negative d.size

/-! ## Reading -/

/-- A decimal is read as the double with its sign and the place nearest to its size. -/
theorem toFloat_of_isNearest (h : IsNearest d.size place) : d.toFloat = ofMagnitude d.negative place := by
  obtain ⟨own, read, nearest⟩ := d.exists_toFloat
  rw [read, nearest.unique h]

/-- A decimal that is read as a finite double is read as the one that is closest to it. -/
theorem closest_toFloat (finite : isFinite d.toFloat = true) : Closest d.number d.toFloat := by
  obtain ⟨place, read, nearest⟩ := d.exists_toFloat
  rw [read] at finite ⊢
  exact nearest.closest d.negative d.size_nonneg ((isFinite_ofMagnitude nearest.le_infinity).1 finite)

theorem isNegative_toFloat (d : Decimal) : isNegative d.toFloat = d.negative := by
  obtain ⟨place, read, nearest⟩ := d.exists_toFloat
  rw [read, isNegative_ofMagnitude nearest.le_infinity]

/-- A finite double that a decimal is read as has its sign, and its place is the nearest to the size. -/
theorem exists_read (finite : isFinite d.toFloat = true) : ∃ place, place < infinityMagnitude ∧
    IsNearest d.size place ∧ Binary.number d.toFloat = withSign d.negative (valueAt place) := by
  obtain ⟨place, read, nearest⟩ := d.exists_toFloat
  rw [read] at finite ⊢
  have less := (isFinite_ofMagnitude nearest.le_infinity).1 finite
  exact ⟨place, less, nearest, number_ofMagnitude less⟩

/-- Larger decimals are read as larger doubles. -/
theorem number_toFloat_le (hd : isFinite d.toFloat = true) (he : isFinite e.toFloat = true)
    (le : d.number ≤ e.number) : Binary.number d.toFloat ≤ Binary.number e.toFloat := by
  obtain ⟨place, less, nearest, value⟩ := exists_read hd
  obtain ⟨other, less', nearest', value'⟩ := exists_read he
  have d_least := d.size_nonneg
  have e_least := e.size_nonneg
  have place_least := valueAt_nonneg place
  have other_least := valueAt_nonneg other
  rw [value, value']
  rw [number, number] at le
  cases d_sign : d.negative <;> cases e_sign : e.negative <;> rw [d_sign, e_sign] at le
  · exact valueAt_le (nearest.mono nearest' le) less'.le
  · -- Only zeros are not larger than decimals with a sign.
    have sizes : d.size ≤ -e.size := le
    have d_zero : d.size = 0 := by linarith
    have e_zero : e.size = 0 := by linarith
    rw [d_zero] at nearest
    rw [e_zero] at nearest'
    rw [nearest.unique isNearest_zero, nearest'.unique isNearest_zero, valueAt_zero, withSign_zero, withSign_zero]
  · exact (neg_nonpos.2 place_least).trans other_least
  · exact neg_le_neg (valueAt_le (nearest'.mono nearest (neg_le_neg_iff.1 le)) less.le)

/-! ## The decimal of a double -/

theorem ofFloat?_zero (negative : Bool) : ofFloat? (ofMagnitude negative 0) = some ⟨negative, 0, 0⟩ := by
  rw [ofFloat?, shape_ofMagnitude (by decide)]
  rfl

/-- The decimal of a finite double has its sign and reads as it. -/
theorem exists_ofFloat? {x : Float} (finite : isFinite x = true) :
    ∃ d, ofFloat? x = some d ∧ d.negative = isNegative x ∧ d.toFloat = x := by
  obtain ⟨negative, place, less, rfl⟩ := exists_ofMagnitude finite
  rw [isNegative_ofMagnitude less.le]
  rcases Nat.eq_zero_or_pos place with rfl | pos
  · refine ⟨_, ofFloat?_zero negative, rfl, toFloat_of_isNearest ?_⟩
    rw [size, Nat.cast_zero, zero_mul]
    exact isNearest_zero
  · obtain ⟨d, decimal, rfl, nearest, -⟩ := @exists_shortest negative place pos less
    exact ⟨d, decimal, rfl, toFloat_of_isNearest nearest⟩

/-- The decimals of finite doubles are ordered as the doubles are. -/
theorem number_ofFloat?_le {x y : Float} (hx : isFinite x = true) (hy : isFinite y = true)
    (x_decimal : ofFloat? x = some d) (y_decimal : ofFloat? y = some e) (le : x ≤ y) : d.number ≤ e.number := by
  obtain ⟨_, decimal, -, x_read⟩ := exists_ofFloat? hx
  obtain rfl := Option.some_inj.1 (decimal.symm.trans x_decimal)
  obtain ⟨_, decimal', -, y_read⟩ := exists_ofFloat? hy
  obtain rfl := Option.some_inj.1 (decimal'.symm.trans y_decimal)
  rw [le_iff_number_le hx hy] at le
  by_contra less
  have back := number_toFloat_le (y_read ▸ hy) (x_read ▸ hx) (not_le.1 less).le
  rw [x_read, y_read] at back
  -- The doubles stand for one number, and then for different decimals they would have to be different.
  rcases eq_or_zero hx hy (le_antisymm le back) with rfl | ⟨negative, negative', rfl, rfl⟩
  · obtain rfl := Option.some_inj.1 (x_decimal.symm.trans y_decimal)
    exact less le_rfl
  · obtain rfl := Option.some_inj.1 ((ofFloat?_zero negative).symm.trans x_decimal)
    obtain rfl := Option.some_inj.1 ((ofFloat?_zero negative').symm.trans y_decimal)
    simp [number, size, withSign_zero] at less

/-! ## Negatives -/

/-- The decimal of the same size with the other sign. -/
def negate (d : Decimal) : Decimal := { d with negative := !d.negative }

theorem toFloat_negate (d : Decimal) : d.negate.toFloat = -d.toFloat := by
  obtain ⟨place, read, nearest⟩ := d.exists_toFloat
  rw [read, neg_ofMagnitude nearest.le_infinity]
  exact toFloat_of_isNearest nearest

theorem onGrid?_neg (h : place < infinityMagnitude) (num den : Nat) (grid : Int) :
    onGrid? (ofMagnitude (!negative) place) (!negative) num den grid =
      (onGrid? (ofMagnitude negative place) negative num den grid).map negate := by
  have reads (c : Nat) : ((mk (!negative) c grid).toFloat == ofMagnitude (!negative) place) =
      ((mk negative c grid).toFloat == ofMagnitude negative place) :=
    Bool.eq_iff_iff.2 ((@reads_iff ⟨!negative, c, grid⟩ _ h).trans (@reads_iff ⟨negative, c, grid⟩ _ h).symm)
  rw [onGrid?, onGrid?]
  dsimp only
  rw [List.find?_map, List.find?_map, Option.map_map]
  exact congrArg (Option.map _) (congrArg (List.find? · _) (funext reads))

theorem exact_not (negative : Bool) (mantissa : Nat) (exponent : Int) :
    exact (!negative) mantissa exponent = (exact negative mantissa exponent).negate := by
  rw [exact, exact]
  split <;> rfl

/-- The decimal of the negative of a finite double is the negative of its decimal. -/
theorem ofFloat?_neg {x : Float} (finite : isFinite x = true) : ofFloat? (-x) = (ofFloat? x).map negate := by
  obtain ⟨negative, place, less, rfl⟩ := exists_ofMagnitude finite
  rw [neg_ofMagnitude less.le, ofFloat?, ofFloat?, shape_ofMagnitude less, shape_ofMagnitude less]
  dsimp only
  split
  next => rfl
  next =>
    have grids := funext (@onGrid?_neg negative place less (scale 2 (mantissaAt place) 1 (exponentAt place)).1
      (scale 2 (mantissaAt place) 1 (exponentAt place)).2)
    rw [grids, exact_not, Option.map_some, ← Option.getD_map negate, List.map_findSome?]
    rfl

end GameScoring.Decimal
