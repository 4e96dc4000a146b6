import Mathlib
import GameScoring.Proofs.Numeral.Margin
import GameScoring.Proofs.Numeral.Place

/-!
# Shortest decimals

A decimal is read as the double nearest to it, and the decimal of a double is on the coarsest grid that has one which
reads as the double, among those that hold its leading digit.
-/
namespace GameScoring.Decimal
open Binary

/-! ## Reading -/

theorem isNearest_of_tiny {q : ℚ} (least : 0 ≤ q) (tiny : q ≤ 2 ^ (-1075 : Int)) : IsNearest q 0 := by
  obtain ⟨place, h⟩ := exists_isNearest least
  -- Half of the least double is as near to zero, which is even.
  have half : (2 : ℚ) ^ (-1075 : Int) / 2 ^ (-1074 : Int) = 1 / 2 := by
    rw [← zpow_sub₀ two_ne_zero]
    norm_num
  have binade : Binade (2 ^ (-1075 : Int)) (-1074) := ⟨le_rfl, .inl rfl, by rw [half]; norm_num [leadingUnit]⟩
  have rounds : Rounds (2 ^ (-1075 : Int) / 2 ^ (-1074 : Int)) 0 := by
    rw [half]
    exact ⟨by norm_num, by norm_num, fun _ => rfl⟩
  have zero : place ≤ 0 := h.mono (.rounded binade rounds) tiny
  rwa [Nat.le_zero.1 zero] at h

theorem two_pow_le_ten_pow : 2 ^ 1075 ≤ 10 ^ 400 := 
  pow_le_pow_of_parts 25 (by decide : 2 ^ 43 ≤ 10 ^ 16) rfl rfl

theorem isNearest_of_huge {q : ℚ} (huge : 10 ^ 400 ≤ q) : IsNearest q infinityMagnitude := by
  obtain ⟨place, h⟩ := exists_isNearest ((by positivity : (0 : ℚ) ≤ 10 ^ 400).trans huge)
  have limit : valueAt infinityMagnitude ≤ 10 ^ 400 := by
    have mantissa : mantissaAt infinityMagnitude = 2 ^ 52 := by decide
    have exponent : exponentAt infinityMagnitude = (972 : Nat) := by decide
    rw [valueAt, mantissa, exponent, zpow_natCast, Nat.cast_pow, Nat.cast_ofNat, ← pow_add]
    exact (pow_le_pow_right₀ one_le_two (by decide : 52 + 972 ≤ 1075)).trans (by exact_mod_cast two_pow_le_ten_pow)
  have all := (isNearest_valueAt le_rfl).mono h (limit.trans huge)
  rwa [Nat.le_antisymm h.le_infinity all] at h

/-- A decimal is read as the double nearest to it. -/
theorem exists_toFloat (d : Decimal) : ∃ place, d.toFloat = ofMagnitude d.negative place ∧ IsNearest d.size place := by
  rw [toFloat]
  dsimp only
  split
  next small =>
    refine ⟨0, by rw [nearest, if_pos rfl], isNearest_of_tiny d.size_nonneg ?_⟩
    rcases small with zero | small
    · rw [size, zero, Nat.cast_zero, zero_mul]
      exact (two_zpow_pos _).le
    · calc d.size ≤ 10 ^ ((digitCount d.coefficient : Int) + d.exponent) := d.size_lt.le
        _ ≤ 10 ^ (-(400 : Nat) : Int) := ten_zpow_le (by omega)
        _ ≤ 2 ^ (-(1075 : Nat) : Int) := by
          rw [zpow_neg, zpow_neg, zpow_natCast, zpow_natCast]
          exact inv_anti₀ (by positivity) (by exact_mod_cast two_pow_le_ten_pow)
  next some =>
    have some : d.coefficient ≠ 0 := fun zero => some (.inl zero)
    split
    next large =>
      refine ⟨infinityMagnitude, rfl, isNearest_of_huge ?_⟩
      calc (10 : ℚ) ^ 400 = 10 ^ (400 : Int) := by norm_num
        _ ≤ 10 ^ ((digitCount d.coefficient : Int) + d.exponent - 1) := ten_zpow_le (by omega)
        _ ≤ d.size := le_size some
    next =>
      obtain ⟨place, read, h⟩ :=
        exists_nearest d.negative (scale 10 d.coefficient 1 d.exponent).1
          (scale_pos (by decide) Nat.one_pos : 0 < (scale 10 d.coefficient 1 d.exponent).2)
      refine ⟨place, read, ?_⟩
      rwa [scale_quotient, Nat.cast_one, div_one] at h

/-- A decimal reads as a double of its sign exactly if the double is the nearest one. -/
theorem reads_iff {d : Decimal} {place : Nat} (finite : place < infinityMagnitude) :
    (d.toFloat == ofMagnitude d.negative place) = true ↔ IsNearest d.size place := by
  obtain ⟨own, read, h⟩ := d.exists_toFloat
  rw [read]
  constructor
  · intro same
    rwa [← place_eq_of_beq h.le_infinity finite.le same]
  · intro h'
    rw [h.unique h']
    exact beq_self_of_finite ((isFinite_ofMagnitude finite.le).2 finite)

/-! ## Grids -/

/-- A grid with a decimal that reads as a double has one next to the double. -/
theorem exists_onGrid? {place num den units : Nat} {grid : Int} (negative : Bool) (finite : place < infinityMagnitude)
    (pos : 0 < den) (value : (num / den : ℚ) = valueAt place) (h : IsNearest (units * 10 ^ grid) place) :
    ∃ d, onGrid? (ofMagnitude negative place) negative num den grid = some d := by
  have unit := ten_zpow_pos grid
  have scaled := @scale_quotient 10 num den (-grid)
  have scaled_pos := @scale_pos 10 num den (-grid) (by decide) pos
  rw [value, zpow_neg, ← div_eq_mul_inv, Nat.cast_ofNat] at scaled
  rw [onGrid?]
  generalize scale 10 num den (-grid) = quotient at scaled scaled_pos ⊢
  obtain ⟨n, m⟩ := quotient
  have scaled_pos' : (0 : ℚ) < m := by exact_mod_cast scaled_pos
  have exact_value := isNearest_valueAt finite.le
  have low : ((n / m : Nat) : ℚ) * 10 ^ grid ≤ valueAt place := by
    rw [← le_div_iff₀ unit, ← scaled]
    exact Nat.cast_div_le
  have high : valueAt place ≤ ((n / m + 1 : Nat) : ℚ) * 10 ^ grid := by
    rw [← div_le_iff₀ unit, ← scaled, div_le_iff₀ scaled_pos']
    exact_mod_cast ((Nat.div_lt_iff_lt_mul scaled_pos).1 (Nat.lt_succ_self _)).le
  have neighbour : ∃ c, (c = n / m ∨ c = n / m + 1) ∧
      ((Decimal.mk negative c grid).toFloat == ofMagnitude negative place) = true := by
    have reads {c : Nat} (h : IsNearest (c * 10 ^ grid) place) :
        ((Decimal.mk negative c grid).toFloat == ofMagnitude negative place) = true := (reads_iff finite).2 h
    have least (c : Nat) : (0 : ℚ) ≤ c * 10 ^ grid := mul_nonneg (Nat.cast_nonneg _) unit.le
    rcases Nat.lt_or_ge (n / m) units with above | below
    · have units_le : ((n / m + 1 : Nat) : ℚ) * 10 ^ grid ≤ units * 10 ^ grid :=
        mul_le_mul_of_nonneg_right (by exact_mod_cast above) unit.le
      exact ⟨_, .inr rfl, reads (exact_value.between h (least _) high units_le)⟩
    · have units_le : (units : ℚ) * 10 ^ grid ≤ ((n / m : Nat) : ℚ) * 10 ^ grid :=
        mul_le_mul_of_nonneg_right (by exact_mod_cast below) unit.le
      exact ⟨_, .inl rfl, reads (h.between exact_value (least _) units_le low)⟩
  obtain ⟨c, which, reads⟩ := neighbour
  refine Option.isSome_iff_exists.1 (List.find?_isSome.2 ⟨⟨negative, c, grid⟩, List.mem_map.2 ⟨c, ?_, rfl⟩, reads⟩)
  rcases which with rfl | rfl <;> split <;> simp

/-- The multiples of a positive number come closer to a bound from below than that number. -/
theorem exists_multiple {unit bound : ℚ} (pos : 0 < unit) (bound_pos : 0 < bound) :
    ∃ units : Nat, bound - unit ≤ units * unit ∧ units * unit < bound := by
  have some : 0 < ⌈bound / unit⌉₊ := Nat.ceil_pos.2 (div_pos bound_pos pos)
  have least := (div_le_iff₀ pos).1 (Nat.le_ceil (bound / unit))
  have most := Nat.ceil_lt_add_one (div_pos bound_pos pos).le
  rw [← sub_lt_iff_lt_add, lt_div_iff₀ pos] at most
  refine ⟨⌈bound / unit⌉₊ - 1, ?_, ?_⟩ <;> rw [Nat.cast_sub some, Nat.cast_one]
  · linarith
  · exact most

/-- Seventeen digits are enough: the multiples of a power of ten that is so small lie closer than doubles do. -/
theorem exists_seventeen {place : Nat} {grid : Int} (finite : place < infinityMagnitude)
    (fine : 10 ^ grid * 10 ^ 16 ≤ valueAt place) : ∃ units : Nat, IsNearest (units * 10 ^ grid) place := by
  have unit := ten_zpow_pos grid
  have pos := two_zpow_pos (exponentAt place)
  have leading_cast : (leadingUnit : ℚ) = 2 ^ 52 := by norm_num [leadingUnit]
  obtain ⟨small, leading⟩ := mantissaAt_spec place
  have small : (mantissaAt place : ℚ) + 1 ≤ 2 * leadingUnit := by exact_mod_cast small
  have bound_pos : 0 < valueAt place + 2 ^ exponentAt place / 2 := by
    have least := valueAt_nonneg place
    linarith
  obtain ⟨units, least, most⟩ := exists_multiple unit bound_pos
  rw [leading_cast] at small
  rw [valueAt] at fine least most
  have below : (mantissaAt place : ℚ) * 2 ^ exponentAt place + 2 ^ exponentAt place ≤
      2 * 2 ^ 52 * 2 ^ exponentAt place := by
    have product := mul_le_mul_of_nonneg_right small pos.le
    linarith
  have closer : (10 : ℚ) ^ grid < 2 ^ exponentAt place := by linarith
  refine ⟨units, isNearest_of_near finite.le ?_ ⟨by rw [exponentAt]; omega, ?_, ?_⟩⟩
  · rw [valueAt]
    exact abs_lt.2 ⟨by linarith, by linarith⟩
  · rcases leading with low | leading
    · exact .inl (by rw [exponentAt]; omega)
    · refine .inr ((le_div_iff₀ pos).2 ?_)
      -- Below a power of two the doubles lie twice as close, so there the multiple is not below the double at all.
      rcases Nat.eq_or_lt_of_le leading with least_mantissa | more
      · have mantissa : (mantissaAt place : ℚ) = leadingUnit := by exact_mod_cast least_mantissa.symm
        rw [mantissa, leading_cast] at fine least
        rw [leading_cast]
        linarith
      · have more : (leadingUnit : ℚ) + 1 ≤ mantissaAt place := by exact_mod_cast more
        have product := mul_le_mul_of_nonneg_right more pos.le
        linarith
  · rw [div_lt_iff₀ pos, leading_cast]
    linarith

/-! ## The decimal of a double -/

/-- The decimal of a double reads as it, and its grid is the coarsest with such a decimal that is not too coarse for
the leading digit of the double. -/
theorem exists_shortest {negative : Bool} {place : Nat} (pos : 0 < place) (finite : place < infinityMagnitude) :
    ∃ d, ofFloat? (ofMagnitude negative place) = some d ∧ d.negative = negative ∧ IsNearest d.size place ∧
      ∀ (grid : Int) (units : Nat), 10 ^ grid ≤ valueAt place → IsNearest (units * 10 ^ grid) place →
        grid ≤ d.exponent := by
  have value := @scale_quotient 2 (mantissaAt place) 1 (exponentAt place)
  have den_pos := @scale_pos 2 (mantissaAt place) 1 (exponentAt place) two_pos Nat.one_pos
  rw [Nat.cast_one, div_one, Nat.cast_ofNat] at value
  rw [ofFloat?, shape_ofMagnitude finite]
  dsimp only
  rw [if_neg (mantissaAt_pos pos).ne']
  generalize scale 2 (mantissaAt place) 1 (exponentAt place) = quotient at value den_pos ⊢
  obtain ⟨num, den⟩ := quotient
  replace value : (num / den : ℚ) = valueAt place := value
  have num_pos : 0 < num := by
    refine Nat.pos_of_ne_zero fun zero => (valueAt_pos pos).ne ?_
    rw [← value, zero, Nat.cast_zero, zero_div]
  have low := ten_zpow_leadingDigit_le num_pos den_pos
  have high := lt_ten_zpow_leadingDigit num_pos den_pos
  rw [value] at low high
  dsimp only
  generalize leadingDigit num den = lead at low high
  have finest : ∃ units : Nat, IsNearest (units * 10 ^ (lead - 16)) place := by
    refine exists_seventeen finite (low.trans_eq' ?_)
    rw [← zpow_natCast, ← ten_zpow_add]
    congr 1
    omega
  cases found : List.findSome? (onGrid? (ofMagnitude negative place) negative num den)
      ((List.range 17).map fun (below : Nat) => lead - below) with
  | none =>
    obtain ⟨units, h⟩ := finest
    obtain ⟨d, onGrid⟩ := exists_onGrid? negative finite den_pos value h
    have listed : lead - 16 ∈ (List.range 17).map fun (below : Nat) => lead - below :=
      List.mem_map.2 ⟨16, by decide, rfl⟩
    rw [List.findSome?_eq_none_iff.1 found _ listed] at onGrid
    cases onGrid
  | some d =>
    obtain ⟨before, grid, after, grids, onGrid, none_before⟩ := List.findSome?_eq_some_iff.1 found
    obtain ⟨rfl, exponent, reads, -⟩ := onGrid?_eq_some onGrid
    refine ⟨d, rfl, rfl, (reads_iff finite).1 reads, fun other units leading h => ?_⟩
    rw [exponent]
    by_contra coarser
    -- The coarser grids come before the one that has the decimal, and none of them has any.
    have decreasing : (before ++ grid :: after).Pairwise (· > ·) := by
      rw [← grids]
      exact List.pairwise_map.2 (List.pairwise_lt_range.imp fun less => by omega)
    have leading : other < lead + 1 := (zpow_lt_zpow_iff_right₀ (by norm_num)).1 (leading.trans_lt high)
    have last : lead - 16 ≤ grid := by
      have listed : grid ∈ (List.range 17).map fun (below : Nat) => lead - below := by
        rw [grids]
        exact List.mem_append_right _ List.mem_cons_self
      obtain ⟨below, range, rfl⟩ := List.mem_map.1 listed
      have := List.mem_range.1 range
      omega
    have listed : other ∈ before ++ grid :: after := by
      rw [← grids]
      exact List.mem_map.2 ⟨(lead - other).toNat, List.mem_range.2 (by omega), by omega⟩
    rcases List.mem_append.1 listed with earlier | later
    · obtain ⟨d', onGrid'⟩ := exists_onGrid? d.negative finite den_pos value h
      rw [none_before _ earlier] at onGrid'
      cases onGrid'
    · rcases List.mem_cons.1 later with same | after
      · omega
      · have below := (List.pairwise_cons.1 (List.pairwise_append.1 decreasing).2.1).1 other after
        omega

end GameScoring.Decimal
