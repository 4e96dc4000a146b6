import GameScoring.Proofs.Telemetry.Percentages

/-!
# Efficiency

The pairs that were matched are held against the pairs on the board, but not against the attempts. So an efficiency is
never negative, but it is a percentage only where no more pairs were matched than attempted, or where the ratio is zero
because nothing was attempted.
-/
namespace GameScoring

open Binary

/-! ## Ratios above the whole -/

namespace Binary
variable {place other : Nat}

/-- The least quotient of two doubles that is above one. -/
def leastAbove : ℚ := 1 + 1 / (2 * leadingUnit - 1)

theorem leastAbove_le_div (pos : 0 < other) (less : other < place) (most : place ≤ infinityMagnitude) :
    leastAbove ≤ valueAt place / valueAt other := by
  have value := valueAt_pos pos
  have unit := two_zpow_pos (exponentAt other)
  have small : (mantissaAt other : ℚ) + 1 ≤ 2 * leadingUnit := by exact_mod_cast (mantissaAt_spec other).1
  have some : (0 : ℚ) < mantissaAt other := by exact_mod_cast mantissaAt_pos pos
  rw [le_div_iff₀ value]
  calc leastAbove * valueAt other
      ≤ (1 + 1 / mantissaAt other) * valueAt other := by
        refine mul_le_mul_of_nonneg_right ?_ value.le
        rw [leastAbove]
        exact add_le_add_right (one_div_le_one_div_of_le some (by linarith)) 1
    _ = valueAt (other + 1) := by
        rw [valueAt_succ, add_mul, one_mul, valueAt, one_div, ← mul_assoc, inv_mul_cancel₀ some.ne', one_mul]
    _ ≤ valueAt place := valueAt_le less most

end Binary

namespace Telemetry
variable {place other : Nat} {x y : Float}

/-- The least quotient above one is rounded to the double after one. -/
theorem isNearest_leastAbove : IsNearest leastAbove (onePlace + 1) := by
  have unit : (leadingUnit : ℚ) = 2 ^ 52 := by norm_num [leadingUnit]
  have exponent : exponentAt (onePlace + 1) = -52 := by decide
  refine isNearest_of_near (by decide) ?_ ?_
  · have same : exponentAt onePlace = -52 := by decide
    rw [valueAt_succ, valueAt_onePlace, leastAbove, exponent, same, unit, abs_lt]
    norm_num
  · rw [exponent, leastAbove, unit]
    exact ⟨by norm_num, .inr (by rw [unit]; norm_num), by rw [unit]; norm_num⟩

/-- A hundred times the double after one is more than a hundred, also when it is rounded. -/
theorem hundred_lt_mul (hx : At place x) (more : onePlace < place) (less : place < infinityMagnitude) :
    ∃ product > Scoring.maxRawPlace, product ≤ infinityMagnitude ∧ At product (x * 100.0) := by
  obtain ⟨product, stands, nearest⟩ := hx.mul hundred_at less Scoring.maxRawPlace_lt
  refine ⟨product, (isNearest_valueAt (by decide)).mono nearest ?_, nearest.le_infinity, stands⟩
  have mantissa : mantissaAt Scoring.maxRawPlace = 25 * 2 ^ 48 := by decide
  have exponent : exponentAt Scoring.maxRawPlace = -46 := by decide
  have exponent' : exponentAt onePlace = -52 := by decide
  calc valueAt (Scoring.maxRawPlace + 1) ≤ valueAt (onePlace + 1) * valueAt Scoring.maxRawPlace := by
        rw [valueAt_succ, valueAt_succ, valueAt_onePlace, valueAt, mantissa, exponent, exponent']
        norm_num
    _ ≤ valueAt place * valueAt Scoring.maxRawPlace :=
        mul_le_mul_of_nonneg_right (valueAt_le more less.le) (valueAt_nonneg _)

/-- Only a finite number has a hundredfold that is finite. -/
theorem lt_infinity_of_mul (hx : At place x) (most : place ≤ infinityMagnitude)
    (finite : isFinite (x * 100.0) = true) : place < infinityMagnitude := by
  rcases most.lt_or_eq with less | rfl
  · exact less
  · exfalso
    obtain ⟨negative, unsigned⟩ := hx
    cases negative with
    | true => exact absurd (unsigned rfl) (by decide)
    | false => exact absurd finite (by decide)

section Ratio

variable (hx : At place x) (hy : At other y) (less : place < infinityMagnitude) (less' : other < infinityMagnitude)
  (finite : isFinite (ratio x y 100.0) = true)
include hx hy less less' finite

/-- A ratio that is a number is the hundredfold of zero, or of the quotient if there is one. -/
theorem ratio_cases : (other = 0 ∧ ratio x y 100.0 = 0.0) ∨
    ∃ quotient < infinityMagnitude, 0 < other ∧ IsNearest (valueAt place / valueAt other) quotient ∧
      ∃ z, At quotient z ∧ ratio x y 100.0 = z * 100.0 := by
  rw [ratio, Numeral.divideOr] at finite ⊢
  rcases Nat.eq_zero_or_pos other with rfl | pos
  · rw [if_pos ((hy.beq_zero_iff less'.le).2 rfl)]
    exact .inl ⟨rfl, by decide⟩
  · rw [if_neg (mt (hy.beq_zero_iff less'.le).1 pos.ne')] at finite ⊢
    obtain ⟨quotient, stands, nearest⟩ := hx.div hy less less' pos
    exact .inr ⟨quotient, lt_infinity_of_mul stands nearest.le_infinity finite, pos, nearest, x / y, stands, rfl⟩

theorem ratio_nonneg : 0.0 ≤ ratio x y 100.0 := by
  rcases ratio_cases hx hy less less' finite with ⟨-, zero⟩ | ⟨quotient, bounded, -, -, z, stands, fraction⟩
  · rw [zero]
    decide
  · obtain ⟨product, stands, nearest⟩ := stands.mul hundred_at bounded Scoring.maxRawPlace_lt
    rw [fraction]
    exact (At.zero.le_iff stands (Nat.zero_le _) nearest.le_infinity).2 (Nat.zero_le _)

/-- A ratio that is a number is a percentage exactly if the whole is zero or not less than the part. -/
theorem ratio_le_hundred_iff : ratio x y 100.0 ≤ 100.0 ↔ (y == 0.0) = true ∨ x ≤ y := by
  rw [hy.beq_zero_iff less'.le, hx.le_iff hy less.le less'.le]
  constructor
  · intro small
    by_contra beyond
    rw [not_or, not_le] at beyond
    obtain ⟨some, more⟩ := beyond
    rcases ratio_cases hx hy less less' finite with ⟨zero, -⟩ | ⟨quotient, bounded, pos, nearest, z, stands, fraction⟩
    · exact some zero
    · have above : onePlace < quotient := isNearest_leastAbove.mono nearest (leastAbove_le_div pos more less.le)
      obtain ⟨product, large, most, stands⟩ := hundred_lt_mul stands above bounded
      rw [fraction, stands.le_iff hundred_at most Scoring.maxRawPlace_lt.le] at small
      exact absurd small (not_le.2 large)
  · rintro (rfl | le)
    · rw [ratio, Numeral.divideOr, if_pos ((hy.beq_zero_iff (Nat.zero_le _)).2 rfl)]
      decide
    · exact (ratio_bounds hx hy le less'.le finite).2

end Ratio

/-! ## The game of pairs -/

/-- What is extracted for a game is the environment of the results of its strategy. -/
theorem results_of_extract {gameType : String} {s : Strategy}
    (found : Registry.builtIn.strategies.get? gameType = some s) {raw : Value} {environment : Environment}
    (h : Registry.builtIn.extract gameType raw = .ok environment) :
    ∃ fields results, raw = .object fields ∧ s.extract fields = .ok results ∧
      Environment.ofValue (.record results.entries) = .ok environment := by
  obtain ⟨strategy, known, h⟩ := ok_of_bind h
  rw [Registry.strategy, found] at known
  cases known
  cases raw with
  | object fields =>
    obtain ⟨results, extracted, h⟩ := ok_of_bind h
    exact ⟨fields, results, rfl, extracted, ok_of_widen h⟩
  | _ => cases h

/-- The efficiency among the results of a game of pairs, with the two numbers that it is the ratio of. -/
structure MemoryMatch.Rated (results : Table Value) (matched attempts : Float) : Prop where
  part : ("pairs_matched", .float matched) ∈ results.entries
  whole : ("attempts", .float attempts) ∈ results.entries
  rate : ("efficiency", .float (ratio matched attempts 100.0)) ∈ results.entries

theorem MemoryMatch.rated_of_extract {fields : Fields} {results : Table Value} (h : extract fields = .ok results) :
    ∃ matched attempts, requireNumber fields "pairs_matched" zero = .ok matched ∧
      requireNumber fields "attempts" zero = .ok attempts ∧ Rated results matched attempts := by
  obtain ⟨total, -, h⟩ := ok_of_bind h
  obtain ⟨matched, matched_read, h⟩ := ok_of_bind h
  obtain ⟨attempts, attempts_read, h⟩ := ok_of_bind h
  obtain ⟨duration, -, h⟩ := ok_of_bind h
  split at h
  next => cases h
  next =>
    cases h
    exact ⟨matched, attempts, matched_read, attempts_read, mem_numbers (by simp) (by simp),
      mem_numbers (by simp) (by simp), mem_numbers (by simp) (by simp)⟩

/-- The efficiency that is extracted is never negative. It is a percentage exactly if nothing was attempted or no more
pairs were matched than attempted. -/
theorem efficiency_is_percentage_iff {raw : Value} {environment : Environment}
    (h : Registry.builtIn.extract "memory_match" raw = .ok environment) :
    ∃ matched attempts efficiency, environment.bindings.get? "pairs_matched" = some matched ∧
      environment.bindings.get? "attempts" = some attempts ∧
      environment.bindings.get? "efficiency" = some efficiency ∧ 0.0 ≤ efficiency ∧
      (efficiency ≤ 100.0 ↔ (attempts == 0.0) = true ∨ matched ≤ attempts) := by
  have found : Registry.builtIn.strategies.get? "memory_match" = some MemoryMatch.strategy := rfl
  obtain ⟨fields, results, rfl, extracted, made⟩ := results_of_extract found h
  obtain ⟨matched, attempts, matched_read, attempts_read, rated⟩ := MemoryMatch.rated_of_extract extracted
  obtain ⟨part, part_less, matched_at⟩ := exists_at_of_requireNumber matched_read
  obtain ⟨whole, whole_less, attempts_at⟩ := exists_at_of_requireNumber attempts_read
  have bound := Environment.get?_of_ofValue_record made rated.rate
  have finite := environment.finite _ (Table.mem_of_get? bound)
  refine ⟨matched, attempts, _, Environment.get?_of_ofValue_record made rated.part,
    Environment.get?_of_ofValue_record made rated.whole, bound,
    ratio_nonneg matched_at attempts_at part_less whole_less finite,
    ratio_le_hundred_iff matched_at attempts_at part_less whole_less finite⟩

/-- Two pairs that were matched in one attempt. -/
def lucky : Value :=
  .record [("pairs_total", .int 2), ("pairs_matched", .int 2), ("attempts", .int 1), ("duration_seconds", .int 60)]

/-- The efficiency of one attempt for two pairs is no percentage. -/
theorem lucky_efficiency_exceeds :
    ∃ environment, Registry.builtIn.extract "memory_match" lucky = .ok environment ∧
      ∃ efficiency, environment.bindings.get? "efficiency" = some efficiency ∧ 0.0 ≤ efficiency ∧
        ¬ efficiency ≤ 100.0 := by
  have more : (Registry.builtIn.extract "memory_match" lucky).toOption.any (fun environment =>
      (environment.bindings.get? "pairs_matched").any fun matched =>
        (environment.bindings.get? "attempts").any fun attempts =>
          !(attempts == 0.0) && decide (¬ matched ≤ attempts)) = true := by decide +kernel
  obtain ⟨environment, some, counted⟩ := (Option.any_eq_true ..).1 more
  have extracted := ok_of_toOption some
  obtain ⟨matched, attempts, efficiency, matched_bound, attempts_bound, bound, least, most⟩ :=
    efficiency_is_percentage_iff extracted
  rw [matched_bound, attempts_bound] at counted
  refine ⟨environment, extracted, efficiency, bound, least, fun percentage => ?_⟩
  rcases most.1 percentage with zero | le <;> simp_all

end Telemetry

end GameScoring
