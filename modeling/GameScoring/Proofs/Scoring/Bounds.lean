import GameScoring.Proofs.Numeral.Product
import GameScoring.Proofs.Numeral.Stable
import GameScoring.Proofs.Scoring.Final
import GameScoring.Proofs.Scoring.Locality
import GameScoring.Scoring.Logbook

/-!
# Score bounds

Whatever the formulas give, raw scores are numbers from 0 to 100, and a weighted score is at most a hundred times its
weight. Final scores are rounded to hundredths, so rounding them once more changes nothing, and they are warned of
only if they exceed the range of the raw scores.
-/
namespace GameScoring.Scoring
open Binary
open Formula (Bindings)

variable {c : Configuration} {bindings : Bindings} {name text : String} {entries : List (String × String)}
  {table : Table CompetencyScore} {total value : Float} {scores : Scores}

/-! ## Raw and weighted scores -/

/-- The place of the largest raw score. -/
def maxRawPlace : Nat := 4636737291354636288

theorem maxRawScore_at : maxRawScore = ofMagnitude false maxRawPlace := by
  apply Float.toBits_inj.1
  decide

theorem maxRawPlace_lt : maxRawPlace < infinityMagnitude := by decide

/-- Clamping gives one of the doubles from 0 to 100, also where there is no number to clamp. -/
theorem exists_clampScore (value : Float) :
    ∃ place, clampScore value = ofMagnitude false place ∧ place ≤ maxRawPlace := by
  have clamped : clampScore value = if minRawScore < (if value < maxRawScore then value else maxRawScore) then
      (if value < maxRawScore then value else maxRawScore) else minRawScore := rfl
  rw [clamped]
  by_cases below : value < maxRawScore
  · rw [if_pos below]
    split
    next above =>
      obtain ⟨negative, place, rfl, less, unsigned⟩ :=
        (nonNegative_of_lt above).exists_place (isFinite_of_between above below)
      cases negative with
      | false =>
        rw [maxRawScore_at, ofMagnitude_lt_iff less.le maxRawPlace_lt.le] at below
        exact ⟨place, rfl, below.le⟩
      | true =>
        -- A negative zero is not above zero.
        rw [unsigned rfl] at above
        exact absurd above (by decide)
    next => exact ⟨0, zero_at, Nat.zero_le _⟩
  · rw [if_neg below]
    split
    next => exact ⟨maxRawPlace, maxRawScore_at, Nat.le_refl _⟩
    next => exact ⟨0, zero_at, Nat.zero_le _⟩

theorem clampScore_bounds (value : Float) :
    isFinite (clampScore value) = true ∧ 0.0 ≤ clampScore value ∧ clampScore value ≤ 100.0 := by
  obtain ⟨place, raw, most⟩ := exists_clampScore value
  have less := most.trans_lt maxRawPlace_lt
  have finite : isFinite (clampScore value) = true := raw ▸ (isFinite_ofMagnitude less.le).2 less
  refine ⟨finite, (nonNegative_clampScore value).zero_le finite, ?_⟩
  have largest : (100.0 : Float) = ofMagnitude false maxRawPlace := maxRawScore_at
  rw [raw, largest]
  exact (ofMagnitude_le_iff less.le maxRawPlace_lt.le).2 most

theorem clampScore_mul_le (value : Float) {weight : Float} (amount : Amount weight) :
    clampScore value * weight ≤ 100.0 * weight := by
  obtain ⟨place, raw, most⟩ := exists_clampScore value
  obtain ⟨negative, factor, rfl, less, unsigned⟩ := amount.least.exists_place amount.finite
  have largest : (100.0 : Float) = ofMagnitude false maxRawPlace := maxRawScore_at
  rw [raw, largest]
  exact mul_le_mul_of_place_le most maxRawPlace_lt less unsigned

/-- The bounds of an entry: its raw score is a number from 0 to 100, and its weighted score is finite and at most what
its weight makes of 100. -/
structure Bounded (c : Configuration) (entry : String × CompetencyScore) : Prop where
  raw_finite : isFinite entry.2.raw = true
  raw_least : 0.0 ≤ entry.2.raw
  raw_most : entry.2.raw ≤ 100.0
  weight : entry.2.weight = c.weightOf entry.1
  weighted : entry.2.weighted = entry.2.raw * entry.2.weight
  weighted_finite : isFinite entry.2.weighted = true
  weighted_least : 0.0 ≤ entry.2.weighted
  weighted_most : entry.2.weighted ≤ 100.0 * entry.2.weight

/-- What is weighed is bounded, whatever the value of its formula. -/
theorem bounded_of_weigh (checked : c.Checked) {s : CompetencyScore × Float} (h : weigh c name value total = .ok s) :
    Bounded c (name, s.1) := by
  obtain ⟨raw_finite, raw_least, raw_most⟩ := clampScore_bounds value
  have amount := checked.amount_weight name
  rw [weigh] at h
  split at h
  next finite =>
    cases h
    have weighted_finite := (Bool.and_eq_true_iff.1 finite).1
    have weighted := (nonNegative_clampScore value).mul amount.least
    exact ⟨raw_finite, raw_least, raw_most, rfl, rfl, weighted_finite, weighted.zero_le weighted_finite,
      clampScore_mul_le value amount⟩
  next => cases h

theorem bounded_of_scoreEach (checked : c.Checked) {result : Table CompetencyScore × Float}
    (bounded : ∀ entry ∈ table.entries, Bounded c entry)
    (h : (scoreEach c bindings entries table total).outcome = .ok result) :
    ∀ entry ∈ result.1.entries, Bounded c entry := by
  induction entries generalizing table total with
  | nil =>
    cases h
    exact bounded
  | cons first rest ih =>
    rw [outcome_scoreEach] at h
    obtain ⟨value, -, h⟩ := ok_of_bind h
    obtain ⟨s, weighed, h⟩ := ok_of_bind h
    refine ih (fun entry member => ?_) h
    rcases Table.mem_insert member with rfl | old
    · exact bounded_of_weigh checked weighed
    · exact bounded entry old

theorem bounded_of_score (checked : c.Checked) (h : (score c bindings).outcome = .ok scores) :
    ∀ entry ∈ scores.competencies.entries, Bounded c entry := by
  obtain ⟨total, each, -⟩ := ok_of_score h
  exact bounded_of_scoreEach checked (fun _ member => by cases member) each

/-! ## Warnings -/

theorem warnings_append (before after : List Event) : warnings (before ++ after) = warnings before ++ warnings after :=
  List.filterMap_append

theorem warnings_evaluateCompetency (h : (evaluateCompetency name text bindings).outcome = .ok value) :
    warnings (evaluateCompetency name text bindings).events = [] := by
  rw [evaluateCompetency] at h ⊢
  split at h
  next => rfl
  next => cases h
  next => rfl

/-- A pass that gets through the competencies has nothing to warn of in them. -/
theorem warnings_scoreEach {result : Table CompetencyScore × Float}
    (h : (scoreEach c bindings entries table total).outcome = .ok result) :
    warnings (scoreEach c bindings entries table total).events = [] := by
  induction entries generalizing table total with
  | nil => rfl
  | cons first rest ih =>
    obtain ⟨name, text⟩ := first
    rw [scoreEach] at h ⊢
    cases evaluated : (evaluateCompetency name text bindings).outcome with
    | error e =>
      simp only [evaluated] at h
      cases h
    | ok value =>
      simp only [evaluated] at h ⊢
      cases weighed : weigh c name value total with
      | error e =>
        simp only [weighed] at h
        cases h
      | ok s =>
        simp only [weighed] at h ⊢
        rw [warnings_append, warnings_evaluateCompetency evaluated, ih h]
        rfl

/-- The warning of a final score above the range of the raw scores. -/
def exceeded (c : Configuration) (final : Float) : Warning :=
  ⟨"Final score " ++ Numeral.text final ++ " exceeds 100.0; weights sum to " ++
    Numeral.fixed 3 (Numeral.sum c.weights.values), [("game_type", c.gameType)]⟩

theorem warning_exceeded (c : Configuration) (final : Float) :
    (Event.scoreExceeded c.gameType final (Numeral.sum c.weights.values)).warning? = some (exceeded c final) := by
  have bound : Numeral.text maxRawScore = "100.0" := by decide +kernel
  have joined : " exceeds " ++ ("100.0" ++ "; weights sum to ") = " exceeds 100.0; weights sum to " := by decide
  rw [Event.warning?, exceeded, bound, ← joined]
  simp only [String.append_assoc]

theorem warnings_finish (h : (finish c table total).outcome = .ok scores) :
    warnings (finish c table total).events = if maxRawScore < scores.final then [exceeded c scores.final] else [] := by
  obtain ⟨-, rounded⟩ := ok_of_finish h
  rw [finish, rounded]
  dsimp only
  split
  next => rw [warnings, List.filterMap_cons_some (warning_exceeded c scores.final), List.filterMap_nil]
  next => rfl

theorem warnings_score (h : (score c bindings).outcome = .ok scores) :
    warnings (score c bindings).events = if maxRawScore < scores.final then [exceeded c scores.final] else [] := by
  rw [score] at h ⊢
  cases each : (scoreEach c bindings c.formulas.entries Table.empty 0.0).outcome with
  | error e =>
    simp only [each] at h
    cases h
  | ok result =>
    simp only [each] at h ⊢
    rw [warnings_append, warnings_scoreEach each, warnings_finish h, List.nil_append]

/-- The scores of a configuration are bounded in any table of values, be there numbers in it or not. -/
theorem scores_are_bounded (checked : c.Checked) (bindings : Bindings)
    (h : (score c bindings).outcome = .ok scores) :
    (∀ entry ∈ scores.competencies.entries, Bounded c entry) ∧ isFinite scores.final = true ∧ 0.0 ≤ scores.final ∧
      Numeral.roundHalfUp scores.final 2 = .ok scores.final ∧
      warnings (score c bindings).events = if 100.0 < scores.final then [exceeded c scores.final] else [] := by
  have amount := amount_final checked h
  obtain ⟨total, -, rounded⟩ := ok_of_score h
  exact ⟨bounded_of_score checked h, amount.finite, amount.least.zero_le amount.finite,
    Numeral.roundHalfUp_hundredths rounded amount.finite, warnings_score h⟩

/-- A weight above one makes a final score above the range, next to a variable that is not a number. -/
theorem scores_are_bounded_above_range :
    let c : Configuration := ⟨"focus", (Table.empty.insert "memory" "if(y < 1, y, 40)").insert "speed" "x",
      Table.empty.insert "speed" 1.5, []⟩
    let bindings : Bindings := (Table.empty.insert "x" 90.0).insert "y" (0.0 / 0.0)
    ∃ scores, (score c bindings).outcome = .ok scores ∧ (∀ entry ∈ scores.competencies.entries, Bounded c entry) ∧
      Numeral.roundHalfUp scores.final 2 = .ok scores.final ∧
      warnings (score c bindings).events = [exceeded c scores.final] := by
  intro c bindings
  have checked : c.Checked := Configuration.checked_iff.2 (by decide +kernel)
  have above : ((score c bindings).outcome.toOption.any fun scores => decide (100.0 < scores.final)) = true := by
    decide +kernel
  cases h : (score c bindings).outcome with
  | error e =>
    rw [h] at above
    cases above
  | ok scores =>
    rw [h] at above
    obtain ⟨bounded, -, -, rounded, warned⟩ := scores_are_bounded checked bindings h
    rw [if_pos (of_decide_eq_true above)] at warned
    exact ⟨scores, rfl, bounded, rounded, warned⟩

end GameScoring.Scoring
