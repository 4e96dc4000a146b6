import Mathlib
import GameScoring.Proofs.Numeral.Margin
import GameScoring.Proofs.Scoring.Kernel
import GameScoring.Proofs.Scoring.Payload

/-!
# Final scores

Raw scores and weights are not negative, so running sums and final scores are not either. A final score is
finite like the sum that it is rounded from, and the difference of two final scores can always be shown.
-/
namespace GameScoring.Scoring
open Binary

variable {c : Configuration}

/-- What weights, sums of weighted scores and final scores are: finite and not negative. -/
structure Amount (x : Float) : Prop where
  finite : isFinite x = true
  least : NonNegative x

theorem nonNegative_clampScore (x : Float) : NonNegative (clampScore x) := by
  show NonNegative (if minRawScore < _ then _ else minRawScore)
  split
  next more => exact nonNegative_of_lt more
  next => exact nonNegative_zero

theorem Configuration.Checked.amount_weight (checked : c.Checked) (name : String) :
    Amount ((c.weights.get? name).getD 0.0) := by
  cases found : c.weights.get? name with
  | none => exact ⟨by decide, nonNegative_zero⟩
  | some weight =>
    obtain ⟨-, finite, least⟩ := readWeight_ok_iff.1 (checked.weights _ (Table.mem_of_get? found)).kept
    exact ⟨finite, nonNegative_of_not_lt least⟩

theorem amount_of_weigh (checked : c.Checked) {name : String} {value total : Float} {s : CompetencyScore × Float}
    (amount : Amount total) (h : weigh c name value total = .ok s) : Amount s.2 := by
  rw [weigh] at h
  split at h
  next finite =>
    cases h
    have weighted := (nonNegative_clampScore value).mul (checked.amount_weight name).least
    exact ⟨(Bool.and_eq_true_iff.1 finite).2, amount.least.add weighted⟩
  next => cases h

theorem amount_of_scoreEach (checked : c.Checked) {bindings : Formula.Bindings} {entries : List (String × String)}
    {table : Table CompetencyScore} {total : Float} {result : Table CompetencyScore × Float} (amount : Amount total)
    (h : (scoreEach c bindings entries table total).outcome = .ok result) : Amount result.2 := by
  induction entries generalizing table total with
  | nil =>
    cases h
    exact amount
  | cons entry rest ih =>
    rw [outcome_scoreEach] at h
    obtain ⟨value, -, h⟩ := ok_of_bind h
    obtain ⟨s, weighed, h⟩ := ok_of_bind h
    exact ih (amount_of_weigh checked amount weighed) h

theorem amount_final (checked : c.Checked) {bindings : Formula.Bindings} {scores : Scores}
    (h : (score c bindings).outcome = .ok scores) : Amount scores.final := by
  obtain ⟨total, each, rounded⟩ := ok_of_score h
  have amount : Amount total := amount_of_scoreEach checked ⟨by decide, nonNegative_zero⟩ each
  obtain ⟨finite, least⟩ := Numeral.finite_roundHalfUp amount.finite amount.least (by decide) rounded
  exact ⟨finite, least⟩

end GameScoring.Scoring
