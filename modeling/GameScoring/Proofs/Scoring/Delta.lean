import Mathlib
import GameScoring.Proofs.Numeral.Subtraction
import GameScoring.Proofs.Scoring.Isolation

/-!
# Differences of final scores

Final scores are written with two places, so below `10 ^ 25` the digits that a difference keeps hold the difference of
two of them exactly. What is shown is the double closest to this exact difference, and rounding it to two places once
more changes nothing.
-/
namespace GameScoring.Scoring
open Binary

variable {old new : Scores} {env : Environment} {before after : Entry} {c : Configuration}

/-- What final scores have to be below for their difference to be exact. -/
def exactBelow : ℚ := 10 ^ 25

/-- The difference of two final scores that is shown: the double closest to the exact difference of the decimals that
are written for them. Neither the digits that a difference keeps nor the places it is rounded to take anything away. -/
structure ExactDelta (old new delta : Float) (a b : Decimal) : Prop where
  old_written : Decimal.ofFloat? old = some a
  new_written : Decimal.ofFloat? new = some b
  closest : Closest (b.number - a.number) delta
  subtracted : (Decimal.limit Numeral.differencePrecision (b - a)).number = b.number - a.number
  difference : Numeral.difference new old = .ok delta
  rounded : Numeral.roundHalfUp delta finalPlaces = .ok delta

/-- A final score is written with two places, and its decimal is not much larger. -/
theorem exists_final_decimal (checked : c.Checked) (gets : Gets c env (.ok new))
    (small : number new.final < exactBelow) :
    ∃ d, Decimal.ofFloat? new.final = some d ∧ d.HasPlaces finalPlaces ∧ d.size < 2 * exactBelow := by
  have amount := amount_final checked gets
  obtain ⟨total, -, rounded⟩ := ok_of_score gets
  obtain ⟨d, decimal, short⟩ := Numeral.hasPlaces_of_roundHalfUp rounded amount.finite (by decide)
  obtain ⟨_, decimal', -, read⟩ := Decimal.exists_ofFloat? amount.finite
  obtain rfl := Option.some_inj.1 (decimal'.symm.trans decimal)
  refine ⟨_, decimal, short, Numeral.size_lt_of_number_lt (read ▸ amount.finite) (by norm_num [exactBelow]) ?_⟩
  rwa [read, abs_of_nonneg (amount.least.number_nonneg amount.finite)]

/-- The difference of final scores that are not too large is exact. -/
theorem exists_exactDelta {c' : Configuration} (checked : c.Checked) (checked' : c'.Checked)
    (gets : Gets c env (.ok old)) (gets' : Gets c' env (.ok new)) (small : number old.final < exactBelow)
    (small' : number new.final < exactBelow) : ∃ delta a b, ExactDelta old.final new.final delta a b := by
  have amount := amount_final checked gets
  have amount' := amount_final checked' gets'
  obtain ⟨a, a_decimal, a_short, a_small⟩ := exists_final_decimal checked gets small
  obtain ⟨b, b_decimal, b_short, b_small⟩ := exists_final_decimal checked' gets' small'
  have fits : |b.number - a.number| < 10 ^ (Numeral.differencePrecision - finalPlaces : Int) := by
    have sides := abs_sub b.number a.number
    rw [b.abs_number, a.abs_number] at sides
    have bound : 4 * exactBelow < 10 ^ (Numeral.differencePrecision - finalPlaces : Int) := by
      show (4 : ℚ) * 10 ^ 25 < 10 ^ (26 : Int)
      norm_num
    linarith
  obtain ⟨exact, short⟩ := Numeral.number_limit_sub b_short a_short fits
  obtain ⟨delta, difference, finite⟩ :=
    Numeral.finite_difference amount'.finite amount.finite amount'.least amount.least
  cases (Numeral.difference_of_decimals b_decimal a_decimal).symm.trans difference
  exact ⟨_, a, b, {
    old_written := a_decimal
    new_written := b_decimal
    closest := exact ▸ Decimal.closest_toFloat finite
    subtracted := exact
    difference := difference
    rounded := Numeral.roundHalfUp_toFloat finite short (by decide) (by decide) }⟩

/-- What is shown for two final scores is their difference, rounded to two places. -/
theorem scoreDelta_ok {before after : Option Outcome} {shown : Option Float}
    (scored : before.map Outcome.result = some (.ok old)) (later : after.map Outcome.result = some (.ok new))
    (h : scoreDelta? before after = .ok shown) : ∃ exact delta, Numeral.difference new.final old.final = .ok exact ∧
      Numeral.roundHalfUp exact finalPlaces = .ok delta ∧ shown = some delta := by
  rw [scoreDelta?, scored, later] at h
  obtain ⟨exact, subtracted, h⟩ := ok_of_bind h
  obtain ⟨delta, rounded, h⟩ := ok_of_bind h
  cases h
  exact ⟨exact, delta, subtracted, rounded, rfl⟩

/-- A difference is exact wherever there are final scores that are not too large. -/
def ExactBetween (env : Environment) (before after : Labelled) (d : Difference) : Prop :=
  ∀ old new, Gets before.2 env (.ok old) → Gets after.2 env (.ok new) →
    number old.final < exactBelow → number new.final < exactBelow →
      ∃ delta a b, d.scoreDelta = some delta ∧ ExactDelta old.final new.final delta a b

theorem exactBetween_of_difference {d : Difference} (own : EntryOf (some env) before)
    (own' : EntryOf (some env) after) (hb : before.1.2.Checked) (ha : after.1.2.Checked)
    (between : difference before after = .ok d) : ExactBetween env before.1 after.1 d := by
  intro old new gets gets' small small'
  obtain ⟨weights, -, between⟩ := ok_of_bind between
  obtain ⟨shown, scored, between⟩ := ok_of_bind between
  cases between
  obtain ⟨exact, delta, subtracted, rounded, same⟩ :=
    scoreDelta_ok ((own.result_iff _).2 gets) ((own'.result_iff _).2 gets') scored
  obtain ⟨delta', a, b, found⟩ := exists_exactDelta hb ha gets gets' small small'
  cases found.difference.symm.trans subtracted
  cases found.rounded.symm.trans rounded
  exact ⟨_, a, b, same, found⟩

/-- A comparison of scored configurations shows exact differences between neighbours whose final scores are not too
large. -/
theorem score_deltas_are_exact {configurations : List Configuration} {values : Value} {labels : Option (List Value)}
    (many : minCompared ≤ configurations.length) (checked : ∀ c ∈ configurations, c.Checked)
    (enough : Labels configurations labels) (read : Environment.ofValue values = .ok env) :
    ∃ comparison, (compare configurations (some values) labels).outcome = .ok comparison ∧
      List.Forall₂ (fun pair d => ExactBetween env pair.1 pair.2 d)
        ((labelled configurations labels).zip (labelled configurations labels).tail) comparison.differences := by
  obtain ⟨outcomes, found, compared, scored, differ⟩ := compare_eq many checked enough (.values read)
  have same := map_snd_labelled enough
  have checked : ∀ l ∈ labelled configurations labels, l.2.Checked := fun l member =>
    checked _ (same ▸ List.mem_map.2 ⟨l, member, rfl⟩)
  have fit := fit_of_outcomes checked scored
  refine ⟨⟨outcomes, found⟩, by rw [compared], ?_⟩
  exact forall₂_neighbours scored differ fun before hb after ha _ between =>
    exactBetween_of_difference (scored.entries before hb) (scored.entries after ha) (fit before hb).checked
      (fit after ha).checked between

theorem exists_gets_of_final {final : Float}
    (h : (score c env.bindings).outcome.toOption.map Scores.final = some final) :
    ∃ scores, Gets c env (.ok scores) ∧ scores.final = final := by
  obtain ⟨result, gets⟩ := exists_gets c env
  rw [gets] at h
  cases result with
  | ok scores => exact ⟨scores, gets, Option.some_inj.1 h⟩
  | error e => cases h

/-- A configuration of one formula that counts in full. -/
def scoring (text : String) : Configuration :=
  ⟨"focus_task", Table.empty.insert "focus" text, Table.empty.insert "focus" 1.0, []⟩

/-- From three tenths to one the difference is two tenths, which the difference of the doubles is not. -/
theorem score_deltas_are_exact_tenths :
    minCompared ≤ [scoring "0.3", scoring "0.1"].length ∧ (∀ c ∈ [scoring "0.3", scoring "0.1"], c.Checked) ∧
      Labels [scoring "0.3", scoring "0.1"] none ∧ Environment.ofValue session.value = .ok session ∧
      (0.1 : Float) - 0.3 ≠ -0.2 ∧
      ∃ outcomes d a b, (compare [scoring "0.3", scoring "0.1"] (some session.value) none).outcome =
        .ok ⟨outcomes, [d]⟩ ∧ d.scoreDelta = some (-0.2) ∧ ExactDelta 0.3 0.1 (-0.2) a b := by
  have many : minCompared ≤ [scoring "0.3", scoring "0.1"].length := by decide
  have checked : ∀ c ∈ [scoring "0.3", scoring "0.1"], c.Checked := by
    intro c member
    rw [Configuration.checked_iff]
    revert c
    decide +kernel
  have enough : Labels [scoring "0.3", scoring "0.1"] none := nofun
  have read := named_session.ofValue_value
  obtain ⟨⟨outcomes, found⟩, compared, exact⟩ := score_deltas_are_exact many checked enough read
  have three : (score (scoring "0.3") session.bindings).outcome.toOption.map Scores.final = some 0.3 := by
    decide +kernel
  have one : (score (scoring "0.1") session.bindings).outcome.toOption.map Scores.final = some 0.1 := by
    decide +kernel
  obtain ⟨old, gets, old_final⟩ := exists_gets_of_final three
  obtain ⟨new, gets', new_final⟩ := exists_gets_of_final one
  cases exact with
  | @cons _ d _ _ between rest =>
    cases rest
    obtain ⟨delta, a, b, shown, found⟩ := between old new gets gets' (by rw [old_final]; decide +kernel)
      (by rw [new_final]; decide +kernel)
    rw [old_final, new_final] at found
    have tenths : (Numeral.difference 0.1 0.3).toOption = some (-0.2) := by decide +kernel
    rw [found.difference] at tenths
    obtain rfl : delta = -0.2 := Option.some_inj.1 tenths
    exact ⟨many, checked, enough, read, by decide +kernel, outcomes, d, a, b, compared, shown, found⟩

end GameScoring.Scoring
