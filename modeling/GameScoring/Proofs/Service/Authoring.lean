import GameScoring.Proofs.Numeral.Arithmetic
import GameScoring.Proofs.Scoring.Bounds
import GameScoring.Proofs.Service.Usability

/-!
# What authors are told of a formula

A formula that is written can be checked, tried, validated, previewed and saved. Each of these parses the text again
and tells of errors in its own way. For test variables there is one outcome of the text, in which a rejection comes
before an evaluation, and each way of asking tells this outcome.
-/
namespace GameScoring

namespace Scoring
open Binary

/-- A scoring error that blames a formula for an error: its kind and message are those of the error. -/
structure ScoringError.Carries (error : ScoringError) (name : String) (e : FormulaError) : Prop where
  competency : error.competency = name
  kind : error.kind = e.report.code
  message : error.message = e.report.message

theorem ScoringError.carries_formula (name : String) (e : FormulaError) (stage : Stage) :
    ScoringError.Carries ⟨name, .formula e, stage⟩ name e :=
  ⟨rfl, rfl, rfl⟩

/-- Without a weight, a weighted score is zero and leaves the total zero. -/
theorem finite_unweighted (value : Float) :
    isFinite (clampScore value * 0.0) = true ∧ isFinite (0.0 + clampScore value * 0.0) = true := by
  obtain ⟨place, raw, most⟩ := exists_clampScore value
  have pos : 0 < infinityMagnitude := by decide
  have stands : At place (clampScore value) := raw ▸ .at false nofun
  obtain ⟨product, multiplied, nearest⟩ := stands.mul At.zero (most.trans_lt maxRawPlace_lt) pos
  rw [valueAt_zero, mul_zero] at nearest
  rw [nearest.unique isNearest_zero] at multiplied
  obtain ⟨sum, added, nearest⟩ := At.zero.add multiplied pos pos
  rw [valueAt_zero, add_zero] at nearest
  rw [nearest.unique isNearest_zero] at added
  exact ⟨multiplied.finite pos, added.finite pos⟩

section Alone

variable {c : Configuration} {env : Environment} {name text : String}

/-- A competency that is scored first is to blame for its formula. -/
theorem Tried.gets_error {e : FormulaError} (tried : Tried text env (.error e)) {rest : List (String × String)}
    (listed : c.formulas.entries = (name, text) :: rest) : Gets c env (.error ⟨name, .formula e, .scoring⟩) := by
  rw [Gets, outcome_score, listed, outcome_scoreEach, tried.outcome_evaluateCompetency]
  rfl

/-- A competency alone, without a weight, is scored with the value of its formula. -/
theorem Gives.gets_unweighted {value : Float} (gives : Gives env text value)
    (listed : c.formulas.entries = [(name, text)]) (unweighted : c.weights.get? name = none) :
    ∃ scores, Gets c env (.ok scores) ∧
      scores.competencies.entries = [(name, ⟨clampScore value, 0.0, clampScore value * 0.0⟩)] := by
  have alone : scored c (name, text) value = (name, ⟨clampScore value, 0.0, clampScore value * 0.0⟩) := by
    rw [scored, unweighted]
    rfl
  obtain ⟨weighted, sum⟩ := finite_unweighted value
  have succeeds : Succeeds c env 0.0 [(name, text)] [value] := by
    refine .cons gives ?_ (by decide) (.nil ?_)
    · rw [alone]
      exact weighted
    · rw [alone]
      exact sum
  rw [← listed] at succeeds
  obtain ⟨scores, gets, scored_alone⟩ := succeeds.gets
  refine ⟨scores, gets, ?_⟩
  rw [scored_alone, listed, List.zipWith_cons_cons, alone]
  rfl

end Alone

end Scoring

namespace Service
open Scoring Store

/-! ## Saves -/

/-- The configuration that a save asks for, before its formulas are checked. -/
def SaveRequest.made (request : SaveRequest) : Configured Configuration :=
  Configuration.ofValues request.gameType request.formulas request.weights
    (if request.settings.isNothing then .object [] else request.settings)

/-- A configuration with formulas is saved or refused by what its formulas are checked for. -/
theorem SaveRequest.configuration_of_made {request : SaveRequest} {c : Configuration} (made : request.made = .ok c)
    (formulas : c.formulas.isEmpty = false) :
    request.configuration = (ofScoringError (checkFormulas c)).map fun _ => c := by
  rw [SaveRequest.made] at made
  rw [SaveRequest.configuration, made]
  dsimp only [ofConfigured, widen, Except.mapError, bind, Except.bind]
  rw [if_neg (by rw [formulas]; decide)]
  cases checkFormulas c <;> rfl

/-- A formula that stands alone decides the check of its configuration. -/
theorem checkFormulas_alone {c : Configuration} {name text : String} (listed : c.formulas.entries = [(name, text)]) :
    checkFormulas c = match (Formula.check (.text text)).error with
      | some r => .error ⟨name, .formula (.rejected r), .checking⟩
      | none => .ok () := by
  rw [checkFormulas, listed, Formula.check, Formula.ofValue]
  cases accepted : Formula.ofText text with
  | error r =>
    simp only [List.forM_eq_forM, List.forM_cons, accepted]
    rfl
  | ok f =>
    simp only [List.forM_eq_forM, List.forM_cons, accepted]
    rfl

/-- What passes the checks is not refused because of a formula. -/
theorem save_ne_scoring {request : SaveRequest} {c : Configuration} (configured : request.configuration = .ok c)
    (conditions : Conditions) (store : Store) (error : ScoringError) :
    (save conditions store request).outcome ≠ refuse (.scoring (.scoring error)) := by
  intro refused
  rw [save, configured] at refused
  dsimp only at refused
  generalize store.save conditions.commitFailure conditions.freshId c request.note = saved at refused
  obtain ⟨next, unsaved | row⟩ := saved
  · cases unsaved <;> cases refused
  · dsimp only at refused
    rw [readRow] at refused
    cases read : row.read with
    | error e =>
      rw [read] at refused
      cases e <;> cases refused
    | ok version =>
      rw [read] at refused
      cases refused

/-! ## Answers -/

/-- What is shown of a formula that was tried: its value, or the error with its kind. -/
def shownTrial (variableNames : List String) : Except FormulaError Float → Value
  | .ok value =>
    .record [("valid", .bool true), ("error", .null), ("error_kind", .null),
      ("variables", .list (variableNames.map .text)), ("test_result", .float value)]
  | .error e =>
    .record [("valid", .bool false), ("error", .text e.report.message), ("error_kind", .text e.report.code),
      ("variables", .list (variableNames.map .text))]

/-- The answer to a save of a formula alone: it is refused with the rejection, if there is one, and else not because of
a formula. -/
inductive SavedAlone (name : String) : Option Formula.Rejection → Answer Result → Prop
  | rejected {r : Formula.Rejection} {error : ScoringError} (carries : error.Carries name (.rejected r)) :
      SavedAlone name (some r) (refuse (.scoring (.scoring error)))
  | accepted {answer : Answer Result} (other : ∀ error, answer ≠ refuse (.scoring (.scoring error))) :
      SavedAlone name none answer

/-- The result of a competency alone, without a weight: it fails with the error of its formula, or its raw score is the
value of its formula, clamped. -/
inductive ScoredAlone (name : String) : Except FormulaError Float → Except ScoringError Scores → Prop
  | failed {e : FormulaError} {error : ScoringError} (carries : error.Carries name e) :
      ScoredAlone name (.error e) (.error error)
  | scored {value : Float} {scores : Scores}
      (alone : scores.competencies.entries = [(name, ⟨clampScore value, 0.0, clampScore value * 0.0⟩)]) :
      ScoredAlone name (.ok value) (.ok scores)

/-- Whichever way is asked about a formula text, with test variables, the answer tells of one outcome. -/
structure AnswersAlike (text : String) (entries : List (Value × Value)) (environment : Environment)
    (outcome : Except FormulaError Float) : Prop where
  /-- The text is rejected, or else it has a value or its evaluation fails. -/
  tried : ∀ other, Tried text environment other ↔ other = outcome
  valid : (Formula.check (.text text)).valid = true ↔ ∃ f, Formula.ofText text = .ok f
  variableNames : ∀ f, Formula.ofText text = .ok f → (Formula.check (.text text)).variableNames = f.variableNames
  rejection : ∀ r, (Formula.check (.text text)).error = some r ↔ Formula.ofText text = .error r
  evaluated : Formula.trial (.text text) environment.bindings = outcome.mapError Failure.refused
  /-- A configuration with the formula alone is refused with what the check tells, or not because of a formula. -/
  saved : ∀ (state : State) failure (request : SaveRequest) c name, request.made = .ok c →
    c.formulas.entries = [(name, text)] →
      SavedAlone name (Formula.check (.text text)).error (state.perform failure (.save request)).2
  validated : ∀ (state : State) failure, ∃ validation,
    (state.perform failure (.validate (.text text) (some (.object entries)))).2 = .ok (.validation validation) ∧
    validation.value = shownTrial (Formula.check (.text text)).variableNames outcome
  /-- Under any names that are not blank, a preview without weights fails with the outcome or scores its value. -/
  previewed : ∀ (state : State) failure gameType name, Nameable gameType → Text.isBlankText name = false →
    ∃ result, (state.perform failure (.preview
        ⟨gameType, .record [(name, .text text)], .record [], .object entries⟩)).2 =
          .ok (.preview ⟨result, .object entries⟩) ∧
      ScoredAlone name outcome result

section Asked

variable {text name : String} {entries : List (Value × Value)} {environment : Environment}
  {outcome : Except FormulaError Float}

theorem perform_save_alone (state : State) (failure : Option CommitFailure) {request : SaveRequest} {c : Configuration}
    (made : request.made = .ok c) (listed : c.formulas.entries = [(name, text)]) :
    SavedAlone name (Formula.check (.text text)).error (state.perform failure (.save request)).2 := by
  have answer : (state.perform failure (.save request)).2 =
      (save (state.conditions failure) state.store request).outcome.map .version := rfl
  have formulas : c.formulas.isEmpty = false := by
    rw [Table.isEmpty, listed]
    rfl
  have configured := request.configuration_of_made made formulas
  rw [checkFormulas_alone listed] at configured
  cases checked : (Formula.check (.text text)).error with
  | some r =>
    rw [checked] at configured
    have refused : (state.perform failure (.save request)).2 =
        refuse (.scoring (.scoring ⟨name, .formula (.rejected r), .checking⟩)) := by
      rw [answer, save, configured]
      rfl
    rw [refused]
    exact .rejected (ScoringError.carries_formula name (.rejected r) .checking)
  | none =>
    rw [checked] at configured
    refine .accepted fun error refused => ?_
    rw [answer] at refused
    have never := save_ne_scoring configured (state.conditions failure) state.store error
    cases saved : (save (state.conditions failure) state.store request).outcome with
    | ok version =>
      rw [saved] at refused
      cases refused
    | error e =>
      rw [saved] at refused never
      exact never (congrArg Except.error (Except.error.inj refused))

/-- With test variables, a formula is valid if it has a value. -/
theorem validate_tried (tried : Tried text environment outcome)
    (read : Environment.ofValue (.object entries) = .ok environment) :
    ∃ validation, validate (.text text) (some (.object entries)) = .ok validation ∧
      validation.value = shownTrial (Formula.check (.text text)).variableNames outcome := by
  have evaluated := tried.trial_eq
  cases tried with
  | rejected rejected =>
    simp only [validate, Formula.check_error_iff.2 rejected]
    exact ⟨_, rfl, rfl⟩
  | gives gives =>
    obtain ⟨f, accepted, -⟩ := gives
    simp only [validate, Formula.check_of_accepted accepted, read, evaluated, Except.mapError]
    exact ⟨_, rfl, rfl⟩
  | failed accepted failed =>
    simp only [validate, Formula.check_of_accepted accepted, read, evaluated, Except.mapError]
    exact ⟨_, rfl, rfl⟩

/-- A preview of a formula alone fails with its outcome or scores its value. -/
theorem previewScores_alone (tried : Tried text environment outcome)
    (read : Environment.ofValue (.object entries) = .ok environment) (store : Store) {gameType : Value}
    (nameable : Nameable gameType) (filled : Text.isBlankText name = false) :
    ∃ result, (previewScores store ⟨gameType, .record [(name, .text text)], .record [], .object entries⟩).outcome =
        .ok ⟨result, .object entries⟩ ∧
      ScoredAlone name outcome result := by
  let c : Configuration := ⟨"preview", Table.empty.insert name text, Table.empty, []⟩
  have listed : c.formulas.entries = [(name, text)] := rfl
  have checked : c.Checked := by
    have game : Text.isBlankText "preview" = false := by decide
    refine Configuration.checked_iff.2 ⟨game, fun e member => ?_, nofun⟩
    rw [listed, List.mem_singleton] at member
    rw [member]
    exact filled
  cases outcome with
  | error e =>
    have gets : Gets c environment (.error ⟨name, .formula e, .scoring⟩) := tried.gets_error listed
    exact ⟨_, previewScores_of_read gets checked read nameable, .failed (ScoringError.carries_formula name e .scoring)⟩
  | ok value =>
    cases tried with
    | gives gives =>
      obtain ⟨scores, gets, scored⟩ := gives.gets_unweighted (c := c) listed rfl
      exact ⟨_, previewScores_of_read gets checked read nameable, .scored scored⟩

end Asked

/-- For every text and all test variables that can be read, all ways of asking about the formula agree. -/
theorem inquiries_agree (text : String) {entries : List (Value × Value)} {environment : Environment}
    (read : Environment.ofValue (.object entries) = .ok environment) :
    ∃ outcome, AnswersAlike text entries environment outcome := by
  obtain ⟨outcome, tried⟩ := exists_tried text environment
  refine ⟨outcome, ?_⟩
  exact
    { tried := fun other => ⟨fun h => tried.unique h, fun same => same ▸ tried⟩
      valid := Formula.check_valid_iff
      variableNames := fun f accepted => congrArg Formula.Check.variableNames (Formula.check_of_accepted accepted)
      rejection := fun r => Formula.check_error_iff
      evaluated := tried.trial_eq
      saved := fun state failure request c name made listed => perform_save_alone state failure made listed
      validated := by
        intro state failure
        obtain ⟨validation, validated, shown⟩ := validate_tried tried read
        exact ⟨validation, congrArg (Except.map Result.validation) validated, shown⟩
      previewed := by
        intro state failure gameType name nameable filled
        obtain ⟨result, previewed, told⟩ := previewScores_alone tried read state.store nameable filled
        exact ⟨result, congrArg (Except.map Result.preview) previewed, told⟩ }

/-- A formula is accepted, and its evaluation fails because of a zero. -/
theorem division_by_zero_is_told_alike :
    let entries : List (Value × Value) := [(.text "errors", .int 0)]
    ∃ environment e, Environment.ofValue (.object entries) = .ok environment ∧
      e.report.code = "DIVISION_BY_ZERO" ∧ AnswersAlike "100 / errors" entries environment (.error e) := by
  intro entries
  have fails : ((Environment.ofValue (.object entries)).toOption.map fun environment =>
      (widen (·.report.code) (Formula.trial (.text "100 / errors") environment.bindings)).map fun _ => ()) =
        some (refuse "DIVISION_BY_ZERO") := by decide +kernel
  cases read : Environment.ofValue (.object entries) with
  | error failure =>
    rw [read] at fails
    cases fails
  | ok environment =>
    obtain ⟨outcome, alike⟩ := inquiries_agree "100 / errors" read
    rw [read, Except.toOption, Option.map_some, alike.evaluated] at fails
    cases outcome with
    | ok value => cases fails
    | error e => exact ⟨environment, e, rfl, Failure.refused.inj (Except.error.inj (Option.some.inj fails)), alike⟩

end Service

end GameScoring
