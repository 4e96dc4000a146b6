import GameScoring.Formula.Evaluation

/-! # Checks and trials

What an author sees while writing a formula: `check` parses it, `trial` also evaluates it. Neither raises
anything; a rejection comes before an evaluation error.
-/
namespace GameScoring

/-- Why a formula text has no value: it is rejected, or its tree cannot be evaluated. -/
inductive FormulaError
  | rejected (rejection : Formula.Rejection)
  | failed (error : Formula.EvaluationError)
deriving Repr

def FormulaError.report : FormulaError → Report
  | rejected rejection => rejection.report
  | failed error => error.report

namespace Formula

structure Check where
  error : Option Rejection
  variableNames : List String

def Check.valid (c : Check) : Bool := c.error.isNone

def check (text : Value) : Check :=
  match ofValue text with
  | .ok formula => ⟨none, formula.variableNames⟩
  | .error rejection => ⟨some rejection, []⟩

def trial (text : Value) (bindings : Bindings) : Except (Failure FormulaError) Float := do
  let formula ← (ofValue text).mapError fun rejection => .refused (.rejected rejection)
  widen .failed (formula.evaluate bindings)

theorem rejected_of_check {text : String} {r : Rejection} (h : (check (.text text)).error = some r) :
    ofText text = .error r := by
  rw [check, ofValue] at h
  cases result : ofText text with
  | ok f =>
    rw [result] at h
    cases h
  | error e =>
    rw [result] at h
    cases h
    rfl

theorem check_error_iff {text : String} {r : Rejection} :
    (check (.text text)).error = some r ↔ ofText text = .error r := by
  refine ⟨rejected_of_check, fun rejected => ?_⟩
  rw [check, ofValue, rejected]

theorem check_of_accepted {text : String} {f : Formula} (h : ofText text = .ok f) :
    check (.text text) = ⟨none, f.variableNames⟩ := by
  rw [check, ofValue, h]

theorem check_valid_iff {text : String} : (check (.text text)).valid = true ↔ ∃ f, ofText text = .ok f := by
  cases result : ofText text with
  | error r =>
    rw [Check.valid, check_error_iff.2 result]
    exact ⟨nofun, nofun⟩
  | ok f =>
    rw [Check.valid, check_of_accepted result]
    exact ⟨fun _ => ⟨f, rfl⟩, fun _ => rfl⟩

theorem trial_of_accepted {text : String} {f : Formula} {bindings : Bindings} (h : ofText text = .ok f) :
    trial (.text text) bindings = widen .failed (f.evaluate bindings) := by
  rw [trial, ofValue, h]
  rfl

theorem trial_of_rejected {text : String} {r : Rejection} {bindings : Bindings}
    (h : ofText text = .error r) : trial (.text text) bindings = refuse (.rejected r) := by
  rw [trial, ofValue, h]
  rfl

end Formula

end GameScoring
