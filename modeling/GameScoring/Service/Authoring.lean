import GameScoring.Service.Refusal

/-! # Authoring

What an author asks before anything is saved: whether a formula is valid, what unsaved formulas score, and
which variables a game has.
-/
namespace GameScoring.Service
open Scoring Telemetry

/-- What is known of a formula. It is valid if it parses and, with test variables, has a value. -/
structure Validation where
  variableNames : List String
  error : Option FormulaError
  result : Option Float

def Validation.valid (v : Validation) : Bool := v.error.isNone

/-- A formula that does not parse is not tried, and its test variables are not looked at. -/
def validate (formula : Value) (testVariables : Option Value) : Answer Validation :=
  let check := Formula.check formula
  match check.error, testVariables with
  | some rejection, _ => .ok ⟨check.variableNames, some (.rejected rejection), none⟩
  | none, none => .ok ⟨check.variableNames, none, none⟩
  | none, some values =>
    match Environment.ofValue values with
    | .error e => .error (e.map fun error => .scoring (.environment error))
    | .ok environment =>
      match Formula.trial formula environment.bindings with
      | .ok result => .ok ⟨check.variableNames, none, some result⟩
      | .error (.refused error) => .ok ⟨check.variableNames, some error, none⟩
      | .error (.fault fault) => .error (.fault fault)

def Validation.summary (v : Validation) : List (String × Value) :=
  [("valid", .bool v.valid), ("error", .optional (fun e => .text e.report.message) v.error),
    ("error_kind", .optional (fun e => .text e.report.code) v.error),
    ("variables", .list (v.variableNames.map .text))]

/-- A validation, with the value of the formula if it has one. -/
def Validation.value (v : Validation) : Value :=
  .record (v.summary ++ match v.result with
    | some x => [("test_result", .float x)]
    | none => [])

/-- What unsaved formulas score, or which of them fails. -/
structure Preview where
  result : Except ScoringError Scores
  testVariables : Value

structure PreviewRequest where
  gameType : Value
  formulas : Value
  weights : Value
  testVariables : Value

/-- A formula that fails is part of the answer; anything else is refused. -/
def previewScores (store : Store) (request : PreviewRequest) : Reply Preview :=
  let scored := preview request.gameType request.formulas request.weights request.testVariables
  let outcome := match scored.outcome with
    | .ok scores => do return ⟨.ok scores, ← scoredEntries request.testVariables⟩
    | .error (.refused (.scoring error)) => .ok ⟨.error error, request.testVariables⟩
    | .error e => .error (e.map .scoring)
  ⟨store, scored.events, 0, outcome⟩

def Preview.value (p : Preview) : Value :=
  match p.result with
  | .ok scores =>
    .record [("success", .bool true), ("scores", scores.value), ("test_variables", p.testVariables)]
  | .error error => .record [("success", .bool false), ("error", error.value)]

def catalogue (gameType : String) : Answer (Table Value) :=
  widen (fun error => .scoring (.extraction error)) (Registry.builtIn.catalogue gameType)

end GameScoring.Service
