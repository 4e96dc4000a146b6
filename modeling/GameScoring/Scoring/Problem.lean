import GameScoring.Scoring.Score
import GameScoring.Telemetry.Registry

/-! # Problems

Every way in which an operation on configurations can be refused.
-/
namespace GameScoring.Scoring
open Telemetry

def minCompared : Nat := 2

inductive Problem
  | configuration (error : ConfigurationError)
  | environment (error : EnvironmentError)
  | extraction (error : ExtractionError)
  | scoring (error : ScoringError)
  | wrongGame (configured asked : String)
  | tooFewConfigurations (count : Nat)
  | labelCount (labels configurations : Nat)

def Problem.report : Problem → Report
  | configuration error => error.report
  | environment error => error.report
  | extraction error => error.report
  | scoring error => error.report
  | wrongGame configured asked =>
    .input ("Configuration is for '" ++ configured ++ "', not '" ++ asked ++ "'") (.text "game_type") []
      "INPUT_ERROR"
  | tooFewConfigurations count =>
    .input ("Need at least " ++ Text.natText minCompared ++ " configurations to compare, got " ++
      Text.natText count) (.text "configurations") [] "INPUT_ERROR"
  | labelCount labels configurations =>
    .input ("Got " ++ Text.natText labels ++ " labels for " ++ Text.natText configurations ++ " configurations")
      (.text "labels") [] "INPUT_ERROR"

/-- The outcome of an operation and the events it reported, in order. -/
structure Reported (α : Type) where
  events : List Event
  outcome : Except (Failure Problem) α

namespace Reported

def pure {α : Type} (outcome : Except (Failure Problem) α) : Reported α := ⟨[], outcome⟩

def ofPass {α : Type} (pass : Pass α) : Reported α := ⟨pass.events, widen .scoring pass.outcome⟩

end Reported

/-- Scores telemetry of a game. The run is counted once its telemetry has been read. -/
def calculate (registry : Registry) (gameType : String) (c : Configuration) (raw : Value) : Reported Scores :=
  if c.gameType != gameType then .pure (refuse (.wrongGame c.gameType gameType))
  else match registry.extract gameType raw with
    | .error e => .pure (.error (e.map .extraction))
    | .ok environment =>
      let pass := score c environment.bindings
      match pass.outcome with
      | .ok _ => ⟨pass.events ++ [.passed gameType true], widen .scoring pass.outcome⟩
      | .error (.refused _) => ⟨pass.events ++ [.passed gameType false], widen .scoring pass.outcome⟩
      | .error (.fault _) => ⟨pass.events, widen .scoring pass.outcome⟩

/-- The game that unsaved formulas are scored for if none is named. -/
def previewGame : Value := .text "preview"

/-- Scores formulas and weights that are not saved against given variables. -/
def preview (gameType formulas weights values : Value) : Reported Scores :=
  let gameType := if gameType.isNothing then previewGame else gameType
  match Configuration.ofValues gameType formulas weights (.object []) with
  | .error e => .pure (.error (e.map .configuration))
  | .ok c =>
    match Environment.ofValue values with
    | .error e => .pure (.error (e.map .environment))
    | .ok environment => .ofPass (score c environment.bindings)

end GameScoring.Scoring
