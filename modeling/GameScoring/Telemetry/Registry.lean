import GameScoring.Telemetry.Games

/-! # The registry

Strategies by game. Every game has at most one strategy, and a strategy has to name its game.
-/
namespace GameScoring.Telemetry

inductive RegistrationError
  | unnamedGame (strategy : String)
  | taken (gameType : String)
deriving DecidableEq, Repr

def RegistrationError.message : RegistrationError → String
  | unnamedGame strategy => strategy ++ " does not declare a game_type"
  | taken gameType => "Extraction strategy already registered for '" ++ gameType ++ "'"

structure Registry where
  strategies : Table Strategy

namespace Registry

def register (registry : Registry) (strategy : Strategy) : Except RegistrationError Registry :=
  if strategy.gameType.isEmpty then .error (.unnamedGame strategy.name)
  else if registry.strategies.contains strategy.gameType then .error (.taken strategy.gameType)
  else .ok ⟨registry.strategies.insert strategy.gameType strategy⟩

def builtIn : Registry :=
  ⟨Table.ofList ([ReactionTime.strategy, MemoryMatch.strategy, FocusTask.strategy].map fun s => (s.gameType, s))⟩

def strategy (registry : Registry) (gameType : String) : Extracted Strategy :=
  match registry.strategies.get? gameType with
  | some strategy => .ok strategy
  | none => refuse (.unknownGame gameType)

/-- The known games in the order of their characters. -/
def gameTypes (registry : Registry) : List String :=
  registry.strategies.names.mergeSort (fun a b => decide (a ≤ b))

def catalogue (registry : Registry) (gameType : String) : Extracted (Table Value) := do
  return (← registry.strategy gameType).catalogue

def extract (registry : Registry) (gameType : String) (raw : Value) : Extracted Environment := do
  let strategy ← registry.strategy gameType
  match raw with
  | .object fields =>
    let results ← strategy.extract fields
    widen .environment (Environment.ofValue (.record results.entries))
  | _ => refuse (.badField "raw_data" .notObject)

end Registry

end GameScoring.Telemetry
