import GameScoring.Telemetry.Environment

/-! # Scoring configurations

A configuration holds the formulas and weights of the competencies of one game, and settings that are kept
as they are. It is checked when it is made: names are not blank, formulas are text and weights are finite
and not negative. Whether the formulas parse is not checked here.
-/
namespace GameScoring.Scoring

inductive Part
  | formulas
  | weights
deriving DecidableEq, Repr

def Part.field : Part → String
  | formulas => "competency_formulas"
  | weights => "final_weights"

inductive ConfigurationError
  | noGameType
  | settingsNotObject
  | notObject (part : Part)
  | badName (part : Part)
  | formulaNotText (competency : String)
  | weightNotFinite (competency : String)
  | weightNegative (competency : String) (weight : Value)
  | payloadNotObject

namespace ConfigurationError

def report : ConfigurationError → Report
  | noGameType => .input "game_type is required" (.text "game_type") [] "INPUT_ERROR"
  | settingsNotObject => .input "settings must be an object" (.text "settings") [] "INPUT_ERROR"
  | notObject part => .input (part.field ++ " must be an object") (.text part.field) [] "INPUT_ERROR"
  | badName part => .input "Competency names must be non-empty strings" (.text part.field) [] "INPUT_ERROR"
  | formulaNotText competency =>
    .input ("Formula for '" ++ competency ++ "' must be a string") (.text Part.formulas.field)
      [("competency", .text competency)] "INPUT_ERROR"
  | weightNotFinite competency =>
    .input ("Weight for '" ++ competency ++ "' must be a finite number") (.text Part.weights.field)
      [("competency", .text competency)] "INPUT_ERROR"
  | weightNegative competency weight =>
    .input ("Weight for '" ++ competency ++ "' must be non-negative, got " ++ weight.display)
      (.text Part.weights.field) [("competency", .text competency)] "INPUT_ERROR"
  | payloadNotObject => .input "config must be an object" (.text "config") [] "INPUT_ERROR"

end ConfigurationError

structure Configuration where
  gameType : String
  formulas : Table String
  weights : Table Float
  settings : List (Value × Value)

abbrev Configured := Except (Failure ConfigurationError)

namespace Configuration

def readEntries {α : Type} (part : Part) (read : String → Value → Configured α) :
    List (Value × Value) → Table α → Configured (Table α)
  | [], table => .ok table
  | (key, value) :: rest, table =>
    match key with
    | .text name =>
      if Text.isBlankText name then refuse (.badName part)
      else do readEntries part read rest (table.insert name (← read name value))
    | _ => refuse (.badName part)

def readPart {α : Type} (part : Part) (read : String → Value → Configured α) (value : Value) :
    Configured (Table α) :=
  match value with
  | .object entries => readEntries part read entries Table.empty
  | _ => refuse (.notObject part)

def readFormula (competency : String) : Value → Configured String
  | .text text => .ok text
  | _ => refuse (.formulaNotText competency)

/-- A weight is a finite number that is not negative; a truth value is not a number. -/
def readWeight (competency : String) (value : Value) : Configured Float := do
  match value.number? with
  | none => refuse (.weightNotFinite competency)
  | some number =>
    let weight ← number.mapError Failure.fault
    if !Binary.isFinite weight then refuse (.weightNotFinite competency)
    else if weight < 0.0 then refuse (.weightNegative competency value)
    else .ok weight

def ofValues (gameType formulas weights settings : Value) : Configured Configuration :=
  match gameType with
  | .text gameType =>
    if Text.isBlankText gameType then refuse .noGameType
    else match settings with
      | .object settings => do
        let formulas ← readPart .formulas readFormula formulas
        let weights ← readPart .weights readWeight weights
        return ⟨gameType, formulas, weights, settings⟩
      | _ => refuse .settingsNotObject
  | _ => refuse .noGameType

/-- An entry of a payload; what stands for nothing is an empty object. -/
def payloadPart (name : String) (payload : List (Value × Value)) : Value :=
  match Value.lookup? name payload with
  | some value => if value.isNothing then .object [] else value
  | none => .object []

/-- Reads a configuration from its payload, the object that it is stored as. -/
def ofPayload (gameType payload : Value) : Configured Configuration :=
  match payload with
  | .object entries =>
    ofValues gameType (payloadPart Part.formulas.field entries) (payloadPart Part.weights.field entries)
      (payloadPart "settings" entries)
  | _ => refuse .payloadNotObject

def formulasValue (c : Configuration) : Value := .record (c.formulas.map Value.text).entries

def weightsValue (c : Configuration) : Value := .record (c.weights.map Value.float).entries

def payload (c : Configuration) : Value :=
  .record [(Part.formulas.field, c.formulasValue), (Part.weights.field, c.weightsValue),
    ("settings", .object c.settings)]

def sameTable {α : Type} (same : α → α → Bool) (s t : Table α) : Bool :=
  s.size == t.size && s.entries.all fun e => (t.get? e.1).any (same e.2)

def same (c d : Configuration) : Bool :=
  c.gameType == d.gameType && sameTable (· == ·) c.formulas d.formulas &&
    sameTable (· == ·) c.weights d.weights && Value.same (.object c.settings) (.object d.settings)

end Configuration

end GameScoring.Scoring
