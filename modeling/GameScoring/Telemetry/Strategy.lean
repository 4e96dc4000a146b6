import GameScoring.Telemetry.Field

/-! # Strategies

A strategy turns the telemetry of one game into named numbers and describes them in a catalogue. A strategy
can be assembled from a recipe, a list of named steps that each read a field or divide two results.
-/
namespace GameScoring.Telemetry

structure Strategy where
  name : String
  gameType : String
  catalogue : Table Value
  extract : Fields → Extracted (Table Value)

/-- How one variable of a recipe is obtained. -/
inductive Step
  | number (field : String) (minimum : Value)
  | optional (field : String) (default : Value)
  | count (field : String)
  | present (field : String)
  | ratio (numerator denominator : String) (scale : Value)

/-- The double of a number or a truth value; other values have none. -/
def asDouble? (v : Value) : Option (Extracted Float) :=
  match v with
  | .float x => some (.ok x)
  | _ => (wholeNumber? v).map fun i => (Numeral.ofInt i).mapError Failure.fault

/-- The quotient of two numbers, zero if the denominator is. -/
def quotient (numerator denominator : Value) : Extracted Float :=
  if denominator.sameAtom (.int 0) then .ok 0.0
  else match wholeNumber? numerator, wholeNumber? denominator with
    | some n, some d => (Numeral.wholeQuotient n d).mapError Failure.fault
    | _, _ =>
      match asDouble? numerator, asDouble? denominator with
      | some x, some y => do return (← x) / (← y)
      | _, _ => .error (.fault (.notOperands "/" numerator.typeName denominator.typeName))

def scaled (x : Float) (factor : Value) : Extracted Float :=
  match asDouble? factor, factor with
  | some y, _ => do return x * (← y)
  | none, .text _ | none, .list _ => .error (.fault .notFactor)
  | none, _ => .error (.fault (.notOperands "*" "float" factor.typeName))

def resultOf (results : Table Value) (name : String) : Extracted Value :=
  match results.get? name with
  | some value => .ok value
  | none => .error (.fault (.noResult name))

def Step.run (fields : Fields) (results : Table Value) : Step → Extracted Value
  | number field minimum => do return .float (← requireNumber fields field minimum)
  | optional field default => optionalNumber fields field default
  | count field => do return .int (← requireList fields field).length
  | present field => require fields field
  | ratio numerator denominator scale => do
    let n ← resultOf results numerator
    let d ← resultOf results denominator
    return .float (← scaled (← quotient n d) scale)

/-- Runs the steps of a recipe in order. A later step of the same name replaces the result. -/
def runRecipe (fields : Fields) : List (String × Step) → Table Value → Extracted (Table Value)
  | [], results => .ok results
  | (name, step) :: rest, results => do
    let value ← step.run fields results
    runRecipe fields rest (results.insert name value)

def Strategy.ofRecipe (name gameType : String) (catalogue : Table Value) (recipe : List (String × Step)) :
    Strategy :=
  ⟨name, gameType, catalogue, fun fields => runRecipe fields recipe Table.empty⟩

end GameScoring.Telemetry
