import GameScoring.Telemetry.Environment

/-! # Fields of telemetry

Readers for the fields of one telemetry object. Each gives the value of a field or the defect for which the
field is refused.
-/
namespace GameScoring.Telemetry

inductive Defect
  | missing
  | notNumber
  | notFinite
  | below (minimum : Float)
  | notList
  | notObject
  | notTruthValue
  | above (other : String)

inductive ExtractionError
  | unknownGame (gameType : String)
  | badField (field : String) (defect : Defect)
  | environment (error : EnvironmentError)

abbrev Extracted := Except (Failure ExtractionError)

def Defect.text : Defect → String
  | missing => "missing"
  | notNumber => "not a number"
  | notFinite => "not finite"
  | below minimum => "below " ++ Numeral.general minimum
  | notList => "not a list"
  | notObject => "not an object"
  | notTruthValue => "missing or not a boolean"
  | above other => "greater than " ++ other

def ExtractionError.report : ExtractionError → Report
  | unknownGame gameType => .unknownGame (.text gameType)
  | badField field defect => .missingTelemetry (.text field) (.text defect.text)
  | environment error => error.report

abbrev Fields := List (Value × Value)

/-- The minimum of a field that must not be negative. -/
def zero : Value := .float 0.0

def wholeNumber? : Value → Option Int
  | .int i => some i
  | .bool b => some (Value.ofBool b)
  | _ => none

/-- Whether a double is less than a whole number, which is taken exactly. -/
def isBelowWhole (x : Float) (i : Int) : Bool :=
  match Binary.shape x with
  | .finite negative mantissa exponent =>
    let (n, d) := Binary.scale 2 mantissa 1 exponent
    (if negative then -(n : Int) else n) < i * d
  | .infinite negative => negative
  | .notANumber => false

/-- Holds a number against a minimum. A minimum that has no double cannot be named in a refusal. -/
def checkMinimum (x : Float) (field : String) (minimum : Value) : Extracted Unit :=
  match minimum, wholeNumber? minimum with
  | .float y, _ => if x < y then refuse (.badField field (.below y)) else .ok ()
  | _, some i =>
    if isBelowWhole x i then do
      let shown ← (Numeral.ofInt i).mapError Failure.fault
      refuse (.badField field (.below shown))
    else .ok ()
  | _, none => .error (.fault (.notOrdered minimum.typeName))

/-- A present field; null counts as absent. -/
def require (fields : Fields) (field : String) : Extracted Value :=
  match Value.lookup? field fields with
  | none | some .null => refuse (.badField field .missing)
  | some value => .ok value

/-- A finite number that is not below a minimum. -/
def asNumber (value : Value) (field : String) (minimum : Value) : Extracted Float := do
  match value.number? with
  | none => refuse (.badField field .notNumber)
  | some number =>
    let x ← number.mapError Failure.fault
    if !Binary.isFinite x then refuse (.badField field .notFinite)
    else do
      checkMinimum x field minimum
      return x

def requireNumber (fields : Fields) (field : String) (minimum : Value) : Extracted Float := do
  asNumber (← require fields field) field minimum

/-- A number that may be left out; its default is taken as it is. -/
def optionalNumber (fields : Fields) (field : String) (default : Value) : Extracted Value :=
  match Value.lookup? field fields with
  | none | some .null => .ok default
  | some value => do return .float (← asNumber value field zero)

/-- A number of seconds or the like that is zero if left out. -/
def optionalAmount (fields : Fields) (field : String) : Extracted Float :=
  match Value.lookup? field fields with
  | none | some .null => .ok 0.0
  | some value => asNumber value field zero

def requireList (fields : Fields) (field : String) : Extracted (List Value) := do
  match ← require fields field with
  | .list items => .ok items
  | _ => refuse (.badField field .notList)

/-- A scaled ratio, zero if its denominator is. -/
def ratio (numerator denominator scale : Float) : Float :=
  Numeral.divideOr 0.0 numerator denominator * scale

def count (n : Nat) : Float := Binary.nearest false n 1

end GameScoring.Telemetry
