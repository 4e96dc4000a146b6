import GameScoring.Value

/-! # Reports

Every refusal is shown as a report: a code, a message, a status and details. Kinds of report form a tree,
and a report without a code of its own carries the name of its kind. The modules that refuse something
have their own types of causes; a cause turns into a report through one of the builders here.
-/
namespace GameScoring

/-- A fault that no rule of this program words: of arithmetic, or a value without the parts it should have. -/
inductive Fault
  | integerTooLarge
  | quotientTooLarge
  | powerOutOfRange
  | undefinedDecimal
  | decimalOverflow
  | tooFewArguments (expected actual : Nat)
  | tooManyArguments (expected : Nat)
  | noChoice (function : String)
  | noArgument
  | noEntries (typeName : String)
  | unusablePath
  | integerTooWide
  | notIterable (typeName : String)
  | heldField (name : String)
  | noResult (name : String)
  | secondsOutOfRange
  | timeOutOfRange
  | yearOutOfRange (year : Int)
  | notOrdered (typeName : String)
  | notOperands (operator left right : String)
  | notFactor
  | noCharacter
  | noNumber
  | emptyNumber
  | noTruthValue (word : String)
  | noTime
  | notTime
deriving DecidableEq, Repr

def Fault.message : Fault → String
  | integerTooLarge => "int too large to convert to float"
  | powerOutOfRange => "(34, 'Numerical result out of range')"
  | quotientTooLarge => "integer division result too large for a float"
  | decimalOverflow => "[<class 'decimal.Overflow'>]"
  | noResult name => Value.quoted name
  | secondsOutOfRange => "timestamp out of range for platform time_t"
  | timeOutOfRange => "[Errno 75] Value too large for defined data type"
  | yearOutOfRange year => "year " ++ Text.intText year ++ " is out of range"
  | notOrdered typeName => "'<' not supported between instances of 'float' and '" ++ typeName ++ "'"
  | notOperands operator left right =>
    "unsupported operand type(s) for " ++ operator ++ ": '" ++ left ++ "' and '" ++ right ++ "'"
  | notFactor => "can't multiply sequence by non-int of type 'float'"
  | noCharacter => "chr() arg not in range(0x110000)"
  | noNumber => "invalid literal for a number"
  | emptyNumber => "string index out of range"
  | noTruthValue word => Value.quoted word
  | noTime => "time out of range"
  | notTime => "'NoneType' object has no attribute 'groupdict'"
  | undefinedDecimal => "[<class 'decimal.InvalidOperation'>]"
  | tooFewArguments expected actual =>
    "not enough values to unpack (expected " ++ Text.natText expected ++ ", got " ++ Text.natText actual ++ ")"
  | tooManyArguments expected => "too many values to unpack (expected " ++ Text.natText expected ++ ")"
  | noChoice function => function ++ "() arg is an empty sequence"
  | noArgument => "list index out of range"
  | unusablePath => "embedded null byte"
  | integerTooWide => "integer too wide for a column"
  | heldField name => Value.quoted ("Attempt to overwrite " ++ Value.quoted name ++ " in LogRecord")
  | notIterable typeName => "'" ++ typeName ++ "' object is not iterable"
  | noEntries typeName => "'" ++ typeName ++ "' object has no attribute 'items'"

/-- Why there is no answer: a refusal with a cause, or a fault. -/
inductive Failure (ε : Type)
  | refused (cause : ε)
  | fault (fault : Fault)
deriving DecidableEq, Repr

def Failure.map {ε δ : Type} (f : ε → δ) : Failure ε → Failure δ
  | refused cause => refused (f cause)
  | fault x => fault x

def refuse {ε α : Type} (cause : ε) : Except (Failure ε) α := .error (.refused cause)

/-- Carries a result over to a wider type of causes. -/
def widen {ε δ α : Type} (f : ε → δ) (result : Except (Failure ε) α) : Except (Failure δ) α :=
  result.mapError (Failure.map f)

theorem ok_of_bind {ε α β : Type} {x : Except ε α} {f : α → Except ε β} {b : β}
    (h : x >>= f = .ok b) : ∃ a, x = .ok a ∧ f a = .ok b := by
  cases x with
  | error e => cases h
  | ok a => exact ⟨a, rfl, h⟩

theorem ok_of_toOption {ε α : Type} {x : Except ε α} {a : α} (h : x.toOption = some a) : x = .ok a := by
  cases x with
  | error e => cases h
  | ok a => cases h; rfl

theorem ok_of_widen {ε δ α : Type} {f : ε → δ} {x : Except (Failure ε) α} {a : α}
    (h : widen f x = .ok a) : x = .ok a := by
  cases x with
  | error e => cases h
  | ok a => cases h; rfl

namespace Report

inductive Kind
  | general
  | input
  | missingTelemetry
  | notFound
  | unknownGame
  | persistence
  | formula
  | validation
  | complexity
  | evaluation
  | undefinedVariable
  | divisionByZero
  | domain
  | scoring
deriving DecidableEq, Repr

namespace Kind

def name : Kind → String
  | general => "NeuRazorError"
  | input => "InputError"
  | missingTelemetry => "MissingTelemetryField"
  | notFound => "NotFoundError"
  | unknownGame => "UnknownGameType"
  | persistence => "PersistenceError"
  | formula => "FormulaError"
  | validation => "FormulaValidationError"
  | complexity => "FormulaTooComplex"
  | evaluation => "FormulaEvaluationError"
  | undefinedVariable => "UndefinedVariable"
  | divisionByZero => "DivisionByZero"
  | domain => "DomainError"
  | scoring => "ScoringError"

/-- A kind and the broader kinds above it. -/
def lineage : Kind → List Kind
  | general => [general]
  | input => [input, general]
  | missingTelemetry => [missingTelemetry, input, general]
  | notFound => [notFound, general]
  | unknownGame => [unknownGame, notFound, general]
  | persistence => [persistence, general]
  | formula => [formula, general]
  | validation => [validation, formula, general]
  | complexity => [complexity, validation, formula, general]
  | evaluation => [evaluation, formula, general]
  | undefinedVariable => [undefinedVariable, evaluation, formula, general]
  | divisionByZero => [divisionByZero, evaluation, formula, general]
  | domain => [domain, evaluation, formula, general]
  | scoring => [scoring, general]

end Kind

end Report

open Report in
structure Report where
  kind : Report.Kind
  code : String
  message : String
  status : Nat
  details : List (String × Value)

namespace Report

def general (kind : Kind) (message code : String) (details : List (String × Value)) (status : Nat) : Report :=
  ⟨kind, if code.isEmpty then kind.name else code, message, status, details⟩

/-- Details that start with a named one, which is left out if it is nothing. -/
def leading (name : String) (value : Value) (details : List (String × Value)) : List (String × Value) :=
  if value.isNothing then details else (name, value) :: details

def input (message : String) (field : Value) (details : List (String × Value)) (code : String) : Report :=
  general .input message code (leading "field" field details) 400

def missingTelemetry (field reason : Value) : Report :=
  let shown := if reason.isNothing then "missing" else reason.display
  let message := "Telemetry field '" ++ field.display ++ "' is " ++ shown
  general .missingTelemetry message "MISSING_TELEMETRY_FIELD" (leading "field" field []) 400

def notFoundOf (kind : Kind) (resource identifier : Value) (code : String) : Report :=
  general kind (resource.display ++ " not found: " ++ identifier.display) code
    [("resource", resource), ("identifier", .text identifier.display)] 404

def notFound (resource identifier : Value) (code : String) : Report :=
  notFoundOf .notFound resource identifier code

def unknownGame (gameType : Value) : Report :=
  notFoundOf .unknownGame (.text "Game type") gameType "UNKNOWN_GAME_TYPE"

def persistence (message : String) (operation : Value) (details : List (String × Value)) : Report :=
  general .persistence message "PERSISTENCE_ERROR" (leading "operation" operation details) 500

def formula (kind : Kind) (message code : String) (details : List (String × Value)) : Report :=
  general kind message code details 422

/-- A rejected formula; the position is shown after the reason. -/
def rejected (kind : Kind) (reason position : Value) (code : String) : Report :=
  let message := match position with
    | .null => reason.display
    | place => reason.display ++ " (at position " ++ place.display ++ ")"
  formula kind message code [("reason", reason), ("position", position)]

def validation (reason position : Value) (code : String) : Report := rejected .validation reason position code

def complexity (reason position : Value) : Report :=
  rejected .complexity reason position "FORMULA_TOO_COMPLEX"

def evaluation (message code : String) (details : List (String × Value)) : Report :=
  formula .evaluation message code details

def undefinedVariable (name : Value) : Report :=
  formula .undefinedVariable ("Undefined variable '" ++ name.display ++ "'") "UNDEFINED_VARIABLE"
    [("variable", name)]

def divisionByZero (message : String) : Report := formula .divisionByZero message "DIVISION_BY_ZERO" []

def domain (message : String) (function : Value) : Report :=
  formula .domain message "DOMAIN_ERROR" [("function", function)]

/-- A formula of a competency that failed, with the report of its cause. -/
def scoring (competency : String) (cause : Report) (opening : String) : Report :=
  general .scoring (opening ++ " " ++ competency ++ ": " ++ cause.message) "SCORING_ERROR"
    [("competency", .text competency), ("kind", .text cause.code), ("reason", .text cause.message)] 422

end Report

end GameScoring
