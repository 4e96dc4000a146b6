import GameScoring.Document.Json.Printer
import GameScoring.Document.Yaml.Meaning
import GameScoring.Numeral.Reading
import GameScoring.Scoring.Score
import GameScoring.Settings
import GameScoring.Shell.Outcome
import GameScoring.Telemetry.Registry

/-! # Commands

What each command does once its options and arguments have been read.
-/
namespace GameScoring.Shell
open Scoring Telemetry

def checked (text : String) : String := "✓ " ++ text

/-! ## Formulas -/

/-- A variable that is typed as its name, an equals sign and a number. -/
def typedVariable (item : String) : Except String (String × Float) :=
  let chars := item.toList
  let name := String.ofList (Text.strip (chars.takeWhile (· != '=')))
  match chars.dropWhile (· != '=') with
  | _ :: written =>
    if name.isEmpty then .error ("expected name=value, got '" ++ item ++ "'")
    else match Numeral.ofText? (String.ofList written) with
      | some x => .ok (name, x)
      | none => .error ("'" ++ String.ofList written ++ "' is not a number")
  | [] => .error ("expected name=value, got '" ++ item ++ "'")

/-- All variables that are typed; one that is typed twice has its last value. -/
def typedVariables (items : List String) : Except UsageError (Table Float) :=
  match items.mapM typedVariable with
  | .ok values => .ok (Table.ofList values)
  | .error reason => .error (.badValue "--var" reason)

def listOf (names : List String) : String := if names.isEmpty then "(none)" else ", ".intercalate names

/-- Tries a valid formula, after lines that were printed before. -/
def tryFormula (lines : List String) (formula : Value) (values : Table Float) : Outcome :=
  match Environment.ofValue (.record (values.map Value.float).entries) with
  | .error e => .failed lines EnvironmentError.report e
  | .ok environment =>
    match Formula.trial formula environment.bindings with
    | .error e => .failed lines FormulaError.report e
    | .ok result => .succeeded (lines ++ ["Result: " ++ Numeral.general result])

def validateFormula (formula : String) (values : Table Float) : Outcome :=
  let check := Formula.check (.text formula)
  match check.error with
  | some rejection => .refused [] ("Invalid formula: " ++ rejection.report.message)
  | none =>
    let lines := [checked "Formula is valid", "Variables: " ++ listOf check.variableNames]
    if values.isEmpty then .succeeded lines else tryFormula lines (.text formula) values

/-! ## Configuration files -/

/-- The entries of a document; an empty document has none. -/
def mapping? (document : Value) : Option (List (Value × Value)) :=
  if document.isNothing then some []
  else match document with
    | .object entries => some entries
    | _ => none

/-- Scores a configuration with the test variables of its document. -/
def scoreDocument (lines : List String) (c : Configuration) (values : Value) : Outcome :=
  match Environment.ofValue values with
  | .error e => .failed lines EnvironmentError.report e
  | .ok environment =>
    match (score c environment.bindings).outcome with
    | .error e => .failed lines ScoringError.report e
    | .ok scores => .succeeded (lines ++ [Json.pretty scores.value])

def summary (c : Configuration) : String :=
  checked (c.gameType ++ ": " ++ Text.natText c.formulas.size ++ " formulas, weights sum to " ++
    Numeral.fixed 3 (Numeral.sum c.weights.values))

/-- Checks the configuration that a document holds and, with test variables, scores it. -/
def checkDocument (entries : List (Value × Value)) : Outcome :=
  let gameType := (Value.lookup? "game_type" entries).getD (.text "")
  match Configuration.ofPayload gameType (.object entries) with
  | .error e => .failed [] ConfigurationError.report e
  | .ok c =>
    match checkFormulas c with
    | .error e => .reported [] e.report
    | .ok () =>
      match Value.lookup? "test_variables" entries with
      | none | some .null => .succeeded [summary c]
      | some values => scoreDocument [summary c] c values

def checkConfig (path text : String) : Outcome :=
  match Yaml.read text with
  | .error (.refused .malformed) => .refused [] ("Could not parse " ++ path)
  | .error (.fault fault) => .faulted [] fault
  | .ok document =>
    match mapping? document with
    | none => .refused [] (path ++ " must contain a mapping")
    | some entries => checkDocument entries

/-! ## Information -/

def listVariables (gameType : String) : Outcome :=
  match Registry.builtIn.catalogue gameType with
  | .ok table =>
    let width := table.names.foldl (fun width name => max width name.length) 0
    .succeeded (table.entries.map fun e => paddedTo width e.1 ++ "  " ++ e.2.display)
  | .error _ =>
    .refused [] ("Unknown game type '" ++ gameType ++ "'. Known: " ++ ", ".intercalate Registry.builtIn.gameTypes)

def showSettings (s : Settings) : Outcome :=
  .succeeded ["NeuRazor v" ++ s.appVersion, "Environment: " ++ s.deployment.name, "Database: " ++ s.databaseUrl,
    "Log format: " ++ s.logFormat.name, "Metrics enabled: " ++ (Value.bool s.metricsEnabled).literal,
    "Game types: " ++ ", ".intercalate Registry.builtIn.gameTypes]

def createTables : Outcome := .succeeded ["Creating database tables...", "Database initialized successfully!"]

end GameScoring.Shell
