import GameScoring.Service.State
import GameScoring.Settings

/-! # Responses

How results and refusals are answered. A body can hold finite numbers only. Results of a fixed form show
null for other numbers; results that hold scores as they are cannot be answered with such numbers.
-/
namespace GameScoring.Web
open Service Schema

/-- A status with a body, or the families of metrics with their types. -/
inductive Response
  | body (status : Nat) (value : Value)
  | families (families : List (String × String))

def Response.status : Response → Nat
  | body status _ => status
  | families _ => 200

mutual

def writable : Value → Bool
  | .float x => Binary.isFinite x
  | .list items => writableItems items
  | .object entries => writableEntries entries
  | _ => true

def writableItems : List Value → Bool
  | [] => true
  | x :: xs => writable x && writableItems xs

def writableEntries : List (Value × Value) → Bool
  | [] => true
  | (_, x) :: rest => writable x && writableEntries rest

end

mutual

/-- A value that shows null for every number that is not finite. -/
def shown : Value → Value
  | .float x => if Binary.isFinite x then .float x else .null
  | .list items => .list (shownItems items)
  | .object entries => .object (shownEntries entries)
  | value => value

def shownItems : List Value → List Value
  | [] => []
  | x :: xs => shown x :: shownItems xs

def shownEntries : List (Value × Value) → List (Value × Value)
  | [] => []
  | (key, x) :: rest => (key, shown x) :: shownEntries rest

end

/-- A result as it is answered, if it can be. A validation always shows the value of the formula. -/
def resultBody : Result → Option Value
  | .validation v => some (shown (.record (v.summary ++ [("test_result", .optional .float v.result)])))
  | .preview p => if writable p.value then some p.value else none
  | .comparison c => if writable c.value then some c.value else none
  | result => some (shown result.value)

def reportBody (r : Report) : Value :=
  .record [("error", .text r.code), ("message", .text r.message), ("details", .record r.details)]

def complaintsBody (complaints : List Complaint) : Value :=
  let shown := complaints.map fun c =>
    Value.record [("field", .text c.field), ("message", .text c.defect.message)]
  .record [("error", .text "INPUT_ERROR"), ("message", .text "Invalid request"),
    ("details", .record [("errors", .list shown)])]

def detailBody (detail : String) : Value := .record [("detail", .text detail)]

def notFound : Response := .body 404 (detailBody "Not Found")

def methodNotAllowed : Response := .body 405 (detailBody "Method Not Allowed")

def redirected : Nat := 307

def internalError : Response :=
  .body 500 (.record [("error", .text "INTERNAL_ERROR"), ("message", .text "An unexpected error occurred")])

def health (settings : Settings) (databaseDown : Bool) : Response :=
  let database := if databaseDown then "error" else "connected"
  .body (if databaseDown then 503 else 200) <| .record
    [("status", .text (if databaseDown then "unhealthy" else "ok")), ("version", .text settings.appVersion),
      ("environment", .text settings.deployment.name),
      ("checks", .record [("database", .record [("status", .text database)])]),
      ("game_types", .list (Telemetry.Registry.builtIn.gameTypes.map .text))]

def metricFamilies : List (String × String) :=
  [("neurazor_app_info", "gauge"), ("neurazor_errors_total", "counter"),
    ("neurazor_formula_evaluation_duration_seconds", "histogram"),
    ("neurazor_formula_evaluations_total", "counter"),
    ("neurazor_http_request_duration_seconds", "histogram"),
    ("neurazor_http_requests_total", "counter"), ("neurazor_scoring_runs_total", "counter")]

def metrics (settings : Settings) : Response :=
  if settings.metricsEnabled then .families metricFamilies
  else .body 404 (.record [("error", .text "Metrics not enabled")])

end GameScoring.Web
