import GameScoring.Service.Operation
import GameScoring.Web.Address
import GameScoring.Web.Route
import GameScoring.Schema.Reader

/-! # Requests

A request to a route of the service is read as an operation, or refused with complaints about its parts.
-/
namespace GameScoring.Web
open Service Schema

structure Request where
  method : String
  address : Address
  body : Option Value

/-- A request as it is written. Methods are written in capitals, and a query of its own replaces the one in
the address. -/
def Request.written (method address : String) (query : Option (List (String × String))) (body : Option Value) :
    Request :=
  let read := Address.ofText address
  ⟨String.ofList (method.toList.map Char.toUpper), ⟨read.path, (query.map writeQuery).getD read.query⟩, body⟩

inductive Action
  | operation (operation : Operation)
  | health
  | metrics

def maxDescriptionLength : Nat := 2000

def maxUserLength : Nat := 100

def defaultLimit : Int := 100

def maxLimit : Int := 1000

open Reader

def anyText : Reader String := text 0 none

def name : Reader String := text 1 none

def formulas : Reader Value := fun place value =>
  (fun entries => .object (entries.map fun e => (e.1, Value.text e.2))) <$> record anyText place value

def weights : Reader (List (Value × Float)) := record number

def weightsValue (entries : List (Value × Float)) : Value :=
  .object (entries.map fun e => (e.1, Value.float e.2))

/-- Weights, the first negative one of which is refused. -/
def savedWeights : Reader (List (Value × Float)) := fun place value =>
  (weights place value).andThen fun entries =>
    match entries.find? fun e => e.2 < 0.0 with
    | some e => .fault place (.refused ("Weight for '" ++ e.1.display ++ "' must be non-negative, got " ++
        Numeral.text e.2))
    | none => .read entries

def readValidate (fields : Fields) : Checked Operation :=
  (fun formula values => .validate (.text formula) values)
    <$> fields.required "formula" anyText
    <*> fields.withDefault "test_variables" none (nullable object)

def readPreview (fields : Fields) : Checked Operation :=
  (fun gameType formulas weights values =>
    .preview ⟨.optional .text gameType, formulas, weightsValue weights, values⟩)
    <$> fields.withDefault "game_type" none (nullable anyText)
    <*> fields.required "formulas" formulas
    <*> fields.withDefault "weights" [] weights
    <*> fields.required "test_variables" object

def readCompare (fields : Fields) : Checked Operation :=
  Operation.compare
    <$> fields.required "game_type" anyText
    <*> fields.required "version_ids" (list anyText Scoring.minCompared)
    <*> fields.withDefault "test_data" none (nullable object)

def readSave (fields : Fields) : Checked Operation :=
  (fun gameType formulas weights settings description createdBy activate =>
    .save ⟨.text gameType, formulas, weightsValue weights, settings, 
      ⟨.optional .text description, .optional .text createdBy, .bool activate⟩⟩)
    <$> fields.required "game_type" name
    <*> fields.required "formulas" formulas
    <*> fields.withDefault "weights" [] savedWeights
    <*> fields.withDefault "settings" (.object []) object
    <*> fields.withDefault "description" none (nullable (text 0 (some maxDescriptionLength)))
    <*> fields.withDefault "created_by" none (nullable (text 0 (some maxUserLength)))
    <*> fields.withDefault "activate" true truth

def readSetActive (fields : Fields) : Checked Operation :=
  Operation.setActive <$> fields.required "game_type" name <*> fields.required "version_name" name

def readSubmit (fields : Fields) : Checked Operation :=
  Operation.submit
    <$> fields.required "game_type" name
    <*> fields.required "user_id" (text 1 (some maxUserLength))
    <*> fields.required "raw_data" object

/-! ## Queries -/

def readLimit (written : String) : Checked Int :=
  let place := ["query", "limit"]
  (writtenInteger place written).andThen fun limit =>
    if limit < 1 then .fault place (.lessThan 1)
    else if maxLimit < limit then .fault place (.greaterThan maxLimit)
    else .read limit

def readResults (gameType : String) (query : List (String × String)) : Checked Operation :=
  let userId := (queryValue? query "userId").getD ""
  (fun limit => .results gameType userId limit) <$> match queryValue? query "limit" with
    | some written => readLimit written
    | none => .read defaultLimit

/-- The fields of a request body, which has to be there. -/
def readBody {α : Type} (body : Option Value) (read : Fields → Checked α) : Checked α :=
  match body with
  | none => .fault ["body"] .missing
  | some (.object entries) => read ⟨["body"], entries⟩
  | some _ => .fault ["body"] .notBody

def Request.action (request : Request) : Route → Checked Action
  | .validateFormula => .operation <$> readBody request.body readValidate
  | .preview => .operation <$> readBody request.body readPreview
  | .compare => .operation <$> readBody request.body readCompare
  | .save => .operation <$> readBody request.body readSave
  | .setActive => .operation <$> readBody request.body readSetActive
  | .submit => .operation <$> readBody request.body readSubmit
  | .active gameType => .read (.operation (.active gameType))
  | .versions gameType => .read (.operation (.versions gameType))
  | .catalogue gameType => .read (.operation (.catalogue gameType))
  | .results gameType => .operation <$> readResults gameType (readQuery request.address.query)
  | .health => .read .health
  | .metrics => .read .metrics

end GameScoring.Web
