import GameScoring.Service.Authoring
import GameScoring.Service.Submission

/-! # Operations

The operations of the service as data, and what each of them does to the store.
-/
namespace GameScoring.Service
open Scoring Store

inductive Operation
  | save (request : SaveRequest)
  | setActive (gameType name : String)
  | submit (gameType userId : String) (raw : Value)
  | active (gameType : String)
  | versions (gameType : String)
  | results (gameType userId : String) (limit : Int)
  | compare (gameType : String) (ids : List String) (testData : Option Value)
  | preview (request : PreviewRequest)
  | validate (formula : Value) (testVariables : Option Value)
  | catalogue (gameType : String)

inductive Result
  | version (version : Version)
  | versions (versions : List Version)
  | submission (submission : Submission)
  | results (sessions : List Value)
  | comparison (comparison : VersionComparison)
  | preview (preview : Preview)
  | validation (validation : Validation)
  | catalogue (gameType : String) (table : Table Value)

def Operation.perform (conditions : Conditions) (store : Store) : Operation → Reply Result
  | save request => (Service.save conditions store request).map .version
  | setActive gameType name => (Service.setActive conditions store gameType name).map .version
  | submit gameType userId raw => (Service.submit conditions store gameType userId raw).map .submission
  | active gameType => (Reply.unchanged store (Service.active store gameType)).map .version
  | versions gameType => (Reply.unchanged store (Service.versions store gameType)).map .versions
  | results gameType userId limit => (Reply.unchanged store (Service.results store gameType userId limit)).map .results
  | compare gameType ids testData => (compareVersions store gameType ids testData).map .comparison
  | preview request => (previewScores store request).map .preview
  | validate formula testVariables =>
    (Reply.unchanged store (Service.validate formula testVariables)).map .validation
  | catalogue gameType => (Reply.unchanged store (Service.catalogue gameType)).map (.catalogue gameType)

def Result.value : Result → Value
  | version v => v.value
  | versions vs => .list (vs.map Version.value)
  | submission s => s.value
  | results sessions => .list sessions
  | comparison c => c.value
  | preview p => p.value
  | validation v => v.value
  | catalogue gameType table =>
    .record [("game_type", .text gameType), ("variables", .record table.entries)]

end GameScoring.Service
