import GameScoring.Service.Refusal

/-! # Versions in use

Saving a configuration as a version, choosing the active version of a game, and comparing versions. Only
formulas that parse are saved, and a version is activated only if its formulas parse.
-/
namespace GameScoring.Service
open Scoring Store

structure SaveRequest where
  gameType : Value
  formulas : Value
  weights : Value
  settings : Value
  note : Note

def SaveRequest.configuration (request : SaveRequest) : Answer Configuration := do
  let settings := if request.settings.isNothing then .object [] else request.settings
  let c ← ofConfigured (Configuration.ofValues request.gameType request.formulas request.weights settings)
  if c.formulas.isEmpty then refuse .noFormulas
  ofScoringError (checkFormulas c)
  return c

def readRow (row : Row) : Answer Version := ofConfigured row.read

def readRows (rows : List Row) : Answer (List Version) := rows.mapM readRow

def save (conditions : Conditions) (store : Store) (request : SaveRequest) : Reply Version :=
  match request.configuration with
  | .error e => .unchanged store (.error e)
  | .ok c =>
    match store.save conditions.commitFailure conditions.freshId c request.note with
    | (store, .error e) => .unchanged store (.error (e.map .store))
    | (store, .ok row) => ⟨store, [], 1, readRow row⟩

/-- The version of a game with a name, if its formulas parse. -/
def activatable (store : Store) (gameType name : String) : Answer Version := do
  let versions ← readRows (store.history gameType)
  match versions.find? fun version => version.name == name with
  | none => refuse (.store (.unknownVersion gameType name))
  | some version =>
    ofScoringError (checkFormulas version.configuration)
    return version

def setActive (conditions : Conditions) (store : Store) (gameType name : String) : Reply Version :=
  match activatable store gameType name with
  | .error e => .unchanged store (.error e)
  | .ok _ =>
    match store.setActive conditions.commitFailure gameType name with
    | (store, .error e) => .unchanged store (refuse (.store e))
    | (store, .ok row) => .unchanged store (readRow row)

def active (store : Store) (gameType : String) : Answer Version :=
  match store.active? gameType with
  | none => refuse (.noActiveVersion gameType)
  | some row => readRow row

/-- The versions of a game, the newest first. -/
def versions (store : Store) (gameType : String) : Answer (List Version) := readRows (store.history gameType)

/-! ## Comparing versions -/

/-- A version in a comparison, with its result if it was scored. -/
structure ComparedVersion where
  version : Version
  result : Option (Except ScoringError Scores)

structure VersionComparison where
  entries : List ComparedVersion
  differences : List Difference
  testData : Option Value

/-- The versions with given ids, all of which have to be known. -/
def requestedVersions (store : Store) (ids : List String) : Answer (List Version) := do
  let found ← readRows (store.rowsWith ids)
  if found.length < ids.length then
    refuse (.unknownVersions (ids.filter fun id => !(found.any fun version => version.id == id)))
  return found

def comparable (store : Store) (gameType : String) (ids : List String) : Answer (List Version) := do
  if ids.length < minCompared then refuse .tooFewVersions
  let found ← requestedVersions store ids
  match found.find? fun version => version.gameType != gameType with
  | some version => refuse (.foreignVersion version.name version.gameType gameType)
  | none => return found

/-- Puts every version together with its outcome. -/
def comparedVersions (versions : List Version) : Option (List Outcome) → List ComparedVersion
  | none => versions.map fun version => ⟨version, none⟩
  | some outcomes => (versions.zip outcomes).map fun (version, outcome) => ⟨version, some outcome.result⟩

def shownTestData : Option Value → Answer (Option Value)
  | some values => (scoredEntries values).map some
  | none => .ok none

/-- Compares versions of a game in the order of their ids and, with test data, their scores. -/
def compareVersions (store : Store) (gameType : String) (ids : List String) (testData : Option Value) :
    Reply VersionComparison :=
  match comparable store gameType ids with
  | .error e => .unchanged store (.error e)
  | .ok versions =>
    let labels := versions.map fun version => Value.text version.name
    .reported store (compare (versions.map (·.configuration)) testData (some labels)) fun comparison => do
      return ⟨comparedVersions versions comparison.outcomes, comparison.differences, ← shownTestData testData⟩

def ComparedVersion.value (c : ComparedVersion) : Value :=
  let v := c.version
  let result := match c.result with
    | none => []
    | some (.ok scores) => [("scores", scores.value)]
    | some (.error error) => [("error", error.value)]
  .record ([("version_id", .text v.id), ("version_name", .text v.name),
    ("description", .optional .text v.description), ("formulas", v.configuration.formulasValue),
    ("weights", v.configuration.weightsValue)] ++ result)

def weightChangeValue (c : WeightChange) : Value :=
  .record [("competency", .text c.competency), ("old", .optional .float c.old), ("new", .optional .float c.new),
    ("delta", .float c.delta)]

def formulaChangeValue (c : FormulaChange) : Value :=
  .record [("competency", .text c.competency), ("old_text", .optional .text c.old),
    ("new_text", .optional .text c.new)]

def differenceValue (d : Difference) : Value :=
  .record [("from_version", .text d.fromLabel), ("to_version", .text d.toLabel),
    ("weight_changes", .list (d.weights.map weightChangeValue)),
    ("formula_changes", .list (d.formulas.map formulaChangeValue)),
    ("score_delta", .optional .float d.scoreDelta)]

def VersionComparison.value (c : VersionComparison) : Value :=
  .record [("comparisons", .list (c.entries.map ComparedVersion.value)),
    ("differences", .list (c.differences.map differenceValue)), ("test_data", .optional id c.testData)]

end GameScoring.Service
