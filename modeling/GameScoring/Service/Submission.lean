import GameScoring.Service.Versions

/-! # Submissions

A submission scores telemetry of a game with its active version and records the session and the telemetry
together. Nothing is recorded if it cannot be scored. The sessions of a game are its results.
-/
namespace GameScoring.Service
open Scoring Store Telemetry

structure Submission where
  sessionId : String
  versionUsed : String
  scores : Scores

def versionFor (store : Store) (gameType userId : String) : Answer Version :=
  if userId.isEmpty then refuse .noUser else active store gameType

/-- A submission draws an id for the session and one for its telemetry, the latter only if the session
could be recorded. -/
def submit (conditions : Conditions) (store : Store) (gameType userId : String) (raw : Value) :
    Reply Submission :=
  match versionFor store gameType userId with
  | .error e => .unchanged store (.error e)
  | .ok version =>
    let scored := calculate .builtIn gameType version.configuration raw
    match scored.outcome with
    | .error e => ⟨store, scored.events, 0, .error (e.map .scoring)⟩
    | .ok scores =>
      let session : Session :=
        ⟨conditions.freshId, userId, gameType, version.id, scores.value, conditions.now⟩
      match store.recordSubmission conditions.commitFailure session raw with
      | (store, .error e) => ⟨store, scored.events, 1, refuse (.store e)⟩
      | (store, .ok _) => ⟨store, scored.events, 2, .ok ⟨session.id, version.name, scores⟩⟩

/-- The sessions of a game as they are shown, and those of one user if a user is named. -/
def results (store : Store) (gameType userId : String) (limit : Int) : Answer (List Value) :=
  match store.sessionsOf gameType userId limit with
  | .error fault => .error (.fault fault)
  | .ok sessions => .ok (sessions.map store.sessionValue)

def Submission.value (s : Submission) : Value :=
  .record [("session_id", .text s.sessionId), ("version_used", .text s.versionUsed), ("scores", s.scores.value)]

end GameScoring.Service
