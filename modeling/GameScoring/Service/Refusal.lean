import GameScoring.Scoring.Comparison
import GameScoring.Store.Basic

/-! # Refusals

Every way in which an operation of the service can be refused, and the reply of an operation: the store
after it, the events it reported, how many ids it drew and its outcome.
-/
namespace GameScoring.Service
open Scoring Store

inductive Refusal
  | scoring (problem : Problem)
  | store (error : StoreError)
  | noUser
  | noActiveVersion (gameType : String)
  | noFormulas
  | tooFewVersions
  | unknownVersions (ids : List String)
  | foreignVersion (name gameType asked : String)

def Refusal.report : Refusal → Report
  | scoring problem => problem.report
  | store error => error.report
  | noUser => .input "user_id is required" (.text "user_id") [] "INPUT_ERROR"
  | noActiveVersion gameType =>
    .notFound (.text "Active scoring configuration") (.text gameType) "NOT_FOUND"
  | noFormulas =>
    .input "At least one competency formula is required" (.text Part.formulas.field) [] "INPUT_ERROR"
  | tooFewVersions =>
    .input "At least two versions are required for comparison" (.text "version_ids") [] "INPUT_ERROR"
  | unknownVersions ids => .notFound (.text "Scoring version") (.text (", ".intercalate ids)) "NOT_FOUND"
  | foreignVersion name gameType asked =>
    .input ("Version " ++ name ++ " belongs to '" ++ gameType ++ "', not '" ++ asked ++ "'")
      (.text "version_ids") [] "INPUT_ERROR"

abbrev Answer := Except (Failure Refusal)

/-- The entries of a value that was scored. Only an object has any; an empty text, list or set and no bytes have
none, and anything else cannot be gone through. -/
def scoredEntries : Value → Answer Value
  | .object entries => .ok (.object entries)
  | .text _ | .list _ | .datum (.bytes _) | .datum (.set _) => .ok (.object [])
  | value => .error (.fault (.notIterable value.typeName))

def ofConfigured {α : Type} (result : Configured α) : Answer α :=
  widen (fun error => .scoring (.configuration error)) result

def ofScoringError {α : Type} (result : Except ScoringError α) : Answer α :=
  result.mapError fun error => .refused (.scoring (.scoring error))

/-- What an operation finds outside the store: the time in seconds, how many ids have been drawn, and
whether a commit fails. -/
structure Conditions where
  now : Int
  drawn : Nat
  commitFailure : Option CommitFailure

/-- The id with a serial number. Serial numbers start at one and no id is drawn twice. -/
def idText (serial : Nat) : String := "uuid!" ++ Text.natText serial

theorem idText_inj {m n : Nat} : idText m = idText n ↔ m = n := by
  rw [idText, idText, String.append_right_inj, Text.natText_inj]

def Conditions.freshId (conditions : Conditions) : String := idText (conditions.drawn + 1)

/-- The reply of an operation; `drawn` is how many ids the operation drew. -/
structure Reply (α : Type) where
  store : Store
  events : List Event
  drawn : Nat
  outcome : Answer α

namespace Reply

def unchanged {α : Type} (store : Store) (outcome : Answer α) : Reply α := ⟨store, [], 0, outcome⟩

/-- An answer to something that was scored and not recorded. -/
def reported {α β : Type} (store : Store) (result : Reported α) (f : α → Answer β) : Reply β :=
  ⟨store, result.events, 0, widen .scoring result.outcome >>= f⟩

def map {α β : Type} (f : α → β) (reply : Reply α) : Reply β :=
  ⟨reply.store, reply.events, reply.drawn, reply.outcome.map f⟩

end Reply

end GameScoring.Service
