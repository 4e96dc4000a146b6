import GameScoring.Service.Operation
import GameScoring.Text.Order

/-! # Counters

The counters are not kept: they are counted over everything that happened.
-/
namespace GameScoring.Service
open Scoring

/-- What is counted: a step of scoring, a report that is shown to a client, and a response. -/
inductive Happening
  | scoring (event : Event)
  | shown (code : String)
  | response (method endpoint : String) (status : Nat)

/-- One of the counters of a family, told apart by its labels. -/
structure Series where
  name : String
  labels : List (String × String)
deriving DecidableEq, Repr

def outcomeLabel (succeeded : Bool) : String := if succeeded then "success" else "error"

def eventSeries : Event → List Series
  | .evaluated succeeded =>
    [⟨"neurazor_formula_evaluations_total", [("outcome", outcomeLabel succeeded)]⟩,
      ⟨"neurazor_formula_evaluation_duration_seconds_count", []⟩]
  | .passed gameType succeeded =>
    [⟨"neurazor_scoring_runs_total", [("game_type", gameType), ("status", outcomeLabel succeeded)]⟩]
  | _ => []

def Happening.series : Happening → List Series
  | scoring event => eventSeries event
  | shown code => [⟨"neurazor_errors_total", [("domain", "api"), ("error_type", code)]⟩]
  | response method endpoint status =>
    [⟨"neurazor_http_requests_total",
      [("endpoint", endpoint), ("method", method), ("status", Text.natText status)]⟩]

/-- Names and labels in order, which decide the place of a counter. -/
def Series.key (s : Series) : List String := s.name :: s.labels.flatMap fun label => [label.1, label.2]

/-- The counters that are not zero, in the order of their keys. -/
def counters (happenings : List Happening) : List (Series × Nat) :=
  let increments := happenings.flatMap Happening.series
  (increments.eraseDups.mergeSort fun a b => Text.inOrder a.key b.key).map fun s => (s, increments.count s)

end GameScoring.Service
