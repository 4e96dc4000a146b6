import GameScoring.Web.Request
import GameScoring.Web.Response

/-! # The server

A request is routed, read, performed and answered. Every answered request is counted, but for those to the
metrics themselves and those that end in an internal error.
-/
namespace GameScoring.Web
open Service Store

structure Circumstances where
  settings : Settings
  commitFailure : Option CommitFailure
  databaseDown : Bool

/-- A response, and whether it is an answer or the sign of an internal error. -/
inductive Handled
  | answered (response : Response)
  | broken

/-- The outcome of an operation as a response, with what is to be counted. -/
def showOutcome : Answer Result → List Happening × Handled
  | .ok result =>
    ([], match resultBody result with
      | some body => .answered (.body 200 body)
      | none => .broken)
  | .error (.refused refusal) =>
    let report := refusal.report
    ([.shown report.code], .answered (.body report.status (reportBody report)))
  | .error (.fault _) => ([], .broken)

def perform (circumstances : Circumstances) (state : State) : Action → State × Handled
  | .health => (state, .answered (health circumstances.settings circumstances.databaseDown))
  | .metrics => (state, .answered (metrics circumstances.settings))
  | .operation operation =>
    let (state, outcome) := state.perform circumstances.commitFailure operation
    let (happenings, handled) := showOutcome outcome
    (state.note happenings, handled)

def handle (circumstances : Circumstances) (state : State) (request : Request) (route : Route) :
    State × Handled :=
  if request.method != route.method.name then (state, .answered methodNotAllowed)
  else match request.action route with
    | .faulty complaints => (state, .answered (.body 400 (complaintsBody complaints)))
    | .read action => perform circumstances state action

def countResponse (state : State) (request : Request) (status : Nat) : State :=
  let label := request.address.label
  if label == metricsPath then state else state.note [.response request.method label status]

def answer (circumstances : Circumstances) (state : State) (request : Request) (route : Route) :
    State × Response :=
  let (state, handled) := handle circumstances state request route
  match handled with
  | .answered response => (countResponse state request response.status, response)
  | .broken => (state, internalError)

/-- Answers a request that may still be sent on to another path so many times. -/
def respondWithin (circumstances : Circumstances) (redirects : Nat) (state : State) (request : Request) :
    State × Response :=
  match target request.address.path, redirects with
  | .route route, _ => answer circumstances state request route
  | .nowhere, _ => (countResponse state request notFound.status, notFound)
  | .redirect _, 0 => (countResponse state request redirected, .body redirected .null)
  | .redirect other, redirects + 1 =>
    let sentOn := { request with address := request.address.redirected other }
    respondWithin circumstances redirects (countResponse state request redirected) sentOn

def maxRedirects : Nat := 20

def respond (circumstances : Circumstances) (state : State) (request : Request) : State × Response :=
  respondWithin circumstances maxRedirects state request

end GameScoring.Web
