import GameScoring.Web.Path

/-! # Routes

What a path asks for. Each route is there for one method only.
-/
namespace GameScoring.Web

inductive Route
  | validateFormula
  | preview
  | compare
  | save
  | setActive
  | active (gameType : String)
  | versions (gameType : String)
  | catalogue (gameType : String)
  | submit
  | results (gameType : String)
  | health
  | metrics
deriving DecidableEq, Repr

inductive Method
  | get
  | post
deriving DecidableEq, Repr

def Method.name : Method → String
  | get => "GET"
  | post => "POST"

def Route.method : Route → Method
  | validateFormula | preview | compare | save | setActive | submit => .post
  | active _ | versions _ | catalogue _ | results _ | health | metrics => .get

def metricsPath : String := "/metrics"

/-- A route of a game, which has to be named. -/
def ofGame (route : String → Route) (gameType : String) : Option Route :=
  if gameType.isEmpty then none else some (route gameType)

def Route.single? (path : String) : Option Route :=
  match segments path with
  | ["", "health"] => some health
  | ["", "metrics"] => some metrics
  | ["", "api", "scoring", "validate-formula"] => some validateFormula
  | ["", "api", "scoring", "preview"] => some preview
  | ["", "api", "scoring", "compare"] => some compare
  | ["", "api", "scoring", "save"] => some save
  | ["", "api", "scoring", "set-active"] => some setActive
  | ["", "api", "games", "submit"] => some submit
  | _ => none

def Route.perGame? (path : String) : Option Route :=
  match segments path with
  | ["", "api", "scoring", "active", gameType] => ofGame active gameType
  | ["", "api", "scoring", "versions", gameType] => ofGame versions gameType
  | ["", "api", "scoring", "variables", gameType] => ofGame catalogue gameType
  | ["", "api", "games", "results", gameType] => ofGame results gameType
  | _ => none

def withoutLineEnd (path : String) : String :=
  if path.toList.getLast? == some '\n' then String.ofList path.toList.dropLast else path

/-- The route of the text of a path. A line end behind it matters only where it belongs to a game. -/
def Route.ofPath? (path : String) : Option Route :=
  Route.single? (withoutLineEnd path) <|> Route.perGame? path

/-- Where a path leads: to a route, to another path that has one, or nowhere. -/
inductive Target
  | route (route : Route)
  | redirect (path : String)
  | nowhere

def target (path : String) : Target :=
  match Route.ofPath? path with
  | some route => .route route
  | none =>
    let shorter := withoutTrailingSlashes path
    if shorter != path && (Route.ofPath? shorter).isSome then .redirect shorter else .nowhere

end GameScoring.Web
