import GameScoring.Formula.Trial
import GameScoring.Scoring.Configuration
import GameScoring.Text.Clip

/-! # Scores

Every competency formula is evaluated, its value is brought into the range from 0 to 100 and weighted, and
the sum of the weighted scores is rounded. The first failure ends the pass, and nothing of it is kept but
the events it reported.
-/
namespace GameScoring.Scoring

def minRawScore : Float := 0.0

def maxRawScore : Float := 100.0

def finalPlaces : Int := 2

def clampScore (x : Float) : Float := Numeral.clamp minRawScore maxRawScore x

structure CompetencyScore where
  raw : Float
  weight : Float
  weighted : Float

structure Scores where
  competencies : Table CompetencyScore
  final : Float

inductive Cause
  | formula (error : FormulaError)
  | overflow (weight : Float)

def Cause.report : Cause → Report
  | formula error => error.report
  | overflow weight => .domain ("Weighted score overflows with weight " ++ Numeral.general weight) .null

/-- Whether a formula failed when it was used or when it was checked. -/
inductive Stage
  | scoring
  | checking
deriving DecidableEq, Repr

structure ScoringError where
  competency : String
  cause : Cause
  stage : Stage

namespace ScoringError

def opening : Stage → String
  | .scoring => "Formula error in"
  | .checking => "Invalid formula for"

def report (e : ScoringError) : Report := .scoring e.competency e.cause.report (opening e.stage)

def kind (e : ScoringError) : String := e.cause.report.code

def message (e : ScoringError) : String := e.cause.report.message

end ScoringError

/-- What a scoring pass reports while it runs. -/
inductive Event
  | evaluated (succeeded : Bool)
  | formulaFailed (competency : String) (formula : String) (error : FormulaError)
  | scoreExceeded (gameType : String) (final : Float) (weightSum : Float)
  | passed (gameType : String) (succeeded : Bool)

/-- The outcome of a pass and the events it reported, in order. -/
structure Pass (α : Type) where
  events : List Event
  outcome : Except (Failure ScoringError) α

/-- The value of one competency formula. A fault that is no formula error reports nothing. -/
def evaluateCompetency (competency text : String) (bindings : Formula.Bindings) : Pass Float :=
  match Formula.trial (.text text) bindings with
  | .ok value => ⟨[.evaluated true], .ok value⟩
  | .error (.refused error) =>
    ⟨[.evaluated false, .formulaFailed competency text error], refuse ⟨competency, .formula error, .scoring⟩⟩
  | .error (.fault fault) => ⟨[], .error (.fault fault)⟩

/-- Weights a value and adds it to the total of the competencies before. -/
def weigh (c : Configuration) (competency : String) (value total : Float) :
    Except (Failure ScoringError) (CompetencyScore × Float) :=
  let raw := clampScore value
  let weight := (c.weights.get? competency).getD 0.0
  let weighted := raw * weight
  let total := total + weighted
  if Binary.isFinite weighted && Binary.isFinite total then .ok (⟨raw, weight, weighted⟩, total)
  else refuse ⟨competency, .overflow weight, .scoring⟩

/-- Scores competencies in order, from the scores and the total of those before. -/
def scoreEach (c : Configuration) (bindings : Formula.Bindings) :
    List (String × String) → Table CompetencyScore → Float → Pass (Table CompetencyScore × Float)
  | [], scores, total => ⟨[], .ok (scores, total)⟩
  | (competency, text) :: rest, scores, total =>
    let evaluation := evaluateCompetency competency text bindings
    match evaluation.outcome with
    | .error e => ⟨evaluation.events, .error e⟩
    | .ok value =>
      match weigh c competency value total with
      | .error e => ⟨evaluation.events, .error e⟩
      | .ok (score, total) =>
        let later := scoreEach c bindings rest (scores.insert competency score) total
        ⟨evaluation.events ++ later.events, later.outcome⟩

/-- Only raw scores are clamped, so a final score above the range is possible and is reported. -/
def finish (c : Configuration) (scores : Table CompetencyScore) (total : Float) : Pass Scores :=
  match Numeral.roundHalfUp total finalPlaces with
  | .error fault => ⟨[], .error (.fault fault)⟩
  | .ok final =>
    let events := if maxRawScore < final then
      [.scoreExceeded c.gameType final (Numeral.sum c.weights.values)] else []
    ⟨events, .ok ⟨scores, final⟩⟩

def score (c : Configuration) (bindings : Formula.Bindings) : Pass Scores :=
  let each := scoreEach c bindings c.formulas.entries Table.empty 0.0
  match each.outcome with
  | .error e => ⟨each.events, .error e⟩
  | .ok (scores, total) =>
    let last := finish c scores total
    ⟨each.events ++ last.events, last.outcome⟩

def checkFormulas (c : Configuration) : Except ScoringError Unit :=
  c.formulas.entries.forM fun (competency, text) =>
    match Formula.ofText text with
    | .ok _ => .ok ()
    | .error rejection => .error ⟨competency, .formula (.rejected rejection), .checking⟩

namespace CompetencyScore

def value (s : CompetencyScore) : Value :=
  .record [("raw", .float s.raw), ("weight", .float s.weight), ("weighted", .float s.weighted)]

end CompetencyScore

def Scores.value (s : Scores) : Value :=
  .record [("final_score", .float s.final),
    ("competencies", .record (s.competencies.map CompetencyScore.value).entries)]

/-- The failed competency as it is shown next to other results. -/
def ScoringError.value (e : ScoringError) : Value :=
  .record [("competency", .text e.competency), ("kind", .text e.kind), ("message", .text e.message)]

end GameScoring.Scoring
