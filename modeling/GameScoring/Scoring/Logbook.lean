import GameScoring.Scoring.Score

/-! # The logbook

The warnings that are logged for the events of a scoring pass.
-/
namespace GameScoring.Scoring

structure Warning where
  message : String
  details : List (String × String)

def loggedFormulaLength : Int := 200

def Event.warning? : Event → Option Warning
  | formulaFailed competency formula error =>
    some ⟨"Formula for " ++ competency ++ " failed: " ++ error.report.message,
      [("competency", competency), ("formula", Text.clip formula loggedFormulaLength "..."),
        ("error_code", error.report.code)]⟩
  | scoreExceeded gameType final weightSum =>
    some ⟨"Final score " ++ Numeral.text final ++ " exceeds " ++ Numeral.text maxRawScore ++
      "; weights sum to " ++ Numeral.fixed 3 weightSum, [("game_type", gameType)]⟩
  | _ => none

def warnings (events : List Event) : List Warning := events.filterMap Event.warning?

def loggerName : String := "neurazor.scoring.calculator"

def loggerDomain : String := "d3_scoring"

end GameScoring.Scoring
