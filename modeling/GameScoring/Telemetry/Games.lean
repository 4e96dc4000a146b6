import GameScoring.Telemetry.Strategy

/-! # The built-in games

Three games: reactions to stimuli, matching pairs of cards, and responding to targets among distractors.
Percentages are on a scale from 0 to 100, as competency scores are.
-/
namespace GameScoring.Telemetry

def describe (entries : List (String × String)) : Table Value :=
  Table.ofList (entries.map fun e => (e.1, .text e.2))

def numbers (entries : List (String × Float)) : Table Value :=
  Table.ofList (entries.map fun e => (e.1, .float e.2))

namespace ReactionTime

structure Trial where
  reactionMs : Float
  correct : Bool

def catalogue : Table Value := describe [
  ("total_trials", "Number of trials presented"),
  ("correct_trials", "Number of trials answered correctly"),
  ("errors", "Number of incorrect trials"),
  ("accuracy", "Correct trials as a percentage of all trials (0-100)"),
  ("avg_reaction_ms", "Mean reaction time in milliseconds"),
  ("min_reaction_ms", "Fastest reaction time in milliseconds"),
  ("max_reaction_ms", "Slowest reaction time in milliseconds"),
  ("reaction_std_ms", "Population standard deviation of reaction times"),
  ("trials_per_minute", "Trials completed per minute of play")]

/-- The name of a trial, counted from zero, in messages. -/
def trialName (index : Nat) : String := "trials[" ++ Text.natText index ++ "]"

def readTrial (index : Nat) (value : Value) : Extracted Trial := do
  match value with
  | .object fields =>
    let reactionMs ← requireNumber fields "reaction_ms" zero
    match Value.lookup? "correct" fields with
    | some (.bool correct) => return ⟨reactionMs, correct⟩
    | _ => refuse (.badField (trialName index ++ ".correct") .notTruthValue)
  | _ => refuse (.badField (trialName index) .notObject)

def readTrials (index : Nat) : List Value → Extracted (List Trial)
  | [] => .ok []
  | value :: rest => do
    let trial ← readTrial index value
    return trial :: (← readTrials (index + 1) rest)

/-- A square that may be infinite only if the number is. -/
def square (x : Float) : Extracted Float :=
  let result := Float.pow x 2.0
  if Binary.isFinite x && result.isInf then .error (.fault .powerOutOfRange) else .ok result

/-- The sum of the squared distances from a number, added from left to right. -/
def squaredDistances (mean : Float) : List Float → Float → Extracted Float
  | [], total => .ok total
  | x :: rest, total => do squaredDistances mean rest (total + (← square (x - mean)))

def mean (times : List Float) : Float :=
  if times.isEmpty then 0.0 else Numeral.sum times / count times.length

def variance (times : List Float) : Extracted Float := do
  if times.isEmpty then return 0.0
  return (← squaredDistances (mean times) times 0.0) / count times.length

def fastest : List Float → Float
  | [] => 0.0
  | first :: rest => Numeral.least first rest

def slowest : List Float → Float
  | [] => 0.0
  | first :: rest => Numeral.greatest first rest

def summarize (trials : List Trial) (duration : Float) : Extracted (Table Value) := do
  let times := trials.map Trial.reactionMs
  let total := trials.length
  let correct := trials.countP Trial.correct
  let variance ← variance times
  return numbers [
    ("total_trials", count total),
    ("correct_trials", count correct),
    ("errors", count (total - correct)),
    ("accuracy", ratio (count correct) (count total) 100.0),
    ("avg_reaction_ms", mean times),
    ("min_reaction_ms", fastest times),
    ("max_reaction_ms", slowest times),
    ("reaction_std_ms", variance.sqrt),
    ("trials_per_minute", ratio (count total) duration 60.0)]

def extract (fields : Fields) : Extracted (Table Value) := do
  let trials ← requireList fields "trials"
  let duration ← optionalAmount fields "duration_seconds"
  summarize (← readTrials 0 trials) duration

def strategy : Strategy := ⟨"ReactionTimeStrategy", "reaction_time", catalogue, extract⟩

end ReactionTime

namespace MemoryMatch

def catalogue : Table Value := describe [
  ("pairs_total", "Number of pairs on the board"),
  ("pairs_matched", "Number of pairs found"),
  ("attempts", "Number of pair flips attempted"),
  ("completion", "Matched pairs as a percentage of all pairs (0-100)"),
  ("efficiency", "Successful attempts as a percentage of all attempts (0-100)"),
  ("duration_seconds", "Time spent playing in seconds"),
  ("pairs_per_minute", "Pairs matched per minute of play")]

def extract (fields : Fields) : Extracted (Table Value) := do
  let total ← requireNumber fields "pairs_total" zero
  let matched ← requireNumber fields "pairs_matched" zero
  let attempts ← requireNumber fields "attempts" zero
  let duration ← requireNumber fields "duration_seconds" zero
  if total < matched then refuse (.badField "pairs_matched" (.above "pairs_total"))
  else return numbers [
    ("pairs_total", total),
    ("pairs_matched", matched),
    ("attempts", attempts),
    ("completion", ratio matched total 100.0),
    ("efficiency", ratio matched attempts 100.0),
    ("duration_seconds", duration),
    ("pairs_per_minute", ratio matched duration 60.0)]

def strategy : Strategy := ⟨"MemoryMatchStrategy", "memory_match", catalogue, extract⟩

end MemoryMatch

namespace FocusTask

def catalogue : Table Value := describe [
  ("targets_hit", "Targets responded to"),
  ("misses", "Targets not responded to"),
  ("false_alarms", "Responses to distractors"),
  ("hit_rate", "Targets hit as a percentage of targets shown (0-100)"),
  ("false_alarm_rate", "False alarms as a percentage of distractors shown (0-100)"),
  ("accuracy", "Correct decisions as a percentage of all stimuli (0-100)"),
  ("duration_seconds", "Time spent playing in seconds")]

def extract (fields : Fields) : Extracted (Table Value) := do
  let shown ← requireNumber fields "targets_shown" zero
  let hit ← requireNumber fields "targets_hit" zero
  let distractors ← requireNumber fields "distractors_shown" zero
  let alarms ← requireNumber fields "false_alarms" zero
  let duration ← optionalAmount fields "duration_seconds"
  if shown < hit then refuse (.badField "targets_hit" (.above "targets_shown"))
  else if distractors < alarms then refuse (.badField "false_alarms" (.above "distractors_shown"))
  else return numbers [
    ("targets_hit", hit),
    ("misses", shown - hit),
    ("false_alarms", alarms),
    ("hit_rate", ratio hit shown 100.0),
    ("false_alarm_rate", ratio alarms distractors 100.0),
    ("accuracy", ratio (hit + (distractors - alarms)) (shown + distractors) 100.0),
    ("duration_seconds", duration)]

def strategy : Strategy := ⟨"FocusTaskStrategy", "focus_task", catalogue, extract⟩

end FocusTask

end GameScoring.Telemetry
