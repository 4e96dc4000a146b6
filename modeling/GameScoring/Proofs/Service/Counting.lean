import GameScoring.Proofs.Scoring.Events
import GameScoring.Service.Counter

/-!
# Counters account for every pass

A run is a list of calls that calculate, preview or compare scores, in any order and with any outcome. The counters
after a run are those before it and what each scoring of a configuration adds: its formulas with a value, and its
failed formula if it has one. Runs of telemetry are counted by the calls that get as far as scoring it, and a failed
formula is logged once.
-/
namespace GameScoring.Service
open Scoring Telemetry

/-! ## Counters -/

/-- What a counter shows. A counter that is not listed shows zero. -/
def counter (happenings : List Happening) (series : Series) : Nat :=
  ((counters happenings).lookup series).getD 0

theorem lookup_map_count {increments listed : List Series} {series : Series} :
    (listed.map fun s => (s, increments.count s)).lookup series =
      if series ∈ listed then some (increments.count series) else none := by
  induction listed with
  | nil => rfl
  | cons s rest ih =>
    rw [List.map_cons, List.lookup_cons, ih]
    by_cases same : series = s
    · simp [same]
    · simp [same, beq_false_of_ne same]

/-- A counter shows how often it was incremented. -/
theorem counter_eq_count (happenings : List Happening) (series : Series) :
    counter happenings series = (happenings.flatMap Happening.series).count series := by
  simp only [counter, counters, lookup_map_count, List.mem_mergeSort, List.mem_eraseDups]
  split
  next => rfl
  next absent => exact (List.count_eq_zero.2 absent).symm

theorem counter_append (before after : List Happening) (series : Series) :
    counter (before ++ after) series = counter before series + counter after series := by
  simp only [counter_eq_count, List.flatMap_append, List.count_append]

/-- What events add to a counter. -/
def increase (events : List Event) (series : Series) : Nat := counter (events.map .scoring) series

theorem increase_eq_count (events : List Event) (series : Series) :
    increase events series = (events.flatMap eventSeries).count series := by
  rw [increase, counter_eq_count, List.flatMap_map]
  rfl

theorem increase_append (before after : List Event) (series : Series) :
    increase (before ++ after) series = increase before series + increase after series := by
  rw [increase, List.map_append, counter_append, increase, increase]

theorem increase_flatMap {α : Type} (parts : List α) (events : α → List Event) (series : Series) :
    increase (parts.flatMap events) series = (parts.map fun part => increase (events part) series).sum := by
  induction parts with
  | nil => simp [increase_eq_count]
  | cons part rest ih => rw [List.flatMap_cons, increase_append, ih, List.map_cons, List.sum_cons]

def evaluations (succeeded : Bool) : Series :=
  ⟨"neurazor_formula_evaluations_total", [("outcome", outcomeLabel succeeded)]⟩

def runsName : String := "neurazor_scoring_runs_total"

/-- The counter of a run of telemetry, by its game and whether there were scores. -/
def runs (run : String × Bool) : Series := ⟨runsName, [("game_type", run.1), ("status", outcomeLabel run.2)]⟩

/-! ## Scorings -/

/-- A configuration and the environment that it is scored in. -/
structure Subject where
  configuration : Configuration
  environment : Environment

namespace Subject

def events (s : Subject) : List Event := (score s.configuration s.environment.bindings).events

/-- Whether a pass with the result was ended by a formula. -/
def endedByFormula : Except ScoringError Scores → Bool
  | .error ⟨_, .formula _, _⟩ => true
  | _ => false

/-- What is logged for a formula that failed. -/
def failure (competency text : String) (error : FormulaError) : Warning :=
  ⟨"Formula for " ++ competency ++ " failed: " ++ error.report.message,
    [("competency", competency), ("formula", Text.clip text 200 "..."), ("error_code", error.report.code)]⟩

/-- What is logged for a pass with the result: a failed formula once, under the name of its competency, or a final
score above the range of the raw scores. -/
inductive Logged (c : Configuration) : Except ScoringError Scores → List Warning → Prop
  | scored (scores : Scores) : Logged c (.ok scores) (if 100.0 < scores.final then [exceeded c scores.final] else [])
  | failed {name text : String} {error : FormulaError} (member : (name, text) ∈ c.formulas.entries) :
    Logged c (.error ⟨name, .formula error, .scoring⟩) [failure name text error]
  | overflowed (name : String) (weight : Float) : Logged c (.error ⟨name, .overflow weight, .scoring⟩) []

/-- What a scoring adds to the counters and to the log, by its result. -/
structure Accounted (s : Subject) (result : Except ScoringError Scores) : Prop where
  gets : Gets s.configuration s.environment result
  /-- A success for each formula with a value among those that the pass got to, -/
  successes : increase s.events (evaluations true) = valued s.environment (reached s.configuration result)
  /-- and an error if it was a formula that ended the pass. -/
  errors : increase s.events (evaluations false) = if endedByFormula result then 1 else 0
  /-- A scoring is no run by itself. -/
  runs : ∀ series, series.name = runsName → increase s.events series = 0
  logged : Logged s.configuration result (warnings s.events)

theorem increase_valueEvents (env : Environment) (entries : List (String × String)) (series : Series) :
    increase (valueEvents env entries) series =
      valued env entries * (eventSeries (.evaluated true)).count series := by
  rw [increase_eq_count, valueEvents]
  induction valued env entries with
  | zero => simp
  | succ n ih => rw [List.replicate_succ, List.flatMap_cons, List.count_append, ih, Nat.succ_mul, Nat.add_comm]

theorem warnings_valueEvents (env : Environment) (entries : List (String × String)) :
    warnings (valueEvents env entries) = [] := by
  rw [warnings, List.filterMap_eq_nil_iff]
  intro event member
  rw [List.eq_of_mem_replicate member]
  rfl

theorem count_evaluated (succeeded other : Bool) :
    (eventSeries (.evaluated succeeded)).count (evaluations other) = if succeeded = other then 1 else 0 := by
  cases succeeded <;> cases other <;> decide

theorem count_evaluated_runs (succeeded : Bool) {series : Series} (h : series.name = runsName) :
    (eventSeries (.evaluated succeeded)).count series = 0 := by
  obtain ⟨_, labels⟩ := series
  cases h
  simp [eventSeries]

/-- The failure of a formula is counted, and no other ending. -/
theorem increase_ending {c : Configuration} {result : Except ScoringError Scores} {ending : List Event}
    (ends : Ending c result ending) (series : Series) :
    increase ending series = if endedByFormula result then (eventSeries (.evaluated false)).count series else 0 := by
  rw [increase_eq_count]
  cases ends with
  | within => rfl
  | above => rfl
  | @blamed name text cause =>
    cases cause with
    | formula error => exact congrArg (List.count series) (List.append_nil _)
    | overflow weight => rfl

theorem logged_of_ending {c : Configuration} {result : Except ScoringError Scores} {ending : List Event}
    (ends : Ending c result ending) : Logged c result (warnings ending) := by
  cases ends with
  | @within scores below =>
    have logged := Logged.scored (c := c) scores
    rwa [if_neg (show ¬ 100.0 < scores.final from below)] at logged
  | @above scores exceeds =>
    have logged := Logged.scored (c := c) scores
    rw [if_pos (show 100.0 < scores.final from exceeds)] at logged
    rwa [warnings, List.filterMap_cons_some (warning_exceeded c scores.final), List.filterMap_nil]
  | @blamed name text cause member =>
    cases cause with
    | formula error => exact .failed member
    | overflow weight => exact .overflowed name weight

theorem accounted_of_gets {s : Subject} {result : Except ScoringError Scores}
    (h : Gets s.configuration s.environment result) : s.Accounted result := by
  obtain ⟨ending, ends, events⟩ := h.events
  have added (series : Series) : increase s.events series =
      valued s.environment (reached s.configuration result) * (eventSeries (.evaluated true)).count series +
        if endedByFormula result then (eventSeries (.evaluated false)).count series else 0 := by
    rw [Subject.events, events, increase_append, increase_valueEvents, increase_ending ends]
  refine ⟨h, ?_, ?_, fun series name => ?_, ?_⟩
  · simp [added, count_evaluated]
  · simp [added, count_evaluated]
  · simp [added, count_evaluated_runs _ name]
  · rw [Subject.events, events, warnings_append, warnings_valueEvents, List.nil_append]
    exact logged_of_ending ends

theorem exists_accounted (s : Subject) : ∃ result, s.Accounted result := by
  obtain ⟨result, gets⟩ := exists_gets s.configuration s.environment
  exact ⟨result, accounted_of_gets gets⟩

end Subject

/-! ## Calls -/

/-- A call that scores configurations. -/
inductive ScoringCall
  | calculate (gameType : String) (c : Configuration) (raw : Value)
  | preview (gameType formulas weights values : Value)
  | compare (configurations : List Configuration) (values : Option Value) (labels : Option (List Value))

namespace ScoringCall
variable (registry : Registry)

def events : ScoringCall → List Event
  | calculate gameType c raw => (Scoring.calculate registry gameType c raw).events
  | preview gameType formulas weights values => (Scoring.preview gameType formulas weights values).events
  | compare configurations values labels => (Scoring.compare configurations values labels).events

/-- What a call scores, in order. A call that is refused before that scores nothing. -/
def subjects : ScoringCall → List Subject
  | calculate gameType c raw =>
    match registry.extract gameType raw with
    | .ok environment => if c.gameType = gameType then [⟨c, environment⟩] else []
    | .error _ => []
  | preview gameType formulas weights values =>
    let gameType := if gameType.isNothing then previewGame else gameType
    match Configuration.ofValues gameType formulas weights (.object []), Environment.ofValue values with
    | .ok c, .ok environment => [⟨c, environment⟩]
    | _, _ => []
  | compare configurations values labels =>
    match label configurations labels, values.map Environment.ofValue with
    | .ok _, some (.ok environment) =>
      if configurations.length < minCompared then [] else configurations.map (⟨·, environment⟩)
    | _, _ => []

/-- The run of telemetry that a call is: telemetry of the game of the configuration that can be read, and whether the
call returns scores. -/
def run? : ScoringCall → Option (String × Bool)
  | calculate gameType c raw =>
    if c.gameType = gameType ∧ (registry.extract gameType raw).isOk then
      some (gameType, (Scoring.calculate registry gameType c raw).outcome.isOk)
    else none
  | _ => none

variable {registry}

theorem labels_of_label {configurations : List Configuration} {labels : Option (List Value)} {labelled : List Labelled}
    (h : label configurations labels = .ok labelled) : Labels configurations labels := by
  rintro given rfl
  rw [label] at h
  by_contra other
  rw [if_pos (by simpa using other)] at h
  cases h

/-- Configurations that are scored one after the other report what each of them reports. -/
theorem events_scoreAll (env : Environment) {configurations : List Configuration} {labels : Option (List Value)}
    {labelled : List Labelled} (h : label configurations labels = .ok labelled) :
    (scoreAll env.bindings labelled).events = (configurations.map (Subject.mk · env)).flatMap Subject.events := by
  have enough := labels_of_label h
  rw [label_eq enough] at h
  cases h
  obtain ⟨outcomes, scored, -⟩ := exists_scoreAll env (Scoring.labelled configurations labels)
  rw [scored, map_snd_labelled enough, eventsOf, List.flatMap_map]
  rfl

/-- A call reports what its scorings report, and last that it was a run if it was one. -/
theorem events_eq (call : ScoringCall) : call.events registry =
    (call.subjects registry).flatMap Subject.events ++
      (call.run? registry).toList.map fun run => .passed run.1 run.2 := by
  cases call with
  | calculate gameType c raw =>
    by_cases asked : c.gameType = gameType
    · cases extracted : registry.extract gameType raw with
      | error e =>
        simp [events, subjects, run?, Scoring.calculate, asked, extracted, Reported.pure, Except.isOk, Except.toBool]
      | ok environment =>
        obtain ⟨result, gets⟩ := exists_gets c environment
        cases result <;>
          simp [events, subjects, run?, asked, extracted, calculate_eq asked extracted gets, Subject.events,
            Except.isOk, Except.toBool, Except.mapError]
    · cases extracted : registry.extract gameType raw <;>
        simp [events, subjects, run?, Scoring.calculate, asked, extracted, Reported.pure]
  | preview gameType formulas weights values =>
    simp only [events, subjects, run?, Scoring.preview, Option.toList_none, List.map_nil, List.append_nil]
    generalize (if gameType.isNothing then previewGame else gameType) = game
    cases Configuration.ofValues game formulas weights (.object []) with
    | error e => rfl
    | ok c =>
      cases Environment.ofValue values with
      | error e => rfl
      | ok environment => exact (List.append_nil _).symm
  | compare configurations values labels =>
    simp only [events, subjects, run?, Scoring.compare, Option.toList_none, List.map_nil, List.append_nil]
    cases shown : label configurations labels with
    | error e => split <;> rfl
    | ok labelled =>
      cases values with
      | none => split <;> rfl
      | some values =>
        cases read : Environment.ofValue values with
        | error e => split <;> simp [read, Reported.pure]
        | ok environment =>
          by_cases few : configurations.length < minCompared
          · simp [read, few, Reported.pure]
          · simp [read, few, events_scoreAll environment shown]

/-- What a call adds to a counter: what its scorings add, and its run. -/
theorem increase_events (call : ScoringCall) (series : Series) : increase (call.events registry) series =
    ((call.subjects registry).map fun s => increase s.events series).sum +
      ((call.run? registry).map runs).toList.count series := by
  rw [events_eq, increase_append, increase_flatMap, increase_eq_count]
  cases call.run? registry <;> rfl

theorem warnings_events (call : ScoringCall) :
    warnings (call.events registry) = (call.subjects registry).flatMap fun s => warnings s.events := by
  have silent : warnings ((call.run? registry).toList.map fun run => .passed run.1 run.2) = [] := by
    cases call.run? registry <;> rfl
  rw [events_eq, warnings_append, silent, List.append_nil, warnings, List.filterMap_flatMap]
  rfl

end ScoringCall

/-! ## Runs of calls -/

/-- The counters and the log account for every scoring of the calls, and for every run of telemetry among them. -/
structure Accounted (registry : Registry) (earlier : List Happening) (calls : List ScoringCall) : Prop where
  /-- Each scoring of a configuration adds to the counters and to the log by its result. -/
  scorings : ∀ call ∈ calls, ∀ s ∈ call.subjects registry, ∃ result, s.Accounted result
  /-- The counters of formulas are increased by the scorings, and by nothing else. -/
  evaluations : ∀ succeeded,
    counter (earlier ++ (calls.flatMap (ScoringCall.events registry)).map .scoring) (evaluations succeeded) =
      counter earlier (evaluations succeeded) +
        ((calls.flatMap (ScoringCall.subjects registry)).map fun s => increase s.events (evaluations succeeded)).sum
  /-- The counters of runs are increased by one for each call that is a run of telemetry. -/
  runs : ∀ series, series.name = runsName →
    counter (earlier ++ (calls.flatMap (ScoringCall.events registry)).map .scoring) series =
      counter earlier series + calls.countP fun call => (call.run? registry).map runs = some series
  /-- The log holds what each scoring logs, in order. -/
  logged : warnings (calls.flatMap (ScoringCall.events registry)) =
    (calls.flatMap (ScoringCall.subjects registry)).flatMap fun s => warnings s.events

/-- What calls add to a counter, call by call. -/
theorem increase_calls (registry : Registry) (calls : List ScoringCall) (series : Series) :
    increase (calls.flatMap (ScoringCall.events registry)) series =
      ((calls.flatMap (ScoringCall.subjects registry)).map fun s => increase s.events series).sum +
        calls.countP fun call => (call.run? registry).map runs = some series := by
  induction calls with
  | nil => simp [increase_eq_count]
  | cons call rest ih =>
    have own : ((call.run? registry).map runs).toList.count series =
        if (call.run? registry).map runs = some series then 1 else 0 := by
      cases (call.run? registry).map runs <;> simp [List.count_singleton]
    simp only [List.flatMap_cons, increase_append, call.increase_events, own, ih, List.map_append, List.sum_append,
      List.countP_cons, decide_eq_true_eq]
    omega

theorem counter_calls (registry : Registry) (earlier : List Happening) (calls : List ScoringCall) (series : Series) :
    counter (earlier ++ (calls.flatMap (ScoringCall.events registry)).map .scoring) series = counter earlier series +
      (((calls.flatMap (ScoringCall.subjects registry)).map fun s => increase s.events series).sum +
        calls.countP fun call => (call.run? registry).map runs = some series) := by
  rw [counter_append, ← increase_calls, increase]

/-- Whatever happened before, calls change the counters and the log by what they score and by nothing else. -/
theorem counters_account_for_calls (registry : Registry) (earlier : List Happening) (calls : List ScoringCall) :
    Accounted registry earlier calls where
  scorings _ _ s _ := s.exists_accounted
  evaluations succeeded := by
    have none : calls.countP (fun call => (call.run? registry).map runs = some (evaluations succeeded)) = 0 := by
      refine List.countP_eq_zero.2 fun call _ same => ?_
      obtain ⟨run, -, same⟩ := Option.map_eq_some_iff.1 (of_decide_eq_true same)
      exact absurd (congrArg Series.name same) (by simp [runs, runsName, evaluations])
    rw [counter_calls, none, Nat.add_zero]
  runs series name := by
    have none : ((calls.flatMap (ScoringCall.subjects registry)).map fun s => increase s.events series).sum = 0 := by
      refine List.sum_eq_zero fun n member => ?_
      obtain ⟨s, -, rfl⟩ := List.mem_map.1 member
      obtain ⟨result, accounted⟩ := s.exists_accounted
      exact accounted.runs series name
    rw [counter_calls, none, Nat.zero_add]
  logged := by
    rw [warnings, List.filterMap_flatMap, List.flatMap_assoc]
    exact congrArg (calls.flatMap ·) (funext ScoringCall.warnings_events)

/-- The second formula divides by zero, so the third one is not tried. -/
example :
    let formulas := Value.record [("first", .text "x"), ("second", .text "1 / x"), ("third", .text "x")]
    let call := ScoringCall.preview .null formulas (.record []) (.record [("x", .int 0)])
    ((call.events .builtIn).flatMap eventSeries).count (evaluations true) = 1 ∧
      ((call.events .builtIn).flatMap eventSeries).count (evaluations false) = 1 ∧
      (warnings (call.events .builtIn)).map Warning.message = ["Formula for second failed: Division by zero"] := by
  decide +kernel

end GameScoring.Service
