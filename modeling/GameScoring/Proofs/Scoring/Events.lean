import GameScoring.Proofs.Scoring.Bounds
import GameScoring.Proofs.Scoring.Comparison

/-!
# What a pass reports

A pass reports a value for every formula that it gets to and that has one. How it ends decides what else it reports:
the failure of a formula, a final score above the range of the raw scores, or nothing. So the result of a pass says
what it reported.
-/
namespace GameScoring.Scoring

variable {c : Configuration} {env : Environment} {start total : Float} {name text : String}
  {before after entries : List (String × String)} {value : Float} {values : List Float} {cause : Cause}
  {result : Except ScoringError Scores}

/-! ## Formulas with a value -/

/-- Whether a text is accepted as a formula that has a value. -/
def hasValue (env : Environment) (text : String) : Bool :=
  match Formula.ofText text with
  | .ok f => (f.evaluate env.bindings).isOk
  | .error _ => false

/-- How many of the competencies have a formula with a value. -/
def valued (env : Environment) (entries : List (String × String)) : Nat :=
  entries.countP fun entry => hasValue env entry.2

/-- A value is reported for each of the competencies whose formula has one. -/
def valueEvents (env : Environment) (entries : List (String × String)) : List Event :=
  List.replicate (valued env entries) (.evaluated true)

theorem valueEvents_append (env : Environment) (before after : List (String × String)) :
    valueEvents env (before ++ after) = valueEvents env before ++ valueEvents env after := by
  simp only [valueEvents, valued, List.countP_append, List.replicate_append_replicate]

theorem Gives.hasValue (h : Gives env text value) : hasValue env text = true := by
  obtain ⟨f, accepted, evaluated⟩ := h
  simp only [Scoring.hasValue, accepted, evaluated]
  rfl

theorem Gives.valueEvents (h : Gives env text value) (name : String) :
    valueEvents env [(name, text)] = [.evaluated true] := by
  simp [Scoring.valueEvents, valued, h.hasValue]

/-! ## Events of the competencies -/

/-- What is reported of the competency that ends a pass, besides the value of its formula. -/
def Cause.ending (name text : String) : Cause → List Event
  | .formula error => [.evaluated false, .formulaFailed name text error]
  | .overflow _ => []

theorem Tried.events {outcome : Except FormulaError Float} (h : Tried text env outcome) (name : String) :
    (evaluateCompetency name text env.bindings).events = match outcome with
      | .ok _ => [.evaluated true]
      | .error error => (Cause.formula error).ending name text := by
  rw [evaluateCompetency, h.trial_eq]
  cases outcome <;> rfl

/-- A competency with a finite score is reported, and then the others. -/
theorem events_of_gives (gives : Gives env text value)
    (weighted : Binary.isFinite (scored c (name, text) value).2.weighted = true)
    (sum : Binary.isFinite (total + (scored c (name, text) value).2.weighted) = true)
    (rest : List (String × String)) (table : Table CompetencyScore) :
    (scoreEach c env.bindings ((name, text) :: rest) table total).events = valueEvents env [(name, text)] ++
      (scoreEach c env.bindings rest (table.insert name (scored c (name, text) value).2)
        (total + (scored c (name, text) value).2.weighted)).events := by
  rw [gives.valueEvents, scoreEach]
  simp only [outcome_of_gives gives, weigh_finite weighted sum, (Tried.gives gives).events]

/-- Nothing is reported after the competency that is to blame. -/
theorem events_of_blames (h : Blames c env total (name, text) cause) (rest : List (String × String))
    (table : Table CompetencyScore) :
    (scoreEach c env.bindings ((name, text) :: rest) table total).events =
      valueEvents env [(name, text)] ++ cause.ending name text := by
  rw [scoreEach]
  cases h with
  | rejected rejected =>
    have none : valueEvents env [(name, text)] = [] := by simp [valueEvents, valued, hasValue, rejected]
    have tried : Tried text env _ := .rejected rejected
    simp only [tried.outcome_evaluateCompetency, tried.events, Except.mapError, none, List.nil_append]
  | failed accepted failed =>
    have none : valueEvents env [(name, text)] = [] := by
      simp [valueEvents, valued, hasValue, accepted, failed, refuse, Except.isOk, Except.toBool]
    have tried : Tried text env _ := .failed accepted failed
    simp only [tried.outcome_evaluateCompetency, tried.events, Except.mapError, none, List.nil_append]
  | overflow gives infinite =>
    simp only [outcome_of_gives gives, weigh_overflows infinite, (Tried.gives gives).events, gives.valueEvents]
    rfl

/-- Competencies that can be scored are reported one by one, and then those after them. -/
theorem Succeeds.events (h : Succeeds c env start before values) (rest : List (String × String))
    (table : Table CompetencyScore) :
    ∃ scores, (scoreEach c env.bindings (before ++ rest) table start).events = valueEvents env before ++
      (scoreEach c env.bindings rest scores (weightedSum start (List.zipWith (scored c) before values))).events := by
  induction before generalizing values start table with
  | nil =>
    cases h.gives
    exact ⟨table, rfl⟩
  | cons entry before ih =>
    obtain ⟨name, text⟩ := entry
    cases values with
    | nil => cases h.gives
    | cons value values =>
      obtain ⟨gives, weighted, sum, others⟩ := h.of_cons
      obtain ⟨scores, later⟩ := ih others (table.insert name (scored c (name, text) value).2)
      refine ⟨scores, ?_⟩
      rw [List.cons_append, events_of_gives gives weighted sum, later, ← List.append_assoc, ← valueEvents_append]
      rfl

/-! ## Events of a pass -/

/-- Competencies up to the one with the name. -/
def upTo (name : String) : List (String × String) → List (String × String)
  | [] => []
  | entry :: rest => if entry.1 = name then [entry] else entry :: upTo name rest

theorem upTo_split (other : name ∉ before.map Prod.fst) :
    upTo name (before ++ (name, text) :: after) = before ++ [(name, text)] := by
  induction before with
  | nil => rw [List.nil_append, upTo, if_pos rfl, List.nil_append]
  | cons entry before ih =>
    rw [List.map_cons, List.mem_cons, not_or] at other
    rw [List.cons_append, upTo, if_neg (Ne.symm other.1), ih other.2, List.cons_append]

/-- The competencies that a pass gets to: all of them, or those up to the one that is to blame. -/
def reached (c : Configuration) : Except ScoringError Scores → List (String × String)
  | .ok _ => c.formulas.entries
  | .error e => upTo e.competency c.formulas.entries

theorem reached_error {stage : Stage} (listed : c.formulas.entries = before ++ (name, text) :: after) :
    reached c (.error ⟨name, cause, stage⟩) = before ++ [(name, text)] := by
  have distinct := c.formulas.distinct
  rw [listed, List.map_append, List.nodup_append] at distinct
  rw [reached, listed]
  exact upTo_split fun old => distinct.2.2 name old name (List.mem_cons_self ..) rfl

/-- What a pass with the result reports last. -/
inductive Ending (c : Configuration) : Except ScoringError Scores → List Event → Prop
  | within {scores : Scores} (h : ¬ maxRawScore < scores.final) : Ending c (.ok scores) []
  | above {scores : Scores} (h : maxRawScore < scores.final) :
    Ending c (.ok scores) [.scoreExceeded c.gameType scores.final (Numeral.sum c.weights.values)]
  | blamed {name text : String} {cause : Cause} (member : (name, text) ∈ c.formulas.entries) :
    Ending c (.error ⟨name, cause, .scoring⟩) (cause.ending name text)

theorem ending_of_finish {table : Table CompetencyScore} {scores : Scores}
    (h : (finish c table total).outcome = .ok scores) : Ending c (.ok scores) (finish c table total).events := by
  obtain ⟨-, rounded⟩ := ok_of_finish h
  rw [finish, rounded]
  dsimp only
  split
  next above => exact .above above
  next within => exact .within within

theorem events_score (c : Configuration) (bindings : Formula.Bindings) :
    (score c bindings).events = (scoreEach c bindings c.formulas.entries Table.empty 0.0).events ++
      match (scoreEach c bindings c.formulas.entries Table.empty 0.0).outcome with
      | .ok each => (finish c each.1 each.2).events
      | .error _ => [] := by
  rw [score]
  cases (scoreEach c bindings c.formulas.entries Table.empty 0.0).outcome with
  | ok each => rfl
  | error e => exact (List.append_nil _).symm

/-- A pass reports a value for each formula that it got to and that has one, and then how it ended. -/
theorem Gets.events (h : Gets c env result) : ∃ ending, Ending c result ending ∧
    (score c env.bindings).events = valueEvents env (reached c result) ++ ending := by
  have zero : Binary.isFinite 0.0 = true := by decide
  rcases succeeds_or_blames c env c.formulas.entries zero with
    ⟨values, succeeds⟩ | ⟨before, name, text, after, values, cause, listed, succeeds, blames⟩
  · obtain ⟨scores, gets, -⟩ := succeeds.gets
    cases h.unique gets
    obtain ⟨total, each, rounded⟩ := ok_of_score gets
    obtain ⟨table, events⟩ := succeeds.events [] Table.empty
    refine ⟨_, ending_of_finish (outcome_finish c _ rounded), ?_⟩
    rw [List.append_nil] at events
    rw [events_score, each, events]
    exact congrArg (· ++ _) (List.append_nil _)
  · have blamed : (scoreEach c env.bindings (before ++ (name, text) :: after) Table.empty 0.0).outcome =
        refuse ⟨name, cause, .scoring⟩ := succeeds.outcome_of_blames blames Table.empty
    have gets : Gets c env (.error ⟨name, cause, .scoring⟩) := by
      rw [Gets, outcome_score, listed, blamed]
      rfl
    cases h.unique gets
    obtain ⟨table, events⟩ := succeeds.events ((name, text) :: after) Table.empty
    refine ⟨cause.ending name text, .blamed (listed ▸ List.mem_append_right _ (List.mem_cons_self ..)), ?_⟩
    rw [events_score, reached_error listed, listed, events, events_of_blames blames, blamed, valueEvents_append,
      ← List.append_assoc]
    exact List.append_nil _

end GameScoring.Scoring
