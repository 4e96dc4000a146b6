import Mathlib.Data.List.Forall2
import GameScoring.Proofs.Formula.Safety
import GameScoring.Scoring.Score

/-!
# The scoring kernel

The competencies of a configuration are scored in order. Either every one has a value and
all weighted scores and running sums are finite, and then exactly their scores are the
result, or the first one that fails is the one that is blamed.
-/
namespace GameScoring.Scoring

/-- A formula text has a value in an environment. -/
def Gives (env : Environment) (text : String) (value : Float) : Prop :=
  ∃ f, Formula.ofText text = .ok f ∧ f.evaluate env.bindings = .ok value

/-- The score of a competency whose formula has a value. Without a weight the weight is zero. -/
def scored (c : Configuration) (entry : String × String) (value : Float) : String × CompetencyScore :=
  let weight := (c.weights.get? entry.1).getD 0.0
  (entry.1, ⟨clampScore value, weight, clampScore value * weight⟩)

/-- Weighted scores are summed from left to right. -/
def weightedSum (start : Float) (scores : List (String × CompetencyScore)) : Float :=
  scores.foldl (fun total s => total + s.2.weighted) start

/-- Competencies whose formulas have these values can be scored after a total. -/
structure Succeeds (c : Configuration) (env : Environment) (start : Float)
    (entries : List (String × String)) (values : List Float) : Prop where
  gives : List.Forall₂ (fun entry value => Gives env entry.2 value) entries values
  weighted_finite : ∀ s ∈ List.zipWith (scored c) entries values, Binary.isFinite s.2.weighted = true
  sums_finite : ∀ k, Binary.isFinite (weightedSum start ((List.zipWith (scored c) entries values).take k)) = true

/-- A competency that cannot be scored after a total, and why. -/
inductive Blames (c : Configuration) (env : Environment) (total : Float) : String × String → Cause → Prop
  | rejected {name text : String} {r : Formula.Rejection} (h : Formula.ofText text = .error r) :
      Blames c env total (name, text) (.formula (.rejected r))
  | failed {name text : String} {f : Formula} {e : Formula.EvaluationError}
      (accepted : Formula.ofText text = .ok f) (h : f.evaluate env.bindings = refuse e) :
      Blames c env total (name, text) (.formula (.failed e))
  | overflow {name text : String} {value : Float} (gives : Gives env text value)
      (h : ¬ (Binary.isFinite (scored c (name, text) value).2.weighted = true ∧
        Binary.isFinite (total + (scored c (name, text) value).2.weighted) = true)) :
      Blames c env total (name, text) (.overflow (scored c (name, text) value).2.weight)

variable {c : Configuration} {env : Environment} {start total : Float} {name text : String}
  {entry : String × String} {entries : List (String × String)} {value : Float} {values : List Float}

/-- A formula is tried: its text is rejected, or else it has a value or its evaluation fails. -/
inductive Tried (text : String) (env : Environment) : Except FormulaError Float → Prop
  | gives {value : Float} (h : Gives env text value) : Tried text env (.ok value)
  | rejected {r : Formula.Rejection} (h : Formula.ofText text = .error r) : Tried text env (.error (.rejected r))
  | failed {f : Formula} {e : Formula.EvaluationError} (accepted : Formula.ofText text = .ok f)
      (h : f.evaluate env.bindings = refuse e) : Tried text env (.error (.failed e))

theorem exists_tried (text : String) (env : Environment) : ∃ outcome, Tried text env outcome := by
  cases accepted : Formula.ofText text with
  | error r => exact ⟨_, .rejected accepted⟩
  | ok f =>
    have safe : Formula.Safe (f.evaluate env.bindings) := (Formula.wellFormed_of_accepted accepted).safe env
    cases evaluated : f.evaluate env.bindings with
    | ok value => exact ⟨_, .gives ⟨f, accepted, evaluated⟩⟩
    | error failure =>
      rw [evaluated] at safe
      cases safe with
      | refused kind => exact ⟨_, .failed accepted evaluated⟩

namespace Tried
variable {outcome other : Except FormulaError Float}

/-- A trial of the text answers with its outcome, and nothing else can go wrong. -/
theorem trial_eq (h : Tried text env outcome) :
    Formula.trial (.text text) env.bindings = outcome.mapError Failure.refused := by
  cases h with
  | gives h =>
    obtain ⟨f, accepted, evaluated⟩ := h
    rw [Formula.trial_of_accepted accepted, evaluated]
    rfl
  | rejected h =>
    rw [Formula.trial_of_rejected h]
    rfl
  | failed accepted h =>
    rw [Formula.trial_of_accepted accepted, h]
    rfl

theorem unique (h : Tried text env outcome) (h' : Tried text env other) : other = outcome := by
  have same := h'.trial_eq.symm.trans h.trial_eq
  cases outcome <;> cases other <;> cases same <;> rfl

theorem outcome_evaluateCompetency (h : Tried text env outcome) (name : String) :
    (evaluateCompetency name text env.bindings).outcome =
      outcome.mapError fun e => .refused ⟨name, .formula e, .scoring⟩ := by
  rw [evaluateCompetency, h.trial_eq]
  cases outcome <;> rfl

end Tried

theorem outcome_of_gives (h : Gives env text value) :
    (evaluateCompetency name text env.bindings).outcome = .ok value :=
  (Tried.gives h).outcome_evaluateCompetency name

/-- A formula has a value, or it is to blame wherever it stands. -/
theorem gives_or_blames (env : Environment) (name text : String) :
    (∃ value, Gives env text value) ∨
      ∃ cause, (∀ c total, Blames c env total (name, text) cause) ∧
        (evaluateCompetency name text env.bindings).outcome = refuse ⟨name, cause, .scoring⟩ := by
  obtain ⟨outcome, tried⟩ := exists_tried text env
  have evaluated := tried.outcome_evaluateCompetency name
  cases tried with
  | gives h => exact .inl ⟨_, h⟩
  | rejected h => exact .inr ⟨_, fun _ _ => .rejected h, evaluated⟩
  | failed accepted h => exact .inr ⟨_, fun _ _ => .failed accepted h, evaluated⟩

theorem weigh_finite
    (weighted : Binary.isFinite (scored c (name, text) value).2.weighted = true)
    (sum : Binary.isFinite (total + (scored c (name, text) value).2.weighted) = true) :
    weigh c name value total =
      .ok ((scored c (name, text) value).2, total + (scored c (name, text) value).2.weighted) := by
  rw [weigh]
  exact if_pos (by rw [Bool.and_eq_true]; exact ⟨weighted, sum⟩)

theorem weigh_overflows
    (h : ¬ (Binary.isFinite (scored c (name, text) value).2.weighted = true ∧
      Binary.isFinite (total + (scored c (name, text) value).2.weighted) = true)) :
    weigh c name value total =
      refuse ⟨name, .overflow (scored c (name, text) value).2.weight, .scoring⟩ := by
  rw [weigh]
  exact if_neg (by rw [Bool.and_eq_true]; exact h)

/-- The outcome of the first competency and of those after it. -/
theorem outcome_scoreEach (c : Configuration) (bindings : Formula.Bindings) (name text : String)
    (rest : List (String × String)) (table : Table CompetencyScore) (total : Float) :
    (scoreEach c bindings ((name, text) :: rest) table total).outcome =
      (evaluateCompetency name text bindings).outcome >>= fun value =>
        weigh c name value total >>= fun s =>
          (scoreEach c bindings rest (table.insert name s.1) s.2).outcome := by
  rw [scoreEach]
  cases evaluated : (evaluateCompetency name text bindings).outcome with
  | error e => rfl
  | ok value =>
    dsimp only
    cases weighed : weigh c name value total with
    | error e =>
      show _ = weigh c name value total >>= _
      rw [weighed]
      rfl
    | ok s =>
      show _ = weigh c name value total >>= _
      rw [weighed]
      rfl

/-- A competency that is to blame ends the pass. -/
theorem outcome_of_blames {cause : Cause} (h : Blames c env total (name, text) cause)
    (rest : List (String × String)) (table : Table CompetencyScore) :
    (scoreEach c env.bindings ((name, text) :: rest) table total).outcome =
      refuse ⟨name, cause, .scoring⟩ := by
  rw [outcome_scoreEach]
  cases h with
  | rejected rejected =>
    rw [(Tried.rejected rejected).outcome_evaluateCompetency]
    rfl
  | failed accepted failed =>
    rw [(Tried.failed accepted failed).outcome_evaluateCompetency]
    rfl
  | overflow gives infinite =>
    rw [outcome_of_gives gives]
    show weigh c name _ total >>= _ = _
    rw [weigh_overflows infinite]
    rfl

namespace Succeeds

/-- What is known of the first competency, and the others after its weighted score. -/
theorem of_cons (h : Succeeds c env start (entry :: entries) (value :: values)) :
    Gives env entry.2 value ∧ Binary.isFinite (scored c entry value).2.weighted = true ∧
      Binary.isFinite (start + (scored c entry value).2.weighted) = true ∧
      Succeeds c env (start + (scored c entry value).2.weighted) entries values := by
  obtain ⟨gives, rest⟩ := List.forall₂_cons.1 h.gives
  obtain ⟨first, others⟩ := List.forall_mem_cons.1 h.weighted_finite
  exact ⟨gives, first, h.sums_finite 1, rest, others, fun k => h.sums_finite (k + 1)⟩

theorem cons (gives : Gives env entry.2 value)
    (weighted : Binary.isFinite (scored c entry value).2.weighted = true)
    (finite : Binary.isFinite start = true)
    (rest : Succeeds c env (start + (scored c entry value).2.weighted) entries values) :
    Succeeds c env start (entry :: entries) (value :: values) := by
  refine ⟨.cons gives rest.gives, List.forall_mem_cons.2 ⟨weighted, rest.weighted_finite⟩, ?_⟩
  intro k
  cases k with
  | zero => exact finite
  | succ k => exact rest.sums_finite k

theorem nil (finite : Binary.isFinite start = true) : Succeeds c env start [] [] :=
  ⟨.nil, fun _ hs => (by cases hs), fun k => by cases k <;> exact finite⟩

/-- When all competencies can be scored, exactly their scores are the result. -/
theorem outcome (h : Succeeds c env start entries values) {table : Table CompetencyScore}
    (fresh : (table.names ++ entries.map Prod.fst).Nodup) :
    ∃ scores, (scoreEach c env.bindings entries table start).outcome =
        .ok (scores, weightedSum start (List.zipWith (scored c) entries values)) ∧
      scores.entries = table.entries ++ List.zipWith (scored c) entries values := by
  induction entries generalizing values start table with
  | nil =>
    cases h.gives
    exact ⟨table, rfl, (List.append_nil _).symm⟩
  | cons entry entries ih =>
    obtain ⟨name, text⟩ := entry
    cases values with
    | nil => cases h.gives
    | cons value values =>
      obtain ⟨gives, weighted, sum, rest⟩ := h.of_cons
      have new : name ∉ table.names :=
        fun old => (List.nodup_append.1 fresh).2.2 name old name (List.mem_cons_self ..) rfl
      have fresh' : ((table.insert name (scored c (name, text) value).2).names ++
          entries.map Prod.fst).Nodup := by
        rw [Table.names_insert_of_new new, List.append_assoc]
        exact fresh
      obtain ⟨scores, result, listed⟩ := ih rest fresh'
      refine ⟨scores, ?_, ?_⟩
      · rw [outcome_scoreEach, outcome_of_gives gives]
        show weigh c name value start >>= _ = _
        rw [weigh_finite weighted sum]
        exact result
      · rw [listed, Table.entries_insert_of_new new, List.append_assoc]
        rfl

/-- The first competency that is to blame is the one that is reported. -/
theorem outcome_of_blames {before after : List (String × String)} {cause : Cause}
    (h : Succeeds c env start before values)
    (blames : Blames c env (weightedSum start (List.zipWith (scored c) before values)) (name, text) cause)
    (table : Table CompetencyScore) :
    (scoreEach c env.bindings (before ++ (name, text) :: after) table start).outcome =
      refuse ⟨name, cause, .scoring⟩ := by
  induction before generalizing values start table with
  | nil =>
    cases h.gives
    exact Scoring.outcome_of_blames blames after table
  | cons entry before ih =>
    obtain ⟨name', text'⟩ := entry
    cases values with
    | nil => cases h.gives
    | cons value values =>
      obtain ⟨gives, weighted, sum, rest⟩ := h.of_cons
      rw [List.cons_append, outcome_scoreEach, outcome_of_gives gives]
      show weigh c name' value start >>= _ = _
      rw [weigh_finite weighted sum]
      exact ih rest blames _

end Succeeds

/-- Either all competencies can be scored, or there is a first one that is to blame. -/
theorem succeeds_or_blames (c : Configuration) (env : Environment) (entries : List (String × String))
    (finite : Binary.isFinite start = true) :
    (∃ values, Succeeds c env start entries values) ∨
      ∃ before name text after values cause, entries = before ++ (name, text) :: after ∧
        Succeeds c env start before values ∧
        Blames c env (weightedSum start (List.zipWith (scored c) before values)) (name, text) cause := by
  induction entries generalizing start with
  | nil => exact .inl ⟨[], .nil finite⟩
  | cons entry entries ih =>
    obtain ⟨name, text⟩ := entry
    have first {cause : Cause} (blames : Blames c env start (name, text) cause) :
        ∃ before name' text' after values cause, (name, text) :: entries =
          before ++ (name', text') :: after ∧ Succeeds c env start before values ∧
          Blames c env (weightedSum start (List.zipWith (scored c) before values)) (name', text') cause :=
      ⟨[], name, text, entries, [], cause, rfl, .nil finite, blames⟩
    rcases gives_or_blames env name text with ⟨value, gives⟩ | ⟨cause, blames, -⟩
    · by_cases fine : Binary.isFinite (scored c (name, text) value).2.weighted = true ∧
          Binary.isFinite (start + (scored c (name, text) value).2.weighted) = true
      · rcases ih fine.2 with
          ⟨values, rest⟩ | ⟨before, name', text', after, values, cause, rfl, rest, blames⟩
        · exact .inl ⟨value :: values, .cons gives fine.1 finite rest⟩
        · exact .inr ⟨(name, text) :: before, name', text', after, value :: values, cause, rfl,
            .cons gives fine.1 finite rest, blames⟩
      · exact .inr (first (.overflow gives fine))
    · exact .inr (first (blames c start))

theorem outcome_score (c : Configuration) (bindings : Formula.Bindings) :
    (score c bindings).outcome =
      (scoreEach c bindings c.formulas.entries Table.empty 0.0).outcome >>= fun each =>
        (finish c each.1 each.2).outcome := by
  rw [score]
  cases (scoreEach c bindings c.formulas.entries Table.empty 0.0).outcome <;> rfl

theorem outcome_finish {final : Float} (c : Configuration) (scores : Table CompetencyScore)
    (rounded : Numeral.roundHalfUp total finalPlaces = .ok final) :
    (finish c scores total).outcome = .ok ⟨scores, final⟩ := by
  rw [finish, rounded]

theorem ok_of_finish {table : Table CompetencyScore} {scores : Scores}
    (h : (finish c table total).outcome = .ok scores) :
    scores.competencies = table ∧ Numeral.roundHalfUp total finalPlaces = .ok scores.final := by
  cases rounded : Numeral.roundHalfUp total finalPlaces with
  | error fault =>
    rw [finish, rounded] at h
    cases h
  | ok final =>
    rw [outcome_finish c table rounded] at h
    cases h
    exact ⟨rfl, rfl⟩

/-- The result of a pass holds the scores of its competencies, and the total of the weighted ones is rounded. -/
theorem ok_of_score {bindings : Formula.Bindings} {scores : Scores} (h : (score c bindings).outcome = .ok scores) :
    ∃ total, (scoreEach c bindings c.formulas.entries Table.empty 0.0).outcome = .ok (scores.competencies, total) ∧
      Numeral.roundHalfUp total finalPlaces = .ok scores.final := by
  rw [outcome_score] at h
  obtain ⟨⟨table, total⟩, each, h⟩ := ok_of_bind h
  obtain ⟨rfl, rounded⟩ := ok_of_finish h
  exact ⟨total, each, rounded⟩

theorem Succeeds.finite_sum (h : Succeeds c env start entries values) :
    Binary.isFinite (weightedSum start (List.zipWith (scored c) entries values)) = true := by
  have whole := h.sums_finite (List.zipWith (scored c) entries values).length
  rwa [List.take_length] at whole

/-- If all competencies can be scored, the result holds exactly their scores, in order, and the
rounded sum of the weighted ones. Otherwise the first competency whose formula is rejected or
cannot be evaluated, or whose weighted score or running sum is not finite, is blamed with its
own cause, and there is no result. -/
theorem score_outcome (c : Configuration) (env : Environment) :
    (∀ values, Succeeds c env 0.0 c.formulas.entries values →
      ∃ scores, (score c env.bindings).outcome = .ok scores ∧
        scores.competencies.entries = List.zipWith (scored c) c.formulas.entries values ∧
        Numeral.roundHalfUp (weightedSum 0.0 (List.zipWith (scored c) c.formulas.entries values)) 2 =
          .ok scores.final) ∧
    ((∀ values, ¬ Succeeds c env 0.0 c.formulas.entries values) →
      ∃ before name text after values cause, c.formulas.entries = before ++ (name, text) :: after ∧
        Succeeds c env 0.0 before values ∧
        Blames c env (weightedSum 0.0 (List.zipWith (scored c) before values)) (name, text) cause ∧
        (∀ weight, cause = .overflow weight → cause.report.kind = .domain) ∧
        (score c env.bindings).outcome = refuse ⟨name, cause, .scoring⟩) := by
  rw [outcome_score]
  constructor
  · intro values h
    obtain ⟨table, result, listed⟩ := h.outcome (show (Table.empty.names ++ _).Nodup from c.formulas.distinct)
    obtain ⟨final, rounded⟩ :=
      Numeral.exists_roundHalfUp h.finite_sum (by decide : (0 : Int) ≤ 2) (by decide)
    refine ⟨⟨table, final⟩, ?_, listed, rounded⟩
    rw [result]
    exact outcome_finish c table rounded
  · intro none
    have zero : Binary.isFinite 0.0 = true := by decide
    rcases succeeds_or_blames c env c.formulas.entries zero with
      ⟨values, h⟩ | ⟨before, name, text, after, values, cause, listed, h, blames⟩
    · exact absurd h (none values)
    · refine ⟨before, name, text, after, values, cause, listed, h, blames, ?_, ?_⟩
      · rintro weight rfl
        rfl
      · rw [listed, h.outcome_of_blames blames]
        rfl

/-- The phrase of a variable that stands alone. -/
def variablePhrase (name : String) : Formula.Phrase .conditional :=
  .plain (.single (.chain (.summand (.chain (.factor (.unsigned (.bare (.reference name 0)))) .done)) .done))

/-- A text that is a variable alone has the value of the variable. -/
theorem gives_of_variable (notBlank : Text.isBlankText name = false) (short : name.length ≤ Formula.maxLength)
    (free : (Formula.Function.ofName? name).isNone = true)
    (scans : Formula.Token.scan name = .ok (variablePhrase name).tokens) (bound : env.bindings.get? name = some value) :
    Gives env name value := by
  let root : Formula.Node := Formula.Node.reference 0 name
  have means : (variablePhrase name).meaning? = some root := by
    simp only [variablePhrase, Formula.Phrase.meaning?, free, if_true]
    rfl
  have limits : (variablePhrase name).Limits root :=
    ⟨(by decide : 1 ≤ Formula.maxDepth), (by decide : 1 ≤ Formula.maxNodes), (by decide : 1 ≤ Formula.maxDepth)⟩
  refine ⟨⟨name, root, root.size, root.variableNames⟩,
    Formula.ofText_ok_iff.2 ⟨variablePhrase name, ⟨notBlank, scans, means⟩, short, limits, rfl⟩, ?_⟩
  simp only [Formula.evaluate, root, Formula.Node.reference, Formula.Tree.evaluate, bound]

/-- Two competencies that are variables, weighted by a half and a quarter. -/
theorem score_outcome_of_variables :
    let c : Configuration := ⟨"focus", Table.ofList [("speed", "x"), ("care", "y")],
      Table.ofList [("speed", 0.5), ("care", 0.25)], []⟩
    let env := (Environment.empty.insert "x" 40.0 (by decide)).insert "y" 90.0 (by decide)
    ∃ scores, (score c env.bindings).outcome = .ok scores ∧
      scores.competencies.entries = [scored c ("speed", "x") 40.0, scored c ("care", "y") 90.0] ∧
      scores.final = 42.5 := by
  intro c env
  have speed : Gives env "x" 40.0 :=
    gives_of_variable (by decide) (by decide) rfl (ok_of_toOption (by decide +kernel)) rfl
  have care : Gives env "y" 90.0 :=
    gives_of_variable (by decide) (by decide) rfl (ok_of_toOption (by decide +kernel)) rfl
  have succeeds : Succeeds c env 0.0 c.formulas.entries [40.0, 90.0] :=
    .cons speed (by decide +kernel) (by decide)
      (.cons care (by decide +kernel) (by decide +kernel) (.nil (by decide +kernel)))
  obtain ⟨scores, result, listed, rounded⟩ := (score_outcome c env).1 [40.0, 90.0] succeeds
  have total : Numeral.roundHalfUp (weightedSum 0.0 (List.zipWith (scored c) c.formulas.entries [40.0, 90.0])) 2 =
      .ok 42.5 := ok_of_toOption (by decide +kernel)
  exact ⟨scores, result, listed, (Except.ok.inj (total.symm.trans rounded)).symm⟩

end GameScoring.Scoring
