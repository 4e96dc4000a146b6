import GameScoring.Proofs.Formula.Inquiry
import GameScoring.Proofs.Scoring.Kernel
import GameScoring.Proofs.Table

/-!
# Scores are local

The entry of a competency is made of its own formula, its own weight and the values of its own variables. Nothing
else of a configuration or of a table has a part in it: neither the other competencies, nor the total that is carried
past them. The whole pass is made of the formulas in order, their weights and the values of their variables.
-/
namespace GameScoring.Scoring
open Formula (Bindings)

/-- The weight that a competency is scored with. -/
def Configuration.weightOf (c : Configuration) (name : String) : Float := (c.weights.get? name).getD 0.0

/-- Tables agree on the variables of a text. A text that is no formula has none. -/
def AgreeOn (text : String) (bindings other : Bindings) : Prop :=
  ∀ f, Formula.ofText text = .ok f → ∀ name ∈ f.variableNames, bindings.get? name = other.get? name

variable {c d : Configuration} {bindings other : Bindings} {name text : String} {entries : List (String × String)}
  {table : Table CompetencyScore} {total value : Float}

/-- A formula is evaluated, and what that reports is reported, from its variables alone. -/
theorem evaluateCompetency_congr (name : String) (agree : AgreeOn text bindings other) :
    evaluateCompetency name text bindings = evaluateCompetency name text other := by
  have same : Formula.trial (.text text) bindings = Formula.trial (.text text) other := by
    cases accepted : Formula.ofText text with
    | error r => rw [Formula.trial_of_rejected accepted, Formula.trial_of_rejected accepted]
    | ok f =>
      have agree := agree f accepted
      rw [Formula.variableNames_of_accepted accepted] at agree
      rw [Formula.trial_of_accepted accepted, Formula.trial_of_accepted accepted, Formula.evaluate, Formula.evaluate,
        Formula.Tree.evaluate_of_agree agree]
  rw [evaluateCompetency, evaluateCompetency, same]

theorem weigh_congr (weight : c.weightOf name = d.weightOf name) (value total : Float) :
    weigh c name value total = weigh d name value total := by
  rw [Configuration.weightOf, Configuration.weightOf] at weight
  rw [weigh, weigh, weight]

/-! ## The entry of one competency -/

theorem fst_of_weigh {s : CompetencyScore × Float} (h : weigh c name value total = .ok s) :
    s.1 = (scored c (name, text) value).2 := by
  rw [weigh] at h
  split at h <;> cases h
  rfl

/-- A pass leaves the entries of other names alone, and every competency has the score of its own value. -/
theorem get?_of_scoreEach {result : Table CompetencyScore × Float} (distinct : (entries.map Prod.fst).Nodup)
    (h : (scoreEach c bindings entries table total).outcome = .ok result) :
    (∀ own, own ∉ entries.map Prod.fst → result.1.get? own = table.get? own) ∧
      ∀ entry ∈ entries, ∃ value, (evaluateCompetency entry.1 entry.2 bindings).outcome = .ok value ∧
        result.1.get? entry.1 = some (scored c entry value).2 := by
  induction entries generalizing table total with
  | nil =>
    cases h
    exact ⟨fun _ _ => rfl, fun _ member => by cases member⟩
  | cons first rest ih =>
    obtain ⟨name, text⟩ := first
    rw [outcome_scoreEach] at h
    obtain ⟨value, evaluated, h⟩ := ok_of_bind h
    obtain ⟨s, weighed, h⟩ := ok_of_bind h
    obtain ⟨new, distinct⟩ := List.nodup_cons.1 distinct
    obtain ⟨others, each⟩ := ih distinct h
    refine ⟨fun own absent => ?_, fun entry member => ?_⟩
    · obtain ⟨different, later⟩ := not_or.1 (mt List.mem_cons.2 absent)
      rw [others own later, Table.get?_insert, if_neg different]
    · rcases List.mem_cons.1 member with rfl | later
      · refine ⟨value, evaluated, ?_⟩
        rw [others name new, Table.get?_insert, if_pos rfl, fst_of_weigh weighed]
      · exact each entry later

theorem get?_of_score {scores : Scores} (h : (score c bindings).outcome = .ok scores)
    (stands : c.formulas.get? name = some text) :
    ∃ value, (evaluateCompetency name text bindings).outcome = .ok value ∧
      scores.competencies.get? name = some (scored c (name, text) value).2 := by
  obtain ⟨total, each, -⟩ := ok_of_score h
  exact (get?_of_scoreEach c.formulas.distinct each).2 (name, text) (Table.mem_of_get? stands)

/-- A competency with one formula, one weight and one value for each of its variables has one entry. -/
theorem get?_eq_of_score {scores scores' : Scores} (h : (score c bindings).outcome = .ok scores)
    (h' : (score d other).outcome = .ok scores') (stands : c.formulas.get? name = some text)
    (stands' : d.formulas.get? name = some text) (weight : c.weightOf name = d.weightOf name)
    (agree : AgreeOn text bindings other) :
    ∃ entry, scores.competencies.get? name = some entry ∧ scores'.competencies.get? name = some entry := by
  obtain ⟨value, evaluated, found⟩ := get?_of_score h stands
  obtain ⟨value', evaluated', found'⟩ := get?_of_score h' stands'
  rw [← evaluateCompetency_congr name agree, evaluated] at evaluated'
  cases evaluated'
  refine ⟨_, found, found'.trans (congrArg some ?_)⟩
  rw [Configuration.weightOf, Configuration.weightOf] at weight
  rw [scored, scored, weight]

/-! ## The whole pass -/

theorem scoreEach_congr (weights : ∀ name ∈ entries.map Prod.fst, c.weightOf name = d.weightOf name)
    (agree : ∀ text ∈ entries.map Prod.snd, AgreeOn text bindings other) (table : Table CompetencyScore)
    (total : Float) : scoreEach c bindings entries table total = scoreEach d other entries table total := by
  induction entries generalizing table total with
  | nil => rfl
  | cons entry rest ih =>
    obtain ⟨name, text⟩ := entry
    obtain ⟨weight, weights⟩ := List.forall_mem_cons.1 weights
    obtain ⟨first, agree⟩ := List.forall_mem_cons.1 agree
    simp only [scoreEach, evaluateCompetency_congr name first, weigh_congr weight, ih weights agree]

theorem outcome_finish_congr (c d : Configuration) (table : Table CompetencyScore) (total : Float) :
    (finish c table total).outcome = (finish d table total).outcome := by
  rw [finish, finish]
  cases Numeral.roundHalfUp total finalPlaces <;> rfl

/-- Without a final score there is nothing to be reported of it. -/
theorem finish_congr_of_error {e : Failure ScoringError} (failed : (finish c table total).outcome = .error e) :
    finish c table total = finish d table total := by
  rw [finish] at failed ⊢
  rw [finish]
  cases rounded : Numeral.roundHalfUp total finalPlaces with
  | error fault => rfl
  | ok final =>
    rw [rounded] at failed
    cases failed

theorem outcome_score_congr (formulas : c.formulas.entries = d.formulas.entries)
    (weights : ∀ name ∈ c.formulas.names, c.weightOf name = d.weightOf name)
    (agree : ∀ text ∈ c.formulas.values, AgreeOn text bindings other) :
    (score c bindings).outcome = (score d other).outcome := by
  rw [outcome_score, outcome_score, scoreEach_congr weights agree, formulas]
  exact congrArg (_ >>= ·) (funext fun each => outcome_finish_congr c d each.1 each.2)

/-- A pass that fails reports the same, as its final score is the only thing that is reported of the other weights. -/
theorem score_congr_of_error {e : Failure ScoringError} (formulas : c.formulas.entries = d.formulas.entries)
    (weights : ∀ name ∈ c.formulas.names, c.weightOf name = d.weightOf name)
    (agree : ∀ text ∈ c.formulas.values, AgreeOn text bindings other) (failed : (score c bindings).outcome = .error e) :
    score c bindings = score d other := by
  rw [score] at failed ⊢
  rw [score, ← formulas, ← scoreEach_congr weights agree]
  generalize scoreEach c bindings c.formulas.entries Table.empty 0.0 = each at failed ⊢
  obtain ⟨events, result⟩ := each
  cases result with
  | error e => rfl
  | ok result =>
    have same := finish_congr_of_error (d := d) failed
    dsimp only
    rw [same]

/-- The entry of a competency is decided by its own formula, its own weight and the values of its own variables,
whatever else two configurations and two tables hold. Two passes over the same formulas with the same weights and
values of their variables have the same scores or fail alike, with the same reports. -/
theorem scores_are_local (c d : Configuration) (bindings other : Bindings) :
    (∀ scores scores' name text, (score c bindings).outcome = .ok scores → (score d other).outcome = .ok scores' →
      c.formulas.get? name = some text → d.formulas.get? name = some text → c.weightOf name = d.weightOf name →
      AgreeOn text bindings other →
        ∃ entry, scores.competencies.get? name = some entry ∧ scores'.competencies.get? name = some entry) ∧
    (c.formulas.entries = d.formulas.entries → (∀ name ∈ c.formulas.names, c.weightOf name = d.weightOf name) →
      (∀ text ∈ c.formulas.values, AgreeOn text bindings other) →
        (score c bindings).outcome = (score d other).outcome ∧
        ∀ e, (score c bindings).outcome = .error e → score c bindings = score d other) :=
  ⟨fun _ _ _ _ h h' stands stands' weight agree => get?_eq_of_score h h' stands stands' weight agree,
    fun formulas weights agree => ⟨outcome_score_congr formulas weights agree,
      fun _ => score_congr_of_error formulas weights agree⟩⟩

/-- Another competency, its weight and its variable leave the entry of `speed` as it is. -/
theorem scores_are_local_speed :
    let alone : Configuration := ⟨"focus", Table.empty.insert "speed" "x", Table.empty.insert "speed" 0.5, []⟩
    let among : Configuration := ⟨"reaction", (Table.empty.insert "memory" "y").insert "speed" "x",
      (Table.empty.insert "speed" 0.5).insert "memory" 2.0, []⟩
    let bindings : Bindings := Table.empty.insert "x" 40.0
    let other : Bindings := (Table.empty.insert "y" 70.0).insert "x" 40.0
    ∃ scores scores' entry, (score alone bindings).outcome = .ok scores ∧ (score among other).outcome = .ok scores' ∧
      scores.competencies.get? "speed" = some entry ∧ scores'.competencies.get? "speed" = some entry := by
  intro alone among bindings other
  have agree : AgreeOn "x" bindings other := by
    intro f accepted name mentioned
    have names : (Formula.ofText "x").toOption.map Formula.variableNames = some ["x"] := by decide +kernel
    rw [accepted] at names
    rw [Option.some.inj names, List.mem_singleton] at mentioned
    rw [mentioned]
    rfl
  cases h : (score alone bindings).outcome with
  | error e =>
    have succeeds : (score alone bindings).outcome.isOk = true := by decide +kernel
    rw [h] at succeeds
    cases succeeds
  | ok scores =>
    cases h' : (score among other).outcome with
    | error e =>
      have succeeds : (score among other).outcome.isOk = true := by decide +kernel
      rw [h'] at succeeds
      cases succeeds
    | ok scores' =>
      obtain ⟨entry, found, found'⟩ :=
        (scores_are_local alone among bindings other).1 scores scores' "speed" "x" h h' rfl rfl rfl agree
      exact ⟨scores, scores', entry, rfl, rfl, found, found'⟩

end GameScoring.Scoring
