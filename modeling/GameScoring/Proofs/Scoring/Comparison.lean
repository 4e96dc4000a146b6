import Mathlib
import GameScoring.Proofs.Scoring.Final
import GameScoring.Proofs.Scoring.Locality
import GameScoring.Scoring.Comparison

/-!
# Comparisons of checked configurations

Scoring a configuration has a result, scores or the competency that is to blame, and the result does
not depend on the game. A comparison holds the result of every configuration, in order. With checked
configurations nothing else can go wrong: changes of weights and of final scores are differences of
finite numbers.
-/
namespace GameScoring.Scoring
open Binary

/-! ## Results -/

/-- Scoring a configuration in an environment gives scores or blames a competency. -/
def Gets (c : Configuration) (env : Environment) (result : Except ScoringError Scores) : Prop :=
  (score c env.bindings).outcome = result.mapError Failure.refused

/-- Competencies that can all be scored give their scores, in order. -/
theorem Succeeds.gets {c : Configuration} {env : Environment} {values : List Float}
    (h : Succeeds c env 0.0 c.formulas.entries values) :
    ∃ scores, Gets c env (.ok scores) ∧
      scores.competencies.entries = List.zipWith (scored c) c.formulas.entries values := by
  obtain ⟨table, scored, listed⟩ := h.outcome (show (Table.empty.names ++ _).Nodup from c.formulas.distinct)
  obtain ⟨final, rounded⟩ :=
    Numeral.exists_roundHalfUp h.finite_sum (show 0 ≤ finalPlaces by decide) (by decide)
  refine ⟨⟨table, final⟩, ?_, listed⟩
  rw [Gets, outcome_score, scored]
  exact outcome_finish c table rounded

theorem exists_gets (c : Configuration) (env : Environment) : ∃ result, Gets c env result := by
  have zero : isFinite 0.0 = true := by decide
  rcases succeeds_or_blames c env c.formulas.entries zero with
    ⟨values, h⟩ | ⟨before, name, text, after, values, cause, listed, h, blames⟩
  · obtain ⟨scores, gets, -⟩ := h.gets
    exact ⟨_, gets⟩
  · refine ⟨.error ⟨name, cause, .scoring⟩, ?_⟩
    rw [Gets, outcome_score, listed, h.outcome_of_blames blames]
    rfl

variable {c d : Configuration} {env : Environment} {result : Except ScoringError Scores}

/-- Scoring does not look at the game or at the settings. -/
theorem Gets.congr (h : Gets c env result) (formulas : d.formulas = c.formulas)
    (weights : d.weights = c.weights) : Gets d env result := by
  rw [Gets] at h ⊢
  rw [← h]
  refine outcome_score_congr (by rw [formulas]) (fun name _ => ?_) fun _ _ _ _ _ _ => rfl
  rw [Configuration.weightOf, Configuration.weightOf, weights]

theorem Gets.unique {other : Except ScoringError Scores} (h : Gets c env result) (h' : Gets c env other) :
    result = other := by
  have same := h.symm.trans h'
  cases result <;> cases other <;> cases same <;> rfl

/-- What fails is blamed on one of the formulas. -/
theorem Gets.blames {e : ScoringError} (h : Gets c env (.error e)) :
    ∃ total, ∃ entry ∈ c.formulas.entries, Blames c env total entry e.cause := by
  have zero : isFinite 0.0 = true := by decide
  rcases succeeds_or_blames c env c.formulas.entries zero with
    ⟨values, succeeds⟩ | ⟨before, name, text, after, values, cause, listed, succeeds, blames⟩
  · obtain ⟨scores, gets, -⟩ := succeeds.gets
    cases h.unique gets
  · rw [Gets, outcome_score, listed, succeeds.outcome_of_blames blames] at h
    cases h
    exact ⟨_, _, listed ▸ List.mem_append_right _ (List.mem_cons_self ..), blames⟩

/-- Telemetry of the game of the configuration is scored once it is read, and then the run is reported. -/
theorem calculate_eq {registry : Telemetry.Registry} {gameType : String} {raw : Value} (asked : c.gameType = gameType)
    (extracted : registry.extract gameType raw = .ok env) (h : Gets c env result) :
    calculate registry gameType c raw = ⟨(score c env.bindings).events ++ [.passed gameType result.isOk],
      result.mapError fun e => .refused (.scoring e)⟩ := by
  rw [Gets] at h
  rw [calculate, if_neg (by simp [asked])]
  cases result with
  | ok scores =>
    simp only [extracted, h, Except.mapError]
    rfl
  | error e =>
    simp only [extracted, h, Except.mapError]
    rfl

/-- The outcome of a labelled configuration: its label, and the result it has on its own. -/
structure OutcomeOf (env : Environment) (l : Labelled) (o : Outcome) : Prop where
  label : o.label = l.1
  gets : Gets l.2 env o.result

/-- What is reported while configurations are scored one after the other. -/
def eventsOf (env : Environment) (configurations : List Configuration) : List Event :=
  configurations.flatMap fun c => (score c env.bindings).events

/-- Every configuration is scored once and has its outcome, in order. -/
theorem exists_scoreAll (env : Environment) (labelled : List Labelled) :
    ∃ outcomes, scoreAll env.bindings labelled = ⟨eventsOf env (labelled.map Prod.snd), .ok outcomes⟩ ∧
      List.Forall₂ (OutcomeOf env) labelled outcomes := by
  induction labelled with
  | nil => exact ⟨[], rfl, .nil⟩
  | cons l rest ih =>
    obtain ⟨label, c⟩ := l
    obtain ⟨outcomes, scored, results⟩ := ih
    obtain ⟨result, gets⟩ := exists_gets c env
    refine ⟨⟨label, result⟩ :: outcomes, ?_, .cons ⟨rfl, gets⟩ results⟩
    rw [Gets] at gets
    cases result with
    | ok scores =>
      simp only [scoreAll, gets, scored, Except.mapError]
      rfl
    | error e =>
      simp only [scoreAll, gets, scored, Except.mapError]
      rfl

/-! ## Differences -/

theorem exists_difference {x y : Float} (hx : isFinite x = true) (hy : isFinite y = true) :
    ∃ z, Numeral.difference x y = .ok z := by
  obtain ⟨a, a_decimal, -⟩ := Decimal.exists_clear hx
  obtain ⟨b, b_decimal, -⟩ := Decimal.exists_clear hy
  exact ⟨_, by rw [Numeral.difference, a_decimal, b_decimal]⟩

theorem exists_mapM {α β ε : Type} {f : α → Except ε β} {list : List α}
    (each : ∀ a ∈ list, ∃ b, f a = .ok b) : ∃ results, list.mapM f = .ok results := by
  induction list with
  | nil => exact ⟨[], rfl⟩
  | cons a rest ih =>
    obtain ⟨b, first⟩ := each a (List.mem_cons_self ..)
    obtain ⟨results, others⟩ := ih fun a member => each a (List.mem_cons_of_mem _ member)
    refine ⟨b :: results, ?_⟩
    rw [List.mapM_cons, first, others]
    rfl

theorem exists_weightChanges (hc : c.Checked) (hd : d.Checked) :
    ∃ changes, weightChanges c.weights d.weights = .ok changes := by
  apply exists_mapM
  intro change member
  obtain ⟨name, -, rfl⟩ := List.mem_map.1 (List.mem_filter.1 member).1
  obtain ⟨delta, difference⟩ :=
    exists_difference (hd.amount_weight name).finite (hc.amount_weight name).finite
  refine ⟨⟨name, c.weights.get? name, d.weights.get? name, delta⟩, ?_⟩
  rw [weightChange]
  simp only [Numeral.optionalDifference, difference]
  rfl

/-- A configuration that is compared is checked, and its final score is an amount if it has one. -/
structure Fit (entry : Entry) : Prop where
  checked : entry.1.2.Checked
  final : ∀ outcome scores, entry.2 = some outcome → outcome.result = .ok scores → Amount scores.final

theorem Fit.amount {entry : Entry} {scores : Scores} (fit : Fit entry)
    (scored : entry.2.map Outcome.result = some (.ok scores)) : Amount scores.final := by
  obtain ⟨outcome, found, ok⟩ := Option.map_eq_some_iff.1 scored
  exact fit.final outcome scores found ok

/-- Two final scores have a difference, which can be rounded. -/
theorem exists_scoreDelta {before after : Entry} (hb : Fit before) (ha : Fit after) :
    ∃ delta, scoreDelta? before.2 after.2 = .ok delta := by
  cases scored : before.2.map Outcome.result with
  | none => exact ⟨none, by rw [scoreDelta?, scored]⟩
  | some old =>
    cases old with
    | error e => exact ⟨none, by rw [scoreDelta?, scored]⟩
    | ok old =>
      cases later : after.2.map Outcome.result with
      | none => exact ⟨none, by rw [scoreDelta?, scored, later]⟩
      | some new =>
        cases new with
        | error e => exact ⟨none, by rw [scoreDelta?, scored, later]⟩
        | ok new =>
          have old_amount := hb.amount scored
          have new_amount := ha.amount later
          obtain ⟨z, difference, finite⟩ := Numeral.finite_difference new_amount.finite old_amount.finite
            new_amount.least old_amount.least
          obtain ⟨delta, rounded⟩ :=
            Numeral.exists_roundHalfUp finite (show 0 ≤ finalPlaces by decide) (by decide)
          refine ⟨some delta, ?_⟩
          rw [scoreDelta?, scored, later]
          simp only [difference]
          show (Numeral.roundHalfUp z finalPlaces >>= _) = _
          rw [rounded]
          rfl

theorem exists_difference_of_fit {before after : Entry} (hb : Fit before) (ha : Fit after) :
    ∃ d, difference before after = .ok d := by
  obtain ⟨weights, weighed⟩ := exists_weightChanges hb.checked ha.checked
  obtain ⟨delta, scored⟩ := exists_scoreDelta hb ha
  refine ⟨⟨before.1.1, after.1.1, weights, formulaChanges before.1.2.formulas after.1.2.formulas, delta⟩, ?_⟩
  rw [difference, weighed, scored]
  rfl

theorem exists_differences {entries : List Entry} (fit : ∀ entry ∈ entries, Fit entry) :
    ∃ found, differences entries = .ok found := by
  induction entries with
  | nil => exact ⟨[], rfl⟩
  | cons before rest ih =>
    rw [List.forall_mem_cons] at fit
    obtain ⟨found, others⟩ := ih fit.2
    cases rest with
    | nil => exact ⟨[], rfl⟩
    | cons after rest =>
      obtain ⟨d, first⟩ := exists_difference_of_fit fit.1 (fit.2 after (List.mem_cons_self ..))
      refine ⟨d :: found, ?_⟩
      rw [differences, first, others]
      rfl

/-- Differences lie between neighbours. -/
theorem differences_neighbours {entries : List Entry} {found : List Difference}
    (h : differences entries = .ok found) :
    List.Forall₂ (fun pair d => difference pair.1 pair.2 = .ok d) (entries.zip entries.tail) found := by
  induction entries generalizing found with
  | nil =>
    cases h
    exact .nil
  | cons before rest ih =>
    cases rest with
    | nil =>
      cases h
      exact .nil
    | cons after rest =>
      rw [differences] at h
      obtain ⟨first, between, h⟩ := ok_of_bind h
      obtain ⟨others, later, h⟩ := ok_of_bind h
      cases h
      exact .cons between (ih later)

/-! ## Comparisons -/

/-- Labels, if there are any, are as many as the configurations. -/
def Labels (configurations : List Configuration) (labels : Option (List Value)) : Prop :=
  ∀ given, labels = some given → given.length = configurations.length

/-- What configurations are shown under: the labels as they are displayed, or numbers from zero. -/
def shownLabels (count : Nat) : Option (List Value) → List String
  | none => (List.range count).map Text.natText
  | some given => given.map Value.display

/-- Configurations under their labels. -/
def labelled (configurations : List Configuration) (labels : Option (List Value)) : List Labelled :=
  (shownLabels configurations.length labels).zip configurations

theorem map_snd_labelled {configurations : List Configuration} {labels : Option (List Value)}
    (enough : Labels configurations labels) :
    (labelled configurations labels).map Prod.snd = configurations := by
  apply List.map_snd_zip
  cases labels with
  | none => simp [shownLabels]
  | some given => simp [shownLabels, enough given rfl]

theorem label_eq {configurations : List Configuration} {labels : Option (List Value)}
    (enough : Labels configurations labels) :
    label configurations labels = .ok (labelled configurations labels) := by
  cases labels with
  | none =>
    have counted : configurations.zipIdx = configurations.zip (List.range configurations.length) := by
      rw [List.zipIdx_eq_zip_range', List.range_eq_range']
    have swapped : (List.range configurations.length).zip configurations =
        (configurations.zip (List.range configurations.length)).map Prod.swap := (List.zip_swap ..).symm
    rw [label, labelled, shownLabels, counted, List.zip_map_left, swapped, List.map_map]
    rfl
  | some given => rw [label, if_neg (by simp [enough given rfl]), labelled, shownLabels]

/-- Scoring many configurations succeeds and holds the result of each, in order. -/
theorem scoreMany_outcome {configurations : List Configuration} {values : Value} {labels : Option (List Value)}
    (enough : Labels configurations labels)
    (read : Environment.ofValue values = .ok env) :
    ∃ outcomes, (scoreMany configurations values labels).outcome = .ok outcomes ∧
      List.Forall₂ (fun c o => Gets c env o.result) configurations outcomes := by
  obtain ⟨outcomes, scored, results⟩ := exists_scoreAll env (labelled configurations labels)
  refine ⟨outcomes, ?_, ?_⟩
  · rw [scoreMany, label_eq enough]
    simp only [read, scored]
  · rw [← map_snd_labelled enough, List.forall₂_map_left_iff]
    exact results.imp fun _ _ scored => scored.gets

/-- The values that configurations are scored with are an environment, unless there are none. -/
inductive Reads : Option Value → Option Environment → Prop
  | nothing : Reads none none
  | values {values : Value} {env : Environment} (read : Environment.ofValue values = .ok env) :
      Reads (some values) (some env)

/-- What a comparison scores: nothing, or the outcome of each configuration, in order. -/
inductive OutcomesOf : Option Environment → List Labelled → Option (List Outcome) → Prop
  | nothing {labelled : List Labelled} : OutcomesOf none labelled none
  | each {env : Environment} {labelled : List Labelled} {outcomes : List Outcome}
      (results : List.Forall₂ (OutcomeOf env) labelled outcomes) :
      OutcomesOf (some env) labelled (some outcomes)

/-- What is compared: each labelled configuration with its outcome, if it was scored. -/
def entriesOf (labelled : List Labelled) : Option (List Outcome) → List Entry
  | none => labelled.map (·, none)
  | some outcomes => labelled.zip (outcomes.map some)

/-- What is compared has its own outcome, or nothing is scored. -/
inductive EntryOf : Option Environment → Entry → Prop
  | nothing {l : Labelled} : EntryOf none (l, none)
  | scored {env : Environment} {l : Labelled} {o : Outcome} (own : OutcomeOf env l o) : EntryOf (some env) (l, some o)

theorem OutcomesOf.entries {environment : Option Environment} {labelled : List Labelled}
    {outcomes : Option (List Outcome)} (scored : OutcomesOf environment labelled outcomes) :
    ∀ entry ∈ entriesOf labelled outcomes, EntryOf environment entry := by
  intro entry member
  cases scored with
  | nothing =>
    obtain ⟨l, -, rfl⟩ := List.mem_map.1 member
    exact .nothing
  | @each env _ outcomes results =>
    rw [entriesOf, List.zip_map_right] at member
    obtain ⟨⟨l, o⟩, paired, rfl⟩ := List.mem_map.1 member
    exact .scored (List.forall₂_zip results paired)

/-- What is compared with its own outcome is fit for it. -/
theorem EntryOf.fit {environment : Option Environment} {entry : Entry} (own : EntryOf environment entry)
    (checked : entry.1.2.Checked) : Fit entry := by
  cases own with
  | nothing =>
    refine ⟨checked, fun outcome scores found _ => ?_⟩
    cases found
  | @scored env l o own =>
    refine ⟨checked, fun outcome scores found ok => ?_⟩
    cases found
    have scored : (score l.2 env.bindings).outcome = .ok scores :=
      own.gets.trans (congrArg (Except.mapError Failure.refused) ok)
    exact amount_final checked scored

theorem map_fst_entriesOf {environment : Option Environment} {labelled : List Labelled}
    {outcomes : Option (List Outcome)} (scored : OutcomesOf environment labelled outcomes) :
    (entriesOf labelled outcomes).map Prod.fst = labelled := by
  cases scored with
  | nothing => rw [entriesOf, List.map_map]; exact List.map_id _
  | each results => exact List.map_fst_zip (by simp [results.length_eq])

theorem fit_of_outcomes {environment : Option Environment} {labelled : List Labelled}
    {outcomes : Option (List Outcome)} (checked : ∀ l ∈ labelled, l.2.Checked)
    (scored : OutcomesOf environment labelled outcomes) : ∀ entry ∈ entriesOf labelled outcomes, Fit entry := by
  intro entry member
  have stood : entry.1 ∈ labelled := map_fst_entriesOf scored ▸ List.mem_map.2 ⟨entry, member, rfl⟩
  exact (scored.entries entry member).fit (checked _ stood)

/-- What is said of the difference of two entries holds of labelled configurations that are neighbours. -/
theorem forall₂_neighbours {R : Labelled → Labelled → Difference → Prop} {environment : Option Environment}
    {labelled : List Labelled} {outcomes : Option (List Outcome)} {found : List Difference}
    (scored : OutcomesOf environment labelled outcomes)
    (differ : differences (entriesOf labelled outcomes) = .ok found)
    (each : ∀ before ∈ entriesOf labelled outcomes, ∀ after ∈ entriesOf labelled outcomes, ∀ d,
      difference before after = .ok d → R before.1 after.1 d) :
    List.Forall₂ (fun pair d => R pair.1 pair.2 d) (labelled.zip labelled.tail) found := by
  have between := differences_neighbours differ
  have listed := map_fst_entriesOf scored
  generalize entriesOf labelled outcomes = entries at between listed each
  rw [← listed, ← List.map_tail, List.zip_map, List.forall₂_map_left_iff]
  refine List.forall₂_iff_zip.2 ⟨between.length_eq, fun {pair d} member => ?_⟩
  have stood := List.of_mem_zip (List.of_mem_zip member).1
  exact each pair.1 stood.1 pair.2 (List.mem_of_mem_tail stood.2) d (List.forall₂_zip between member)

section Compare

variable {configurations : List Configuration} {labels : Option (List Value)}
  (many : minCompared ≤ configurations.length) (checked : ∀ c ∈ configurations, c.Checked)
  (enough : Labels configurations labels)

include many checked enough

/-- A comparison of checked configurations succeeds: each of them is scored once, in order, and the
differences are those of neighbours. -/
theorem compare_eq {values : Option Value} {environment : Option Environment} (reads : Reads values environment) :
    ∃ outcomes found, compare configurations values labels =
        ⟨environment.elim [] (eventsOf · configurations), .ok ⟨outcomes, found⟩⟩ ∧
      OutcomesOf environment (labelled configurations labels) outcomes ∧
      differences (entriesOf (labelled configurations labels) outcomes) = .ok found := by
  have same := map_snd_labelled enough
  have checked : ∀ l ∈ labelled configurations labels, l.2.Checked := fun l member =>
    checked _ (same ▸ List.mem_map.2 ⟨l, member, rfl⟩)
  have started : ¬ configurations.length < minCompared := by omega
  cases reads with
  | nothing =>
    obtain ⟨found, differ⟩ := exists_differences (fit_of_outcomes checked .nothing)
    refine ⟨none, found, ?_, .nothing, differ⟩
    rw [entriesOf] at differ
    rw [compare, if_neg started, label_eq enough]
    simp only [differ]
    rfl
  | @values values env read =>
    obtain ⟨outcomes, scored, results⟩ := exists_scoreAll env (labelled configurations labels)
    obtain ⟨found, differ⟩ := exists_differences (fit_of_outcomes checked (.each results))
    refine ⟨some outcomes, found, ?_, .each results, differ⟩
    rw [entriesOf] at differ
    rw [compare, if_neg started, label_eq enough]
    simp only [read, scored, same]
    show (⟨_, (differences _).mapError Failure.fault >>= _⟩ : Reported Comparison) = _
    rw [differ]
    rfl

/-- A comparison of checked configurations succeeds and holds the result of each, in order. -/
theorem compare_outcome {values : Value} (read : Environment.ofValue values = .ok env) :
    ∃ outcomes found, (compare configurations (some values) labels).outcome = .ok ⟨some outcomes, found⟩ ∧
      List.Forall₂ (fun c o => Gets c env o.result) configurations outcomes := by
  obtain ⟨outcomes, found, compared, scored, -⟩ := compare_eq many checked enough (.values read)
  cases scored with
  | @each _ _ outcomes results =>
    refine ⟨outcomes, found, by rw [compared], ?_⟩
    rw [← map_snd_labelled enough, List.forall₂_map_left_iff]
    exact results.imp fun _ _ scored => scored.gets

/-- A comparison of checked configurations that are not scored succeeds. -/
theorem compare_unscored :
    ∃ found, (compare configurations none labels).outcome = .ok ⟨none, found⟩ := by
  obtain ⟨outcomes, found, compared, scored, -⟩ := compare_eq many checked enough .nothing
  cases scored
  exact ⟨found, by rw [compared]⟩

omit checked in
/-- A comparison is refused if the values are no environment. -/
theorem compare_unread {values : Value} {e : Failure EnvironmentError} (unread : Environment.ofValue values = .error e) :
    (compare configurations (some values) labels).outcome = .error (e.map .environment) := by
  rw [compare, if_neg (by omega), label_eq enough]
  simp only [unread]
  rfl

end Compare

end GameScoring.Scoring
