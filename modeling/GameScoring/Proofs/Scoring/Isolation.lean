import Mathlib
import GameScoring.Proofs.Scoring.Comparison
import GameScoring.Proofs.Scoring.Patches
import GameScoring.Proofs.Telemetry.Rereading
import GameScoring.Scoring.Logbook

/-!
# Comparisons keep configurations apart

In a comparison every configuration is scored once and has the result that it has on its own, whatever it is
compared with. A difference is the one of its two configurations when they are compared alone, and a list in
another order has the same results in that order.
-/
namespace GameScoring.Scoring

/-! ## Outcomes -/

theorem OutcomeOf.unique {env : Environment} {l : Labelled} {o other : Outcome} (own : OutcomeOf env l o)
    (own' : OutcomeOf env l other) : o = other := by
  obtain ⟨label, result⟩ := o
  obtain ⟨label', result'⟩ := other
  have labels : label = label' := own.label.trans own'.label.symm
  have results : result = result' := own.gets.unique own'.gets
  rw [labels, results]

theorem EntryOf.unique {environment : Option Environment} {entry other : Entry} (own : EntryOf environment entry)
    (own' : EntryOf environment other) (same : entry.1 = other.1) : entry = other := by
  cases own with
  | nothing =>
    cases own' with
    | nothing => exact congrArg (·, none) same
  | @scored env l o own =>
    cases own' with
    | @scored _ l' o' own' =>
      cases show l = l' from same
      rw [own.unique own']

/-- What is compared is known from the labelled configurations alone. -/
theorem entries_unique {environment : Option Environment} {entries others : List Entry}
    (own : ∀ entry ∈ entries, EntryOf environment entry) (own' : ∀ entry ∈ others, EntryOf environment entry)
    (same : entries.map Prod.fst = others.map Prod.fst) : entries = others := by
  apply List.ext_getElem
  · simpa using congrArg List.length same
  · intro i here there
    have labelled : entries[i].1 = others[i].1 := by
      simpa [here, there] using congrArg (·[i]?) same
    exact (own _ (List.getElem_mem here)).unique (own' _ (List.getElem_mem there)) labelled

/-- The result of the configuration at a place, if it was scored. -/
def Comparison.result? (comparison : Comparison) (i : Nat) : Option (Except ScoringError Scores) :=
  (comparison.outcomes.bind (·[i]?)).map Outcome.result

/-- The result at a place is the one that the configuration there has on its own. -/
theorem result?_of_outcomes {env : Environment} {labelled : List Labelled} {comparison : Comparison} {i : Nat}
    {l : Labelled} (scored : OutcomesOf (some env) labelled comparison.outcomes) (stood : labelled[i]? = some l) :
    ∃ result, comparison.result? i = some result ∧ Gets l.2 env result := by
  obtain ⟨outcomes, differences⟩ := comparison
  cases scored with
  | @each _ _ outcomes results =>
    obtain ⟨place, there⟩ := List.getElem?_eq_some_iff.1 stood
    have place' : i < outcomes.length := results.length_eq ▸ place
    have own : OutcomeOf env labelled[i] outcomes[i] := results.get place place'
    rw [there] at own
    exact ⟨outcomes[i].result, by simp [Comparison.result?, List.getElem?_eq_getElem place'], own.gets⟩

theorem result?_unscored {labelled : List Labelled} {comparison : Comparison} (i : Nat)
    (scored : OutcomesOf none labelled comparison.outcomes) : comparison.result? i = none := by
  obtain ⟨outcomes, differences⟩ := comparison
  cases scored
  rfl

/-! ## Differences -/

/-- Two final scores have a difference exactly if there are two. -/
theorem isSome_scoreDelta {before after : Option Outcome} {delta : Option Float}
    (h : scoreDelta? before after = .ok delta) :
    delta.isSome = true ↔ ∃ old new, before.map Outcome.result = some (.ok old) ∧
      after.map Outcome.result = some (.ok new) := by
  rw [scoreDelta?] at h
  split at h
  next old new scored later =>
    obtain ⟨exact, -, h⟩ := ok_of_bind h
    obtain ⟨rounded, -, h⟩ := ok_of_bind h
    cases h
    exact ⟨fun _ => ⟨old, new, scored, later⟩, fun _ => rfl⟩
  next none =>
    cases h
    constructor
    · rintro ⟨⟩
    · rintro ⟨old, new, scored, later⟩
      exact absurd later (none old new scored)

/-- A configuration that is scored has scores exactly if it has them on its own. -/
theorem EntryOf.result_iff {env : Environment} {entry : Entry} (own : EntryOf (some env) entry)
    (result : Except ScoringError Scores) :
    entry.2.map Outcome.result = some result ↔ Gets entry.1.2 env result := by
  cases own with
  | scored own =>
    constructor
    · intro same
      cases same
      exact own.gets
    · exact fun gets => congrArg some (own.gets.unique gets)

/-- The difference of two labelled configurations, whatever stands around them. -/
structure DifferenceOf (values : Option Value) (environment : Option Environment) (before after : Labelled)
    (d : Difference) : Prop where
  /-- It is the one that is found when the two are compared alone, under their labels. -/
  alone : ∃ outcomes, (compare [before.2, after.2] values (some [.text before.1, .text after.1])).outcome =
    .ok ⟨outcomes, [d]⟩
  /-- Final scores are subtracted exactly if there is an environment in which both configurations have scores. -/
  delta : d.scoreDelta.isSome = true ↔
    ∃ env old new, environment = some env ∧ Gets before.2 env (.ok old) ∧ Gets after.2 env (.ok new)

section DifferenceOf

variable {values : Option Value} {environment : Option Environment} {before after : Entry} {d : Difference}
  (own : EntryOf environment before) (own' : EntryOf environment after) (between : difference before after = .ok d)

include own own' between

theorem found_alone (reads : Reads values environment) (hb : before.1.2.Checked) (ha : after.1.2.Checked) :
    ∃ outcomes, (compare [before.1.2, after.1.2] values (some [.text before.1.1, .text after.1.1])).outcome =
      .ok ⟨outcomes, [d]⟩ := by
  have checked : ∀ c ∈ [before.1.2, after.1.2], c.Checked := by simp [hb, ha]
  have enough : Labels [before.1.2, after.1.2] (some [.text before.1.1, .text after.1.1]) := by
    rintro _ ⟨⟩
    rfl
  obtain ⟨outcomes, found, compared, scored, differ⟩ := compare_eq le_rfl checked enough reads
  refine ⟨outcomes, ?_⟩
  -- The outcomes of the two alone are those they have among others, as both are their own.
  have alone : entriesOf [before.1, after.1] outcomes = [before, after] :=
    entries_unique scored.entries (by simp [own, own']) (map_fst_entriesOf scored)
  have differ : differences [before, after] = .ok found := alone ▸ differ
  rw [differences, between] at differ
  cases differ
  rw [compared]

theorem delta_iff : d.scoreDelta.isSome = true ↔ ∃ env old new,
    environment = some env ∧ Gets before.1.2 env (.ok old) ∧ Gets after.1.2 env (.ok new) := by
  obtain ⟨weights, -, between⟩ := ok_of_bind between
  obtain ⟨delta, shown, between⟩ := ok_of_bind between
  cases between
  rw [isSome_scoreDelta shown]
  cases environment with
  | none =>
    cases own with
    | nothing =>
      constructor
      · rintro ⟨_, _, ⟨⟩, -⟩
      · rintro ⟨_, _, _, ⟨⟩, -⟩
  | some env =>
    simp only [own.result_iff, own'.result_iff]
    constructor
    · rintro ⟨old, new, gets, gets'⟩
      exact ⟨env, old, new, rfl, gets, gets'⟩
    · rintro ⟨_, old, new, ⟨⟩, gets, gets'⟩
      exact ⟨old, new, gets, gets'⟩

theorem differenceOf_entries (reads : Reads values environment) (hb : before.1.2.Checked)
    (ha : after.1.2.Checked) : DifferenceOf values environment before.1 after.1 d :=
  ⟨found_alone own own' between reads hb ha, delta_iff own own' between⟩

end DifferenceOf

/-! ## Comparisons -/

/-- A comparison treats each configuration as if it stood alone. -/
structure Isolated (configurations : List Configuration) (values : Option Value) (labels : Option (List Value))
    (environment : Option Environment) (comparison : Comparison) : Prop where
  compared : (compare configurations values labels).outcome = .ok comparison
  /-- What is reported is what scoring each configuration once reports, in order, and so are the warnings. -/
  events : (compare configurations values labels).events = environment.elim [] (eventsOf · configurations)
  warned : warnings (compare configurations values labels).events =
    environment.elim [] fun env => configurations.flatMap fun c => warnings (score c env.bindings).events
  outcomes : OutcomesOf environment (labelled configurations labels) comparison.outcomes
  differences : List.Forall₂
    (fun pair d => DifferenceOf values environment pair.1 pair.2 d)
    ((labelled configurations labels).zip (labelled configurations labels).tail) comparison.differences

section Isolated

variable {configurations : List Configuration} {values : Option Value} {labels : Option (List Value)}
  {environment : Option Environment}

theorem warnings_eventsOf (env : Environment) (configurations : List Configuration) :
    warnings (eventsOf env configurations) =
      configurations.flatMap fun c => warnings (score c env.bindings).events :=
  List.filterMap_flatMap ..

theorem exists_isolated (many : minCompared ≤ configurations.length) (checked : ∀ c ∈ configurations, c.Checked)
    (enough : Labels configurations labels) (reads : Reads values environment) :
    ∃ comparison, Isolated configurations values labels environment comparison := by
  obtain ⟨outcomes, found, compared, scored, differ⟩ := compare_eq many checked enough reads
  have same := map_snd_labelled enough
  have checked : ∀ l ∈ labelled configurations labels, l.2.Checked := fun l member =>
    checked _ (same ▸ List.mem_map.2 ⟨l, member, rfl⟩)
  have fit := fit_of_outcomes checked scored
  refine ⟨⟨outcomes, found⟩, by rw [compared], by rw [compared], ?_, scored, ?_⟩
  · rw [compared]
    cases environment with
    | none => rfl
    | some env => exact warnings_eventsOf env configurations
  · exact forall₂_neighbours scored differ fun before hb after ha _ between =>
      differenceOf_entries (scored.entries before hb) (scored.entries after ha) between reads
        (fit before hb).checked (fit after ha).checked

theorem Isolated.result_iff {env : Environment} {comparison : Comparison} {i : Nat} {c : Configuration}
    (isolated : Isolated configurations values labels (some env) comparison) (enough : Labels configurations labels)
    (stood : configurations[i]? = some c) (result : Except ScoringError Scores) :
    comparison.result? i = some result ↔ Gets c env result := by
  rw [← map_snd_labelled enough, List.getElem?_map] at stood
  obtain ⟨l, here, rfl⟩ := Option.map_eq_some_iff.1 stood
  obtain ⟨own, found, gets⟩ := result?_of_outcomes isolated.outcomes here
  rw [found, Option.some_inj]
  constructor
  · rintro rfl
    exact gets
  · exact gets.unique

/-- A configuration has the same result wherever it stands. -/
theorem Isolated.result?_eq {comparison comparison' : Comparison} {others : List Configuration}
    {otherLabels : Option (List Value)} {i j : Nat} {c : Configuration}
    (isolated : Isolated configurations values labels environment comparison)
    (isolated' : Isolated others values otherLabels environment comparison')
    (enough : Labels configurations labels) (enough' : Labels others otherLabels)
    (stood : configurations[i]? = some c) (stood' : others[j]? = some c) :
    comparison'.result? j = comparison.result? i := by
  cases environment with
  | none => rw [result?_unscored j isolated'.outcomes, result?_unscored i isolated.outcomes]
  | some env =>
    obtain ⟨result, gets⟩ := exists_gets c env
    rw [(isolated.result_iff enough stood result).2 gets, (isolated'.result_iff enough' stood' result).2 gets]

end Isolated

/-- A comparison of checked configurations, scored or not, treats each of them as if it stood alone, and
reordered configurations have the same results. -/
theorem comparison_isolates_configurations {configurations : List Configuration} {values : Option Value}
    {labels : Option (List Value)} {environment : Option Environment}
    (many : minCompared ≤ configurations.length) (checked : ∀ c ∈ configurations, c.Checked)
    (enough : Labels configurations labels) (reads : Reads values environment) :
    ∃ comparison, Isolated configurations values labels environment comparison ∧
      ∀ (others : List Configuration) (otherLabels : Option (List Value)), Labels others otherLabels →
        ∀ place : Fin others.length ≃ Fin configurations.length,
          (∀ i : Fin others.length, others[i] = configurations[place i]) →
            ∃ comparison', Isolated others values otherLabels environment comparison' ∧
              ∀ i : Fin others.length, comparison'.result? i = comparison.result? (place i) := by
  obtain ⟨comparison, isolated⟩ := exists_isolated many checked enough reads
  refine ⟨comparison, isolated, fun others otherLabels enough' place same => ?_⟩
  have count : others.length = configurations.length := Fin.equiv_iff_eq.1 ⟨place⟩
  have checked' : ∀ c ∈ others, c.Checked := by
    intro c member
    obtain ⟨i, here, rfl⟩ := List.mem_iff_getElem.1 member
    rw [show others[i] = configurations[place ⟨i, here⟩] from same ⟨i, here⟩]
    exact checked _ (List.getElem_mem _)
  obtain ⟨comparison', isolated'⟩ := exists_isolated (count ▸ many) checked' enough' reads
  refine ⟨comparison', isolated', fun i => ?_⟩
  refine isolated.result?_eq isolated' enough enough' (List.getElem?_eq_getElem (place i).isLt) ?_
  rw [List.getElem?_eq_getElem i.isLt]
  exact congrArg some (same i)

/-- An environment that the drafts can be scored in. -/
def session : Environment :=
  (Environment.empty.insert "accuracy" 80.0 (by decide)).insert "false_alarm_rate" 12.5 (by decide)

theorem named_session : session.Named := by
  rw [Environment.Named]
  decide

/-- The drafts have the same results from the last to the first. -/
theorem drafts_are_isolated : minCompared ≤ drafts.length ∧ (∀ c ∈ drafts, c.Checked) ∧
    Labels drafts (some [.int 1, .int 2, .int 3]) ∧ Reads (some session.value) (some session) ∧
    ∃ comparison comparison',
      Isolated drafts (some session.value) (some [.int 1, .int 2, .int 3]) (some session) comparison ∧
      Isolated drafts.reverse (some session.value) none (some session) comparison' ∧
      comparison'.result? 0 = comparison.result? 2 := by
  have many : minCompared ≤ drafts.length := by decide
  have enough : Labels drafts (some [.int 1, .int 2, .int 3]) := by
    rintro _ ⟨⟩
    rfl
  have reads : Reads (some session.value) (some session) := .values named_session.ofValue_value
  obtain ⟨comparison, isolated, reordered⟩ := comparison_isolates_configurations many checked_drafts enough reads
  obtain ⟨comparison', isolated', same⟩ := reordered drafts.reverse none nofun Fin.revPerm (by
    intro i
    fin_cases i <;> rfl)
  exact ⟨many, checked_drafts, enough, reads, comparison, comparison', isolated, isolated', same ⟨0, by decide⟩⟩

end GameScoring.Scoring
