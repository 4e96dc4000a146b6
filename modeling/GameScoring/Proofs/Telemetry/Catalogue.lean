import GameScoring.Proofs.Formula.Inquiry
import GameScoring.Proofs.Scoring.Comparison
import GameScoring.Proofs.Telemetry.Extraction
import GameScoring.Scoring.Problem

/-!
# Catalogues keep their promise

What is extracted for a built-in game has exactly the names of the catalogue of the game. A formula that only
mentions names of the catalogue is therefore never refused for an undefined variable.
-/
namespace GameScoring

/-! ## Names of environments -/

theorem Environment.names_of_insertAll {entries : List (String × Value)} {environment result : Environment}
    (h : environment.insertAll (entries.map fun e => (.text e.1, e.2)) = .ok result)
    (distinct : (environment.bindings.names ++ entries.map Prod.fst).Nodup) :
    result.bindings.names = environment.bindings.names ++ entries.map Prod.fst := by
  induction entries generalizing environment with
  | nil =>
    cases h
    exact (List.append_nil _).symm
  | cons entry rest ih =>
    obtain ⟨name, value⟩ := entry
    have new : name ∉ environment.bindings.names := fun old =>
      (List.nodup_append.1 distinct).2.2 name old name (List.mem_cons_self ..) rfl
    rw [List.map_cons] at h
    simp only [insertAll] at h
    split at h
    next => cases h
    next =>
      obtain ⟨x, -, h⟩ := ok_of_bind h
      split at h
      next finite =>
        have names : (environment.insert name x finite).bindings.names = environment.bindings.names ++ [name] :=
          Table.names_insert_of_new new
        rw [ih h (by rw [names, List.append_assoc]; exact distinct), names, List.append_assoc]
        rfl
      next => cases h

/-- The environment of results has their names. -/
theorem Environment.names_of_ofValue {results : Table Value} {environment : Environment}
    (h : ofValue (.record results.entries) = .ok environment) : environment.bindings.names = results.names := by
  rw [ofValue_record] at h
  exact names_of_insertAll h results.distinct

namespace Telemetry
open Binary Scoring

/-! ## Names of results -/

theorem names_numbers {entries : List (String × Float)} {described : List (String × String)}
    (same : entries.map Prod.fst = described.map Prod.fst) :
    (numbers entries).names = (describe described).names := by
  apply Table.names_ofList_congr
  rw [List.map_map, List.map_map]
  exact same

/-- Results of a built-in game have the names of its catalogue. -/
theorem BuiltIn.names_extract {gameType : String} {s : Strategy} (known : BuiltIn gameType s) {fields : Fields}
    {results : Table Value} (h : s.extract fields = .ok results) : results.names = s.catalogue.names := by
  cases known with
  | reactionTime =>
    obtain ⟨trials, -, h⟩ := ok_of_bind h
    obtain ⟨duration, -, h⟩ := ok_of_bind h
    obtain ⟨read, -, h⟩ := ok_of_bind h
    obtain ⟨variance, -, h⟩ := ok_of_bind h
    cases h
    exact names_numbers rfl
  | memoryMatch =>
    obtain ⟨total, -, h⟩ := ok_of_bind h
    obtain ⟨matched, -, h⟩ := ok_of_bind h
    obtain ⟨attempts, -, h⟩ := ok_of_bind h
    obtain ⟨duration, -, h⟩ := ok_of_bind h
    split at h
    next => cases h
    next =>
      cases h
      exact names_numbers rfl
  | focusTask =>
    obtain ⟨shown, -, h⟩ := ok_of_bind h
    obtain ⟨hit, -, h⟩ := ok_of_bind h
    obtain ⟨distractors, -, h⟩ := ok_of_bind h
    obtain ⟨alarms, -, h⟩ := ok_of_bind h
    obtain ⟨duration, -, h⟩ := ok_of_bind h
    split at h
    next => cases h
    next =>
      split at h
      next => cases h
      next =>
        cases h
        exact names_numbers rfl

theorem names_of_extract {gameType : String} {s : Strategy}
    (found : Registry.builtIn.strategies.get? gameType = some s) {raw : Value} {environment : Environment}
    (h : Registry.builtIn.extract gameType raw = .ok environment) :
    environment.bindings.names = s.catalogue.names := by
  obtain ⟨strategy, known, h⟩ := ok_of_bind h
  rw [Registry.strategy, found] at known
  cases known
  cases raw with
  | object fields =>
    obtain ⟨results, extracted, h⟩ := ok_of_bind h
    rw [Environment.names_of_ofValue (ok_of_widen h)]
    exact (builtIn_of_get? found).names_extract extracted
  | _ => cases h

/-! ## Formulas over a catalogue -/

/-- Every formula is accepted and only mentions some of the names. -/
def Catalogued (c : Configuration) (names : List String) : Prop :=
  ∀ entry ∈ c.formulas.entries, ∃ f, Formula.ofText entry.2 = .ok f ∧ ∀ name ∈ f.variableNames, name ∈ names

/-- No formula of such a configuration is refused for an undefined variable where the names have values. -/
theorem Catalogued.kind_ne {c : Configuration} {environment : Environment}
    (catalogued : Catalogued c environment.bindings.names) {e : ScoringError}
    (gets : Gets c environment (.error e)) : e.kind ≠ "UNDEFINED_VARIABLE" := by
  obtain ⟨total, entry, member, blames⟩ := gets.blames
  obtain ⟨f, accepted, within⟩ := catalogued entry member
  rw [ScoringError.kind]
  generalize e.cause = cause at blames
  cases blames with
  | rejected rejected => exact nomatch rejected.symm.trans accepted
  | @failed _ _ g error known failed =>
    cases known.symm.trans accepted
    intro undefined
    obtain ⟨name, rfl⟩ := Formula.EvaluationError.code_eq_iff.1 undefined
    exact Formula.defined_of_accepted accepted within name failed
  | overflow _ _ =>
    intro undefined
    exact absurd (show "DOMAIN_ERROR" = "UNDEFINED_VARIABLE" from undefined) (by decide)

/-- A scoring error on telemetry is one in the environment that is extracted from it. -/
theorem gets_of_calculate {registry : Registry} {asked : String} {c : Configuration} {raw : Value}
    {e : ScoringError} (h : (calculate registry asked c raw).outcome = .error (.refused (.scoring e))) :
    c.gameType = asked ∧ ∃ environment, registry.extract asked raw = .ok environment ∧
      Gets c environment (.error e) := by
  by_cases same : c.gameType = asked
  · cases extracted : registry.extract asked raw with
    | error failure =>
      rw [calculate, if_neg (by simp [same]), extracted] at h
      cases failure <;> cases h
    | ok environment =>
      obtain ⟨result, gets⟩ := exists_gets c environment
      rw [calculate_eq same extracted gets] at h
      cases result with
      | ok scores => cases h
      | error other =>
        cases h
        exact ⟨same, environment, rfl, gets⟩
  · rw [calculate, if_pos (by simpa using same)] at h
    cases h

/-- What a catalogue of a game promises. -/
structure Promised (registry : Registry) (gameType : String) (catalogue : Table Value) : Prop where
  listed : registry.catalogue gameType = .ok catalogue
  /-- Whatever is extracted has the names of the catalogue, in its order, and finite values. -/
  extracted : ∀ raw environment, registry.extract gameType raw = .ok environment →
    environment.bindings.names = catalogue.names ∧ ∀ e ∈ environment.bindings.entries, isFinite e.2 = true
  /-- Formulas over the catalogue never fail with an undefined variable, whatever the telemetry is. -/
  defined : ∀ c : Configuration, c.gameType = gameType → Catalogued c catalogue.names → ∀ asked raw e,
    (calculate registry asked c raw).outcome = .error (.refused (.scoring e)) → e.kind ≠ "UNDEFINED_VARIABLE"

/-- Every built-in game has a catalogue that keeps its promise. -/
theorem catalogue_keeps_promise {gameType : String} (known : gameType ∈ Registry.builtIn.gameTypes) :
    ∃ catalogue, Promised .builtIn gameType catalogue := by
  rw [Registry.gameTypes, List.mem_mergeSort] at known
  obtain ⟨s, found⟩ := Table.mem_names_iff.1 known
  have names {raw : Value} {environment : Environment}
      (h : Registry.builtIn.extract gameType raw = .ok environment) :
      environment.bindings.names = s.catalogue.names := names_of_extract found h
  refine ⟨s.catalogue, ?_, fun raw environment h => ⟨names h, environment.finite⟩, ?_⟩
  · rw [Registry.catalogue, Registry.strategy, found]
    rfl
  · intro c ofGame catalogued asked raw e failed
    obtain ⟨rfl, environment, extracted, gets⟩ := gets_of_calculate failed
    rw [ofGame] at extracted
    rw [← names extracted] at catalogued
    exact catalogued.kind_ne gets

/-- A configuration with a formula over the catalogue of the focus task. -/
def steadiness : Configuration :=
  ⟨"focus_task", Table.empty.insert "steadiness" "accuracy / misses", Table.empty.insert "steadiness" 1.0, []⟩

/-- Telemetry of the game, in which no target was missed. -/
def attentive : Value :=
  .record [("targets_shown", .int 20), ("targets_hit", .int 20), ("distractors_shown", .int 10),
    ("false_alarms", .int 2)]

/-- The formula may divide by zero, but its variables are never undefined. -/
theorem steadiness_is_defined : "focus_task" ∈ Registry.builtIn.gameTypes ∧
    ∃ catalogue, Promised .builtIn "focus_task" catalogue ∧ Catalogued steadiness catalogue.names ∧
      (∃ environment, Registry.builtIn.extract "focus_task" attentive = .ok environment ∧
        environment.bindings.names = catalogue.names) ∧
      ∀ raw e, (calculate .builtIn "focus_task" steadiness raw).outcome = .error (.refused (.scoring e)) →
        e.kind ≠ "UNDEFINED_VARIABLE" := by
  have known : "focus_task" ∈ Registry.builtIn.gameTypes := List.mem_mergeSort.2 (by decide)
  obtain ⟨catalogue, promised⟩ := catalogue_keeps_promise known
  have same : FocusTask.catalogue = catalogue := Except.ok.inj promised.listed
  have catalogued : Catalogued steadiness catalogue.names := by
    rw [← same]
    intro entry member
    have read : (Formula.ofText "accuracy / misses").toOption.map
        (fun f => (f.root.referenceName?, f.root.children.map Formula.Tree.referenceName?)) =
      some (none, [some "accuracy", some "misses"]) := by decide +kernel
    cases List.mem_singleton.1 member
    obtain ⟨f, accepted, shape⟩ := Option.map_eq_some_iff.1 read
    rw [Prod.mk.injEq] at shape
    refine ⟨f, ok_of_toOption accepted, fun name mentioned => ?_⟩
    rw [Formula.variableNames_of_accepted (ok_of_toOption accepted), Formula.Tree.mem_variableNames_iff,
      shape.1] at mentioned
    obtain ⟨u, child, mentioned⟩ := mentioned.resolve_left nofun
    have named : u.referenceName? ∈ [some "accuracy", some "misses"] := shape.2 ▸ List.mem_map.2 ⟨u, child, rfl⟩
    rcases List.mem_pair.1 named with accuracy | misses
    · rw [Formula.Tree.eq_of_mem_variableNames accuracy mentioned]
      decide
    · rw [Formula.Tree.eq_of_mem_variableNames misses mentioned]
      decide
  have succeeds : (Registry.builtIn.extract "focus_task" attentive).toOption.isSome = true := by decide +kernel
  obtain ⟨environment, some⟩ := Option.isSome_iff_exists.1 succeeds
  have extracted := ok_of_toOption some
  exact ⟨known, catalogue, promised, catalogued,
    ⟨environment, extracted, (promised.extracted attentive environment extracted).1⟩,
    promised.defined steadiness rfl catalogued "focus_task"⟩

end Telemetry

end GameScoring
