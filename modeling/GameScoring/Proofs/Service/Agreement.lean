import Mathlib
import GameScoring.Proofs.Reading
import GameScoring.Proofs.Scoring.Comparison
import GameScoring.Proofs.Service.Activation
import GameScoring.Proofs.Telemetry.Rereading

/-!
# Every way of scoring agrees

A stored version can be scored on telemetry, in a preview, in a comparison and by a submission. Its
configuration is read from the store, or made again under another game, and the variables are extracted,
or read again from a value. The result is the same.
-/
namespace GameScoring.Service
open Scoring Store Telemetry

/-! ## Versions that are asked for -/

/-- A version of a game that is stored under an id. -/
def StoredAs (store : Store) (gameType id : String) (version : Version) : Prop :=
  ∃ row ∈ store.rows, row.id = id ∧ row.gameType = gameType ∧ row.read = .ok version

theorem checked_of_read {row : Row} {version : Version} (h : row.read = .ok version) :
    version.configuration.gameType = row.gameType ∧ version.configuration.Checked := by
  obtain ⟨c, readable, made⟩ := ok_of_bind h
  cases made
  obtain ⟨game, checked⟩ := Configuration.checked_of_ofPayload readable
  exact ⟨(Value.text.inj game).symm, checked⟩

theorem StoredAs.gameType_eq {store : Store} {gameType id : String} {version : Version}
    (h : StoredAs store gameType id version) : version.gameType = gameType := by
  obtain ⟨row, -, -, game, read⟩ := h
  exact (congrArg Heading.gameType (toHeading_of_read read)).trans game

theorem StoredAs.id_eq {store : Store} {gameType id : String} {version : Version}
    (h : StoredAs store gameType id version) : version.id = id := by
  obtain ⟨row, -, id, -, read⟩ := h
  exact (congrArg Heading.id (toHeading_of_read read)).trans id

section Stored

variable {store : Store} {gameType : String} {ids : List String} {versions : List Version}
  (stored : List.Forall₂ (StoredAs store gameType) ids versions)
include stored

theorem map_id_of_stored : versions.map (·.id) = ids := by
  have same : List.Forall₂ (fun version id => version.id = id) versions ids :=
    stored.flip.imp fun _ _ stored => StoredAs.id_eq stored
  rwa [← List.forall₂_map_left_iff, List.forall₂_eq_eq_eq] at same

theorem checked_of_stored : ∀ c ∈ versions.map (·.configuration), c.Checked := by
  intro c member
  obtain ⟨version, stood, rfl⟩ := List.mem_map.1 member
  obtain ⟨id, -, row, -, -, -, read⟩ := exists_of_mem_right stored stood
  exact (checked_of_read read).2

end Stored

/-- No two rows have one id, so what is read under the id of a row is read from the row. -/
theorem Orderly.eq_of_read {store : Store} {drawn : Nat} {saved : String → Nat}
    (orderly : Orderly drawn saved store.rows) {row other : Row} (stored : row ∈ store.rows)
    (member : other ∈ store.rows) {version shown : Version} (read : row.read = .ok version)
    (other_read : other.read = .ok shown) (same : shown.id = version.id) : shown = version := by
  have id_eq : other.id = row.id := by
    calc
      other.id = shown.id := (congrArg Heading.id (toHeading_of_read other_read)).symm
      _ = version.id := same
      _ = row.id := congrArg Heading.id (toHeading_of_read read)
  rw [orderly.eq_of_id member stored id_eq, read] at other_read
  exact (Except.ok.inj other_read).symm

/-- Versions are compared under their names. -/
theorem labels_versions (versions : List Version) : Labels (versions.map (·.configuration))
    (some (versions.map fun version => Value.text version.name)) := by
  intro given same
  cases same
  rw [List.length_map, List.length_map]

section Known

variable {store : Store} {gameType : String} {ids : List String}

theorem row?_of_mem (distinct : (store.rows.map (·.id)).Nodup) {row : Row} (member : row ∈ store.rows) :
    store.row? row.id = some row := by
  cases found : store.row? row.id with
  | none => exact absurd (beq_self_eq_true row.id) (List.find?_eq_none.1 found row member)
  | some other =>
    have same := List.find?_some found
    rw [List.inj_on_of_nodup_map distinct (List.mem_of_find?_eq_some found) member (beq_iff_eq.1 same)]

variable {drawn : Nat} {saved : String → Nat} (orderly : Orderly drawn saved store.rows)
  (known : ∀ id ∈ ids, ∃ row ∈ store.rows, row.id = id ∧ row.gameType = gameType)
include orderly known

/-- Known versions are found and read, in the order of the ids. -/
theorem readRows_known : ∃ versions, readRows (store.rowsWith ids) = .ok versions ∧
    List.Forall₂ (StoredAs store gameType) ids versions := by
  induction ids with
  | nil => exact ⟨[], rfl, .nil⟩
  | cons id rest ih =>
    rw [List.forall_mem_cons] at known
    obtain ⟨⟨row, member, rfl, game⟩, others⟩ := known
    obtain ⟨versions, read, stored⟩ := ih others
    obtain ⟨c, readable⟩ := orderly.readable row member
    have first : readRow row = .ok ⟨row.toHeading, c⟩ := readRow_ok readable
    refine ⟨⟨row.toHeading, c⟩ :: versions, ?_, .cons ⟨row, member, rfl, game, ok_of_widen first⟩ stored⟩
    have found : store.rowsWith (row.id :: rest) = row :: store.rowsWith rest :=
      List.filterMap_cons_some (row?_of_mem orderly.distinct member)
    rw [readRows] at read
    rw [found, readRows, List.mapM_cons, first, read]
    rfl

/-- Enough known versions of a game can be compared, in the order of their ids. -/
theorem comparable_known (many : minCompared ≤ ids.length) :
    ∃ versions, comparable store gameType ids = .ok versions ∧
      List.Forall₂ (StoredAs store gameType) ids versions := by
  obtain ⟨versions, read, stored⟩ := readRows_known orderly known
  refine ⟨versions, ?_, stored⟩
  have requested : requestedVersions store ids = .ok versions := by
    rw [requestedVersions, read]
    exact if_neg (by rw [stored.length_eq]; omega)
  have home : versions.find? (fun version => version.gameType != gameType) = none := by
    rw [List.find?_eq_none]
    intro version member
    obtain ⟨id, -, stored⟩ := exists_of_mem_right stored member
    simp [stored.gameType_eq]
  rw [comparable, if_neg (by omega), requested]
  dsimp only [bind, Except.bind]
  rw [home]
  rfl

variable {environment : Environment} (named : environment.Named)
include named

/-- A comparison of known versions holds each of them with its result, in the order of the ids. -/
theorem compareVersions_known (many : minCompared ≤ ids.length) :
    ∃ comparison, (compareVersions store gameType ids (some environment.value)).outcome = .ok comparison ∧
      List.Forall₂ (fun id entry => StoredAs store gameType id entry.version) ids comparison.entries ∧
      ∀ entry ∈ comparison.entries, ∃ result, entry.result = some result ∧
        Gets entry.version.configuration environment result := by
  obtain ⟨versions, found, stored⟩ := comparable_known orderly known many
  obtain ⟨outcomes, differences, compared, results⟩ := compare_outcome
    (by rw [List.length_map, ← stored.length_eq]; exact many) (checked_of_stored stored) (labels_versions versions)
    named.ofValue_value
  rw [List.forall₂_map_left_iff] at results
  refine ⟨⟨comparedVersions versions (some outcomes), differences, some environment.value⟩, ?_, ?_, ?_⟩
  · rw [compareVersions, found]
    dsimp only [Reply.reported]
    rw [compared]
    rfl
  · have same : (comparedVersions versions (some outcomes)).map (·.version) = versions := by
      rw [comparedVersions, List.map_map]
      exact List.map_fst_zip (by rw [results.length_eq])
    rw [← same, List.forall₂_map_right_iff] at stored
    exact stored
  · intro entry member
    obtain ⟨pair, paired, rfl⟩ := List.mem_map.1 member
    exact ⟨pair.2.result, rfl, List.forall₂_zip results paired⟩

end Known

/-! ## One result -/

/-- How scoring answers with a result. -/
def answered (result : Except ScoringError Scores) : Except (Failure Problem) Scores :=
  result.mapError fun e => .refused (.scoring e)

/-- A name of a game that unsaved formulas can be scored for. Nothing stands for a name of its own. -/
def Nameable (gameType : Value) : Prop :=
  gameType.isNothing = true ∨ ∃ name, gameType = .text name ∧ Text.isBlankText name = false

theorem named_of_extract {registry : Registry} {gameType : String} {raw : Value} {environment : Environment}
    (h : registry.extract gameType raw = .ok environment) : environment.Named := by
  obtain ⟨strategy, -, h⟩ := ok_of_bind h
  cases raw with
  | object fields =>
    obtain ⟨results, -, h⟩ := ok_of_bind h
    exact Environment.named_of_ofValue (ok_of_widen h)
  | _ => cases h

section Gets

variable {c : Configuration} {environment : Environment} {result : Except ScoringError Scores}
  (gets : Gets c environment result)
include gets

theorem widen_gets : widen Problem.scoring (score c environment.bindings).outcome = answered result := by
  rw [show (score c environment.bindings).outcome = _ from gets]
  cases result <;> rfl

theorem calculate_gets {raw : Value} (extracted : Registry.builtIn.extract c.gameType raw = .ok environment) :
    (calculate .builtIn c.gameType c raw).outcome = answered result := by
  rw [calculate_eq rfl extracted gets]
  cases result <;> rfl

/-- A preview makes the configuration again, under its own name of a game, and reads the environment again. -/
theorem preview_of_read (checked : c.Checked) {values : Value} (read : Environment.ofValue values = .ok environment)
    {gameType : Value} (nameable : Nameable gameType) :
    (preview gameType c.formulasValue c.weightsValue values).outcome = answered result := by
  obtain ⟨name, asked, unblank⟩ : ∃ name, (if gameType.isNothing then previewGame else gameType) = .text name ∧
      Text.isBlankText name = false := by
    rcases nameable with nothing | ⟨name, rfl, unblank⟩
    · exact ⟨"preview", by rw [if_pos nothing]; rfl, by decide⟩
    · have something : ¬ (Value.text name).isNothing = true := by
        intro nothing
        have none : name = "" := String.isEmpty_iff.1 nothing
        rw [none] at unblank
        cases unblank
      exact ⟨name, if_neg something, unblank⟩
  rw [preview]
  rw [asked, checked.ofValues_values unblank, read]
  exact widen_gets (gets.congr rfl rfl)

theorem preview_gets (checked : c.Checked) (named : environment.Named) {gameType : Value}
    (nameable : Nameable gameType) :
    (preview gameType c.formulasValue c.weightsValue environment.value).outcome = answered result :=
  preview_of_read gets checked named.ofValue_value nameable

theorem previewScores_of_read {store : Store} (checked : c.Checked) {entries : List (Value × Value)}
    (read : Environment.ofValue (.object entries) = .ok environment) {gameType : Value} (nameable : Nameable gameType) :
    (previewScores store ⟨gameType, c.formulasValue, c.weightsValue, .object entries⟩).outcome =
      .ok ⟨result, .object entries⟩ := by
  rw [previewScores]
  dsimp only
  rw [preview_of_read gets checked read nameable]
  cases result <;> rfl

theorem previewScores_gets {store : Store} (checked : c.Checked) (named : environment.Named) {gameType : Value}
    (nameable : Nameable gameType) :
    (previewScores store ⟨gameType, c.formulasValue, c.weightsValue, environment.value⟩).outcome =
      .ok ⟨result, environment.value⟩ :=
  previewScores_of_read gets checked named.ofValue_value nameable

end Gets

/-- Outcomes in the order of the configurations, where a configuration has a result wherever it stands. -/
structure Holds (c : Configuration) (result : Except ScoringError Scores) (configurations : List Configuration)
    (outcomes : List Outcome) : Prop where
  length : outcomes.length = configurations.length
  result : ∀ pair ∈ configurations.zip outcomes, pair.1 = c → pair.2.result = result

theorem holds_of_gets {c : Configuration} {environment : Environment} {result : Except ScoringError Scores}
    (gets : Gets c environment result) {configurations : List Configuration} {outcomes : List Outcome}
    (results : List.Forall₂ (fun c o => Gets c environment o.result) configurations outcomes) :
    Holds c result configurations outcomes := by
  refine ⟨results.length_eq.symm, fun pair member same => ?_⟩
  have other := List.forall₂_zip results member
  rw [same] at other
  exact other.unique gets

/-- A stored version that is scored on telemetry, or on the variables that are extracted from it, has a result:
whichever way it is scored, this is the answer. -/
structure ScoresAlike (state : State) (version : Version) (raw : Value) (environment : Environment)
    (result : Except ScoringError Scores) : Prop where
  calculated : (calculate .builtIn version.gameType version.configuration raw).outcome = answered result
  /-- The formulas and weights are scored alike under any name of a game that is not blank. -/
  previewed : ∀ gameType, Nameable gameType →
    (preview gameType version.configuration.formulasValue version.configuration.weightsValue
      environment.value).outcome = answered result
  previewShown : ∀ failure gameType, Nameable gameType →
    (state.perform failure (.preview ⟨gameType, version.configuration.formulasValue,
      version.configuration.weightsValue, environment.value⟩)).2 = .ok (.preview ⟨result, environment.value⟩)
  /-- Among any configurations the one of the version has the result. -/
  scoredMany : ∀ configurations labels, Labels configurations labels →
    ∃ outcomes, (scoreMany configurations environment.value labels).outcome = .ok outcomes ∧
      Holds version.configuration result configurations outcomes
  /-- Among any checked configurations, as many as a comparison needs, the one of the version has the result. -/
  comparedMany : ∀ configurations labels, Labels configurations labels →
    minCompared ≤ configurations.length → (∀ c ∈ configurations, c.Checked) →
      ∃ outcomes differences, (compare configurations (some environment.value) labels).outcome =
          .ok ⟨some outcomes, differences⟩ ∧
        Holds version.configuration result configurations outcomes
  /-- Among any stored versions of the game, as many as a comparison needs, the version has the result. -/
  compared : ∀ failure ids, minCompared ≤ ids.length →
    (∀ id ∈ ids, ∃ row ∈ state.store.rows, row.id = id ∧ row.gameType = version.gameType) →
      ∃ comparison, (state.perform failure
          (.compare version.gameType ids (some environment.value))).2 = .ok (.comparison comparison) ∧
        comparison.entries.map (·.version.id) = ids ∧
        ∀ entry ∈ comparison.entries, entry.version.id = version.id → entry = ⟨version, some result⟩
  /-- A submission that cannot be scored is answered with the blame. -/
  refused : ∀ e, result = .error e → ∀ failure userId, userId ≠ "" →
    (state.perform failure (.active version.gameType)).2 = .ok (.version version) →
      (state.perform failure (.submit version.gameType userId raw)).2 = refuse (.scoring (.scoring e))
  /-- A submission that can be scored is answered with the scores, if its commit does not fail. -/
  submitted : ∀ scores, result = .ok scores → ∀ userId, userId ≠ "" →
    (state.perform none (.active version.gameType)).2 = .ok (.version version) →
      ∃ id, (state.perform none (.submit version.gameType userId raw)).2 =
        .ok (.submission ⟨id, version.name, scores⟩)

/-- Among known versions of its game, as many as a comparison needs, a stored version is compared with its
result. -/
theorem compareVersions_gets {store : Store} {drawn : Nat} {saved : String → Nat}
    (orderly : Orderly drawn saved store.rows) {row : Row} (stored : row ∈ store.rows) {version : Version}
    (read : row.read = .ok version) {environment : Environment} (named : environment.Named)
    {result : Except ScoringError Scores} (gets : Gets version.configuration environment result)
    {ids : List String} (many : minCompared ≤ ids.length)
    (known : ∀ id ∈ ids, ∃ row ∈ store.rows, row.id = id ∧ row.gameType = version.gameType) :
    ∃ comparison,
      (compareVersions store version.gameType ids (some environment.value)).outcome = .ok comparison ∧
      comparison.entries.map (·.version.id) = ids ∧
      ∀ entry ∈ comparison.entries, entry.version.id = version.id → entry = ⟨version, some result⟩ := by
  obtain ⟨comparison, compared, entries, results⟩ := compareVersions_known orderly known named many
  refine ⟨comparison, compared, ?_, ?_⟩
  · rw [← List.forall₂_map_right_iff] at entries
    rw [← map_id_of_stored entries, List.map_map]
    rfl
  · intro entry member same
    obtain ⟨id, -, other, other_member, -, -, other_read⟩ := exists_of_mem_right entries member
    have shown_version := orderly.eq_of_read stored other_member read other_read same
    obtain ⟨found, shown, other_gets⟩ := results entry member
    obtain ⟨_, shown_result⟩ := entry
    cases shown_version
    cases shown
    rw [other_gets.unique gets]

/-- A stored version of a reached state and telemetry that its game can extract: every way of scoring the one
on the other has the same result. -/
theorem scoring_agrees (calls : List Call) {row : Row} (stored : row ∈ (State.initial.run calls).store.rows)
    {raw : Value} {environment : Environment}
    (extracted : Registry.builtIn.extract row.gameType raw = .ok environment) :
    ∃ version result, row.read = .ok version ∧
      ScoresAlike (State.initial.run calls) version raw environment result := by
  have orderly := (Represents.initial.run calls).toOrderly
  obtain ⟨c, readable⟩ := orderly.readable row stored
  have read : row.read = .ok ⟨row.toHeading, c⟩ := ok_of_widen (readRow_ok readable)
  obtain ⟨game, checked⟩ := checked_of_read read
  have named := named_of_extract extracted
  obtain ⟨result, gets⟩ := exists_gets c environment
  have calculated : (calculate .builtIn row.gameType c raw).outcome = answered result := by
    have game : c.gameType = row.gameType := game
    rw [← game] at extracted ⊢
    exact calculate_gets gets extracted
  refine ⟨⟨row.toHeading, c⟩, result, read, calculated, ?_, ?_, ?_, ?_, ?_, ?_, ?_⟩
  · intro gameType nameable
    exact preview_gets gets checked named nameable
  · intro failure gameType nameable
    exact congrArg (Except.map Result.preview) (previewScores_gets gets checked named nameable)
  · intro configurations labels fit
    obtain ⟨outcomes, scored, results⟩ := scoreMany_outcome fit named.ofValue_value
    exact ⟨outcomes, scored, holds_of_gets gets results⟩
  · intro configurations labels fit many checked
    obtain ⟨outcomes, differences, compared, results⟩ := compare_outcome many checked fit named.ofValue_value
    exact ⟨outcomes, differences, compared, holds_of_gets gets results⟩
  · intro failure ids many known
    obtain ⟨comparison, compared, shown⟩ := compareVersions_gets orderly stored read named gets many known
    exact ⟨comparison, congrArg (Except.map Result.comparison) compared, shown⟩
  · intro e failed failure userId user active
    rw [failed] at calculated
    exact (scoredWith_of_active user (active_of_perform active) failure raw).refused _ calculated
  · intro scores succeeded userId user active
    rw [succeeded] at calculated
    obtain ⟨session, -, -, -, -, -, answer⟩ :=
      (scoredWith_of_active user (active_of_perform active) none raw).recorded scores calculated rfl
    exact ⟨session.id, answer⟩

/-- One configuration of a game is saved. -/
def focusCalls : List Call :=
  [(none, .save ⟨.text "focus_task", .record [("focus", .text "accuracy")], .record [("focus", .float 0.5)],
    .null, ⟨.null, .null, .bool true⟩⟩)]

/-- Telemetry of the game. -/
def focusTelemetry : Value :=
  .record [("targets_shown", .int 20), ("targets_hit", .int 18), ("distractors_shown", .int 10),
    ("false_alarms", .int 2)]

theorem focus_scores_alike :
    ∃ row ∈ (State.initial.run focusCalls).store.rows, ∃ environment,
      Registry.builtIn.extract row.gameType focusTelemetry = .ok environment ∧
      ∃ version result, row.read = .ok version ∧
        ScoresAlike (State.initial.run focusCalls) version focusTelemetry environment result := by
  have pointed : (Roster.empty.replay (State.initial.log focusCalls)).pointer "focus_task" = some "v1" := by
    decide +kernel
  obtain ⟨row, stood, game, -⟩ := (Represents.initial.run focusCalls).pointed "focus_task" "v1" pointed
  have succeeds : (Registry.builtIn.extract "focus_task" focusTelemetry).isOk = true := by decide +kernel
  cases extracted : Registry.builtIn.extract "focus_task" focusTelemetry with
  | error e =>
    rw [extracted] at succeeds
    cases succeeds
  | ok environment =>
    rw [← game] at extracted
    exact ⟨row, stood, environment, extracted, scoring_agrees focusCalls stood extracted⟩

/-- Under a blank name nothing is previewed, one version alone is not compared, and nobody can submit; where the
commit fails, scores are not answered. -/
theorem scored_version_is_refused :
    let state := State.initial.run focusCalls
    ∃ row ∈ state.store.rows, ∃ version environment scores, row.read = .ok version ∧
      Registry.builtIn.extract row.gameType focusTelemetry = .ok environment ∧
      (state.perform none (.active row.gameType)).2 = .ok (.version version) ∧
      (calculate .builtIn version.gameType version.configuration focusTelemetry).outcome = .ok scores ∧
      (state.perform none (.preview ⟨.text " ", version.configuration.formulasValue,
        version.configuration.weightsValue, environment.value⟩)).2 =
          refuse (.scoring (.configuration .noGameType)) ∧
      (state.perform none (.compare row.gameType [row.id] (some environment.value))).2 =
        refuse .tooFewVersions ∧
      (state.perform none (.submit row.gameType "" focusTelemetry)).2 = refuse .noUser ∧
      (state.perform (some .operational) (.submit row.gameType "ada" focusTelemetry)).2 =
        refuse (.store .submissionNotRecorded) := by
  intro state
  have pointed : (Roster.empty.replay (State.initial.log focusCalls)).pointer "focus_task" = some "v1" := by
    decide +kernel
  have represents := Represents.initial.run focusCalls
  obtain ⟨row, member, game, -, -, found⟩ := represents.active?_eq_some pointed
  have stood := (List.mem_filter.1 member).1
  obtain ⟨c, readable⟩ := represents.readable row stood
  have read : readRow row = .ok ⟨row.toHeading, c⟩ := readRow_ok readable
  have active : active state.store row.gameType = .ok ⟨row.toHeading, c⟩ := by
    rw [Service.active, game, found]
    exact read
  have chosen : versionFor state.store row.gameType "ada" = .ok ⟨row.toHeading, c⟩ := active
  have extracts : (Registry.builtIn.extract row.gameType focusTelemetry).isOk = true := by
    rw [game]
    decide +kernel
  have accepts : (state.perform none (.submit row.gameType "ada" focusTelemetry)).2.isOk = true := by
    rw [game]
    decide +kernel
  cases extracted : Registry.builtIn.extract row.gameType focusTelemetry with
  | error e =>
    rw [extracted] at extracts
    cases extracts
  | ok environment =>
    rcases submit_cases (state.conditions (some .operational)) focusTelemetry chosen with
      ⟨e, failed, -⟩ | ⟨scores, scored, ⟨-, uncommitted⟩ | ⟨commits, -⟩⟩
    · have user : "ada" ≠ "" := by decide
      rw [(scoredWith_of_active user active none focusTelemetry).refused e failed] at accepts
      cases accepts
    · refine ⟨row, stood, ⟨row.toHeading, c⟩, environment, scores, ok_of_widen read, extracted, ?_, scored,
        rfl, rfl, rfl, ?_⟩
      · exact congrArg (Except.map Result.version) active
      · exact congrArg (fun reply => reply.outcome.map Result.submission) uncommitted
    · cases commits

end GameScoring.Service
