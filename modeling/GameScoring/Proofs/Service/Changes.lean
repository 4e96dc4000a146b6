import GameScoring.Proofs.Scoring.Payload
import GameScoring.Proofs.Store.Transaction
import GameScoring.Service.State

/-!
# What operations do to a store

A save is refused, or it adds a version that can be read again; an activation is refused, or it
moves marks. A submission adds no version, and no other operation changes the store.
-/
namespace GameScoring.Service
open Scoring Store

/-- What is required of a request before it is saved. -/
theorem SaveRequest.required {request : SaveRequest} {c : Configuration}
    (h : request.configuration = .ok c) :
    request.gameType = .text c.gameType ∧ c.Checked ∧ c.formulas.isEmpty = false ∧
      checkFormulas c = .ok () := by
  obtain ⟨d, made, h⟩ := ok_of_bind h
  by_cases empty : d.formulas.isEmpty = true
  · rw [if_pos empty] at h
    cases h
  · rw [if_neg empty] at h
    obtain ⟨_, accepted, h⟩ := ok_of_bind h
    cases h
    obtain ⟨game, checked⟩ := Configuration.checked_of_ofValues (ok_of_widen made)
    refine ⟨game, checked, Bool.eq_false_iff.2 empty, ?_⟩
    cases accepts : checkFormulas c with
    | error e =>
      rw [accepts] at accepted
      cases accepted
    | ok _ => rfl

theorem readRow_ok {row : Row} {c : Configuration}
    (h : Configuration.ofPayload (.text row.gameType) row.payload = .ok c) :
    readRow row = .ok ⟨row.toHeading, c⟩ := by
  rw [readRow, Row.read, h]
  rfl

theorem toHeading_of_read {row : Row} {version : Version} (h : row.read = .ok version) :
    version.toHeading = row.toHeading := by
  obtain ⟨c, -, made⟩ := ok_of_bind h
  cases made
  rfl

theorem readRows_cons {row : Row} {rows : List Row} {version : Version} {versions : List Version}
    (first : readRow row = .ok version) (rest : readRows rows = .ok versions) :
    readRows (row :: rows) = .ok (version :: versions) := by
  rw [readRows] at rest
  rw [readRows, List.mapM_cons, first, rest]
  rfl

/-- Rows that can be read are read in order, with their headings. -/
theorem readRows_ok {rows : List Row}
    (readable : ∀ row ∈ rows, ∃ c, Configuration.ofPayload (.text row.gameType) row.payload = .ok c) :
    ∃ versions, readRows rows = .ok versions ∧ versions.map (·.toHeading) = rows.map (·.toHeading) := by
  induction rows with
  | nil => exact ⟨[], rfl, rfl⟩
  | cons row rows ih =>
    obtain ⟨c, first⟩ := readable row (List.mem_cons_self ..)
    obtain ⟨versions, rest, headings⟩ := ih fun row member => readable row (List.mem_cons_of_mem _ member)
    exact ⟨⟨row.toHeading, c⟩ :: versions, readRows_cons (readRow_ok first) rest,
      congrArg (row.toHeading :: ·) headings⟩

/-- A save is refused and changes nothing, or it adds a version that can be read. Which of the two it is, and
why, depends on the request and on whether the commit fails, and not on what is stored. -/
theorem save_cases (failure : Option CommitFailure) (request : SaveRequest) :
    (∃ e, ∀ conditions store, conditions.commitFailure = failure →
      save conditions store request = .unchanged store (.error e)) ∨
    ∃ c note, request.configuration = .ok c ∧ request.note.stored = .ok note ∧
      ∀ conditions store, conditions.commitFailure = failure → save conditions store request =
        ⟨(store.addVersion conditions.freshId c note).1, [], 1,
          .ok ⟨(store.newRow conditions.freshId c note).toHeading, c⟩⟩ := by
  cases configured : request.configuration with
  | error e => exact .inl ⟨e, fun _ _ _ => by rw [save, configured]⟩
  | ok c =>
    cases failure with
    | some failure =>
      refine .inl ⟨.refused (.store (saveFailure c.gameType failure)), fun conditions store same => ?_⟩
      simp only [save, configured, same, save_eq, refuse, Failure.map]
    | none =>
      cases stored : request.note.stored with
      | error defect =>
        cases defect with
        | unfit =>
          refine .inl ⟨.refused (.store (.notSaved c.gameType)), fun conditions store same => ?_⟩
          simp only [save, configured, same, save_eq, stored, refuse, Failure.map]
        | tooWide =>
          refine .inl ⟨.fault .integerTooWide, fun conditions store same => ?_⟩
          simp only [save, configured, same, save_eq, stored, Failure.map]
      | ok note =>
        obtain ⟨-, checked, -⟩ := SaveRequest.required configured
        refine .inr ⟨c, note, rfl, rfl, fun conditions store same => ?_⟩
        simp only [save, configured, same, save_eq, stored]
        exact congrArg _ (readRow_ok checked.ofPayload_payload)

/-- A reply that reports nothing and draws no id changes the store of a state at most. -/
theorem perform_of_unchanged {state : State} {failure : Option CommitFailure} {operation : Operation} {store : Store}
    {outcome : Answer Result}
    (h : operation.perform (state.conditions failure) state.store = .unchanged store outcome) :
    state.perform failure operation = ({ state with store }, outcome) := by
  rw [State.perform, h]
  simp only [Reply.unchanged, List.map_nil, List.append_nil, Nat.add_zero]

/-- What a save does to any state is decided by its request and its commit. -/
theorem perform_save (failure : Option CommitFailure) (request : SaveRequest) :
    (∃ e, ∀ state : State, state.perform failure (.save request) = (state, .error e)) ∨
    ∃ c note, request.configuration = .ok c ∧ request.note.stored = .ok note ∧ ∀ state : State,
      state.perform failure (.save request) =
        (⟨(state.store.addVersion (idText (state.drawn + 1)) c note).1, state.drawn + 1, state.happenings⟩,
          .ok (.version ⟨(state.store.newRow (idText (state.drawn + 1)) c note).toHeading, c⟩)) := by
  rcases save_cases failure request with ⟨e, refused⟩ | ⟨c, note, configured, noted, saved⟩
  · refine .inl ⟨e, fun state => perform_of_unchanged ?_⟩
    exact congrArg (Reply.map Result.version) (refused (state.conditions failure) state.store rfl)
  · refine .inr ⟨c, note, configured, noted, fun state => ?_⟩
    have reply : (Operation.save request).perform (state.conditions failure) state.store = Reply.map .version _ :=
      congrArg (Reply.map Result.version) (saved (state.conditions failure) state.store rfl)
    rw [State.perform, reply]
    simp only [Reply.map, List.map_nil, List.append_nil]
    rfl

/-- An activation is refused and changes nothing, or it marks the version it names. -/
theorem setActive_cases (conditions : Conditions) (store : Store) (gameType name : String) :
    (∃ e, setActive conditions store gameType name = .unchanged store (.error e)) ∨
      ∃ target cleared, store.named? gameType name = some target ∧
        cleared = mark (fun row => row.gameType == gameType && row.id != target.id) false store.rows ∧
        setActive conditions store gameType name =
          .unchanged { store with rows := mark (·.id == target.id) true cleared }
            (readRow (target.withActive true)) := by
  cases found : activatable store gameType name with
  | error e => exact .inl ⟨e, by rw [setActive, found]⟩
  | ok version =>
    cases named : store.named? gameType name with
    | none =>
      refine .inl ⟨.refused (.store (.unknownVersion gameType name)), ?_⟩
      rw [setActive, found]
      simp only [setActive_eq, named]
      rfl
    | some target =>
      cases failure : conditions.commitFailure with
      | some failure =>
        refine .inl ⟨.refused (.store (.notActivated gameType name)), ?_⟩
        rw [setActive, found]
        simp only [setActive_eq, named, failure]
        rfl
      | none =>
        refine .inr ⟨target, _, rfl, rfl, ?_⟩
        rw [setActive, found]
        simp only [setActive_eq, named, failure]

section Submit

/-- The session that a submission records. -/
def sessionOf (conditions : Conditions) (gameType userId : String) (version : Version) (scores : Scores) :
    Session :=
  ⟨conditions.freshId, userId, gameType, version.id, scores.value, conditions.now⟩

variable (conditions : Conditions) {store : Store} {gameType userId : String} (raw : Value)

section Chosen

variable {version : Version} (chosen : versionFor store gameType userId = .ok version)
include chosen

theorem submit_unscored {e : Failure Problem}
    (outcome : (calculate .builtIn gameType version.configuration raw).outcome = .error e) :
    submit conditions store gameType userId raw =
      ⟨store, (calculate .builtIn gameType version.configuration raw).events, 0, .error (e.map .scoring)⟩ := by
  rw [submit, chosen]
  simp only [outcome]

variable {scores : Scores} (outcome : (calculate .builtIn gameType version.configuration raw).outcome = .ok scores)
include outcome

theorem submit_uncommitted (failed : conditions.commitFailure ≠ none) :
    submit conditions store gameType userId raw =
      ⟨store, (calculate .builtIn gameType version.configuration raw).events, 1,
        refuse (.store .submissionNotRecorded)⟩ := by
  obtain ⟨failure, failed⟩ := Option.ne_none_iff_exists'.1 failed
  rw [submit, chosen]
  simp only [outcome, failed, recordSubmission_eq]

theorem submit_recorded (commits : conditions.commitFailure = none) :
    submit conditions store gameType userId raw =
      ⟨(store.addSession (sessionOf conditions gameType userId version scores)).addReceipt
          ⟨conditions.freshId, raw⟩,
        (calculate .builtIn gameType version.configuration raw).events, 2,
        .ok ⟨conditions.freshId, version.name, scores⟩⟩ := by
  rw [submit, chosen]
  simp only [outcome, commits, recordSubmission_eq]
  rfl

end Chosen

/-- A submission is scored with the version that was chosen for it. If it cannot be scored or the commit
fails nothing is recorded, and otherwise a session under the version. -/
theorem submit_cases {version : Version} (chosen : versionFor store gameType userId = .ok version) :
    (∃ e, (calculate .builtIn gameType version.configuration raw).outcome = .error e ∧
      submit conditions store gameType userId raw =
        ⟨store, (calculate .builtIn gameType version.configuration raw).events, 0, .error (e.map .scoring)⟩) ∨
    ∃ scores, (calculate .builtIn gameType version.configuration raw).outcome = .ok scores ∧
      ((conditions.commitFailure ≠ none ∧ submit conditions store gameType userId raw =
        ⟨store, (calculate .builtIn gameType version.configuration raw).events, 1,
          refuse (.store .submissionNotRecorded)⟩) ∨
      (conditions.commitFailure = none ∧ submit conditions store gameType userId raw =
        ⟨(store.addSession (sessionOf conditions gameType userId version scores)).addReceipt
            ⟨conditions.freshId, raw⟩,
          (calculate .builtIn gameType version.configuration raw).events, 2,
          .ok ⟨conditions.freshId, version.name, scores⟩⟩)) := by
  cases outcome : (calculate .builtIn gameType version.configuration raw).outcome with
  | error e => exact .inl ⟨e, rfl, submit_unscored conditions raw chosen outcome⟩
  | ok scores =>
    refine .inr ⟨scores, rfl, ?_⟩
    by_cases commits : conditions.commitFailure = none
    · exact .inr ⟨commits, submit_recorded conditions raw chosen outcome commits⟩
    · exact .inl ⟨commits, submit_uncommitted conditions raw chosen outcome commits⟩

/-- A submission adds no version. -/
theorem submit_rows (gameType userId : String) :
    (submit conditions store gameType userId raw).store.rows = store.rows := by
  cases chosen : versionFor store gameType userId with
  | error e => rw [submit, chosen]; rfl
  | ok version =>
    rcases submit_cases conditions raw chosen with
      ⟨e, -, refused⟩ | ⟨scores, -, ⟨-, failed⟩ | ⟨-, recorded⟩⟩
    · rw [refused]
    · rw [failed]
    · rw [recorded]
      rfl

end Submit

/-- What a submission does to any state is decided by the configuration it is scored with and its commit. -/
theorem perform_submit (failure : Option CommitFailure) (gameType userId : String) (raw : Value)
    (c : Configuration) :
    (∃ e, ∀ (state : State) (version : Version), version.configuration = c →
      versionFor state.store gameType userId = .ok version →
        (state.perform failure (.submit gameType userId raw)).1.store = state.store ∧
        (state.perform failure (.submit gameType userId raw)).2 = .error e) ∨
    ∃ scores, ∀ (state : State) (version : Version), version.configuration = c →
      versionFor state.store gameType userId = .ok version →
        (state.perform failure (.submit gameType userId raw)).1.store =
          (state.store.addSession (sessionOf (state.conditions failure) gameType userId version scores)).addReceipt
            ⟨idText (state.drawn + 1), raw⟩ ∧
        (state.perform failure (.submit gameType userId raw)).1.drawn = state.drawn + 2 ∧
        (state.perform failure (.submit gameType userId raw)).2 =
          .ok (.submission ⟨idText (state.drawn + 1), version.name, scores⟩) := by
  have performed {state : State} {reply : Reply Submission}
      (h : submit (state.conditions failure) state.store gameType userId raw = reply) :
      (state.perform failure (.submit gameType userId raw)).1.store = reply.store ∧
      (state.perform failure (.submit gameType userId raw)).1.drawn = state.drawn + reply.drawn ∧
      (state.perform failure (.submit gameType userId raw)).2 = reply.outcome.map .submission := by
    subst h
    exact ⟨rfl, rfl, rfl⟩
  cases outcome : (calculate .builtIn gameType c raw).outcome with
  | error e =>
    refine .inl ⟨e.map .scoring, fun state version same chosen => ?_⟩
    rw [← same] at outcome
    obtain ⟨store, -, answer⟩ := performed (submit_unscored (state.conditions failure) raw chosen outcome)
    exact ⟨store, answer⟩
  | ok scores =>
    cases failure with
    | some failure =>
      refine .inl ⟨.refused (.store .submissionNotRecorded), fun state version same chosen => ?_⟩
      rw [← same] at outcome
      obtain ⟨store, -, answer⟩ :=
        performed (submit_uncommitted (state.conditions (some failure)) raw chosen outcome nofun)
      exact ⟨store, answer⟩
    | none =>
      refine .inr ⟨scores, fun state version same chosen => ?_⟩
      rw [← same] at outcome
      exact performed (submit_recorded (state.conditions none) raw chosen outcome rfl)

/-- A comparison reads and changes nothing. -/
theorem compareVersions_store (store : Store) (gameType : String) (ids : List String)
    (testData : Option Value) : (compareVersions store gameType ids testData).store = store := by
  unfold compareVersions
  cases comparable store gameType ids <;> rfl

end GameScoring.Service
