import GameScoring.Proofs.Service.Roster

/-!
# The active version

Whatever operations are performed one after another on an empty store, the one marked row of a
game is the row that the pointer of the roster names, and what the service answers about
active versions agrees with the pointer.
-/
namespace GameScoring.Service
open Scoring Store

/-- A list of names without repetition that holds only one name. -/
theorem eq_singleton_of_nodup {names : List String} {name : String} (distinct : names.Nodup)
    (only : ∀ other ∈ names, other = name) (member : name ∈ names) : names = [name] := by
  have replicated : names = List.replicate names.length name := List.eq_replicate_of_mem only
  have most : names.length ≤ 1 := by
    rw [replicated, List.nodup_replicate] at distinct
    exact distinct
  have least : 0 < names.length := List.length_pos_of_mem member
  calc
    names = List.replicate names.length name := replicated
    _ = [name] := by rw [show names.length = 1 by omega]; rfl

/-- A submission is scored with a version: what scoring with its configuration reports is reported, a
failure to score is the answer, and scores are recorded under the version and answered with its name. -/
structure ScoredWith (state : State) (failure : Option CommitFailure) (gameType userId : String)
    (raw : Value) (version : Version) : Prop where
  reported : (state.perform failure (.submit gameType userId raw)).1.happenings =
    state.happenings ++ (calculate .builtIn gameType version.configuration raw).events.map Happening.scoring
  refused : ∀ e, (calculate .builtIn gameType version.configuration raw).outcome = .error e →
    (state.perform failure (.submit gameType userId raw)).2 = .error (e.map .scoring)
  recorded : ∀ scores, (calculate .builtIn gameType version.configuration raw).outcome = .ok scores →
    failure = none → ∃ session : Session, session.userId = userId ∧ session.gameType = gameType ∧
      session.versionId = version.id ∧ session.finalScores = scores.value ∧
      (state.perform failure (.submit gameType userId raw)).1.store.sessions =
        state.store.sessions ++ [session] ∧
      (state.perform failure (.submit gameType userId raw)).2 =
        .ok (.submission ⟨session.id, version.name, scores⟩)

theorem scoredWith_of_active {state : State} {gameType userId : String} {version : Version}
    (user : userId ≠ "") (active : active state.store gameType = .ok version)
    (failure : Option CommitFailure) (raw : Value) :
    ScoredWith state failure gameType userId raw version := by
  have chosen : versionFor state.store gameType userId = .ok version := by
    rw [versionFor, if_neg (by simpa using user), active]
  have happenings : (state.perform failure (.submit gameType userId raw)).1.happenings = state.happenings ++
      (submit (state.conditions failure) state.store gameType userId raw).events.map Happening.scoring := rfl
  have store : (state.perform failure (.submit gameType userId raw)).1.store =
      (submit (state.conditions failure) state.store gameType userId raw).store := rfl
  have answer : (state.perform failure (.submit gameType userId raw)).2 =
      (submit (state.conditions failure) state.store gameType userId raw).outcome.map .submission := rfl
  rcases submit_cases (state.conditions failure) raw chosen with
    ⟨e, outcome, refused⟩ | ⟨scores, outcome, ⟨fails, failed⟩ | ⟨commits, recorded⟩⟩
  · rw [refused] at happenings answer
    refine ⟨happenings, ?_, ?_⟩
    · intro other same
      cases outcome.symm.trans same
      exact answer
    · intro scores same
      cases outcome.symm.trans same
  · rw [failed] at happenings
    refine ⟨happenings, ?_, ?_⟩
    · intro e same
      cases outcome.symm.trans same
    · intro _ _ commits
      exact absurd commits fails
  · rw [recorded] at happenings store answer
    refine ⟨happenings, ?_, ?_⟩
    · intro e same
      cases outcome.symm.trans same
    · intro other same _
      cases outcome.symm.trans same
      exact ⟨sessionOf (state.conditions failure) gameType userId version scores, rfl, rfl, rfl, rfl,
        congrArg Store.sessions store, answer⟩

theorem active_of_perform {state : State} {failure : Option CommitFailure} {gameType : String}
    {version : Version} (h : (state.perform failure (.active gameType)).2 = .ok (.version version)) :
    active state.store gameType = .ok version := by
  have answer : (active state.store gameType).map Result.version = .ok (.version version) := h
  cases found : active state.store gameType with
  | error e =>
    rw [found] at answer
    cases answer
  | ok other =>
    rw [found] at answer
    cases answer
    rfl

/-- Everything that is shown of the versions of a game agrees with a roster. -/
structure Agrees (state : State) (roster : Roster) (gameType : String) : Prop where
  /-- The versions have distinct names, those of the first numbers in the order of the saves. -/
  names : ((state.store.rowsOf gameType).map (·.name)) =
    (List.range' 1 (roster.saved gameType)).map versionName
  distinct : ((state.store.rowsOf gameType).map (·.name)).Nodup
  /-- The marked rows are the row that the pointer names, or none without a pointer. -/
  marks : ((state.store.rowsOf gameType).filter (·.active)).map (·.name) = (roster.pointer gameType).toList
  inactive : roster.pointer gameType = none → ∀ failure,
    (state.perform failure (.active gameType)).2 = refuse (.noActiveVersion gameType) ∧
    ∀ userId raw, userId ≠ "" →
      (state.perform failure (.submit gameType userId raw)).2 = refuse (.noActiveVersion gameType)
  active : ∀ name, roster.pointer gameType = some name →
    ∃ row ∈ state.store.rowsOf gameType, ∃ version, row.read = .ok version ∧ version.name = name ∧
      version.gameType = gameType ∧ version.active = true ∧ ∀ failure,
        (state.perform failure (.active gameType)).2 = .ok (.version version) ∧
        ∀ userId raw, userId ≠ "" → ScoredWith state failure gameType userId raw version
  listed : ∃ versions, versions.map (·.toHeading) = (state.store.history gameType).map (·.toHeading) ∧
    (∀ version ∈ versions, version.active = true ↔ roster.pointer gameType = some version.name) ∧
    ∀ failure, (state.perform failure (.versions gameType)).2 = .ok (.versions versions)

namespace Represents

variable {state : State} {roster : Roster} {gameType name : String} {row : Row}

theorem active?_eq_none (h : Represents state roster) (unpointed : roster.pointer gameType = none) :
    state.store.active? gameType = none := by
  apply List.find?_eq_none.2
  intro row member marked
  obtain ⟨stood, game⟩ := List.mem_filter.1 (List.mem_reverse.1 member)
  have pointed := (h.marked row stood).1 marked
  rw [beq_iff_eq.1 game, unpointed] at pointed
  cases pointed

theorem active?_eq_some (h : Represents state roster) (pointed : roster.pointer gameType = some name) :
    ∃ row ∈ state.store.rowsOf gameType, row.gameType = gameType ∧ row.name = name ∧ row.active = true ∧
      state.store.active? gameType = some row := by
  obtain ⟨row, stood, game, named⟩ := h.pointed gameType name pointed
  have marked : row.active = true := (h.marked row stood).2 (by rw [game, named, pointed])
  have member : row ∈ state.store.rowsOf gameType := List.mem_filter.2 ⟨stood, by simp [game]⟩
  cases found : (state.store.rowsOf gameType).reverse.find? (·.active) with
  | none => exact absurd marked (List.find?_eq_none.1 found row (List.mem_reverse.2 member))
  | some other =>
    have other_member := List.mem_reverse.1 (List.mem_of_find?_eq_some found)
    obtain ⟨other_stood, other_game⟩ := List.mem_filter.1 other_member
    have other_marked := List.find?_some found
    have other_pointed := (h.marked other other_stood).1 other_marked
    rw [beq_iff_eq.1 other_game, pointed, Option.some_inj] at other_pointed
    exact ⟨other, other_member, beq_iff_eq.1 other_game, other_pointed.symm, other_marked, found⟩

theorem marks (h : Represents state roster) (gameType : String) :
    ((state.store.rowsOf gameType).filter (·.active)).map (·.name) = (roster.pointer gameType).toList := by
  have marked : ∀ row ∈ (state.store.rowsOf gameType).filter (·.active),
      roster.pointer gameType = some row.name := by
    intro row member
    obtain ⟨member, active⟩ := List.mem_filter.1 member
    obtain ⟨stood, game⟩ := List.mem_filter.1 member
    exact beq_iff_eq.1 game ▸ (h.marked row stood).1 active
  cases pointed : roster.pointer gameType with
  | none =>
    rw [List.eq_nil_iff_forall_not_mem.2 fun row member => nomatch pointed.symm.trans (marked row member)]
    rfl
  | some name =>
    apply eq_singleton_of_nodup
    · exact (h.names_distinct gameType).sublist (List.filter_sublist.map _)
    · intro other member
      obtain ⟨row, row_member, rfl⟩ := List.mem_map.1 member
      exact (Option.some_inj.1 (pointed.symm.trans (marked row row_member))).symm
    · obtain ⟨row, member, -, named, active, -⟩ := h.active?_eq_some pointed
      exact List.mem_map.2 ⟨row, List.mem_filter.2 ⟨member, active⟩, named⟩

theorem agrees (h : Represents state roster) (gameType : String) : Agrees state roster gameType where
  names := h.names gameType
  distinct := h.names_distinct gameType
  marks := h.marks gameType
  inactive unpointed failure := by
    have active : active state.store gameType = refuse (.noActiveVersion gameType) := by
      rw [Service.active, h.active?_eq_none unpointed]
    refine ⟨congrArg (Except.map Result.version) active, fun userId raw user => ?_⟩
    have chosen : versionFor state.store gameType userId = refuse (.noActiveVersion gameType) := by
      rw [versionFor, if_neg (by simpa using user), active]
    have refused : (submit (state.conditions failure) state.store gameType userId raw).outcome =
        refuse (.noActiveVersion gameType) := by
      rw [submit, chosen]
      rfl
    exact congrArg (Except.map Result.submission) refused
  active name pointed := by
    obtain ⟨row, member, game, named, marked, found⟩ := h.active?_eq_some pointed
    obtain ⟨c, readable⟩ := h.readable row (List.mem_filter.1 member).1
    have active : active state.store gameType = .ok ⟨row.toHeading, c⟩ := by
      rw [Service.active, found]
      exact readRow_ok readable
    have read : row.read = .ok ⟨row.toHeading, c⟩ := ok_of_widen (readRow_ok readable)
    refine ⟨row, member, ⟨row.toHeading, c⟩, read, named, game, marked, fun failure => ⟨?_, ?_⟩⟩
    · exact congrArg (Except.map Result.version) active
    · intro userId raw user
      exact scoredWith_of_active user active failure raw
  listed := by
    have readable : ∀ row ∈ state.store.history gameType,
        ∃ c, Configuration.ofPayload (.text row.gameType) row.payload = .ok c := by
      intro row member
      exact h.readable row (List.mem_filter.1 (List.mem_reverse.1 member)).1
    obtain ⟨versions, read, headings⟩ := readRows_ok readable
    refine ⟨versions, headings, fun version member => ?_, fun failure => ?_⟩
    · have heading : version.toHeading ∈ (state.store.history gameType).map (·.toHeading) :=
        headings ▸ List.mem_map.2 ⟨version, member, rfl⟩
      obtain ⟨row, row_member, same⟩ := List.mem_map.1 heading
      obtain ⟨stood, game⟩ := List.mem_filter.1 (List.mem_reverse.1 row_member)
      rw [← same, ← beq_iff_eq.1 game]
      exact h.marked row stood
    · exact congrArg (Except.map Result.versions) read

end Represents

/-- Whatever operations are performed one after another on an empty store, everything that is shown of the
versions of a game agrees with the roster of the operations that succeeded. -/
theorem marks_follow_last_activation (calls : List Call) (gameType : String) :
    Agrees (State.initial.run calls) (Roster.empty.replay (State.initial.log calls)) gameType :=
  (Represents.initial.run calls).agrees gameType

/-- The second version is saved without a mark; it is answered after the activation that commits. -/
theorem activated_version_is_answered :
    let request (activate : Bool) : SaveRequest :=
      ⟨.text "memory", .record [("focus", .text "x")], .object [], .null, ⟨.null, .null, .bool activate⟩⟩
    let calls : List Call := [(none, .save (request true)), (none, .save (request false)),
      (some .operational, .setActive "memory" "v2"), (none, .setActive "memory" "v2"),
      (none, .setActive "memory" "v3")]
    ∃ version : Version, version.name = "v2" ∧
      ((State.initial.run calls).perform none (.active "memory")).2 = .ok (.version version) := by
  intro request calls
  have pointed : (Roster.empty.replay (State.initial.log calls)).pointer "memory" = some "v2" := by
    decide +kernel
  obtain ⟨row, -, version, -, name, -, -, answer⟩ :=
    (marks_follow_last_activation calls "memory").active "v2" pointed
  exact ⟨version, name, (answer none).1⟩

end GameScoring.Service
