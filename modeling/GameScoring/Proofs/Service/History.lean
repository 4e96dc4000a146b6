import Mathlib.Data.List.Forall2
import GameScoring.Proofs.Service.Roster

/-!
# The history of submissions

The history of a run is the list of its submissions that succeeded. Every state that is reached
keeps one session and one receipt for each of them, in order, whatever else was asked for and
whatever failed. A session stays as it was recorded, and the version it names can be read to
this day: it was the active one, and it gives the same scores again.
-/
namespace GameScoring.Service
open Scoring Store

/-- A submission that succeeded: the state it was made in, what was submitted and the answer. -/
structure Recorded where
  before : State
  gameType : String
  userId : String
  raw : Value
  answer : Submission

namespace State

/-- What an operation adds to the history, by its answer. -/
def recorded (state : State) (operation : Operation) (answer : Answer Result) : List Recorded :=
  match operation, answer with
  | .submit gameType userId raw, .ok (.submission answer) => [⟨state, gameType, userId, raw, answer⟩]
  | _, _ => []

/-- The submissions of a run that succeeded, in order. -/
def history (state : State) : List Call → List Recorded
  | [] => []
  | (failure, operation) :: calls =>
    let (next, answer) := state.perform failure operation
    state.recorded operation answer ++ next.history calls

end State

/-- A session keeps a submission. The version it names was active then, has the game of the session
and gives the scores of the answer; only its mark can have changed since. -/
structure Keeps (state : State) (entry : Recorded) (session : Session) : Prop where
  id : session.id = entry.answer.sessionId
  userId : session.userId = entry.userId
  gameType : session.gameType = entry.gameType
  scores : session.finalScores = entry.answer.scores.value
  version : ∃ row ∈ state.store.rows, row.id = session.versionId ∧ row.gameType = session.gameType ∧
    ∃ version, row.read = .ok version ∧ version.name = entry.answer.versionUsed ∧
      (∀ failure, (entry.before.perform failure (.active entry.gameType)).2 =
        .ok (.version { version with active := true })) ∧
      (calculate .builtIn session.gameType version.configuration entry.raw).outcome =
        .ok entry.answer.scores

/-- At most so many; a negative number is no limit. -/
def atMost {α : Type} (limit : Int) (found : List α) : List α :=
  match limit with
  | .ofNat n => found.take n
  | .negSucc _ => found

/-- A state keeps a history: a session and a receipt for each submission, in order. -/
structure Chronicle (state : State) (history : List Recorded) : Prop where
  sessions : List.Forall₂ (Keeps state) history state.store.sessions
  receipts : state.store.receipts = history.map fun entry => ⟨entry.answer.sessionId, entry.raw⟩
  drawn : ∀ session ∈ state.store.sessions, ∃ serial ≤ state.drawn, session.id = idText serial
  distinct : (state.store.sessions.map (·.id)).Nodup
  ordered : state.store.sessions.Pairwise fun older newer => older.completedAt < newer.completedAt
  past : ∀ session ∈ state.store.sessions, session.completedAt < state.now

theorem Keeps.mono {state next : State} {entry : Recorded} {session : Session}
    (h : Keeps state entry session)
    (persists : ∀ row ∈ state.store.rows, ∃ active, row.withActive active ∈ next.store.rows) :
    Keeps next entry session := by
  obtain ⟨row, member, id, game, version, read, name, active, scored⟩ := h.version
  obtain ⟨mark, kept⟩ := persists row member
  obtain ⟨c, readable, made⟩ := ok_of_bind read
  cases made
  have readable : Configuration.ofPayload (.text (row.withActive mark).gameType)
      (row.withActive mark).payload = .ok c := readable
  exact { h with
    version := ⟨row.withActive mark, kept, id, game, ⟨(row.withActive mark).toHeading, c⟩,
      ok_of_widen (readRow_ok readable), name, active, scored⟩ }

/-- What is done to the rows of a state leaves every version in it. -/
theorem Effect.persists {state next : State} {f : Roster → Roster} (effect : Effect state next f) {row : Row}
    (member : row ∈ state.store.rows) : ∃ active, row.withActive active ∈ next.store.rows := by
  have marked {rows : List Row} (stood : row ∈ rows) (selected : Row → Bool) (active : Bool) :
      ∃ mark, row.withActive mark ∈ Store.mark selected active rows := ⟨_, mem_mark.2 ⟨row, stood, rfl⟩⟩
  cases effect with
  | kept rows => exact ⟨row.active, rows ▸ member⟩
  | saved c note checked rows =>
    rw [rows, addVersion]
    cases note.activate with
    | true =>
      obtain ⟨mark, kept⟩ := marked member (fun row => row.gameType == c.gameType && row.active) false
      exact ⟨mark, List.mem_append_left _ kept⟩
    | false => exact ⟨row.active, List.mem_append_left _ member⟩
  | activated gameType name target named rows =>
    rw [rows]
    obtain ⟨mark, kept⟩ := marked member (fun row => row.gameType == gameType && row.id != target.id) false
    exact ⟨_, mem_mark.2 ⟨_, kept, rfl⟩⟩

/-! ## What a step adds -/

/-- A state adds a session and a receipt to another one, for a submission that succeeded in it. -/
structure Adds (state next : State) (entry : Recorded) (session : Session) : Prop where
  sessions : next.store.sessions = state.store.sessions ++ [session]
  receipts : next.store.receipts = state.store.receipts ++ [⟨session.id, entry.raw⟩]
  id : session.id = idText (state.drawn + 1)
  drawn : state.drawn < next.drawn
  completedAt : session.completedAt = state.now
  passed : state.now < next.now
  keeps : Keeps next entry session

/-- Scoring that succeeds is reported last. -/
theorem calculate_passed {gameType : String} {c : Configuration} {raw : Value} {scores : Scores}
    (h : (calculate .builtIn gameType c raw).outcome = .ok scores) :
    ∃ events, (calculate .builtIn gameType c raw).events = events ++ [.passed gameType true] := by
  rw [calculate] at h ⊢
  split at h
  next => cases h
  next asked =>
    rw [if_neg asked]
    cases extracted : Telemetry.Registry.builtIn.extract gameType raw with
    | error e =>
      rw [extracted] at h
      cases h
    | ok environment =>
      simp only [extracted] at h ⊢
      cases outcome : (score c environment.bindings).outcome with
      | ok scores => exact ⟨_, rfl⟩
      | error e =>
        rw [outcome] at h
        cases e <;> cases h

/-- What is reported adds a second for every scoring that succeeded. -/
theorem now_of_happenings {state next : State} {events : List Event}
    (h : next.happenings = state.happenings ++ events.map Happening.scoring) :
    next.now = state.now + (events.map Happening.scoring).countP State.isScored := by
  simp only [State.now, h, List.countP_append]
  omega

theorem now_perform (state : State) (failure : Option CommitFailure) (operation : Operation) :
    state.now ≤ (state.perform failure operation).1.now := by
  have happenings : (state.perform failure operation).1.happenings = state.happenings ++
      (operation.perform (state.conditions failure) state.store).events.map Happening.scoring := rfl
  have now := now_of_happenings happenings
  omega

/-- The active version of a game is read from a marked row of it. -/
theorem row_of_active {store : Store} {gameType : String} {version : Version}
    (h : active store gameType = .ok version) :
    ∃ row ∈ store.rows, row.gameType = gameType ∧ row.active = true ∧ row.read = .ok version := by
  cases found : store.active? gameType with
  | none =>
    rw [active, found] at h
    cases h
  | some row =>
    rw [active, found] at h
    obtain ⟨stood, game⟩ := List.mem_filter.1 (List.mem_reverse.1 (List.mem_of_find?_eq_some found))
    have marked := List.find?_some found
    exact ⟨row, stood, beq_iff_eq.1 game, marked, ok_of_widen h⟩

theorem active_of_versionFor {store : Store} {gameType userId : String} {version : Version}
    (h : versionFor store gameType userId = .ok version) : active store gameType = .ok version := by
  rw [versionFor] at h
  by_cases nobody : userId.isEmpty = true
  · rw [if_pos nobody] at h
    cases h
  · rwa [if_neg nobody] at h

section Submit

variable (state : State) (failure : Option CommitFailure) (gameType userId : String) (raw : Value)

/-- What a submission that is recorded adds: the active version is kept as it is, and a second passes. -/
theorem adds_of_recorded {version : Version} {scores : Scores} (active : active state.store gameType = .ok version)
    (scored : (calculate .builtIn gameType version.configuration raw).outcome = .ok scores)
    (recorded : submit (state.conditions failure) state.store gameType userId raw =
      ⟨(state.store.addSession (sessionOf (state.conditions failure) gameType userId version scores)).addReceipt
          ⟨(state.conditions failure).freshId, raw⟩,
        (calculate .builtIn gameType version.configuration raw).events, 2,
        .ok ⟨(state.conditions failure).freshId, version.name, scores⟩⟩) :
    Adds state (state.perform failure (.submit gameType userId raw)).1
      ⟨state, gameType, userId, raw, ⟨(state.conditions failure).freshId, version.name, scores⟩⟩
      (sessionOf (state.conditions failure) gameType userId version scores) := by
  have store : (state.perform failure (.submit gameType userId raw)).1.store =
      (submit (state.conditions failure) state.store gameType userId raw).store := rfl
  have drawn : (state.perform failure (.submit gameType userId raw)).1.drawn =
      state.drawn + (submit (state.conditions failure) state.store gameType userId raw).drawn := rfl
  have happenings : (state.perform failure (.submit gameType userId raw)).1.happenings = state.happenings ++
      (submit (state.conditions failure) state.store gameType userId raw).events.map Happening.scoring := rfl
  rw [recorded] at store drawn happenings
  obtain ⟨row, stood, game, marked, read⟩ := row_of_active active
  have heading := toHeading_of_read read
  have marked : version.active = true := (congrArg Heading.active heading).trans marked
  obtain ⟨events, passed⟩ := calculate_passed scored
  have now := now_of_happenings happenings
  rw [passed, List.map_append, List.countP_append] at now
  have counted : ([Event.passed gameType true].map Happening.scoring).countP State.isScored = 1 := rfl
  refine
    { sessions := congrArg Store.sessions store
      receipts := congrArg Store.receipts store
      id := rfl
      drawn := by simp only [drawn]; omega
      completedAt := rfl
      passed := by omega
      keeps := ⟨rfl, rfl, rfl, rfl, row, ?_, ?_, game, version, read, rfl, ?_, scored⟩ }
  · rw [store]
    exact stood
  · exact (congrArg Heading.id heading).symm
  · intro failure
    have same : { version with active := true } = version := by rw [← marked]
    rw [same]
    exact congrArg (Except.map Result.version) active

/-- A submission adds a session and a receipt, or it fails and leaves the store as it was. -/
theorem submit_adds :
    (∃ answer session, (state.perform failure (.submit gameType userId raw)).2 = .ok (.submission answer) ∧
      Adds state (state.perform failure (.submit gameType userId raw)).1
        ⟨state, gameType, userId, raw, answer⟩ session) ∨
    (∃ e, (state.perform failure (.submit gameType userId raw)).2 = .error e) ∧
      (state.perform failure (.submit gameType userId raw)).1.store = state.store := by
  have store : (state.perform failure (.submit gameType userId raw)).1.store =
      (submit (state.conditions failure) state.store gameType userId raw).store := rfl
  have answer : (state.perform failure (.submit gameType userId raw)).2 =
      (submit (state.conditions failure) state.store gameType userId raw).outcome.map .submission := rfl
  cases chosen : versionFor state.store gameType userId with
  | error e =>
    have refused : submit (state.conditions failure) state.store gameType userId raw =
        .unchanged state.store (.error e) := by rw [submit, chosen]
    rw [refused] at store answer
    exact .inr ⟨⟨e, answer⟩, store⟩
  | ok version =>
    rcases submit_cases (state.conditions failure) raw chosen with
      ⟨e, -, refused⟩ | ⟨scores, scored, ⟨-, failed⟩ | ⟨-, recorded⟩⟩
    · rw [refused] at store answer
      exact .inr ⟨⟨_, answer⟩, store⟩
    · rw [failed] at store answer
      exact .inr ⟨⟨_, answer⟩, store⟩
    · have adds := adds_of_recorded state failure gameType userId raw (active_of_versionFor chosen) scored recorded
      rw [recorded] at answer
      exact .inl ⟨_, _, answer, adds⟩

end Submit

/-- Nothing but a submission that succeeds changes the sessions and the receipts. -/
theorem perform_adds (state : State) (failure : Option CommitFailure) (operation : Operation) :
    (∃ entry session, state.recorded operation (state.perform failure operation).2 = [entry] ∧
      Adds state (state.perform failure operation).1 entry session) ∨
    state.recorded operation (state.perform failure operation).2 = [] ∧
      (state.perform failure operation).1.store.sessions = state.store.sessions ∧
      (state.perform failure operation).1.store.receipts = state.store.receipts := by
  cases operation with
  | submit gameType userId raw =>
    rcases submit_adds state failure gameType userId raw with
      ⟨answer, session, succeeded, adds⟩ | ⟨⟨e, failed⟩, store⟩
    · exact .inl ⟨_, session, by rw [succeeded]; rfl, adds⟩
    · exact .inr ⟨by rw [failed]; rfl, congrArg Store.sessions store, congrArg Store.receipts store⟩
  | save request =>
    refine .inr ⟨rfl, ?_⟩
    rcases perform_save failure request with ⟨e, refused⟩ | ⟨c, note, -, -, saved⟩
    · rw [refused state]
      exact ⟨rfl, rfl⟩
    · rw [saved state]
      exact ⟨rfl, rfl⟩
  | setActive gameType name =>
    have store : (state.perform failure (.setActive gameType name)).1.store =
        (setActive (state.conditions failure) state.store gameType name).store := rfl
    refine .inr ⟨rfl, ?_⟩
    rcases setActive_cases (state.conditions failure) state.store gameType name with
      ⟨e, refused⟩ | ⟨target, cleared, -, -, activated⟩
    · rw [store, refused]
      exact ⟨rfl, rfl⟩
    · rw [store, activated]
      exact ⟨rfl, rfl⟩
  | compare gameType ids testData =>
    have store : (state.perform failure (.compare gameType ids testData)).1.store = state.store :=
      compareVersions_store state.store gameType ids testData
    exact .inr ⟨rfl, congrArg Store.sessions store, congrArg Store.receipts store⟩
  | _ => exact .inr ⟨rfl, rfl, rfl⟩

/-! ## Runs -/

namespace Chronicle

variable {state : State} {history : List Recorded}

theorem initial : Chronicle .initial [] where
  sessions := .nil
  receipts := rfl
  drawn _ member := nomatch member
  distinct := .nil
  ordered := .nil
  past _ member := nomatch member

/-- A step that adds nothing keeps the history. -/
theorem keep {next : State} (h : Chronicle state history)
    (persists : ∀ row ∈ state.store.rows, ∃ active, row.withActive active ∈ next.store.rows)
    (sessions : next.store.sessions = state.store.sessions)
    (receipts : next.store.receipts = state.store.receipts)
    (drawn : state.drawn ≤ next.drawn) (now : state.now ≤ next.now) : Chronicle next history where
  sessions := by
    rw [sessions]
    exact h.sessions.imp fun _ _ keeps => keeps.mono persists
  receipts := receipts.trans h.receipts
  drawn session member := by
    obtain ⟨serial, bound, id⟩ := h.drawn session (sessions ▸ member)
    exact ⟨serial, Nat.le_trans bound drawn, id⟩
  distinct := sessions ▸ h.distinct
  ordered := sessions ▸ h.ordered
  past session member := Int.lt_of_lt_of_le (h.past session (sessions ▸ member)) now

/-- A step that adds a session adds the submission to the history. -/
theorem add {next : State} {entry : Recorded} {session : Session} (h : Chronicle state history)
    (persists : ∀ row ∈ state.store.rows, ∃ active, row.withActive active ∈ next.store.rows)
    (adds : Adds state next entry session) : Chronicle next (history ++ [entry]) where
  sessions := by
    rw [adds.sessions]
    have old := h.sessions.imp fun _ _ keeps => keeps.mono persists
    exact List.rel_append old (.cons adds.keeps .nil)
  receipts := by
    rw [adds.receipts, h.receipts, List.map_append, adds.keeps.id]
    rfl
  drawn other member := by
    rw [adds.sessions] at member
    rcases List.mem_append.1 member with old | new
    · obtain ⟨serial, bound, id⟩ := h.drawn other old
      exact ⟨serial, Nat.le_trans bound (Nat.le_of_lt adds.drawn), id⟩
    · cases List.mem_singleton.1 new
      exact ⟨state.drawn + 1, adds.drawn, adds.id⟩
  distinct := by
    rw [adds.sessions, List.map_append, List.nodup_append]
    refine ⟨h.distinct, List.nodup_singleton _, ?_⟩
    intro id old other new same
    obtain ⟨older, stood, rfl⟩ := List.mem_map.1 old
    obtain ⟨serial, bound, drawn⟩ := h.drawn older stood
    cases List.mem_singleton.1 new
    have serials := idText_inj.1 (drawn.symm.trans (same.trans adds.id))
    omega
  ordered := by
    rw [adds.sessions, List.pairwise_append]
    refine ⟨h.ordered, List.pairwise_singleton .., ?_⟩
    intro older old newer new
    cases List.mem_singleton.1 new
    rw [adds.completedAt]
    exact h.past older old
  past other member := by
    rw [adds.sessions] at member
    rcases List.mem_append.1 member with old | new
    · exact Int.lt_trans (h.past other old) adds.passed
    · cases List.mem_singleton.1 new
      rw [adds.completedAt]
      exact adds.passed

theorem perform {roster : Roster} (h : Chronicle state history) (represents : Represents state roster)
    (failure : Option CommitFailure) (operation : Operation) :
    Chronicle (state.perform failure operation).1
      (history ++ state.recorded operation (state.perform failure operation).2) := by
  have persists : ∀ row ∈ state.store.rows,
      ∃ active, row.withActive active ∈ (state.perform failure operation).1.store.rows :=
    fun _ member => (effect_perform represents failure operation).persists member
  rcases perform_adds state failure operation with ⟨entry, session, recorded, adds⟩ | ⟨none, sessions, receipts⟩
  · rw [recorded]
    exact h.add persists adds
  · rw [none, List.append_nil]
    exact h.keep persists sessions receipts (Nat.le_add_right ..) (now_perform state failure operation)

theorem run {roster : Roster} (h : Chronicle state history) (represents : Represents state roster)
    (calls : List Call) : Chronicle (state.run calls) (history ++ state.history calls) := by
  induction calls generalizing state roster history with
  | nil =>
    rw [State.history, List.append_nil]
    exact h
  | cons call calls ih =>
    have rest := ih (h.perform represents call.1 call.2) (represents.perform call.1 call.2)
    rw [List.append_assoc] at rest
    exact rest

end Chronicle

end GameScoring.Service
