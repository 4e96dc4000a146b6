import GameScoring.Proofs.Service.Results
import GameScoring.Proofs.Service.Usability

/-!
# What leaves games untouched

An operation is on one game or on none. What fails and what only reads does not change the store, and what is
asked for on other games leaves the rows and the records of a game as they are.
-/
namespace GameScoring.Service
open Scoring Store

/-! ## Reached states -/

theorem State.run_append (state : State) (calls later : List Call) :
    state.run (calls ++ later) = (state.run calls).run later := by
  induction calls generalizing state with
  | nil => rfl
  | cons call calls ih => exact ih (state.perform call.1 call.2).1

/-- A state after operations that are performed one after another on an empty store. -/
def Reached (state : State) : Prop := ∃ calls, State.initial.run calls = state

namespace Reached

variable {state : State}

theorem initial : Reached .initial := ⟨[], rfl⟩

theorem perform (h : Reached state) (failure : Option CommitFailure) (operation : Operation) :
    Reached (state.perform failure operation).1 := by
  obtain ⟨calls, rfl⟩ := h
  exact ⟨calls ++ [(failure, operation)], State.run_append ..⟩

theorem represents (h : Reached state) : ∃ roster, Represents state roster := by
  obtain ⟨calls, rfl⟩ := h
  exact ⟨_, Represents.initial.run calls⟩

theorem chronicle (h : Reached state) : ∃ history, Chronicle state history := by
  obtain ⟨calls, rfl⟩ := h
  exact ⟨_, Chronicle.initial.run Represents.initial calls⟩

theorem usable (h : Reached state) : ∀ row ∈ state.store.rows, UsableRow row := by
  obtain ⟨calls, rfl⟩ := h
  exact usable_run calls

theorem length_receipts (h : Reached state) :
    state.store.sessions.length = state.store.receipts.length := by
  obtain ⟨history, chronicle⟩ := h.chronicle
  rw [chronicle.receipts, List.length_map, chronicle.sessions.length_eq]

end Reached

/-! ## What an operation is about -/

/-- The game that a value names. What is not text names none. -/
def namedGame? : Value → Option String
  | .text gameType => some gameType
  | _ => none

/-- The game that an operation is on. -/
def Operation.gameType? : Operation → Option String
  | .save request => namedGame? request.gameType
  | .preview request => namedGame? request.gameType
  | .setActive gameType _ | .submit gameType _ _ | .active gameType | .versions gameType
  | .results gameType _ _ | .compare gameType _ _ | .catalogue gameType => some gameType
  | .validate _ _ => none

/-- Whether an operation may change the store. The others only read it. -/
def Operation.writes : Operation → Bool
  | .save _ | .setActive _ _ | .submit _ _ _ => true
  | _ => false

/-- Whether an operation asks for versions by their ids. -/
def Operation.compares : Operation → Bool
  | .compare _ _ _ => true
  | _ => false

namespace State

/-- The rows of some games. -/
def rowsIn (state : State) (games : String → Bool) : List Row :=
  state.store.rows.filter fun row => games row.gameType

/-- The sessions of some games, each with its telemetry. -/
def records (state : State) (games : String → Bool) : List (Session × Receipt) :=
  (state.store.sessions.zip state.store.receipts).filter fun record => games record.1.gameType

end State

/-! ## What leaves games untouched -/

/-- A step that leaves the rows and records of some games as they are. -/
structure Untouched (games : String → Bool) (state next : State) : Prop where
  rows : next.rowsIn games = state.rowsIn games
  records : next.records games = state.records games
  drawn : state.drawn ≤ next.drawn

theorem Untouched.of_store {games : String → Bool} {state next : State} (store : next.store = state.store)
    (drawn : state.drawn ≤ next.drawn) : Untouched games state next := by
  refine ⟨?_, ?_, drawn⟩
  · rw [State.rowsIn, State.rowsIn, store]
  · rw [State.records, State.records, store]

theorem drawn_perform (state : State) (failure : Option CommitFailure) (operation : Operation) :
    state.drawn ≤ (state.perform failure operation).1.drawn := Nat.le_add_right ..

/-- What only reads does not change the store. -/
theorem store_of_read (state : State) (failure : Option CommitFailure) {operation : Operation}
    (reads : operation.writes = false) : (state.perform failure operation).1.store = state.store := by
  cases operation with
  | save _ | setActive _ _ | submit _ _ _ => cases reads
  | compare gameType ids testData => exact compareVersions_store state.store gameType ids testData
  | _ => rfl

section Reached

variable {state : State} (h : Reached state) (failure : Option CommitFailure)
include h

/-- What fails does not change the store. -/
theorem store_of_error {operation : Operation} {e : Failure Refusal}
    (failed : (state.perform failure operation).2 = .error e) :
    (state.perform failure operation).1.store = state.store := by
  cases operation with
  | save request =>
    rcases perform_save failure request with ⟨e, refused⟩ | ⟨c, note, -, -, saved⟩
    · rw [refused state]
    · rw [saved state] at failed
      cases failed
  | setActive gameType name =>
    obtain ⟨roster, represents⟩ := h.represents
    rw [perform_setActive represents h.usable] at failed ⊢
    cases named : state.store.named? gameType name with
    | none => rfl
    | some target =>
      cases failure with
      | some failure => rfl
      | none =>
        -- The version is read again, so the activation succeeds.
        obtain ⟨c, readable⟩ := represents.readable target (of_named? named).1
        have read : readRow (target.withActive true) = .ok ⟨(target.withActive true).toHeading, c⟩ :=
          readRow_ok readable
        rw [named] at failed
        simp only [read] at failed
        cases failed
  | submit gameType userId raw =>
    rcases submit_adds state failure gameType userId raw with ⟨answer, session, succeeded, -⟩ | ⟨-, store⟩
    · exact nomatch succeeded.symm.trans failed
    · exact store
  | _ => exact store_of_read state failure rfl

variable {games : String → Bool} {operation : Operation}

theorem records_append {next : State} {session : Session} {receipt : Receipt}
    (sessions : next.store.sessions = state.store.sessions ++ [session])
    (receipts : next.store.receipts = state.store.receipts ++ [receipt]) :
    next.records games = state.records games ++ [(session, receipt)].filter fun record =>
      games record.1.gameType := by
  rw [State.records, sessions, receipts, List.zip_append h.length_receipts, List.filter_append]
  rfl

omit h in
theorem rowsIn_addVersion (state : State) (id : String) (c : Configuration) (note : SaveNote) {next : State}
    (rows : next.store.rows = (state.store.addVersion id c note).1.rows) :
    next.rowsIn games =
      (if note.activate then mark (fun row => row.gameType == c.gameType && row.active) false (state.rowsIn games)
        else state.rowsIn games) ++ [state.store.newRow id c note].filter fun row => games row.gameType := by
  rw [State.rowsIn, rows, addVersion, List.filter_append]
  cases note.activate with
  | true =>
    rw [if_pos rfl, if_pos rfl, filter_mark _ fun _ => rfl]
    rfl
  | false => rfl

omit h in
theorem rowsIn_mark {next : State} {gameType : String} {target : Row}
    (rows : next.store.rows = mark (·.id == target.id) true
      (mark (fun row => row.gameType == gameType && row.id != target.id) false state.store.rows)) :
    next.rowsIn games = mark (·.id == target.id) true
      (mark (fun row => row.gameType == gameType && row.id != target.id) false (state.rowsIn games)) := by
  rw [State.rowsIn, rows, filter_mark _ fun _ => rfl, filter_mark _ fun _ => rfl]
  rfl

/-- What is asked for on other games leaves games untouched. -/
theorem untouched_of_other (other : ∀ gameType, operation.gameType? = some gameType → games gameType = false) :
    Untouched games state (state.perform failure operation).1 := by
  have drawn := drawn_perform state failure operation
  have ne_of_away {gameType : String} (away : games gameType = false) :
      ∀ row ∈ state.rowsIn games, row.gameType ≠ gameType := by
    intro row member same
    have inside := (List.mem_filter.1 member).2
    rw [same, away] at inside
    cases inside
  cases operation with
  | save request =>
    rcases perform_save failure request with ⟨e, refused⟩ | ⟨c, note, configured, -, saved⟩
    · exact .of_store (by rw [refused state]) drawn
    · obtain ⟨game, -⟩ := SaveRequest.required configured
      have away : games c.gameType = false := other c.gameType (by rw [Operation.gameType?, game]; rfl)
      have rows : (state.perform failure (.save request)).1.store.rows =
          (state.store.addVersion (idText (state.drawn + 1)) c note).1.rows := by rw [saved state]
      have unselected : ∀ row ∈ state.rowsIn games, (row.gameType == c.gameType && row.active) = false := by
        intro row member
        simp [ne_of_away away row member]
      have dropped : ([state.store.newRow (idText (state.drawn + 1)) c note].filter fun row =>
          games row.gameType) = [] := by simp [newRow, away]
      refine ⟨?_, ?_, drawn⟩
      · rw [rowsIn_addVersion state _ c note rows, dropped, List.append_nil, mark_eq_self unselected, ite_self]
      · rw [saved state]
        rfl
  | setActive gameType name =>
    have away : games gameType = false := other gameType rfl
    obtain ⟨roster, represents⟩ := h.represents
    rw [perform_setActive represents h.usable]
    cases named : state.store.named? gameType name with
    | none => exact .of_store rfl (Nat.le_refl _)
    | some target =>
      obtain ⟨stood, game, -⟩ := of_named? named
      cases failure with
      | some failure => exact .of_store rfl (Nat.le_refl _)
      | none =>
        have uncleared : ∀ row ∈ state.rowsIn games, (row.gameType == gameType && row.id != target.id) = false := by
          intro row member
          simp [ne_of_away away row member]
        have unmarked : ∀ row ∈ state.rowsIn games, (row.id == target.id) = false := by
          intro row member
          have other_id : row.id ≠ target.id := by
            intro same
            have row_eq := represents.eq_of_id (List.mem_of_mem_filter member) stood same
            exact ne_of_away away row member (row_eq ▸ game)
          simp [other_id]
        refine ⟨?_, rfl, Nat.le_refl _⟩
        rw [rowsIn_mark rfl, mark_eq_self uncleared, mark_eq_self unmarked]
  | submit gameType userId raw =>
    have away : games gameType = false := other gameType rfl
    rcases submit_adds state failure gameType userId raw with ⟨answer, session, -, adds⟩ | ⟨-, store⟩
    · have dropped : ([(session, (⟨session.id, raw⟩ : Receipt))].filter fun record =>
          games record.1.gameType) = [] := by simp [adds.keeps.gameType, away]
      refine ⟨?_, ?_, drawn⟩
      · exact congrArg (List.filter _) (submit_rows (state.conditions failure) raw gameType userId)
      · rw [records_append h adds.sessions adds.receipts, dropped, List.append_nil]
    · exact .of_store store drawn
  | _ => exact .of_store (store_of_read state failure rfl) drawn

end Reached

end GameScoring.Service
