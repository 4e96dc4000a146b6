import GameScoring.Proofs.Service.Parallel

/-!
# What a run can be reduced to

Operations that failed and operations that only read can be left out of a run: the others are answered as
before, and the store in the end is the same. For one game, operations on other games can be left out. Ids and
times aside, nothing that is shown tells the runs apart.
-/
namespace GameScoring.Service
open Scoring Store

/-! ## Failures -/

/-- Stores that differ in ids that correspond, and in times. -/
structure SameStore (R : String → String → Prop) (s t : Store) : Prop where
  rows : List.Forall₂ (SameRow R) s.rows t.rows
  sessions : List.Forall₂ (SameSession R) s.sessions t.sessions
  receipts : List.Forall₂ (SameReceipt R) s.receipts t.receipts

theorem Alike.sameStore {R : String → String → Prop} {s t : State} (h : Alike (fun _ => true) R s t)
    (left : Reached s) (right : Reached t) : SameStore R s.store t.store := by
  have all {α : Type} (as : List α) : (as.filter fun _ => true) = as := List.filter_eq_self.2 fun _ _ => rfl
  have rows := h.rows
  have records := h.records
  rw [State.rowsIn, State.rowsIn, all, all] at rows
  rw [State.records, State.records, all, all] at records
  refine ⟨rows, ?_, ?_⟩
  · rw [← List.map_fst_zip (Nat.le_of_eq left.length_receipts),
      ← List.map_fst_zip (Nat.le_of_eq right.length_receipts), List.forall₂_map_left_iff,
      List.forall₂_map_right_iff]
    exact records.imp fun _ _ same => same.1
  · rw [← List.map_snd_zip (Nat.le_of_eq left.length_receipts.symm),
      ← List.map_snd_zip (Nat.le_of_eq right.length_receipts.symm), List.forall₂_map_left_iff,
      List.forall₂_map_right_iff]
    exact records.imp fun _ _ same => same.2

/-- An operation that changed the store if it did anything: it is none that only reads, and it succeeded. -/
def lasts (entry : Call × Answer Result) : Bool := entry.1.2.writes && entry.2.isOk

theorem selects_lasts : Selects (fun _ => true) lasts where
  inside _ _ _ _ := rfl
  untouched state reached failure operation kept := by
    refine .of_store ?_ (drawn_perform state failure operation)
    cases writes : operation.writes with
    | false => exact store_of_read state failure writes
    | true =>
      cases answer : (state.perform failure operation).2 with
      | error e => exact store_of_error reached failure answer
      | ok result =>
        rw [lasts, writes, answer] at kept
        cases kept

theorem compares_of_writes {operation : Operation} (writes : operation.writes = true) :
    operation.compares = false := by
  cases operation with
  | compare _ _ _ => cases writes
  | _ => rfl

/-- A run leaves behind what lasts of it, and nothing else. -/
structure Traceless (calls : List Call) : Prop where
  /-- What fails and what only reads leaves the store as it was. -/
  unchanged : ∀ failure operation,
    (operation.writes = false ∨ ∃ e, ((State.initial.run calls).perform failure operation).2 = .error e) →
      ((State.initial.run calls).perform failure operation).1.store = (State.initial.run calls).store
  /-- A run of what lasts alone is answered alike, ends in the same store and is answered alike from then on. -/
  replayed :
    let lasting := (State.initial.transcript calls).filter lasts
    let replay := State.initial.run (lasting.map Prod.fst)
    ∃ R, Relator.BiUnique R ∧ SameStore R (State.initial.run calls).store replay.store ∧
      List.Forall₂ (fun a b => a.1 = b.1 ∧ SameAnswer R a.2 b.2) lasting
        (State.initial.transcript (lasting.map Prod.fst)) ∧
      ∀ failure operation, operation.compares = false → ∃ R', (∀ a b, R a b → R' a b) ∧ Relator.BiUnique R' ∧
        SameAnswer R' ((State.initial.run calls).perform failure operation).2 (replay.perform failure operation).2

/-- Whatever operations are performed one after another on an empty store, those that failed and those that only
read leave no trace. -/
theorem failures_leave_no_trace (calls : List Call) : Traceless calls := by
  have reached (calls : List Call) : Reached (State.initial.run calls) := ⟨calls, rfl⟩
  refine ⟨?_, ?_⟩
  · rintro failure operation (reads | ⟨e, failed⟩)
    · exact store_of_read _ failure reads
    · exact store_of_error (reached calls) failure failed
  · intro lasting replay
    obtain ⟨R, -, alike, entries⟩ := (Alike.initial _).run selects_lasts .initial .initial calls
    refine ⟨R, alike.ids.unique, alike.sameStore (reached _) (reached _), ?_, ?_⟩
    · have answered : ∀ entry ∈ lasting, entry.1.2.compares = false := by
        intro entry member
        have writes := (Bool.and_eq_true_iff.1 (List.mem_filter.1 member).2).1
        exact compares_of_writes writes
      refine ((List.forall₂_and_left _ _).2 ⟨answered, entries⟩).imp ?_
      rintro a b ⟨other, call, same⟩
      exact ⟨call, same other⟩
    · intro failure operation other
      obtain ⟨R', le, next, answered⟩ := alike.perform (reached _) (reached _) failure fun _ _ => rfl
      exact ⟨R', le, next.ids.unique, answered other⟩

/-! ## Games -/

/-- The operations on a game. -/
def isOn (gameType : String) (call : Call) : Bool := call.2.gameType? == some gameType

theorem selects_isOn (gameType : String) :
    Selects (· == gameType) fun entry => isOn gameType entry.1 where
  inside entry kept other same := by
    rw [isOn, same] at kept
    simpa using kept
  untouched state reached failure operation kept := by
    refine untouched_of_other reached failure fun other same => ?_
    rw [isOn, same] at kept
    simpa using kept

/-- A run does nothing to a game but what its own operations do. -/
structure Undisturbed (calls : List Call) (gameType : String) : Prop where
  /-- What is asked for on other games changes no version and no result of the game. -/
  untouched : ∀ failure operation, isOn gameType (failure, operation) = false →
    Untouched (· == gameType) (State.initial.run calls) ((State.initial.run calls).perform failure operation).1
  /-- A run of the operations on the game alone answers these alike, and has alike versions and results of it. -/
  replayed :
    let own := calls.filter (isOn gameType)
    ∃ R, Relator.BiUnique R ∧
      List.Forall₂ (SameEntry R) ((State.initial.transcript calls).filter fun entry => isOn gameType entry.1)
        (State.initial.transcript own) ∧
      List.Forall₂ (SameRow R) ((State.initial.run calls).store.rowsOf gameType)
        ((State.initial.run own).store.rowsOf gameType) ∧
      List.Forall₂ (SameRecord R) ((State.initial.run calls).records (· == gameType))
        ((State.initial.run own).records (· == gameType))

/-- Whatever operations are performed one after another on an empty store, a game is not disturbed by the
operations on other games. -/
theorem games_do_not_interfere (calls : List Call) (gameType : String) : Undisturbed calls gameType := by
  refine ⟨fun failure operation other => ?_, ?_⟩
  · exact (selects_isOn gameType).untouched _ ⟨calls, rfl⟩ failure operation other
  · intro own
    have kept : ((State.initial.transcript calls).filter fun entry => isOn gameType entry.1).map Prod.fst = own := by
      have filtered : ((State.initial.transcript calls).map Prod.fst).filter (isOn gameType) =
          ((State.initial.transcript calls).filter fun entry => isOn gameType entry.1).map Prod.fst :=
        List.filter_map
      rw [← filtered, State.map_transcript]
    obtain ⟨R, -, alike, entries⟩ := (Alike.initial _).run (selects_isOn gameType) .initial .initial calls
    rw [kept] at alike entries
    exact ⟨R, alike.ids.unique, entries, alike.rows, alike.records⟩

end GameScoring.Service
