import GameScoring.Proofs.Numeral.Number
import GameScoring.Store.Basic

/-!
# What transactions leave behind

A transaction that fails is rolled back, whatever its statements wrote before. A transaction that commits has done
what all of its statements say, so each change of the store has equations in which they no longer show.
-/
namespace GameScoring.Store
open Scoring

section Transact
variable {ε α : Type} {store : Store} {statements : Statements ε α}

/-- A transaction that fails leaves the store as it was. -/
theorem transact_of_error {e : ε} (h : (store.transact statements).2 = .error e) :
    store.transact statements = (store, .error e) := by
  refine Prod.ext ?_ h
  unfold transact at h ⊢
  split at h
  next => cases h
  next => rfl

end Transact

/-! ## Versions -/

/-- A column of truth values keeps whether a value is nothing. -/
theorem isNothing_of_truthColumn {value : Value} {kept : Bool} (h : truthColumn value = .ok kept) :
    value.isNothing = !kept := by
  -- Of numbers only zero and one are kept.
  have number {i : Int} (h : (if (some i == some 0) = true then .ok false else
      if (some i == some 1) = true then .ok true else .error .unfit) = (.ok kept : Except NoteDefect Bool)) :
      decide (i = 0) = !kept := by
    split at h
    next zero =>
      cases h
      simpa using zero
    next zero =>
      split at h
      next =>
        cases h
        simpa using zero
      next => cases h
  cases value with
  | null => cases h; rfl
  | bool b => cases b <;> cases h <;> rfl
  | int i => exact number h
  | float x =>
    cases whole : Binary.toInt? x with
    | none =>
      simp only [truthColumn, Value.sameAtom, Value.sameNumber, whole] at h
      cases h
    | some i =>
      refine (Binary.beq_zero_of_toInt? whole).trans (number ?_)
      simp only [truthColumn, Value.sameAtom, Value.sameNumber, whole, Bool.false_or] at h
      exact h
  | _ => cases h

/-- The store with a version added under a new id. If it becomes the active one of its game, the active rows
of the game are cleared first. -/
def addVersion (store : Store) (id : String) (c : Configuration) (note : SaveNote) : Store × Row :=
  let row := store.newRow id c note
  let others := if note.activate then
      mark (fun row => row.gameType == c.gameType && row.active) false store.rows
    else store.rows
  ({ store with rows := others ++ [row] }, row)

theorem save_of_unkept {store : Store} {id : String} {c : Configuration} {note : Note} {e : Failure StoreError}
    (unkept : keptNote c.gameType note = .error e) : store.save none id c note = (store, .error e) := by
  refine transact_of_error ?_
  simp only [commit, insertVersion, unkept]
  cases note.activate.isNothing <;> rfl

/-- A save adds one version, unless its commit fails or its note cannot be kept. -/
theorem save_eq (store : Store) (failure : Option CommitFailure) (id : String) (c : Configuration) (note : Note) :
    store.save failure id c note = match failure, note.stored with
      | some failure, _ => (store, refuse (saveFailure c.gameType failure))
      | none, .error .unfit => (store, refuse (.notSaved c.gameType))
      | none, .error .tooWide => (store, .error (.fault .integerTooWide))
      | none, .ok kept => ((store.addVersion id c kept).1, .ok (store.newRow id c kept)) := by
  cases failure with
  | some failure =>
    refine transact_of_error ?_
    -- Clearing rows does not fail, so the commit is reached.
    cases note.activate.isNothing <;> rfl
  | none =>
    cases stored : note.stored with
    | error defect =>
      cases defect with
      | unfit => exact save_of_unkept (by simp only [keptNote, stored, refuse])
      | tooWide => exact save_of_unkept (by simp only [keptNote, stored])
    | ok kept =>
      have column := isNothing_of_truthColumn (Note.activate_of_stored stored)
      have keeps : keptNote c.gameType note = .ok kept := by rw [keptNote, stored]
      simp only [save, commit, insertVersion, keeps, column, addVersion]
      cases kept.activate <;> rfl

/-- An activation marks one version and clears the others, unless the version is unknown or the commit fails. -/
theorem setActive_eq (store : Store) (failure : Option CommitFailure) (gameType name : String) :
    store.setActive failure gameType name = match store.named? gameType name, failure with
      | none, _ => (store, .error (.unknownVersion gameType name))
      | some _, some _ => (store, .error (.notActivated gameType name))
      | some target, none =>
        let cleared := mark (fun row => row.gameType == gameType && row.id != target.id) false store.rows
        ({ store with rows := mark (·.id == target.id) true cleared }, .ok (target.withActive true)) := by
  show store.transact (markOnly failure gameType name (store.named? gameType name)) = _
  cases store.named? gameType name with
  | none => exact transact_of_error rfl
  | some target =>
    cases failure with
    | some failure => exact transact_of_error rfl
    | none => rfl

/-! ## Submissions -/

/-- A submission records a session and its telemetry, unless the commit fails. -/
theorem recordSubmission_eq (store : Store) (failure : Option CommitFailure) (session : Session) (raw : Value) :
    store.recordSubmission failure session raw = match failure with
      | some _ => (store, .error .submissionNotRecorded)
      | none => ((store.addSession session).addReceipt ⟨session.id, raw⟩, .ok ()) := by
  cases failure with
  | some failure => exact transact_of_error rfl
  | none => rfl

end GameScoring.Store
