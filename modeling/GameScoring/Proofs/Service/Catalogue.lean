import Mathlib.Data.List.Forall2
import GameScoring.Proofs.Service.Roster

/-!
# The catalogue of versions

Every version of a store was saved once. Its row stands in the order of the saves and holds what the save
was answered with; an operation can change no more of a row than its mark. So the versions of a game carry
the numbers from one on, whatever failed in between, and stay what they were.
-/
namespace GameScoring.Store

/-- The version that a row holds while the row has another mark. -/
def Version.withActive (version : Version) (active : Bool) : Version := { version with active }

@[simp] theorem Version.withActive_number (version : Version) (active : Bool) :
    (version.withActive active).number = version.number := rfl

end GameScoring.Store

namespace GameScoring.Service
open Scoring Store

/-- A save that succeeded: what was asked for and the version of the answer. -/
structure Saved where
  request : SaveRequest
  version : Version

namespace State

/-- What an operation saves, by its answer. -/
def saved (operation : Operation) (answer : Answer Result) : List Saved :=
  match operation, answer with
  | .save request, .ok (.version version) => [⟨request, version⟩]
  | _, _ => []

/-- The saves of a run that succeeded, in order. -/
def saves (state : State) : List Call → List Saved
  | [] => []
  | (failure, operation) :: calls =>
    let (next, answer) := state.perform failure operation
    saved operation answer ++ next.saves calls

end State

/-- A row holds a save: its version, but for the mark, with the configuration and the note of the request. -/
structure StoredIn (entry : Saved) (row : Row) : Prop where
  configured : entry.request.configuration = .ok entry.version.configuration
  noted : entry.request.note.stored =
    .ok ⟨entry.version.description, entry.version.createdBy, entry.version.active⟩
  gameType : entry.version.gameType = entry.version.configuration.gameType
  heading : row.toHeading = (entry.version.withActive row.active).toHeading
  payload : row.payload = entry.version.configuration.payload

namespace StoredIn

variable {entry : Saved} {row : Row}

theorem withActive (h : StoredIn entry row) (active : Bool) : StoredIn entry (row.withActive active) :=
  { h with heading := congrArg (fun heading : Heading => { heading with active }) h.heading }

theorem row_gameType (h : StoredIn entry row) : row.gameType = entry.version.gameType := by
  have same := congrArg (·.gameType) h.heading
  exact same

theorem row_number (h : StoredIn entry row) : row.number = entry.version.number := by
  have same := congrArg (·.number) h.heading
  exact same

theorem row_id (h : StoredIn entry row) : row.id = entry.version.id := by
  have same := congrArg (·.id) h.heading
  exact same

/-- A row that holds a save reads as its version with the mark of the row. -/
theorem read (h : StoredIn entry row) : row.read = .ok (entry.version.withActive row.active) := by
  obtain ⟨-, checked, -⟩ := SaveRequest.required h.configured
  have game : row.gameType = entry.version.configuration.gameType := h.row_gameType.trans h.gameType
  rw [Row.read, game, h.payload, checked.ofPayload_payload, h.heading]
  rfl

end StoredIn

/-! ## Steps -/

/-- Rows that differ in nothing but the mark. -/
def Remarked (old new : Row) : Prop := ∃ active, new = old.withActive active

theorem Remarked.refl (row : Row) : Remarked row row := ⟨row.active, rfl⟩

theorem Remarked.trans {row middle new : Row} (h : Remarked row middle) (h' : Remarked middle new) :
    Remarked row new := by
  obtain ⟨_, rfl⟩ := h
  obtain ⟨active, rfl⟩ := h'
  exact ⟨active, rfl⟩

theorem remarked_ite (selected : Row → Bool) (active : Bool) (row : Row) :
    Remarked row (if selected row then row.withActive active else row) := by
  by_cases chosen : selected row = true
  · exact ⟨active, if_pos chosen⟩
  · exact ⟨row.active, if_neg chosen⟩

/-- An operation changes marks and adds the row of a save that succeeds. -/
theorem rows_of_perform (state : State) (failure : Option CommitFailure) (operation : Operation) :
    ∃ f added, (∀ row, Remarked row (f row)) ∧
      (state.perform failure operation).1.store.rows = state.store.rows.map f ++ added ∧
      List.Forall₂ StoredIn (State.saved operation (state.perform failure operation).2) added := by
  -- What changes no row changes no mark and adds nothing.
  have unchanged {next : State} {answer : Answer Result} (rows : next.store.rows = state.store.rows)
      (nothing : State.saved operation answer = []) :
      ∃ f added, (∀ row, Remarked row (f row)) ∧ next.store.rows = state.store.rows.map f ++ added ∧
        List.Forall₂ StoredIn (State.saved operation answer) added :=
    ⟨id, [], Remarked.refl, by rw [rows, List.map_id, List.append_nil], nothing ▸ .nil⟩
  cases operation with
  | save request =>
    rcases perform_save failure request with ⟨e, refused⟩ | ⟨c, note, configured, noted, saved⟩
    · rw [refused state]
      exact unchanged rfl rfl
    · rw [saved state]
      let row := state.store.newRow (idText (state.drawn + 1)) c note
      have stored : StoredIn ⟨request, row.toHeading, c⟩ row := ⟨configured, noted, rfl, rfl, rfl⟩
      have rows : (state.store.addVersion (idText (state.drawn + 1)) c note).1.rows =
          (if note.activate then mark (fun row => row.gameType == c.gameType && row.active) false
            state.store.rows else state.store.rows) ++ [row] := rfl
      cases active : note.activate with
      | true =>
        rw [active] at rows
        exact ⟨_, [row], remarked_ite _ false, rows, .cons stored .nil⟩
      | false =>
        rw [active] at rows
        exact ⟨id, [row], Remarked.refl, by rw [rows, List.map_id]; rfl, .cons stored .nil⟩
  | setActive gameType name =>
    have store : (state.perform failure (.setActive gameType name)).1.store =
        (setActive (state.conditions failure) state.store gameType name).store := rfl
    rcases setActive_cases (state.conditions failure) state.store gameType name with
      ⟨e, refused⟩ | ⟨target, cleared, -, rfl, activated⟩
    · rw [refused] at store
      exact unchanged (congrArg Store.rows store) rfl
    · rw [activated] at store
      have rows : (state.perform failure (.setActive gameType name)).1.store.rows =
          mark (·.id == target.id) true
            (mark (fun row => row.gameType == gameType && row.id != target.id) false state.store.rows) :=
        congrArg Store.rows store
      rw [mark, mark, List.map_map] at rows
      refine ⟨_, [], fun row => ?_, by rw [rows, List.append_nil], .nil⟩
      exact (remarked_ite (fun row => row.gameType == gameType && row.id != target.id) false row).trans
        (remarked_ite (·.id == target.id) true _)
  | submit gameType userId raw =>
    exact unchanged (submit_rows (state.conditions failure) raw gameType userId) rfl
  | compare gameType ids testData =>
    exact unchanged (congrArg Store.rows (compareVersions_store ..)) rfl
  | _ => exact unchanged rfl rfl

/-! ## Runs -/

/-- The saves of a run have their rows, in order, after those that were there before. -/
theorem stored_run {state : State} {saves : List Saved} (h : List.Forall₂ StoredIn saves state.store.rows)
    (calls : List Call) :
    List.Forall₂ StoredIn (saves ++ state.saves calls) (state.run calls).store.rows := by
  induction calls generalizing state saves with
  | nil =>
    rw [State.saves, List.append_nil]
    exact h
  | cons call calls ih =>
    obtain ⟨f, added, remarked, rows, stored⟩ := rows_of_perform state call.1 call.2
    have kept : List.Forall₂ StoredIn saves (state.store.rows.map f) := by
      rw [List.forall₂_map_right_iff]
      refine h.imp fun entry row stored => ?_
      obtain ⟨active, same⟩ := remarked row
      exact same ▸ stored.withActive active
    have next : List.Forall₂ StoredIn (saves ++ State.saved call.2 (state.perform call.1 call.2).2)
        (state.store.rows.map f ++ added) := List.rel_append kept stored
    rw [← rows] at next
    have later := ih next
    rw [List.append_assoc] at later
    exact later

theorem saves_stored (calls : List Call) :
    List.Forall₂ StoredIn (State.initial.saves calls) (State.initial.run calls).store.rows := by
  have stored : List.Forall₂ StoredIn ([] ++ State.initial.saves calls) (State.initial.run calls).store.rows :=
    stored_run .nil calls
  exact stored

/-- But for their marks, rows stay where and as they are. -/
theorem rows_grow (state : State) (calls : List Call) :
    state.store.rows.map (·.withActive false) <+: (state.run calls).store.rows.map (·.withActive false) := by
  induction calls generalizing state with
  | nil => exact List.prefix_rfl
  | cons call calls ih =>
    obtain ⟨f, added, remarked, rows, -⟩ := rows_of_perform state call.1 call.2
    have unmarked : (state.store.rows.map f).map (·.withActive false) =
        state.store.rows.map (·.withActive false) := by
      rw [List.map_map]
      apply List.map_congr_left
      intro row _
      obtain ⟨active, same⟩ := remarked row
      rw [Function.comp_apply, same]
      rfl
    refine List.IsPrefix.trans ?_ (ih (state.perform call.1 call.2).1)
    rw [rows, List.map_append, unmarked]
    exact List.prefix_append ..

/-- The saves of a game. -/
def ofGame (gameType : String) (saves : List Saved) : List Saved :=
  saves.filter (·.version.gameType == gameType)

/-- A state keeps the versions of the saves that succeeded, numbers them game by game, shows them and never
changes them. -/
structure Catalogued (state : State) (saves : List Saved) : Prop where
  /-- There is one row for each save, in the order of the saves. -/
  stored : List.Forall₂ StoredIn saves state.store.rows
  /-- The versions of a game have the numbers from one on, as many as were saved of it. -/
  numbers : ∀ gameType, (state.store.rowsOf gameType).map (·.number) =
    List.range' 1 (ofGame gameType saves).length
  names : ∀ row ∈ state.store.rows, row.name = "v" ++ Text.natText row.number
  ids : (saves.map (·.version.id)).Nodup
  /-- A game has no two versions with one number or one name. -/
  distinct : ∀ row ∈ state.store.rows, ∀ other ∈ state.store.rows, row.gameType = other.gameType →
    row.number = other.number ∨ row.name = other.name → row = other
  selected : ∀ gameType name, ((state.store.rowsOf gameType).filter (·.name == name)).length ≤ 1
  /-- All versions of a game are shown, as they were saved but for the marks, the newest first. -/
  listed : ∀ failure gameType, ∃ versions,
    (state.perform failure (.versions gameType)).2 = .ok (.versions versions) ∧
    versions.Pairwise (fun newer older => older.number < newer.number) ∧
    List.Forall₂ (fun entry version => version = entry.version.withActive version.active)
      (ofGame gameType saves).reverse versions
  /-- Whatever is done next, the rows keep their places and everything but their marks. -/
  permanent : ∀ calls,
    state.store.rows.map (·.withActive false) <+: (state.run calls).store.rows.map (·.withActive false)

section Stored

variable {state : State} {roster : Roster} {saves : List Saved}
  (h : Represents state roster) (stored : List.Forall₂ StoredIn saves state.store.rows)
include stored

/-- The rows of a game hold the saves of the game. -/
theorem stored_rowsOf (gameType : String) :
    List.Forall₂ StoredIn (ofGame gameType saves) (state.store.rowsOf gameType) := by
  refine List.rel_filter ?_ stored
  intro entry row stored
  simp only [stored.row_gameType]

theorem ids_stored : state.store.rows.map (·.id) = saves.map (·.version.id) := by
  have same : List.Forall₂ (· = ·) (state.store.rows.map (·.id)) (saves.map (·.version.id)) := by
    rw [List.forall₂_map_left_iff, List.forall₂_map_right_iff]
    exact stored.flip.imp fun _ _ stored => stored.row_id
  rwa [List.forall₂_eq_eq_eq] at same

include h

theorem numbers_stored (gameType : String) : (state.store.rowsOf gameType).map (·.number) =
    List.range' 1 (ofGame gameType saves).length := by
  have numbers : (state.store.rowsOf gameType).map (·.number) = List.range' 1 (roster.saved gameType) :=
    h.numbers gameType
  have length := congrArg List.length numbers
  rw [List.length_map, List.length_range'] at length
  rw [numbers, ← length, (stored_rowsOf stored gameType).length_eq]

end Stored

/-- Rows that hold saves are read as the versions that were saved, but for the marks. -/
theorem readRows_stored {saves : List Saved} {rows : List Row} (h : List.Forall₂ StoredIn saves rows) :
    ∃ listed, readRows rows = .ok listed ∧ listed.map (·.number) = rows.map (·.number) ∧
      List.Forall₂ (fun entry version => version = entry.version.withActive version.active) saves listed := by
  induction h with
  | nil => exact ⟨[], rfl, rfl, .nil⟩
  | @cons entry row saves rows stored _ ih =>
    obtain ⟨listed, rest, numbers, each⟩ := ih
    have first : readRow row = .ok (entry.version.withActive row.active) := by
      rw [readRow, stored.read]
      rfl
    refine ⟨entry.version.withActive row.active :: listed, readRows_cons first rest, ?_, .cons rfl each⟩
    rw [List.map_cons, List.map_cons, numbers, stored.row_number, Version.withActive_number]

theorem Orderly.named_once {drawn : Nat} {saved : String → Nat} {store : Store}
    (h : Orderly drawn saved store.rows) (gameType name : String) :
    ((store.rowsOf gameType).filter (·.name == name)).length ≤ 1 := by
  have count := List.nodup_iff_count_le_one.1 (h.names_distinct gameType) name
  rw [List.count_eq_countP, List.countP_map, List.countP_eq_length_filter] at count
  exact count

/-- Whatever operations are performed one after another on an empty store, the versions that were saved
are catalogued. -/
theorem versions_are_catalogued (calls : List Call) :
    Catalogued (State.initial.run calls) (State.initial.saves calls) := by
  have h := Represents.initial.run calls
  have stored := saves_stored calls
  have distinct_names : ∀ row ∈ (State.initial.run calls).store.rows,
      ∀ other ∈ (State.initial.run calls).store.rows, row.gameType = other.gameType →
        row.number = other.number ∨ row.name = other.name → row = other := by
    rintro row member other other_member game (number | name)
    · exact h.eq_of_name member other_member game (congrArg versionName number)
    · exact h.eq_of_name member other_member game name
  exact
    { stored
      numbers := numbers_stored h stored
      names := fun _ _ => rfl
      ids := ids_stored stored ▸ h.distinct
      distinct := distinct_names
      selected := h.named_once
      listed := by
        intro failure gameType
        obtain ⟨listed, read, numbers, each⟩ :=
          readRows_stored (List.rel_reverse (stored_rowsOf stored gameType))
        refine ⟨listed, congrArg (Except.map Result.versions) read, ?_, each⟩
        have decreasing : (listed.map (·.number)).Pairwise (fun newer older => older < newer) := by
          rw [numbers, List.map_reverse, numbers_stored h stored, List.pairwise_reverse]
          exact List.pairwise_lt_range'
        exact List.pairwise_map.1 decreasing
      permanent := rows_grow _ }

/-- A save whose commit fails takes no number, and versions of other games have numbers of their own. -/
example :
    let request (gameType formula : String) : SaveRequest :=
      ⟨.text gameType, .record [("focus", .text formula)], .object [], .null, ⟨.null, .null, .bool true⟩⟩
    let calls : List Call := [(none, .save (request "memory" "x")), (some .integrity, .save (request "memory" "y")),
      (none, .save (request "focus_task" "x")), (none, .save (request "memory" "x +")),
      (none, .save (request "memory" "z"))]
    (State.initial.saves calls).map (fun entry => (entry.version.gameType, entry.version.name)) =
      [("memory", "v1"), ("focus_task", "v1"), ("memory", "v2")] := by decide +kernel

end GameScoring.Service
