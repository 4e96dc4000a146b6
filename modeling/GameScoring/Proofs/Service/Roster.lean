import GameScoring.Proofs.Service.Changes
import GameScoring.Proofs.Service.Numbering
import GameScoring.Service.State

/-!
# The roster of versions

A roster has one optional pointer for each game, to the version that was activated last. A
store has a mark on every row instead, and two operations that change many marks at once. A
state represents a roster if the marked rows are those that the pointers name, and a step of
the service on the one is a step of the other.
-/
namespace GameScoring.Service
open Scoring Store

/-- How many versions of each game were saved, and the name of the active one. -/
structure Roster where
  saved : String → Nat
  pointer : String → Option String

/-- A save activates if this is noted; one counts as true. -/
def SaveRequest.activates (request : SaveRequest) : Bool := request.note.activate.sameAtom (.bool true)

namespace Roster

def empty : Roster := ⟨fun _ => 0, fun _ => none⟩

/-- The name of the version of a game that is saved next. -/
def nextName (roster : Roster) (gameType : String) : String :=
  versionName (roster.saved gameType + 1)

def add (roster : Roster) (gameType : String) : Roster :=
  { roster with saved := Function.update roster.saved gameType (roster.saved gameType + 1) }

def point (roster : Roster) (gameType name : String) : Roster :=
  { roster with pointer := Function.update roster.pointer gameType (some name) }

@[simp] theorem pointer_point_self (roster : Roster) (gameType name : String) :
    (roster.point gameType name).pointer gameType = some name :=
  Function.update_self ..

theorem pointer_point_of_ne (roster : Roster) {gameType other : String} (name : String)
    (h : other ≠ gameType) : (roster.point gameType name).pointer other = roster.pointer other :=
  Function.update_of_ne h ..

/-- What an operation does if it succeeds. A save that activates points to the version it adds, and
an activation to the version it names; nothing else moves a pointer. -/
def after (roster : Roster) : Operation → Roster
  | .save request =>
    let gameType := request.gameType.display
    let added := roster.add gameType
    if request.activates then added.point gameType (roster.nextName gameType) else added
  | .setActive gameType name => roster.point gameType name
  | _ => roster

/-- What failed does nothing. -/
def step (roster : Roster) (operation : Operation) (succeeded : Bool) : Roster :=
  if succeeded then roster.after operation else roster

def replay (roster : Roster) : List (Operation × Bool) → Roster
  | [] => roster
  | (operation, succeeded) :: log => (roster.step operation succeeded).replay log

end Roster

/-- An operation that is asked for, and how its commit fails if it does. -/
abbrev Call := Option CommitFailure × Operation

namespace State

/-- The state after operations that are performed one after another. -/
def run (state : State) : List Call → State
  | [] => state
  | (failure, operation) :: calls => (state.perform failure operation).1.run calls

/-- The operations of a run, each with whether it succeeded. -/
def log (state : State) : List Call → List (Operation × Bool)
  | [] => []
  | (failure, operation) :: calls =>
    let (next, answer) := state.perform failure operation
    (operation, answer.isOk) :: next.log calls

end State

/-- The rows of a state are in order, and the marked ones are those that the roster points to. -/
structure Represents (state : State) (roster : Roster) : Prop
    extends Orderly state.drawn roster.saved state.store.rows where
  marked : ∀ row ∈ state.store.rows,
    row.active = true ↔ roster.pointer row.gameType = some row.name
  pointed : ∀ gameType name, roster.pointer gameType = some name →
    ∃ row ∈ state.store.rows, row.gameType = gameType ∧ row.name = name

/-! ## What a step keeps -/

namespace Represents
open Roster

variable {state next : State} {roster : Roster} {row : Row}

theorem initial : Represents .initial .empty where
  toOrderly := Orderly.empty
  marked _ member := nomatch member
  pointed _ _ pointed := nomatch pointed

/-- What changes no row keeps everything. -/
theorem of_rows_eq (h : Represents state roster) (rows : next.store.rows = state.store.rows)
    (drawn : state.drawn ≤ next.drawn) : Represents next roster where
  toOrderly := by
    rw [rows]
    exact h.toOrderly.mono drawn
  marked := by
    rw [rows]
    exact h.marked
  pointed := by
    rw [rows]
    exact h.pointed

/-- The next name of a game is not in use. -/
theorem name_ne_nextName (h : Represents state roster) (member : row ∈ state.store.rows) :
    row.name ≠ roster.nextName row.gameType := by
  intro same
  have numbers : row.number ∈ List.range' 1 (roster.saved row.gameType) := by
    rw [← h.numbers]
    exact List.mem_map.2 ⟨row, List.mem_filter.2 ⟨member, by simp⟩, rfl⟩
  have number : row.number = roster.saved row.gameType + 1 := versionName_inj.1 same
  have bound := (List.mem_range'_1.1 numbers).2
  omega

theorem pointer_ne_nextName (h : Represents state roster) (gameType : String) :
    roster.pointer gameType ≠ some (roster.nextName gameType) := by
  intro pointed
  obtain ⟨row, member, rfl, name⟩ := h.pointed gameType _ pointed
  exact h.name_ne_nextName member name

variable {c : Configuration} {note : SaveNote}

theorem newRow_name (h : Represents state roster) (id : String) (c : Configuration) (note : SaveNote) :
    (state.store.newRow id c note).name = roster.nextName c.gameType :=
  congrArg versionName (h.nextNumber c.gameType)

/-- The rows with the row of a save, whatever else was marked. -/
theorem orderly_newRow (h : Represents state roster) (checked : c.Checked) (note : SaveNote)
    {rows : List Row} (orderly : Orderly state.drawn roster.saved rows) :
    Orderly (state.drawn + 1) (roster.add c.gameType).saved
      (rows ++ [state.store.newRow (idText (state.drawn + 1)) c note]) := by
  have fresh : (state.store.newRow (idText (state.drawn + 1)) c note).id = idText (state.drawn + 1) := rfl
  exact orderly.add fresh (h.nextNumber c.gameType) ⟨c, checked.ofPayload_payload⟩

/-- A version that is added without a mark moves no pointer. -/
theorem add_unmarked (h : Represents state roster) (checked : c.Checked)
    (inactive : note.activate = false)
    (rows : next.store.rows = (state.store.addVersion (idText (state.drawn + 1)) c note).1.rows)
    (drawn : next.drawn = state.drawn + 1) : Represents next (roster.add c.gameType) := by
  have added : next.store.rows =
      state.store.rows ++ [state.store.newRow (idText (state.drawn + 1)) c note] := by
    rw [rows, addVersion, inactive]
    rfl
  refine ⟨?_, ?_, ?_⟩
  · rw [added, drawn]
    exact h.orderly_newRow checked note h.toOrderly
  · intro row member
    rw [added] at member
    rcases List.mem_append.1 member with old | new
    · exact h.marked row old
    · cases List.mem_singleton.1 new
      have unmarked : (state.store.newRow (idText (state.drawn + 1)) c note).active = false := inactive
      rw [unmarked, h.newRow_name]
      exact ⟨fun marked => absurd marked Bool.false_ne_true,
        fun pointed => absurd pointed (h.pointer_ne_nextName c.gameType)⟩
  · intro gameType name pointed
    obtain ⟨row, member, game⟩ := h.pointed gameType name pointed
    exact ⟨row, added ▸ List.mem_append_left _ member, game⟩

/-- A game points to the version that carries its only mark, and the rows of other games are kept. -/
theorem repoint (h : Represents state roster) {gameType name : String} {later : Roster}
    (orderly : Orderly next.drawn later.saved next.store.rows) (pointer : later.pointer = roster.pointer)
    (others : ∀ row, row.gameType ≠ gameType → (row ∈ next.store.rows ↔ row ∈ state.store.rows))
    (marked : ∀ row ∈ next.store.rows, row.gameType = gameType → (row.active = true ↔ row.name = name))
    (target : ∃ row ∈ next.store.rows, row.gameType = gameType ∧ row.name = name) :
    Represents next (later.point gameType name) where
  toOrderly := orderly
  marked row member := by
    by_cases game : row.gameType = gameType
    · rw [marked row member game, game, pointer_point_self, Option.some_inj]
      exact eq_comm
    · rw [pointer_point_of_ne _ _ game, pointer]
      exact h.marked row ((others row game).1 member)
  pointed other pointedName pointed := by
    by_cases game : other = gameType
    · subst game
      rw [pointer_point_self, Option.some_inj] at pointed
      exact pointed ▸ target
    · rw [pointer_point_of_ne _ _ game, pointer] at pointed
      obtain ⟨row, stood, same, named⟩ := h.pointed other pointedName pointed
      exact ⟨row, (others row (same ▸ game)).2 stood, same, named⟩

private theorem of_gameType_and {gameType : String} {selected : Bool}
    (h : (row.gameType == gameType && selected) = true) : row.gameType = gameType :=
  beq_iff_eq.1 (Bool.and_eq_true_iff.1 h).1

/-- A version that is added with a mark is the one that its game points to. -/
theorem add_marked (h : Represents state roster) (checked : c.Checked)
    (active : note.activate = true)
    (rows : next.store.rows = (state.store.addVersion (idText (state.drawn + 1)) c note).1.rows)
    (drawn : next.drawn = state.drawn + 1) :
    Represents next ((roster.add c.gameType).point c.gameType (roster.nextName c.gameType)) := by
  let cleared := mark (fun row => row.gameType == c.gameType && row.active) false state.store.rows
  let new := state.store.newRow (idText (state.drawn + 1)) c note
  have added : next.store.rows = cleared ++ [new] := by
    rw [rows, addVersion, active]
    rfl
  have new_name : new.name = roster.nextName c.gameType := h.newRow_name _ _ _
  have new_member : new ∈ next.store.rows := added ▸ List.mem_append_right _ (List.mem_singleton.2 rfl)
  refine h.repoint ?_ rfl ?_ ?_ ⟨new, new_member, rfl, new_name⟩
  · rw [added, drawn]
    exact h.orderly_newRow checked note (h.toOrderly.mark _ false)
  · intro row other
    have kept : row ∈ cleared ↔ row ∈ state.store.rows :=
      mem_mark_of_other (fun _ _ chosen => of_gameType_and chosen) other
    have not_new : row ≠ new := fun same => other (same ▸ rfl)
    rw [added, List.mem_append, List.mem_singleton, kept]
    exact or_iff_left not_new
  · intro row member game
    rw [added] at member
    rcases List.mem_append.1 member with earlier | last
    · -- Earlier rows of the game were cleared, and none of them has the next name.
      obtain ⟨old, stood, rfl⟩ := mem_mark.1 earlier
      have old_game : old.gameType = c.gameType := game
      have other : old.name ≠ roster.nextName c.gameType := old_game ▸ h.name_ne_nextName stood
      cases old.active <;> simp [old_game, other]
    · cases List.mem_singleton.1 last
      exact ⟨fun _ => new_name, fun _ => active⟩

/-- An activation marks the version it names and clears the other marks of the game. -/
theorem activate (h : Represents state roster) {gameType name : String} {target : Row}
    (named : state.store.named? gameType name = some target)
    (rows : next.store.rows = mark (·.id == target.id) true
      (mark (fun row => row.gameType == gameType && row.id != target.id) false state.store.rows))
    (drawn : next.drawn = state.drawn) : Represents next (roster.point gameType name) := by
  obtain ⟨member, game, target_name⟩ := of_named? named
  let cleared := mark (fun row => row.gameType == gameType && row.id != target.id) false state.store.rows
  have orderly : Orderly state.drawn roster.saved cleared := h.toOrderly.mark _ false
  have only : ∀ row ∈ cleared, (row.id == target.id) = true → row.gameType = gameType := by
    intro row stood same
    obtain ⟨old, old_member, rfl⟩ := mem_mark.1 stood
    have old_eq : old = target := h.eq_of_id old_member member (beq_iff_eq.1 same)
    exact old_eq ▸ game
  -- No id is given twice, so the last mark goes to the target alone.
  refine h.repoint ?_ rfl ?_ ?_ ?_
  · rw [rows, drawn]
    exact orderly.mark _ true
  · intro row other
    rw [rows, mem_mark_of_other only other]
    exact mem_mark_of_other (fun _ _ chosen => of_gameType_and chosen) other
  · intro row stood row_game
    rw [rows] at stood
    obtain ⟨middle, middle_member, rfl⟩ := mem_mark.1 stood
    obtain ⟨old, old_member, rfl⟩ := mem_mark.1 middle_member
    have old_game : old.gameType = gameType := row_game
    by_cases same : old.id = target.id
    · have old_eq : old = target := h.eq_of_id old_member member same
      simp [old_eq, target_name]
    · have other : old.name ≠ name := fun named => same <| congrArg (·.id) <|
        h.eq_of_name old_member member (old_game.trans game.symm) (named.trans target_name.symm)
      simp [same, other, old_game]
  · have kept : ∃ row ∈ cleared, row.gameType = gameType ∧ row.name = name :=
      ⟨_, mem_mark.2 ⟨target, member, rfl⟩, game, target_name⟩
    obtain ⟨row, row_member, row_game, row_name⟩ := kept
    rw [rows]
    exact ⟨_, mem_mark.2 ⟨row, row_member, rfl⟩, row_game, row_name⟩

end Represents

/-! ## Steps and runs -/

/-- What an operation does to the rows of a state, with what it does to a roster. -/
inductive Effect (state next : State) : (Roster → Roster) → Prop
  | kept (rows : next.store.rows = state.store.rows) (drawn : state.drawn ≤ next.drawn) :
      Effect state next id
  | saved (c : Configuration) (note : SaveNote) (checked : c.Checked)
      (rows : next.store.rows = (state.store.addVersion (idText (state.drawn + 1)) c note).1.rows)
      (drawn : next.drawn = state.drawn + 1) :
      Effect state next fun roster =>
        let added := roster.add c.gameType
        if note.activate then added.point c.gameType (roster.nextName c.gameType) else added
  | activated (gameType name : String) (target : Row)
      (named : state.store.named? gameType name = some target)
      (rows : next.store.rows = mark (·.id == target.id) true
        (mark (fun row => row.gameType == gameType && row.id != target.id) false state.store.rows))
      (drawn : next.drawn = state.drawn) :
      Effect state next fun roster => roster.point gameType name

theorem effect_save (state : State) (failure : Option CommitFailure) (request : SaveRequest) :
    Effect state (state.perform failure (.save request)).1 fun roster =>
      roster.step (.save request) (state.perform failure (.save request)).2.isOk := by
  rcases perform_save failure request with ⟨e, refused⟩ | ⟨c, note, configured, stored, saved⟩
  · rw [refused state]
    exact .kept rfl (Nat.le_refl _)
  · rw [saved state]
    obtain ⟨game, checked, -⟩ := SaveRequest.required configured
    have activates : request.activates = note.activate := truthColumn_ok (Note.activate_of_stored stored)
    have gameType : request.gameType.display = c.gameType := by
      rw [game]
      rfl
    simp only [Roster.step, Roster.after, activates, gameType]
    exact .saved c note checked rfl rfl

theorem effect_setActive {state : State} {roster : Roster} (h : Represents state roster)
    (failure : Option CommitFailure) (gameType name : String) :
    Effect state (state.perform failure (.setActive gameType name)).1 fun roster =>
      roster.step (.setActive gameType name) (state.perform failure (.setActive gameType name)).2.isOk := by
  have store : (state.perform failure (.setActive gameType name)).1.store =
      (setActive (state.conditions failure) state.store gameType name).store := rfl
  have drawn : (state.perform failure (.setActive gameType name)).1.drawn =
      state.drawn + (setActive (state.conditions failure) state.store gameType name).drawn := rfl
  have answer : (state.perform failure (.setActive gameType name)).2 =
      (setActive (state.conditions failure) state.store gameType name).outcome.map .version := rfl
  rw [answer]
  rcases setActive_cases (state.conditions failure) state.store gameType name with
    ⟨e, refused⟩ | ⟨target, cleared, named, rfl, activated⟩
  · rw [refused] at store drawn ⊢
    exact .kept (congrArg Store.rows store) (Nat.le_of_eq drawn.symm)
  · rw [activated] at store drawn ⊢
    obtain ⟨c, readable⟩ := h.readable target (of_named? named).1
    have read : readRow (target.withActive true) = .ok ⟨(target.withActive true).toHeading, c⟩ :=
      readRow_ok readable
    simp only [Reply.unchanged, read, Roster.step, Roster.after]
    exact .activated gameType name target named (congrArg Store.rows store) drawn

/-- What an operation does to a roster is what it does to the rows. -/
theorem effect_perform {state : State} {roster : Roster} (h : Represents state roster)
    (failure : Option CommitFailure) (operation : Operation) :
    Effect state (state.perform failure operation).1 fun roster =>
      roster.step operation (state.perform failure operation).2.isOk := by
  cases operation with
  | save request => exact effect_save state failure request
  | setActive gameType name => exact effect_setActive h failure gameType name
  | submit gameType userId raw =>
    simp only [Roster.step, Roster.after, ite_self]
    exact .kept (submit_rows (state.conditions failure) raw gameType userId) (Nat.le_add_right ..)
  | compare gameType ids testData =>
    simp only [Roster.step, Roster.after, ite_self]
    exact .kept (congrArg Store.rows (compareVersions_store ..)) (Nat.le_add_right ..)
  | _ =>
    simp only [Roster.step, Roster.after, ite_self]
    exact .kept rfl (Nat.le_add_right ..)

theorem Represents.effect {state next : State} {roster : Roster} {f : Roster → Roster}
    (h : Represents state roster) (effect : Effect state next f) : Represents next (f roster) := by
  cases effect with
  | kept rows drawn => exact h.of_rows_eq rows drawn
  | saved c note checked rows drawn =>
    cases active : note.activate with
    | true => exact h.add_marked checked active rows drawn
    | false => exact h.add_unmarked checked active rows drawn
  | activated gameType name target named rows drawn => exact h.activate named rows drawn

/-- A step of the service is a step of the roster. -/
theorem Represents.perform {state : State} {roster : Roster} (h : Represents state roster)
    (failure : Option CommitFailure) (operation : Operation) :
    Represents (state.perform failure operation).1
      (roster.step operation (state.perform failure operation).2.isOk) :=
  h.effect (f := fun roster => roster.step operation (state.perform failure operation).2.isOk)
    (effect_perform h failure operation)

theorem Represents.run {state : State} {roster : Roster} (h : Represents state roster)
    (calls : List Call) : Represents (state.run calls) (roster.replay (state.log calls)) := by
  induction calls generalizing state roster with
  | nil => exact h
  | cons call calls ih => exact ih (h.perform call.1 call.2)

end GameScoring.Service
