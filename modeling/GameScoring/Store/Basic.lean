import GameScoring.Store.Note
import GameScoring.Store.Version

/-! # The store

The store keeps the versions of every game, the sessions that were scored and the telemetry they were
scored on. A change is a transaction: it is made as a whole, or it is rolled back and nothing is changed.
Rows are kept in the order in which they were added.
-/
namespace GameScoring
open Scoring

namespace Store

/-- A scored session; the seconds at which it was completed decide which of two is newer. -/
structure Session where
  id : String
  userId : String
  gameType : String
  versionId : String
  finalScores : Value
  completedAt : Int

structure Receipt where
  sessionId : String
  raw : Value

/-- Why a change is not committed: it conflicts with another one, or the storage fails. -/
inductive CommitFailure
  | operational
  | integrity
deriving DecidableEq, Repr

inductive StoreError
  | unknownVersion (gameType name : String)
  | notSaved (gameType : String)
  | saveConflict (gameType : String)
  | notActivated (gameType name : String)
  | sessionNotRecorded
  | submissionNotRecorded
  | telemetryNotStored
deriving DecidableEq, Repr

def StoreError.report : StoreError → Report
  | unknownVersion gameType name =>
    .notFound (.text ("Scoring version for " ++ gameType)) (.text name) "NOT_FOUND"
  | notSaved gameType =>
    .persistence ("Failed to save configuration for " ++ gameType) (.text "save") []
  | saveConflict gameType =>
    .persistence ("Version conflict saving configuration for " ++ gameType ++ "; retry the save") (.text "save")
      [("game_type", .text gameType)]
  | notActivated gameType name =>
    .persistence ("Failed to activate " ++ name ++ " for " ++ gameType) (.text "set_active") []
  | sessionNotRecorded => .persistence "Failed to record session" (.text "record_session") []
  | submissionNotRecorded => .persistence "Failed to record session" (.text "record_submission") []
  | telemetryNotStored => .persistence "Failed to store raw telemetry" (.text "record_raw_telemetry") []

end Store

structure Store where
  rows : List Store.Row
  sessions : List Store.Session
  receipts : List Store.Receipt

namespace Store

def empty : Store := ⟨[], [], []⟩

instance : Inhabited Store := ⟨empty⟩

/-! ## Transactions

Of the storage this is taken for granted: it fails at a commit or not at all, so that what reads never fails, not even
what reads again a row that was just committed, and documents come back as they were written. Apart from that, a
statement fails only for a value that it cannot carry.
-/

/-- Statements that are carried out one after another. Where one fails, what those before it wrote is still there. -/
abbrev Statements (ε : Type) := ExceptT ε (StateM Store)

/-- Carries out the statements of a transaction. If one of them fails, the transaction is rolled back and the store
is as it was. -/
def transact {ε α : Type} (store : Store) (statements : Statements ε α) : Store × Except ε α :=
  match statements.run.run store with
  | (.ok result, written) => (written, .ok result)
  | (.error e, _) => (store, .error e)

/-- Ends a transaction. A commit that does not fail writes what is still pending. -/
def commit {ε α : Type} (failure : Option CommitFailure) (error : CommitFailure → ε) (pending : Statements ε α) :
    Statements ε α :=
  match failure with
  | some failure => throw (error failure)
  | none => pending

/-! ## Versions -/

def rowsOf (store : Store) (gameType : String) : List Row := store.rows.filter (·.gameType == gameType)

def row? (store : Store) (id : String) : Option Row := store.rows.find? (·.id == id)

/-- The rows of those ids that are known, in the order of the ids. -/
def rowsWith (store : Store) (ids : List String) : List Row := ids.filterMap store.row?

/-- The newest of the active rows of a game. -/
def active? (store : Store) (gameType : String) : Option Row :=
  (store.rowsOf gameType).reverse.find? (·.active)

/-- The rows of a game, the newest first. -/
def history (store : Store) (gameType : String) : List Row := (store.rowsOf gameType).reverse

def named? (store : Store) (gameType name : String) : Option Row :=
  (store.rowsOf gameType).find? (·.name == name)

theorem of_named? {store : Store} {gameType name : String} {row : Row}
    (h : store.named? gameType name = some row) :
    row ∈ store.rows ∧ row.gameType = gameType ∧ row.name = name := by
  obtain ⟨member, game⟩ := List.mem_filter.1 (List.mem_of_find?_eq_some h)
  have named := List.find?_some h
  exact ⟨member, beq_iff_eq.1 game, beq_iff_eq.1 named⟩

def nextNumber (store : Store) (gameType : String) : Nat :=
  (store.rowsOf gameType).foldl (fun number row => max number row.number) 0 + 1

def Row.withActive (row : Row) (active : Bool) : Row := { row with active := active }

@[simp] theorem Row.withActive_id (row : Row) (active : Bool) : (row.withActive active).id = row.id := rfl

@[simp] theorem Row.withActive_gameType (row : Row) (active : Bool) :
    (row.withActive active).gameType = row.gameType := rfl

@[simp] theorem Row.withActive_name (row : Row) (active : Bool) :
    (row.withActive active).name = row.name := rfl

@[simp] theorem Row.withActive_active (row : Row) (active : Bool) :
    (row.withActive active).active = active := rfl

def mark (selected : Row → Bool) (active : Bool) (rows : List Row) : List Row :=
  rows.map fun row => if selected row then row.withActive active else row

section Mark

variable {β : Type} {selected : Row → Bool} {active : Bool} {rows : List Row}

theorem mem_mark {row : Row} : row ∈ mark selected active rows ↔
    ∃ old ∈ rows, row = old.withActive (if selected old then active else old.active) := by
  have marked (old : Row) : (if selected old then old.withActive active else old) =
      old.withActive (if selected old then active else old.active) := by
    by_cases chosen : selected old = true
    · rw [if_pos chosen, if_pos chosen]
    · rw [if_neg chosen, if_neg chosen]
      rfl
  simp only [mark, List.mem_map, marked]
  exact exists_congr fun old => and_congr_right fun _ => eq_comm

/-- Marks do not change what does not depend on them. -/
theorem map_mark (f : Row → β) (same : ∀ row, f (row.withActive active) = f row) :
    (mark selected active rows).map f = rows.map f := by
  rw [mark, List.map_map]
  apply List.map_congr_left
  intro row _
  by_cases chosen : selected row = true
  · simp only [Function.comp_apply, if_pos chosen, same]
  · simp only [Function.comp_apply, if_neg chosen]

theorem filter_mark (p : Row → Bool) (same : ∀ row, p (row.withActive active) = p row) :
    (mark selected active rows).filter p = mark selected active (rows.filter p) := by
  rw [mark, List.filter_map, mark]
  congr 1
  apply List.filter_congr
  intro row _
  by_cases chosen : selected row = true
  · simp only [Function.comp_apply, if_pos chosen, same]
  · simp only [Function.comp_apply, if_neg chosen]

theorem mark_eq_self (unselected : ∀ row ∈ rows, selected row = false) : mark selected active rows = rows := by
  rw [mark]
  refine (List.map_congr_left fun row member => ?_).trans (List.map_id rows)
  rw [if_neg (by rw [unselected row member]; decide)]
  rfl

/-- Rows of other games are not changed by marks that only rows of one game get. -/
theorem mem_mark_of_other {gameType : String} {row : Row}
    (only : ∀ row ∈ rows, selected row = true → row.gameType = gameType) (other : row.gameType ≠ gameType) :
    row ∈ mark selected active rows ↔ row ∈ rows := by
  constructor
  · intro h
    obtain ⟨old, member, rfl⟩ := mem_mark.1 h
    have unchosen : ¬ selected old = true := fun chosen => other (only old member chosen)
    rw [if_neg unchosen]
    exact member
  · intro h
    have unchosen : ¬ selected row = true := fun chosen => other (only row h chosen)
    exact List.mem_map.2 ⟨row, h, if_neg unchosen⟩

end Mark

/-- The row of a configuration that is saved, with the next number of its game. -/
def newRow (store : Store) (id : String) (c : Configuration) (note : SaveNote) : Row where
  id := id
  gameType := c.gameType
  number := store.nextNumber c.gameType
  description := note.description
  createdBy := note.createdBy
  active := note.activate
  payload := c.payload

/-- Marks the selected rows. -/
def updateMarks {ε : Type} (selected : Row → Bool) (active : Bool) : Statements ε Unit :=
  modify fun store => { store with rows := mark selected active store.rows }

def saveFailure (gameType : String) : CommitFailure → StoreError
  | .integrity => .saveConflict gameType
  | .operational => .notSaved gameType

/-- What the columns keep of the note on a version of a game. -/
def keptNote (gameType : String) (note : Note) : Except (Failure StoreError) SaveNote :=
  match note.stored with
  | .ok kept => .ok kept
  | .error .unfit => refuse (.notSaved gameType)
  | .error .tooWide => .error (.fault .integerTooWide)

/-- Writes the row of a version, numbered after the rows of an earlier store, if its note can be kept. -/
def insertVersion (earlier : Store) (id : String) (c : Configuration) (note : Note) :
    Statements (Failure StoreError) Row := do
  let row := earlier.newRow id c (← keptNote c.gameType note)
  modify fun store => { store with rows := store.rows ++ [row] }
  return row

/-- Saves a configuration as a version under a new id. If it is to become the active one of its game, the active
rows of the game are cleared before its own row is written. -/
def save (store : Store) (failure : Option CommitFailure) (id : String) (c : Configuration) (note : Note) :
    Store × Except (Failure StoreError) Row :=
  store.transact do
    let earlier ← get
    unless note.activate.isNothing do
      updateMarks (fun row => row.gameType == c.gameType && row.active) false
    commit failure (fun failure => .refused (saveFailure c.gameType failure)) (insertVersion earlier id c note)

/-- Clears every row of a game except for the one that was looked up by its name. That one is marked when the change
is committed. -/
def markOnly (failure : Option CommitFailure) (gameType name : String) : Option Row → Statements StoreError Row
  | none => throw (.unknownVersion gameType name)
  | some target => do
    updateMarks (fun row => row.gameType == gameType && row.id != target.id) false
    commit failure (fun _ => .notActivated gameType name) do
      updateMarks (·.id == target.id) true
      return target.withActive true

/-- Makes one version of a game the active one. -/
def setActive (store : Store) (failure : Option CommitFailure) (gameType name : String) :
    Store × Except StoreError Row :=
  store.transact do
    let found ← get
    markOnly failure gameType name (found.named? gameType name)

/-! ## Sessions and telemetry -/

def addSession (store : Store) (session : Session) : Store :=
  { store with sessions := store.sessions ++ [session] }

def addReceipt (store : Store) (receipt : Receipt) : Store :=
  { store with receipts := store.receipts ++ [receipt] }

def recordSession (store : Store) (failure : Option CommitFailure) (session : Session) :
    Store × Except StoreError Unit :=
  store.transact (commit failure (fun _ => .sessionNotRecorded) (modify (·.addSession session)))

/-- Records a session together with its telemetry. The session is written first, and the telemetry names its id. -/
def recordSubmission (store : Store) (failure : Option CommitFailure) (session : Session) (raw : Value) :
    Store × Except StoreError Unit :=
  store.transact do
    modify (·.addSession session)
    commit failure (fun _ => .submissionNotRecorded) (modify (·.addReceipt ⟨session.id, raw⟩))

def recordTelemetry (store : Store) (failure : Option CommitFailure) (receipt : Receipt) :
    Store × Except StoreError Unit :=
  store.transact (commit failure (fun _ => .telemetryNotStored) (modify (·.addReceipt receipt)))

/-- The telemetry of a session in the order in which it was stored. -/
def telemetry (store : Store) (sessionId : String) : List Value :=
  (store.receipts.filter (·.sessionId == sessionId)).map (·.raw)

/-- The sessions of a game and, if one is named, of a user; the newest first and at most as many as the
limit, where a negative limit is none. A limit is asked for in 64 bits, and one that takes more is a fault. -/
def sessionsOf (store : Store) (gameType userId : String) (limit : Int) : Except Fault (List Session) :=
  let found := (store.sessions.filter fun s =>
    s.gameType == gameType && (userId.isEmpty || s.userId == userId)).mergeSort
      fun a b => decide (b.completedAt ≤ a.completedAt)
  if Numeral.isWordSized 64 limit then
    match limit with
    | .ofNat limit => .ok (found.take limit)
    | .negSucc _ => .ok found
  else .error .integerTooWide

/-- A session as it is shown. The name of its version is missing if the store does not have the version. -/
def sessionValue (store : Store) (s : Session) : Value :=
  .record [("session_id", .text s.id), ("user_id", .text s.userId), ("game_type", .text s.gameType),
    ("version_id", .text s.versionId),
    ("version_name", .optional (fun row => .text row.name) (store.row? s.versionId)),
    ("status", .text "completed"), ("final_scores", s.finalScores)]

end Store

end GameScoring
