import GameScoring.Proofs.Service.Likeness
import GameScoring.Proofs.Service.Untouched

/-!
# Runs side by side

Two reached states are alike on some games if their rows and records of these games are, under a correspondence
of ids. An operation on these games keeps them alike, with more ids that correspond, and is answered alike.
What leaves these games untouched can be left out of one of two runs.
-/
namespace GameScoring.Service
open Scoring Store

/-- Sessions that are alike, with telemetry that is the same. -/
def SameRecord (R : String → String → Prop) (a b : Session × Receipt) : Prop :=
  SameSession R a.1 b.1 ∧ SameReceipt R a.2 b.2

/-- States whose rows and records of some games are alike. -/
structure Alike (games : String → Bool) (R : String → String → Prop) (s t : State) : Prop where
  ids : Corresponds R s.drawn t.drawn
  rows : List.Forall₂ (SameRow R) (s.rowsIn games) (t.rowsIn games)
  records : List.Forall₂ (SameRecord R) (s.records games) (t.records games)

theorem SameRecord.mono {R R' : String → String → Prop} (le : ∀ a b, R a b → R' a b) {a b : Session × Receipt}
    (h : SameRecord R a b) : SameRecord R' a b := ⟨h.1.mono le, h.2.mono le⟩

/-- Answered steps on both sides that leave states alike, with more ids that correspond, and are answered alike.
The answer to a comparison, which is asked for by ids, is left out. -/
def Together (games : String → Bool) (R : String → String → Prop) (operation : Operation)
    (s t : State × Answer Result) : Prop :=
  ∃ R', (∀ a b, R a b → R' a b) ∧ Alike games R' s.1 t.1 ∧ (operation.compares = false → SameAnswer R' s.2 t.2)

theorem filter_eq_of_imp {α : Type} {p q : α → Bool} (imp : ∀ a, p a = true → q a = true) (as : List α) :
    as.filter p = (as.filter q).filter p := by
  rw [List.filter_filter]
  refine List.filter_congr fun a _ => ?_
  cases chosen : p a with
  | true => rw [imp a chosen, Bool.and_self]
  | false => rw [Bool.false_and]

/-- A version that is saved on both sides leaves the rows of its game alike. -/
theorem rowsIn_save {games : String → Bool} {R : String → String → Prop} {s t s' t' : State} {id id' : String}
    {c : Configuration} {note : SaveNote} (rows : List.Forall₂ (SameRow R) (s.rowsIn games) (t.rowsIn games))
    (row : SameRow R (s.store.newRow id c note) (t.store.newRow id' c note)) (inside : games c.gameType = true)
    (left : s'.store.rows = (s.store.addVersion id c note).1.rows)
    (right : t'.store.rows = (t.store.addVersion id' c note).1.rows) :
    List.Forall₂ (SameRow R) (s'.rowsIn games) (t'.rowsIn games) := by
  have kept (store : Store) (id : String) : ([store.newRow id c note].filter fun row => games row.gameType) =
      [store.newRow id c note] := List.filter_eq_self.2 (List.forall_mem_singleton.2 inside)
  rw [rowsIn_addVersion s id c note left, rowsIn_addVersion t id' c note right, kept, kept]
  refine List.rel_append ?_ (.cons row .nil)
  cases note.activate with
  | true =>
    refine mark_alike rows ?_ false
    rintro a _ ⟨id, -, rfl⟩
    rfl
  | false => exact rows

/-- Marks that go to rows that are alike leave the rows alike. -/
theorem rowsIn_setActive {games : String → Bool} {R : String → String → Prop} {s t s' t' : State}
    {gameType : String} {target twin : Row} (unique : Relator.BiUnique R)
    (rows : List.Forall₂ (SameRow R) (s.rowsIn games) (t.rowsIn games)) (same : SameRow R target twin)
    (left : s'.store.rows = mark (·.id == target.id) true
      (mark (fun row => row.gameType == gameType && row.id != target.id) false s.store.rows))
    (right : t'.store.rows = mark (·.id == twin.id) true
      (mark (fun row => row.gameType == gameType && row.id != twin.id) false t.store.rows)) :
    List.Forall₂ (SameRow R) (s'.rowsIn games) (t'.rowsIn games) := by
  have ids : ∀ a b, SameRow R a b → (a.id == target.id) = (b.id == twin.id) := by
    rintro a _ ⟨id, related, rfl⟩
    obtain ⟨twin_id, twins, rfl⟩ := same
    exact Bool.eq_iff_iff.2 (by simpa only [beq_iff_eq] using Relator.rel_eq unique related twins)
  rw [rowsIn_mark left, rowsIn_mark right]
  refine mark_alike (mark_alike rows (fun a b alike => ?_) false) ids true
  rw [bne, bne, ids a b alike]
  obtain ⟨id, related, rfl⟩ := alike
  rfl

/-- A session that is recorded on both sides leaves the records of its game alike. -/
theorem records_submit {games : String → Bool} {R : String → String → Prop} {s t s' t' : State}
    (reached_left : Reached s) (reached_right : Reached t) {session twin : Session} {receipt copy : Receipt}
    (records : List.Forall₂ (SameRecord R) (s.records games) (t.records games))
    (same : SameRecord R (session, receipt) (twin, copy)) (inside : games session.gameType = true)
    (sessions_left : s'.store.sessions = s.store.sessions ++ [session])
    (receipts_left : s'.store.receipts = s.store.receipts ++ [receipt])
    (sessions_right : t'.store.sessions = t.store.sessions ++ [twin])
    (receipts_right : t'.store.receipts = t.store.receipts ++ [copy]) :
    List.Forall₂ (SameRecord R) (s'.records games) (t'.records games) := by
  have game : twin.gameType = session.gameType := by
    obtain ⟨⟨id, versionId, completedAt, -, -, rfl⟩, -⟩ := same
    rfl
  have kept (record : Session × Receipt) (inside : games record.1.gameType = true) :
      ([record].filter fun record => games record.1.gameType) = [record] :=
    List.filter_eq_self.2 (List.forall_mem_singleton.2 inside)
  rw [records_append reached_left sessions_left receipts_left, records_append reached_right sessions_right
    receipts_right, kept (session, receipt) inside, kept (twin, copy) (by rw [game]; exact inside)]
  exact List.rel_append records (.cons same .nil)

theorem Reached.map_records {state : State} (h : Reached state) {games : String → Bool} :
    (state.records games).map Prod.fst = state.store.sessions.filter fun session => games session.gameType := by
  have sessions : (state.store.sessions.zip state.store.receipts).map Prod.fst = state.store.sessions :=
    List.map_fst_zip (Nat.le_of_eq h.length_receipts)
  rw [State.records]
  conv_rhs => rw [← sessions, List.filter_map]
  rfl

namespace Alike

theorem initial (games : String → Bool) : Alike games (fun _ _ => False) .initial .initial :=
  ⟨.none, .nil, .nil⟩

variable {games : String → Bool} {R : String → String → Prop} {s t : State} (h : Alike games R s t)
include h

/-- Untouched games stay alike. -/
theorem still {s' t' : State} (left : Untouched games s s') (right : Untouched games t t') :
    Alike games R s' t' where
  ids := h.ids.mono left.drawn right.drawn
  rows := by
    rw [left.rows, right.rows]
    exact h.rows
  records := by
    rw [left.records, right.records]
    exact h.records

/-! ## What is read -/

section Read

variable {gameType : String} (inside : games gameType = true)
include inside

theorem rowsOf : List.Forall₂ (SameRow R) (s.store.rowsOf gameType) (t.store.rowsOf gameType) := by
  have imp (row : Row) (game : (row.gameType == gameType) = true) : games row.gameType = true := by
    rw [beq_iff_eq.1 game, inside]
  rw [Store.rowsOf, Store.rowsOf, filter_eq_of_imp imp, filter_eq_of_imp imp t.store.rows]
  refine List.rel_filter ?_ h.rows
  rintro a _ ⟨id, -, rfl⟩
  rfl

theorem nextNumber : s.store.nextNumber gameType = t.store.nextNumber gameType := by
  have numbers : (s.store.rowsOf gameType).map (·.number) = (t.store.rowsOf gameType).map (·.number) :=
    map_alike (h.rowsOf inside) fun _ _ => rfl
  have folded := congrArg (List.foldl max 0) numbers
  rw [List.foldl_map, List.foldl_map] at folded
  rw [Store.nextNumber, Store.nextNumber, folded]

theorem named? (name : String) :
    Option.Rel (SameRow R) (s.store.named? gameType name) (t.store.named? gameType name) := by
  refine find?_alike (h.rowsOf inside) ?_
  rintro a _ ⟨id, -, rfl⟩
  rfl

theorem active : Agree (SameVersion R) (active s.store gameType) (active t.store gameType) := by
  have found : Option.Rel (SameRow R) (s.store.active? gameType) (t.store.active? gameType) := by
    refine find?_alike (List.rel_reverse (h.rowsOf inside)) ?_
    rintro a _ ⟨id, -, rfl⟩
    rfl
  rw [Service.active, Service.active]
  generalize s.store.active? gameType = left at found
  generalize t.store.active? gameType = right at found
  cases found with
  | none => exact .error _
  | some same => exact readRow_alike same

theorem versions : Agree (List.Forall₂ (SameVersion R)) (versions s.store gameType) (versions t.store gameType) :=
  readRows_alike (List.rel_reverse (h.rowsOf inside))

theorem versionFor (userId : String) :
    Agree (SameVersion R) (versionFor s.store gameType userId) (versionFor t.store gameType userId) := by
  rw [Service.versionFor, Service.versionFor]
  by_cases anonymous : userId.isEmpty = true
  · rw [if_pos anonymous, if_pos anonymous]
    exact .error _
  · rw [if_neg anonymous, if_neg anonymous]
    exact h.active inside

/-! ## Results -/

variable (reached_left : Reached s) (reached_right : Reached t)
include reached_left reached_right

theorem sessionsOf (userId : String) (limit : Int) : Agree (List.Forall₂ (SameSession R))
    (s.store.sessionsOf gameType userId limit) (t.store.sessionsOf gameType userId limit) := by
  obtain ⟨history, chronicle⟩ := reached_left.chronicle
  obtain ⟨other, other_chronicle⟩ := reached_right.chronicle
  have sessions : List.Forall₂ (SameSession R) (s.store.sessions.filter fun session => games session.gameType)
      (t.store.sessions.filter fun session => games session.gameType) := by
    rw [← reached_left.map_records, ← reached_right.map_records, List.forall₂_map_left_iff,
      List.forall₂_map_right_iff]
    exact h.records.imp fun _ _ same => same.1
  have imp (session : Session) (concerned : (session.gameType == gameType &&
      (userId.isEmpty || session.userId == userId)) = true) : games session.gameType = true := by
    rw [beq_iff_eq.1 (Bool.and_eq_true_iff.1 concerned).1, inside]
  rw [chronicle.sessionsOf_eq, other_chronicle.sessionsOf_eq, filter_eq_of_imp imp,
    filter_eq_of_imp imp t.store.sessions]
  by_cases fits : Numeral.isWordSized 64 limit = true
  · rw [if_pos fits, if_pos fits]
    refine .ok (forall₂_atMost (List.rel_reverse (List.rel_filter ?_ sessions)) limit)
    rintro a _ ⟨id, versionId, completedAt, -, -, rfl⟩
    rfl
  · rw [if_neg fits, if_neg fits]
    exact .error _

/-- A session that is kept is shown with the name of its version, which is alike on the other side. -/
theorem shown {a b : Session} (member : a ∈ s.store.sessions) (game : a.gameType = gameType)
    (same : SameSession R a b) : SameShown R (s.store.sessionValue a) (t.store.sessionValue b) := by
  obtain ⟨roster, represents⟩ := reached_left.represents
  obtain ⟨other, other_represents⟩ := reached_right.represents
  obtain ⟨history, chronicle⟩ := reached_left.chronicle
  obtain ⟨entry, -, keeps⟩ := exists_of_mem_right chronicle.sessions member
  obtain ⟨row, row_member, row_id, row_game, -⟩ := keeps.version
  have row_inside : row ∈ s.rowsIn games :=
    List.mem_filter.2 ⟨row_member, by rw [row_game, game]; exact inside⟩
  obtain ⟨twin, twin_inside, alike⟩ := exists_of_mem_right h.rows.flip row_inside
  have left := row?_of_mem represents.distinct row_member
  have right := row?_of_mem other_represents.distinct (List.mem_of_mem_filter twin_inside)
  refine .intro same ?_
  obtain ⟨id, versionId, completedAt, -, version, rfl⟩ := same
  obtain ⟨twin_id, related, rfl⟩ := alike
  have related : R row.id twin_id := related
  rw [row_id] at related
  have id_eq : twin_id = versionId := h.ids.unique.2 related version
  dsimp only at right ⊢
  rw [← row_id, left, ← id_eq, right]
  rfl

theorem results (userId : String) (limit : Int) : Agree (List.Forall₂ (SameShown R))
    (Service.results s.store gameType userId limit) (Service.results t.store gameType userId limit) := by
  have listed := h.sessionsOf inside reached_left reached_right userId limit
  have stored : ∀ found, s.store.sessionsOf gameType userId limit = .ok found → _ := fun _ => mem_sessionsOf
  rw [Service.results, Service.results]
  generalize s.store.sessionsOf gameType userId limit = left at listed stored
  generalize t.store.sessionsOf gameType userId limit = right at listed
  cases listed with
  | error fault => exact .error _
  | ok same =>
    refine .ok ?_
    rw [List.forall₂_map_left_iff, List.forall₂_map_right_iff]
    refine ((List.forall₂_and_left _ _).2 ⟨stored _ rfl, same⟩).imp ?_
    rintro a b ⟨⟨member, game⟩, same⟩
    exact h.shown inside reached_left reached_right member game same

end Read

/-! ## Steps -/

section Steps

variable (reached_left : Reached s) (reached_right : Reached t) (failure : Option CommitFailure)

theorem save {request : SaveRequest}
    (inside : ∀ gameType, namedGame? request.gameType = some gameType → games gameType = true) :
    Together games R (.save request) (s.perform failure (.save request)) (t.perform failure (.save request)) := by
  rcases perform_save failure request with ⟨e, refused⟩ | ⟨c, note, configured, -, saved⟩
  · rw [refused s, refused t]
    exact ⟨R, fun _ _ => id, h, fun _ => .error e⟩
  · rw [saved s, saved t]
    have inside : games c.gameType = true := inside c.gameType (by rw [(SaveRequest.required configured).1]; rfl)
    let R' := Paired R (idText (s.drawn + 1)) (idText (t.drawn + 1))
    have le : ∀ a b, R a b → R' a b := fun _ _ => .inl
    have row : SameRow R' (s.store.newRow (idText (s.drawn + 1)) c note)
        (t.store.newRow (idText (t.drawn + 1)) c note) :=
      ⟨idText (t.drawn + 1), .inr ⟨rfl, rfl⟩, by rw [newRow, newRow, h.nextNumber inside]⟩
    have version : SameVersion R' ⟨(s.store.newRow (idText (s.drawn + 1)) c note).toHeading, c⟩
        ⟨(t.store.newRow (idText (t.drawn + 1)) c note).toHeading, c⟩ :=
      ⟨idText (t.drawn + 1), .inr ⟨rfl, rfl⟩, by rw [newRow, newRow, h.nextNumber inside]⟩
    have rows : List.Forall₂ (SameRow R') (s.rowsIn games) (t.rowsIn games) :=
      h.rows.imp fun _ _ same => same.mono le
    refine ⟨R', le, ⟨h.ids.pair (Nat.lt_succ_self _) (Nat.lt_succ_self _), ?_, ?_⟩, fun _ => .ok (.version version)⟩
    · exact rowsIn_save rows row inside rfl rfl
    · exact h.records.imp fun _ _ same => same.mono le

include reached_left reached_right

theorem setActive {gameType : String} (inside : games gameType = true) (name : String) :
    Together games R (.setActive gameType name) (s.perform failure (.setActive gameType name))
      (t.perform failure (.setActive gameType name)) := by
  obtain ⟨roster, represents⟩ := reached_left.represents
  obtain ⟨other, other_represents⟩ := reached_right.represents
  rw [perform_setActive represents reached_left.usable, perform_setActive other_represents reached_right.usable]
  have named := h.named? inside name
  generalize s.store.named? gameType name = left at named
  generalize t.store.named? gameType name = right at named
  cases named with
  | none => exact ⟨R, fun _ _ => id, h, fun _ => .error _⟩
  | @some target twin same =>
    cases failure with
    | some failure => exact ⟨R, fun _ _ => id, h, fun _ => .error _⟩
    | none =>
      have marked : SameRow R (target.withActive true) (twin.withActive true) := by
        obtain ⟨id, related, rfl⟩ := same
        exact ⟨id, related, rfl⟩
      refine ⟨R, fun _ _ => id, ⟨h.ids, ?_, h.records⟩, fun _ => ?_⟩
      · exact rowsIn_setActive h.ids.unique h.rows same rfl rfl
      · exact (readRow_alike marked).map fun _ _ same => .version same

theorem submit {gameType : String} (inside : games gameType = true) (userId : String) (raw : Value) :
    Together games R (.submit gameType userId raw) (s.perform failure (.submit gameType userId raw))
      (t.perform failure (.submit gameType userId raw)) := by
  have drawn_left := drawn_perform s failure (.submit gameType userId raw)
  have drawn_right := drawn_perform t failure (.submit gameType userId raw)
  have chosen := h.versionFor inside userId
  generalize left : Service.versionFor s.store gameType userId = x at chosen
  generalize right : Service.versionFor t.store gameType userId = y at chosen
  cases chosen with
  | error e =>
    have refused {state : State} (error : Service.versionFor state.store gameType userId = .error e) :
        state.perform failure (.submit gameType userId raw) = (state, .error e) :=
      perform_of_unchanged (by rw [Operation.perform, Service.submit, error]; rfl)
    rw [refused left, refused right]
    exact ⟨R, fun _ _ => id, h, fun _ => .error e⟩
  | @ok version twin same =>
    -- The versions that were chosen have one configuration, and nothing else of them is scored.
    have configuration : twin.configuration = version.configuration := by
      obtain ⟨id, -, rfl⟩ := same
      rfl
    rcases perform_submit failure gameType userId raw version.configuration with ⟨e, refused⟩ | ⟨scores, recorded⟩
    · obtain ⟨store, answer⟩ := refused s version rfl left
      obtain ⟨other_store, other_answer⟩ := refused t twin configuration right
      refine ⟨R, fun _ _ => id, h.still (.of_store store drawn_left) (.of_store other_store drawn_right), fun _ => ?_⟩
      rw [answer, other_answer]
      exact .error e
    · obtain ⟨store, drawn, answer⟩ := recorded s version rfl left
      obtain ⟨other_store, other_drawn, other_answer⟩ := recorded t twin configuration right
      obtain ⟨twin_id, related, rfl⟩ := same
      let R' := Paired R (idText (s.drawn + 1)) (idText (t.drawn + 1))
      have le : ∀ a b, R a b → R' a b := fun _ _ => .inl
      have fresh : R' (idText (s.drawn + 1)) (idText (t.drawn + 1)) := .inr ⟨rfl, rfl⟩
      refine ⟨R', le, ⟨?_, ?_, ?_⟩, fun _ => ?_⟩
      · exact h.ids.pair (by omega) (by omega)
      · rw [State.rowsIn, State.rowsIn, store, other_store]
        exact h.rows.imp fun _ _ same => same.mono le
      · refine records_submit reached_left reached_right (h.records.imp fun _ _ same => same.mono le)
          ⟨?_, ?_⟩ inside (congrArg Store.sessions store) (congrArg Store.receipts store)
          (congrArg Store.sessions other_store) (congrArg Store.receipts other_store)
        · exact ⟨_, twin_id, t.now, fresh, .inl related, rfl⟩
        · exact ⟨_, fresh, rfl⟩
      · rw [answer, other_answer]
        exact .ok (.submission ⟨_, fresh, rfl⟩)

/-- What only reads leaves both sides as they are. -/
theorem read {operation : Operation} (reads : operation.writes = false)
    (inside : ∀ gameType, operation.gameType? = some gameType → games gameType = true) :
    Together games R operation (s.perform failure operation) (t.perform failure operation) := by
  have still := h.still (.of_store (store_of_read s failure reads) (drawn_perform s failure operation))
    (.of_store (store_of_read t failure reads) (drawn_perform t failure operation))
  refine ⟨R, fun _ _ => id, still, fun answered => ?_⟩
  cases operation with
  | save _ | setActive _ _ | submit _ _ _ => cases reads
  | compare _ _ _ => cases answered
  | active gameType => exact (h.active (inside gameType rfl)).map fun _ _ same => .version same
  | versions gameType => exact (h.versions (inside gameType rfl)).map fun _ _ same => .versions same
  | results gameType userId limit =>
    exact (h.results (inside gameType rfl) reached_left reached_right userId limit).map fun _ _ same => .results same
  | preview request => exact .of_eq rfl .preview
  | validate formula testVariables => exact .of_eq rfl .validation
  | catalogue gameType => exact .of_eq rfl (.catalogue gameType)

/-- An operation on games that are alike leaves them alike and is answered alike. -/
theorem perform {operation : Operation}
    (inside : ∀ gameType, operation.gameType? = some gameType → games gameType = true) :
    Together games R operation (s.perform failure operation) (t.perform failure operation) := by
  cases operation with
  | save request => exact h.save failure inside
  | setActive gameType name => exact h.setActive reached_left reached_right failure (inside gameType rfl) name
  | submit gameType userId raw =>
    exact h.submit reached_left reached_right failure (inside gameType rfl) userId raw
  | _ => exact h.read reached_left reached_right failure rfl inside

end Steps

end Alike

/-! ## Runs -/

/-- The operations of a run, each with its answer. -/
def State.transcript (state : State) : List Call → List (Call × Answer Result)
  | [] => []
  | (failure, operation) :: calls =>
    let (next, answer) := state.perform failure operation
    ((failure, operation), answer) :: next.transcript calls

theorem State.map_transcript (state : State) (calls : List Call) :
    (state.transcript calls).map Prod.fst = calls := by
  induction calls generalizing state with
  | nil => rfl
  | cons call calls ih => exact congrArg (call :: ·) (ih (state.perform call.1 call.2).1)

/-- One operation that was answered alike. The answer to a comparison is left out. -/
def SameEntry (R : String → String → Prop) (a b : Call × Answer Result) : Prop :=
  a.1 = b.1 ∧ (a.1.2.compares = false → SameAnswer R a.2 b.2)

/-- Entries of a transcript that are kept are on some games, and those that are not leave these untouched. -/
structure Selects (games : String → Bool) (keep : Call × Answer Result → Bool) : Prop where
  inside : ∀ entry, keep entry = true →
    ∀ gameType, entry.1.2.gameType? = some gameType → games gameType = true
  untouched : ∀ state, Reached state → ∀ failure operation,
    keep ((failure, operation), (state.perform failure operation).2) = false →
      Untouched games state (state.perform failure operation).1

/-- Operations that are not kept can be left out of one of two runs: the states stay alike, and what is kept is
answered alike. -/
theorem Alike.run {games : String → Bool} {keep : Call × Answer Result → Bool} (selects : Selects games keep)
    {R : String → String → Prop} {s t : State} (h : Alike games R s t) (left : Reached s) (right : Reached t)
    (calls : List Call) :
    ∃ R', (∀ a b, R a b → R' a b) ∧
      Alike games R' (s.run calls) (t.run (((s.transcript calls).filter keep).map Prod.fst)) ∧
      List.Forall₂ (SameEntry R') ((s.transcript calls).filter keep)
        (t.transcript (((s.transcript calls).filter keep).map Prod.fst)) := by
  -- The induction is on the longer run. Where a call is left out, the other run stands still.
  induction calls generalizing s t R with
  | nil => exact ⟨R, fun _ _ => id, h, .nil⟩
  | cons call calls ih =>
    obtain ⟨failure, operation⟩ := call
    have transcript : s.transcript ((failure, operation) :: calls) =
        ((failure, operation), (s.perform failure operation).2) ::
          (s.perform failure operation).1.transcript calls := rfl
    cases kept : keep ((failure, operation), (s.perform failure operation).2) with
    | true =>
      obtain ⟨R₁, le, alike, answered⟩ := h.perform left right failure (selects.inside _ kept)
      obtain ⟨R', le', final, entries⟩ :=
        ih alike (left.perform failure operation) (right.perform failure operation)
      rw [transcript, List.filter_cons_of_pos kept]
      refine ⟨R', fun a b related => le' a b (le a b related), final, .cons ⟨rfl, ?_⟩ entries⟩
      exact fun other => SameAnswer.mono le' (answered other)
    | false =>
      have still := h.still (selects.untouched s left failure operation kept) (.of_store rfl (Nat.le_refl _))
      rw [transcript, List.filter_cons_of_neg (by rw [kept]; decide)]
      exact ih still (left.perform failure operation) right

end GameScoring.Service
