import GameScoring.Proofs.Service.Activation
import GameScoring.Proofs.Service.History

/-!
# The results of a game

The results of a game are its sessions, the newest first. Sessions are recorded in the order of
their completion, so the results are read off the history of submissions from its end. No more of
them are shown than a limit says, and a limit that the storage cannot carry is a fault.
-/
namespace GameScoring.Service
open Scoring Store

/-- Sorting sessions that were recorded one after another by their completion turns them around. -/
theorem mergeSort_sessions {sessions : List Session}
    (ordered : sessions.Pairwise fun older newer => older.completedAt < newer.completedAt) :
    sessions.mergeSort (fun a b => decide (b.completedAt ≤ a.completedAt)) = sessions.reverse := by
  have sorted : (sessions.mergeSort fun a b => decide (b.completedAt ≤ a.completedAt)).Pairwise
      fun a b => b.completedAt ≤ a.completedAt := by
    have pairwise := @List.pairwise_mergeSort _ (fun a b : Session => decide (b.completedAt ≤ a.completedAt))
      (by simp only [decide_eq_true_eq]; omega) (by simp only [Bool.or_eq_true, decide_eq_true_eq]; omega)
      sessions
    simpa only [decide_eq_true_eq] using pairwise
  have turned : sessions.reverse.Pairwise fun a b => b.completedAt ≤ a.completedAt :=
    List.pairwise_reverse.2 (ordered.imp Int.le_of_lt)
  have perm := List.mergeSort_perm sessions fun a b => decide (b.completedAt ≤ a.completedAt)
  refine List.Perm.eq_of_pairwise ?_ sorted turned (perm.trans (List.reverse_perm sessions).symm)
  -- Two sessions that were completed in the same second are one.
  intro a b a_member b_member before after
  have times : (sessions.map (·.completedAt)).Nodup :=
    List.pairwise_map.2 (ordered.imp fun earlier same => by omega)
  exact List.inj_on_of_nodup_map times (perm.mem_iff.1 a_member) (List.mem_reverse.1 b_member) (by omega)

/-- The submissions that the results of a game are about, and those of one user if a user is named. -/
def Recorded.concerns (gameType userId : String) (entry : Recorded) : Bool :=
  entry.gameType == gameType && (userId.isEmpty || entry.userId == userId)

theorem forall₂_atMost {α β : Type} {S : α → β → Prop} {as : List α} {bs : List β} (h : List.Forall₂ S as bs)
    (limit : Int) : List.Forall₂ S (atMost limit as) (atMost limit bs) := by
  cases limit with
  | ofNat n => exact List.forall₂_take n h
  | negSucc n => exact h

theorem mem_of_mem_atMost {α : Type} {limit : Int} {found : List α} {a : α} (member : a ∈ atMost limit found) :
    a ∈ found := by
  cases limit with
  | ofNat n => exact List.mem_of_mem_take member
  | negSucc n => exact member

theorem isWordSized_iff {i : Int} : Numeral.isWordSized 64 i = true ↔ -2 ^ 63 ≤ i ∧ i < 2 ^ 63 := decide_eq_true_iff

theorem sessionsOf_eq (store : Store) (gameType userId : String) (limit : Int) :
    store.sessionsOf gameType userId limit =
      if Numeral.isWordSized 64 limit then
        .ok (atMost limit ((store.sessions.filter fun s =>
          s.gameType == gameType && (userId.isEmpty || s.userId == userId)).mergeSort
            fun a b => decide (b.completedAt ≤ a.completedAt)))
      else .error .integerTooWide := by
  unfold Store.sessionsOf
  split
  next => cases limit <;> rfl
  next => rfl

theorem mem_sessionsOf {store : Store} {gameType userId : String} {limit : Int} {found : List Session}
    (h : store.sessionsOf gameType userId limit = .ok found) :
    ∀ session ∈ found, session ∈ store.sessions ∧ session.gameType = gameType := by
  intro session member
  rw [sessionsOf_eq] at h
  split at h
  next =>
    cases h
    obtain ⟨stored, concerned⟩ := List.mem_filter.1 (List.mem_mergeSort.1 (mem_of_mem_atMost member))
    exact ⟨stored, beq_iff_eq.1 (Bool.and_eq_true_iff.1 concerned).1⟩
  next => cases h

namespace Chronicle

variable {state : State} {history : List Recorded} (h : Chronicle state history) (gameType userId : String)
  (limit : Int)
include h

theorem sessionsOf_eq : state.store.sessionsOf gameType userId limit =
    if Numeral.isWordSized 64 limit then
      .ok (atMost limit (state.store.sessions.filter fun s =>
        s.gameType == gameType && (userId.isEmpty || s.userId == userId)).reverse)
    else .error .integerTooWide := by
  rw [Service.sessionsOf_eq, mergeSort_sessions (h.ordered.filter _)]

/-- The sessions that are found are those that keep the submissions, from the last one on. -/
theorem sessionsOf (fits : Numeral.isWordSized 64 limit = true) :
    ∃ found, state.store.sessionsOf gameType userId limit = .ok found ∧
      List.Forall₂ (Keeps state) (atMost limit (history.filter (Recorded.concerns gameType userId)).reverse) found := by
  have selected : List.Forall₂ (Keeps state) (history.filter (Recorded.concerns gameType userId))
      (state.store.sessions.filter fun s => s.gameType == gameType && (userId.isEmpty || s.userId == userId)) := by
    refine List.rel_filter ?_ h.sessions
    intro entry session keeps
    simp only [Recorded.concerns, keeps.gameType, keeps.userId]
  rw [h.sessionsOf_eq, if_pos fits]
  exact ⟨_, rfl, forall₂_atMost (List.rel_reverse selected) limit⟩

end Chronicle

/-- What was recorded is never changed. -/
theorem records_grow (state : State) (calls : List Call) :
    state.store.sessions <+: (state.run calls).store.sessions ∧
      state.store.receipts <+: (state.run calls).store.receipts := by
  induction calls generalizing state with
  | nil => exact ⟨List.prefix_rfl, List.prefix_rfl⟩
  | cons call calls ih =>
    obtain ⟨sessions, receipts⟩ := ih (state.perform call.1 call.2).1
    rcases perform_adds state call.1 call.2 with ⟨entry, session, -, adds⟩ | ⟨-, same, same_receipts⟩
    · rw [adds.sessions] at sessions
      rw [adds.receipts] at receipts
      exact ⟨(List.prefix_append ..).trans sessions, (List.prefix_append ..).trans receipts⟩
    · rw [same] at sessions
      rw [same_receipts] at receipts
      exact ⟨sessions, receipts⟩

/-- A state with a history of submissions is faithful to it: it keeps the history, adds to it what it
answers, never changes what it keeps and shows it. -/
structure Faithful (state : State) (history : List Recorded) : Prop where
  chronicle : Chronicle state history
  /-- A submission adds one session and one receipt, or it fails and leaves the store as it was. -/
  submit : ∀ failure gameType userId raw,
    (∃ answer session, (state.perform failure (.submit gameType userId raw)).2 = .ok (.submission answer) ∧
      Adds state (state.perform failure (.submit gameType userId raw)).1
        ⟨state, gameType, userId, raw, answer⟩ session) ∨
    (∃ e, (state.perform failure (.submit gameType userId raw)).2 = .error e) ∧
      (state.perform failure (.submit gameType userId raw)).1.store = state.store
  /-- A submission of a user that the active version scores succeeds if its commit does. -/
  accepted : ∀ gameType userId raw version scores, userId ≠ "" →
    (state.perform none (.active gameType)).2 = .ok (.version version) →
    (calculate .builtIn gameType version.configuration raw).outcome = .ok scores →
      ∃ id, (state.perform none (.submit gameType userId raw)).2 =
        .ok (.submission ⟨id, version.name, scores⟩)
  /-- What is not answered with a submission adds nothing. -/
  others : ∀ failure operation,
    (∀ answer, (state.perform failure operation).2 ≠ .ok (.submission answer)) →
      (state.perform failure operation).1.store.sessions = state.store.sessions ∧
      (state.perform failure operation).1.store.receipts = state.store.receipts
  permanent : ∀ calls, state.store.sessions <+: (state.run calls).store.sessions ∧
    state.store.receipts <+: (state.run calls).store.receipts
  /-- The results are the sessions of the last submissions, the last one first. -/
  results : ∀ failure gameType userId (limit : Int), -2 ^ 63 ≤ limit → limit < 2 ^ 63 → ∃ shown,
    (state.perform failure (.results gameType userId limit)).2 =
      .ok (.results (shown.map state.store.sessionValue)) ∧
    List.Forall₂ (Keeps state) (atMost limit (history.filter (Recorded.concerns gameType userId)).reverse) shown
  /-- A limit that takes more than 64 bits is a fault, and nothing is shown. -/
  unlimited : ∀ failure gameType userId (limit : Int), ¬ (-2 ^ 63 ≤ limit ∧ limit < 2 ^ 63) →
    (state.perform failure (.results gameType userId limit)).2 = .error (.fault .integerTooWide)

/-- Whatever operations are performed one after another on an empty store, the state is faithful to the
submissions that succeeded. -/
theorem submissions_are_recorded (calls : List Call) :
    Faithful (State.initial.run calls) (State.initial.history calls) where
  chronicle := Chronicle.initial.run Represents.initial calls
  submit := submit_adds _
  accepted gameType userId raw version scores user active scored := by
    have active := active_of_perform active
    obtain ⟨session, -, -, -, -, -, answer⟩ :=
      (scoredWith_of_active user active none raw).recorded scores scored rfl
    exact ⟨session.id, answer⟩
  others failure operation unanswered := by
    rcases perform_adds (State.initial.run calls) failure operation with
      ⟨entry, session, recorded, -⟩ | ⟨-, same⟩
    · unfold State.recorded at recorded
      split at recorded
      next answer answered => exact absurd answered (unanswered answer)
      next => cases recorded
    · exact same
  permanent := records_grow _
  results failure gameType userId limit least less := by
    have fits := isWordSized_iff.2 ⟨least, less⟩
    obtain ⟨found, listed, keeps⟩ :=
      (Chronicle.initial.run Represents.initial calls).sessionsOf gameType userId limit fits
    refine ⟨found, ?_, keeps⟩
    show (Service.results _ gameType userId limit).map Result.results = _
    rw [Service.results, listed]
    rfl
  unlimited failure gameType userId limit wide := by
    have unfit := mt isWordSized_iff.1 wide
    show (Service.results _ gameType userId limit).map Result.results = _
    rw [Service.results, sessionsOf_eq, if_neg unfit]
    rfl

/-- A version of a game is saved, and one user plays it. -/
def playedCalls : List Call :=
  [(none, .save ⟨.text "focus_task", .record [("focus", .text "accuracy")], .record [("focus", .float 0.5)],
      .null, ⟨.null, .null, .bool true⟩⟩),
    (none, .submit "focus_task" "ada" (.record [("targets_shown", .int 20), ("targets_hit", .int 18),
      ("distractors_shown", .int 10), ("false_alarms", .int 2)]))]

/-- One submission is kept, and the least limit that takes more than 64 bits does not show it. -/
theorem wide_limit_is_refused :
    (State.initial.history playedCalls).map (·.userId) = ["ada"] ∧
      ¬ ∃ shown, ((State.initial.run playedCalls).perform none (.results "focus_task" "" (2 ^ 63))).2 =
        .ok (.results shown) := by
  refine ⟨by decide +kernel, ?_⟩
  rintro ⟨shown, answered⟩
  cases answered

/-- A commit that fails, a user without a name and telemetry that cannot be read leave no session. -/
example :
    let request : SaveRequest :=
      ⟨.text "focus_task", .record [("focus", .text "accuracy")], .record [("focus", .float 0.5)],
        .null, ⟨.null, .null, .bool true⟩⟩
    let raw : Value := .record [("targets_shown", .int 20), ("targets_hit", .int 18),
      ("distractors_shown", .int 10), ("false_alarms", .int 2)]
    let submit (userId : String) (raw : Value) : Operation := .submit "focus_task" userId raw
    let calls : List Call := [(none, .save request), (none, submit "ada" raw),
      (some .operational, submit "eve" raw), (none, submit "" raw), (none, submit "ada" .null),
      (none, submit "bob" raw)]
    (State.initial.history calls).map (·.userId) = ["ada", "bob"] := by decide +kernel

end GameScoring.Service
