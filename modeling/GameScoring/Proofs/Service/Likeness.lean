import Mathlib.Data.List.Forall2
import GameScoring.Proofs.Service.Numbering
import GameScoring.Service.Operation

/-!
# Likeness up to ids

Two runs of the service draw different ids at different times, so what they store and answer is compared
under a correspondence of ids. Rows, versions and sessions are alike if they differ in nothing but ids that
correspond, and sessions also in their times. What is read from rows that are alike is alike.
-/
namespace GameScoring.Service
open Scoring Store

/-! ## Likeness -/

section Definitions

variable {α β ε : Type} (R : String → String → Prop)

/-- A value is another one under a new id that corresponds to the old one. -/
def Renamed (id : α → String) (withId : α → String → α) (a b : α) : Prop :=
  ∃ new, R (id a) new ∧ b = withId a new

abbrev SameRow : Row → Row → Prop := Renamed R (·.id) fun row id => { row with id }

abbrev SameVersion : Version → Version → Prop := Renamed R (·.id) fun version id => { version with id }

abbrev SameSubmission : Submission → Submission → Prop :=
  Renamed R (·.sessionId) fun submission sessionId => { submission with sessionId }

abbrev SameReceipt : Receipt → Receipt → Prop :=
  Renamed R (·.sessionId) fun receipt sessionId => { receipt with sessionId }

def SameSession (a b : Session) : Prop :=
  ∃ id versionId completedAt, R a.id id ∧ R a.versionId versionId ∧ b = { a with id, versionId, completedAt }

/-- Sessions that are alike are shown with one name of their version. -/
inductive SameShown : Value → Value → Prop
  | intro {store other : Store} {a b : Session} (same : SameSession R a b)
      (name : (store.row? a.versionId).map (·.name) = (other.row? b.versionId).map (·.name)) :
      SameShown (store.sessionValue a) (other.sessionValue b)

/-- Results of one operation that differ in ids only. Comparisons are not related: versions are compared by
their ids. -/
inductive SameResult : Result → Result → Prop
  | version {a b : Version} (h : SameVersion R a b) : SameResult (.version a) (.version b)
  | versions {as bs : List Version} (h : List.Forall₂ (SameVersion R) as bs) :
      SameResult (.versions as) (.versions bs)
  | submission {a b : Submission} (h : SameSubmission R a b) : SameResult (.submission a) (.submission b)
  | results {as bs : List Value} (h : List.Forall₂ (SameShown R) as bs) : SameResult (.results as) (.results bs)
  | preview (p : Preview) : SameResult (.preview p) (.preview p)
  | validation (v : Validation) : SameResult (.validation v) (.validation v)
  | catalogue (gameType : String) (table : Table Value) :
      SameResult (.catalogue gameType table) (.catalogue gameType table)

/-- Two outcomes agree if both succeed with related results or both fail in the same way. -/
inductive Agree (S : α → β → Prop) : Except ε α → Except ε β → Prop
  | ok {a : α} {b : β} (h : S a b) : Agree S (.ok a) (.ok b)
  | error (e : ε) : Agree S (.error e) (.error e)

abbrev SameAnswer : Answer Result → Answer Result → Prop := Agree (SameResult R)

end Definitions

section Monotone

variable {α β ε : Type} {R R' : String → String → Prop} (le : ∀ a b, R a b → R' a b)
include le

theorem Renamed.mono {id : α → String} {withId : α → String → α} {a b : α} (h : Renamed R id withId a b) :
    Renamed R' id withId a b := by
  obtain ⟨new, related, same⟩ := h
  exact ⟨new, le _ _ related, same⟩

theorem SameSession.mono {a b : Session} (h : SameSession R a b) : SameSession R' a b := by
  obtain ⟨id, versionId, completedAt, related, version, same⟩ := h
  exact ⟨id, versionId, completedAt, le _ _ related, le _ _ version, same⟩

theorem SameResult.mono {a b : Result} (h : SameResult R a b) : SameResult R' a b := by
  cases h with
  | version h => exact .version (h.mono le)
  | versions h => exact .versions (h.imp fun _ _ same => same.mono le)
  | submission h => exact .submission (h.mono le)
  | results h =>
    refine .results (h.imp fun _ _ same => ?_)
    cases same with
    | intro same name => exact .intro (same.mono le) name
  | preview p => exact .preview p
  | validation v => exact .validation v
  | catalogue gameType table => exact .catalogue gameType table

omit le in
theorem Agree.imp {S S' : α → β → Prop} {x : Except ε α} {y : Except ε β} (h : Agree S x y)
    (imp : ∀ a b, S a b → S' a b) : Agree S' x y := by
  cases h with
  | ok h => exact .ok (imp _ _ h)
  | error e => exact .error e

omit le in
theorem Agree.map {γ δ : Type} {S : α → β → Prop} {T : γ → δ → Prop} {x : Except ε α} {y : Except ε β}
    {f : α → γ} {g : β → δ} (h : Agree S x y) (each : ∀ a b, S a b → T (f a) (g b)) :
    Agree T (x.map f) (y.map g) := by
  cases h with
  | ok h => exact .ok (each _ _ h)
  | error e => exact .error e

omit le in
theorem Agree.bind {γ δ : Type} {S : α → β → Prop} {T : γ → δ → Prop} {x : Except ε α} {y : Except ε β}
    {f : α → Except ε γ} {g : β → Except ε δ} (h : Agree S x y) (each : ∀ a b, S a b → Agree T (f a) (g b)) :
    Agree T (x >>= f) (y >>= g) := by
  cases h with
  | ok h => exact each _ _ h
  | error e => exact .error e

omit le in
theorem Agree.of_eq {S : β → β → Prop} {x y : Except ε α} {f : α → β} (same : x = y) (each : ∀ a, S (f a) (f a)) :
    Agree S (x.map f) (y.map f) := by
  rw [same]
  cases y with
  | ok a => exact .ok (each a)
  | error e => exact .error e

theorem SameAnswer.mono {a b : Answer Result} (h : SameAnswer R a b) : SameAnswer R' a b :=
  h.imp fun _ _ same => same.mono le

end Monotone

/-! ## Correspondences -/

/-- A correspondence of ids that were drawn: so many on the one side, and so many on the other. -/
structure Corresponds (R : String → String → Prop) (m n : Nat) : Prop where
  unique : Relator.BiUnique R
  drawn : ∀ a b, R a b → (∃ serial ≤ m, a = idText serial) ∧ ∃ serial ≤ n, b = idText serial

/-- A correspondence with one more pair. -/
def Paired (R : String → String → Prop) (a b : String) : String → String → Prop :=
  fun x y => R x y ∨ x = a ∧ y = b

namespace Corresponds

variable {R : String → String → Prop} {m n m' n' : Nat}

theorem none : Corresponds (fun _ _ => False) m n :=
  ⟨⟨fun _ _ _ h => h.elim, fun _ _ _ h => h.elim⟩, fun _ _ h => h.elim⟩

theorem mono (h : Corresponds R m n) (left : m ≤ m') (right : n ≤ n') : Corresponds R m' n' where
  unique := h.unique
  drawn a b related := by
    obtain ⟨⟨i, i_le, a_eq⟩, ⟨j, j_le, b_eq⟩⟩ := h.drawn a b related
    exact ⟨⟨i, Nat.le_trans i_le left, a_eq⟩, ⟨j, Nat.le_trans j_le right, b_eq⟩⟩

/-- The next ids on both sides correspond to nothing yet. -/
theorem pair (h : Corresponds R m n) (left : m < m') (right : n < n') :
    Corresponds (Paired R (idText (m + 1)) (idText (n + 1))) m' n' := by
  have new_left : ∀ b, ¬ R (idText (m + 1)) b := by
    intro b related
    obtain ⟨⟨serial, bound, same⟩, -⟩ := h.drawn _ b related
    have serial_eq := idText_inj.1 same
    omega
  have new_right : ∀ a, ¬ R a (idText (n + 1)) := by
    intro a related
    obtain ⟨-, serial, bound, same⟩ := h.drawn a _ related
    have serial_eq := idText_inj.1 same
    omega
  refine ⟨⟨?_, ?_⟩, ?_⟩
  · rintro a b c (first | ⟨rfl, rfl⟩) (second | ⟨rfl, same⟩)
    · exact h.unique.1 first second
    · exact absurd (same ▸ first) (new_right a)
    · exact absurd second (new_right b)
    · rfl
  · rintro a b c (first | ⟨rfl, rfl⟩) (second | ⟨same, rfl⟩)
    · exact h.unique.2 first second
    · exact absurd (same ▸ first) (new_left b)
    · exact absurd second (new_left c)
    · rfl
  · rintro a b (related | ⟨rfl, rfl⟩)
    · exact (h.mono (Nat.le_of_lt left) (Nat.le_of_lt right)).drawn a b related
    · exact ⟨⟨m + 1, left, rfl⟩, ⟨n + 1, right, rfl⟩⟩

end Corresponds

/-! ## Reading rows that are alike -/

theorem find?_alike {α β : Type} {S : α → β → Prop} {as : List α} {bs : List β} {p : α → Bool} {q : β → Bool}
    (h : List.Forall₂ S as bs) (same : ∀ a b, S a b → p a = q b) :
    Option.Rel S (as.find? p) (bs.find? q) := by
  induction h with
  | nil => exact .none
  | @cons a b as bs first _ ih =>
    rw [List.find?_cons, List.find?_cons, same a b first]
    cases q b with
    | true => exact .some first
    | false => exact ih

section Rows

variable {R : String → String → Prop}

theorem map_alike {β : Type} {as bs : List Row} (h : List.Forall₂ (SameRow R) as bs) {f : Row → β}
    (same : ∀ (row : Row) id, f { row with id } = f row) : as.map f = bs.map f := by
  have each : List.Forall₂ (· = ·) (as.map f) (bs.map f) := by
    rw [List.forall₂_map_left_iff, List.forall₂_map_right_iff]
    refine h.imp ?_
    rintro a _ ⟨id, -, rfl⟩
    exact (same a id).symm
  rwa [List.forall₂_eq_eq_eq] at each

theorem readRow_alike {a b : Row} (h : SameRow R a b) : Agree (SameVersion R) (readRow a) (readRow b) := by
  obtain ⟨id, related, rfl⟩ := h
  rw [readRow, readRow, Row.read, Row.read]
  cases Configuration.ofPayload (.text a.gameType) a.payload with
  | error e => exact .error _
  | ok c => exact .ok ⟨id, related, rfl⟩

theorem readRows_alike {as bs : List Row} (h : List.Forall₂ (SameRow R) as bs) :
    Agree (List.Forall₂ (SameVersion R)) (readRows as) (readRows bs) := by
  induction h with
  | nil => exact .ok .nil
  | @cons a b as bs first _ ih =>
    rw [readRows, readRows, List.mapM_cons, List.mapM_cons]
    rw [readRows, readRows] at ih
    exact (readRow_alike first).bind fun _ _ same => ih.bind fun _ _ others => .ok (.cons same others)

/-- Marks that fall on corresponding rows keep rows alike. -/
theorem mark_alike {as bs : List Row} (h : List.Forall₂ (SameRow R) as bs) {p q : Row → Bool}
    (same : ∀ a b, SameRow R a b → p a = q b) (active : Bool) :
    List.Forall₂ (SameRow R) (mark p active as) (mark q active bs) := by
  rw [mark, mark, List.forall₂_map_left_iff, List.forall₂_map_right_iff]
  refine h.imp fun a b alike => ?_
  rw [same a b alike]
  obtain ⟨id, related, rfl⟩ := alike
  cases q { a with id } with
  | true => exact ⟨id, related, rfl⟩
  | false => exact ⟨id, related, rfl⟩

end Rows

end GameScoring.Service
