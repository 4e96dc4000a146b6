import Mathlib.Data.List.Nodup
import GameScoring.Proofs.Scoring.Payload
import GameScoring.Service.Refusal

/-!
# Numbering

The rows of a store as the service writes them: the versions of a game are numbered from one
in the order in which they were saved, no id is given twice, and every row can be read back.
Marking rows as active keeps this, and so does adding a row with the next number.
-/
namespace GameScoring.Service
open Scoring Store

/-- Rows in order, when so many ids were drawn and each game has so many versions. -/
structure Orderly (drawn : Nat) (saved : String → Nat) (rows : List Row) : Prop where
  numbers : ∀ gameType,
    (rows.filter (·.gameType == gameType)).map (·.number) = List.range' 1 (saved gameType)
  distinct : (rows.map (·.id)).Nodup
  drawn : ∀ row ∈ rows, ∃ serial ≤ drawn, row.id = idText serial
  readable : ∀ row ∈ rows, ∃ c, Configuration.ofPayload (.text row.gameType) row.payload = .ok c

namespace Orderly

variable {drawn later : Nat} {saved : String → Nat} {rows : List Row} {row other : Row}
  {store : Store} {gameType : String}

theorem empty : Orderly 0 (fun _ => 0) [] where
  numbers _ := rfl
  distinct := List.nodup_nil
  drawn _ member := nomatch member
  readable _ member := nomatch member

theorem mono (h : Orderly drawn saved rows) (le : drawn ≤ later) : Orderly later saved rows :=
  { h with
    drawn := fun row member => by
      obtain ⟨serial, bound, id⟩ := h.drawn row member
      exact ⟨serial, Nat.le_trans bound le, id⟩ }

theorem eq_of_id (h : Orderly drawn saved rows) (left : row ∈ rows) (right : other ∈ rows)
    (same : row.id = other.id) : row = other :=
  List.inj_on_of_nodup_map h.distinct left right same

/-- The versions of a game have the names of the first numbers. -/
theorem names (h : Orderly drawn saved rows) (gameType : String) :
    (rows.filter (·.gameType == gameType)).map (·.name) =
      (List.range' 1 (saved gameType)).map versionName := by
  rw [← h.numbers, List.map_map]
  rfl

theorem names_distinct (h : Orderly drawn saved rows) (gameType : String) :
    ((rows.filter (·.gameType == gameType)).map (·.name)).Nodup := by
  rw [h.names]
  exact List.Nodup.map (fun _ _ same => versionName_inj.1 same) List.nodup_range'

theorem eq_of_name (h : Orderly drawn saved rows) (left : row ∈ rows) (right : other ∈ rows)
    (game : row.gameType = other.gameType) (name : row.name = other.name) : row = other := by
  apply List.inj_on_of_nodup_map (h.names_distinct other.gameType) _ _ name
  · exact List.mem_filter.2 ⟨left, by simp [game]⟩
  · exact List.mem_filter.2 ⟨right, by simp⟩

theorem foldl_max_range' (n : Nat) : (List.range' 1 n).foldl max 0 = n := by
  induction n with
  | zero => rfl
  | succ n ih =>
    rw [List.range'_1_concat, List.foldl_append, ih]
    simp only [List.foldl_cons, List.foldl_nil]
    omega

theorem nextNumber (h : Orderly drawn saved store.rows) (gameType : String) :
    store.nextNumber gameType = saved gameType + 1 := by
  have folded := foldl_max_range' (saved gameType)
  rw [← h.numbers, List.foldl_map] at folded
  rw [Store.nextNumber, Store.rowsOf, folded]

/-- Marking rows does not disturb their order. -/
theorem mark (h : Orderly drawn saved rows) (selected : Row → Bool) (active : Bool) :
    Orderly drawn saved (Store.mark selected active rows) where
  numbers gameType := by
    rw [filter_mark _ fun _ => rfl, map_mark _ fun _ => rfl, h.numbers]
  distinct := by
    rw [map_mark _ fun _ => rfl]
    exact h.distinct
  drawn row member := by
    obtain ⟨old, stood, rfl⟩ := mem_mark.1 member
    exact h.drawn old stood
  readable row member := by
    obtain ⟨old, stood, rfl⟩ := mem_mark.1 member
    exact h.readable old stood

/-- A row with the next number of its game is added under an id that was not drawn before. -/
theorem add (h : Orderly drawn saved rows) (id : row.id = idText (drawn + 1))
    (number : row.number = saved row.gameType + 1)
    (readable : ∃ c, Configuration.ofPayload (.text row.gameType) row.payload = .ok c) :
    Orderly (drawn + 1) (Function.update saved row.gameType (saved row.gameType + 1)) (rows ++ [row]) where
  numbers gameType := by
    rw [List.filter_append, List.map_append, h.numbers]
    by_cases game : gameType = row.gameType
    · subst game
      rw [Function.update_self, List.range'_1_concat, ← number.trans (Nat.add_comm _ _)]
      simp
    · rw [Function.update_of_ne game]
      have other : row.gameType ≠ gameType := Ne.symm game
      simp [other]
  distinct := by
    rw [List.map_append, List.nodup_append]
    refine ⟨h.distinct, List.nodup_singleton _, ?_⟩
    intro used member new isNew same
    obtain ⟨old, stood, rfl⟩ := List.mem_map.1 member
    obtain ⟨serial, bound, drawnAs⟩ := h.drawn old stood
    have new_eq : new = idText (drawn + 1) := (List.mem_singleton.1 isNew).trans id
    have serial_eq : serial = drawn + 1 := idText_inj.1 (drawnAs.symm.trans (same.trans new_eq))
    omega
  drawn other member := by
    rcases List.mem_append.1 member with member | member
    · exact (h.mono (Nat.le_succ drawn)).drawn other member
    · cases List.mem_singleton.1 member
      exact ⟨drawn + 1, Nat.le_refl _, id⟩
  readable other member := by
    rcases List.mem_append.1 member with member | member
    · exact h.readable other member
    · cases List.mem_singleton.1 member
      exact readable

end Orderly

end GameScoring.Service
