import GameScoring.Proofs.Reading
import GameScoring.Proofs.Scoring.Patches
import GameScoring.Proofs.Service.Usability

/-!
# Configurations are read back

What was checked of a configuration is what is checked of its payload, so the payload is read into the same
configuration, with its formulas and weights in the same order. A version that was saved is therefore shown with the
configuration that was saved: by its game while it is the active version, in the list of the versions, and in
comparisons.
-/
namespace GameScoring

/-! ## Documents -/

namespace Value

mutual

/-- Data that a document can hold: finite numbers, and objects with text as keys, each given once. -/
def isDocument : Value → Bool
  | float x => Binary.isFinite x
  | list items => itemsAreDocuments items
  | object entries => decide (Distinct entries) && entriesAreDocuments entries
  | datum _ => false
  | _ => true

def itemsAreDocuments : List Value → Bool
  | [] => true
  | item :: rest => isDocument item && itemsAreDocuments rest

def entriesAreDocuments : List (Value × Value) → Bool
  | [] => true
  | (key, value) :: rest => key.isText && isDocument value && entriesAreDocuments rest

end

theorem isDocument_record {entries : List (String × Value)} (distinct : (entries.map Prod.fst).Nodup)
    (each : ∀ e ∈ entries, e.2.isDocument = true) : (record entries).isDocument = true := by
  rw [record, isDocument, decide_eq_true (distinct_record distinct), Bool.true_and]
  clear distinct
  induction entries with
  | nil => rfl
  | cons entry rest ih =>
    rw [List.forall_mem_cons] at each
    rw [List.map_cons, entriesAreDocuments, each.1, ih each.2]
    rfl

end Value

namespace Scoring.Configuration

/-- The payload of a checked configuration is a document if its settings are one. -/
theorem Checked.isDocument_payload {c : Configuration} (h : Checked c)
    (settings : (Value.object c.settings).isDocument = true) : c.payload.isDocument = true := by
  have formulas : c.formulasValue.isDocument = true := by
    refine Value.isDocument_record (c.formulas.map _).distinct fun e member => ?_
    obtain ⟨entry, -, rfl⟩ := List.mem_map.1 member
    rfl
  have weights : c.weightsValue.isDocument = true := by
    refine Value.isDocument_record (c.weights.map _).distinct fun e member => ?_
    obtain ⟨entry, stood, rfl⟩ := List.mem_map.1 member
    exact ((checked_iff.1 h).2.2 entry stood).2.1
  have fields : [Part.formulas.field, Part.weights.field, "settings"].Nodup := by decide
  refine Value.isDocument_record fields fun e member => ?_
  simp only [List.mem_cons, List.not_mem_nil, or_false] at member
  rcases member with rfl | rfl | rfl
  · exact formulas
  · exact weights
  · exact settings

end Scoring.Configuration

namespace Service
open Scoring Store

/-! ## Versions that are shown -/

/-- What is shown of a version that was saved, with the mark that its row has. -/
structure ReadBack (state : State) (entry : Saved) (row : Row) : Prop where
  identified : row.id = entry.version.id
  /-- From whatever gives documents back, the configuration is read again, if its settings are a document. -/
  restored : ∀ kept : Value → Value, (∀ value, value.isDocument = true → kept value = value) →
    (Value.object entry.version.configuration.settings).isDocument = true →
      Configuration.ofPayload (.text entry.version.gameType) (kept row.payload) = .ok entry.version.configuration
  active : row.active = true → ∀ failure, (state.perform failure (.active entry.version.gameType)).2 =
    .ok (.version (entry.version.withActive true))
  /-- The version is listed among the versions of its game, and nothing else is listed under its id. -/
  listed : ∀ failure, ∃ versions,
    (state.perform failure (.versions entry.version.gameType)).2 = .ok (.versions versions) ∧
    entry.version.withActive row.active ∈ versions ∧
    ∀ version ∈ versions, version.id = entry.version.id → version = entry.version.withActive row.active
  /-- Among known versions of its game it is compared with the result of the configuration that was saved. -/
  compared : ∀ failure environment, environment.Named → ∀ ids, minCompared ≤ ids.length →
    (∀ id ∈ ids, ∃ other ∈ state.store.rows, other.id = id ∧ other.gameType = entry.version.gameType) →
      ∃ comparison result, (state.perform failure
          (.compare entry.version.gameType ids (some environment.value))).2 = .ok (.comparison comparison) ∧
        Gets entry.version.configuration environment result ∧ comparison.entries.map (·.version.id) = ids ∧
        ∀ compared ∈ comparison.entries, compared.version.id = entry.version.id →
          compared = ⟨entry.version.withActive row.active, some result⟩
  /-- Without variables it is compared without a result. -/
  unscored : ∀ failure ids, minCompared ≤ ids.length →
    (∀ id ∈ ids, ∃ other ∈ state.store.rows, other.id = id ∧ other.gameType = entry.version.gameType) →
      ∃ comparison, (state.perform failure (.compare entry.version.gameType ids none)).2 =
          .ok (.comparison comparison) ∧ comparison.entries.map (·.version.id) = ids ∧
        ∀ compared ∈ comparison.entries, compared.version.id = entry.version.id →
          compared = ⟨entry.version.withActive row.active, none⟩

section Shown

variable {store : Store} {drawn : Nat} {saved : String → Nat} (orderly : Orderly drawn saved store.rows)
include orderly

/-- A stored version is listed among the versions of its game, and nothing else is listed under its id. -/
theorem versions_listed {row : Row} (stored : row ∈ store.rows) {version : Version} (read : row.read = .ok version) :
    ∃ listed, versions store row.gameType = .ok listed ∧ version ∈ listed ∧
      ∀ shown ∈ listed, shown.id = version.id → shown = version := by
  have stood : ∀ other ∈ store.history row.gameType, other ∈ store.rows := fun other member =>
    List.mem_of_mem_filter (List.mem_reverse.1 member)
  obtain ⟨listed, listing, -⟩ := readRows_ok fun other member => orderly.readable other (stood other member)
  have each := forall₂_of_mapM listing
  have member : row ∈ store.history row.gameType :=
    List.mem_reverse.2 (List.mem_filter.2 ⟨stored, beq_self_eq_true _⟩)
  obtain ⟨shown, shown_member, shown_read⟩ := exists_of_mem_right each.flip member
  refine ⟨listed, listing, ?_, ?_⟩
  · have same : shown = version := Except.ok.inj ((ok_of_widen shown_read).symm.trans read)
    rwa [← same]
  · intro shown shown_member same
    obtain ⟨other, other_member, other_read⟩ := mem_readRows listing shown_member
    exact orderly.eq_of_read stored (stood other other_member) read other_read same

/-- Without variables, known versions are compared in the order of their ids, none of them with a result. -/
theorem compareVersions_unscored {gameType : String} {ids : List String} (many : minCompared ≤ ids.length)
    (known : ∀ id ∈ ids, ∃ row ∈ store.rows, row.id = id ∧ row.gameType = gameType) :
    ∃ versions differences, (compareVersions store gameType ids none).outcome =
        .ok ⟨versions.map (⟨·, none⟩), differences, none⟩ ∧
      List.Forall₂ (StoredAs store gameType) ids versions := by
  obtain ⟨versions, found, stored⟩ := comparable_known orderly known many
  obtain ⟨differences, compared⟩ := compare_unscored
    (by rw [List.length_map, ← stored.length_eq]; exact many) (checked_of_stored stored) (labels_versions versions)
  refine ⟨versions, differences, ?_, stored⟩
  rw [compareVersions, found]
  dsimp only [Reply.reported]
  rw [compared]
  rfl

end Shown

/-- A row that holds a save is read as the version that was saved, but for the mark, wherever it is shown. -/
theorem Represents.readBack {state : State} {roster : Roster} (h : Represents state roster) {entry : Saved} {row : Row}
    (stored : StoredIn entry row) (member : row ∈ state.store.rows) : ReadBack state entry row := by
  have orderly := h.toOrderly
  have read := stored.read
  have game := stored.row_gameType
  obtain ⟨-, checked, -⟩ := SaveRequest.required stored.configured
  exact
    { identified := stored.row_id
      restored := by
        intro kept keeps settings
        rw [stored.payload, keeps _ (checked.isDocument_payload settings), stored.gameType]
        exact checked.ofPayload_payload
      active := by
        intro marked failure
        have pointed := (h.marked row member).1 marked
        obtain ⟨other, other_member, other_game, other_name, -, found⟩ := h.active?_eq_some pointed
        have same : other = row := h.eq_of_name (List.mem_filter.1 other_member).1 member other_game other_name
        have active : active state.store row.gameType = .ok (entry.version.withActive row.active) := by
          rw [Service.active, found, same]
          exact congrArg (widen _) read
        rw [marked, game] at active
        exact congrArg (Except.map Result.version) active
      listed := by
        intro failure
        obtain ⟨versions, listed, shown, only⟩ := versions_listed orderly member read
        rw [game] at listed
        exact ⟨versions, congrArg (Except.map Result.versions) listed, shown, only⟩
      compared := by
        intro failure environment named ids many known
        obtain ⟨result, gets⟩ := exists_gets entry.version.configuration environment
        obtain ⟨comparison, compared, listed, shown⟩ :=
          compareVersions_gets orderly member read named gets many known
        exact ⟨comparison, result, congrArg (Except.map Result.comparison) compared, gets, listed, shown⟩
      unscored := by
        intro failure ids many known
        obtain ⟨versions, differences, compared, each⟩ := compareVersions_unscored orderly many known
        refine ⟨_, congrArg (Except.map Result.comparison) compared, ?_, ?_⟩
        · rw [← map_id_of_stored each, List.map_map]
          rfl
        · intro compared stood same
          obtain ⟨version, version_member, rfl⟩ := List.mem_map.1 stood
          obtain ⟨id, -, other, other_member, -, -, other_read⟩ := exists_of_mem_right each version_member
          rw [orderly.eq_of_read member other_member read other_read same] }

/-- A configuration that was made is made again from its payload. Whatever operations are performed one after another
on an empty store, every version that was saved is shown with the configuration that was saved. -/
theorem configurations_are_read_back :
    (∀ gameType formulas weights settings c, Configuration.ofValues gameType formulas weights settings = .ok c →
      Configuration.ofPayload gameType c.payload = .ok c) ∧
    ∀ calls, List.Forall₂ (ReadBack (State.initial.run calls)) (State.initial.saves calls)
      (State.initial.run calls).store.rows := by
  refine ⟨fun gameType formulas weights settings c made => ?_, fun calls => ?_⟩
  · obtain ⟨game, checked⟩ := Configuration.checked_of_ofValues made
    rw [game]
    exact checked.ofPayload_payload
  · obtain ⟨length, each⟩ := List.forall₂_iff_zip.1 (saves_stored calls)
    exact List.forall₂_iff_zip.2 ⟨length, fun {entry row} paired =>
      (Represents.initial.run calls).readBack (each paired) (List.of_mem_zip paired).2⟩

/-- Two formulas are saved out of the order of their names, with a negative zero and a subnormal number as weights. -/
theorem unordered_weights_are_read_back :
    let formulas := Value.record [("speed", .text "x"), ("focus", .text "y")]
    let weights := Value.record [("speed", .float (-0.0)), ("focus", .float 5e-324)]
    let calls : List Call :=
      [(none, .save ⟨.text "memory", formulas, weights, .null, ⟨.null, .null, .bool true⟩⟩)]
    (∃ c, Configuration.ofValues (.text "memory") formulas weights (.object []) = .ok c ∧
      Configuration.ofPayload (.text "memory") c.payload = .ok c) ∧
    ∃ entry row, State.initial.saves calls = [entry] ∧ ReadBack (State.initial.run calls) entry row := by
  intro formulas weights calls
  have accepted : (Configuration.ofValues (.text "memory") formulas weights (.object [])).isOk = true := by
    decide +kernel
  have once : (State.initial.saves calls).length = 1 := by decide +kernel
  refine ⟨?_, ?_⟩
  · cases made : Configuration.ofValues (.text "memory") formulas weights (.object []) with
    | error e =>
      rw [made] at accepted
      cases accepted
    | ok c => exact ⟨c, rfl, configurations_are_read_back.1 _ _ _ _ c made⟩
  · obtain ⟨entry, saved⟩ := List.length_eq_one_iff.1 once
    have shown := configurations_are_read_back.2 calls
    rw [saved] at shown
    obtain ⟨row, rows, first, -, -⟩ := List.forall₂_cons_left_iff.1 shown
    exact ⟨entry, row, saved, first⟩

end Service

end GameScoring
