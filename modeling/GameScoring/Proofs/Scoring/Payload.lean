import GameScoring.Scoring.Configuration

/-!
# Payloads

A configuration is stored as its payload. What was checked of it when it was made is all that
is checked again when the payload is read, so reading the payload gives it back.
-/
namespace GameScoring.Scoring.Configuration

section Parts

variable {α : Type} {part : Part} {read : String → Value → Configured α} {wrap : α → Value}
  {t result : Table α}

/-- An entry that is accepted and kept as it is when it is read again. -/
structure Stable (read : String → Value → Configured α) (wrap : α → Value) (entry : String × α) :
    Prop where
  named : Text.isBlankText entry.1 = false
  kept : read entry.1 (wrap entry.2) = .ok entry.2

/-- Every entry that comes out of the reader is stable if reading is idempotent. -/
theorem stable_of_readEntries
    (idempotent : ∀ name value a, read name value = .ok a → read name (wrap a) = .ok a)
    {entries : List (Value × Value)} (h : readEntries part read entries t = .ok result)
    (stable : ∀ e ∈ t.entries, Stable read wrap e) : ∀ e ∈ result.entries, Stable read wrap e := by
  induction entries generalizing t with
  | nil =>
    cases h
    exact stable
  | cons entry rest ih =>
    obtain ⟨key, value⟩ := entry
    cases key with
    | text name =>
      simp only [readEntries] at h
      by_cases blank : Text.isBlankText name = true
      · rw [if_pos blank] at h
        cases h
      · rw [if_neg blank] at h
        cases found : read name value with
        | error e => rw [found] at h; cases h
        | ok a =>
          rw [found] at h
          apply ih h
          intro e member
          rcases Table.mem_insert member with rfl | member
          · exact ⟨Bool.eq_false_iff.2 blank, idempotent name value a found⟩
          · exact stable e member
    | _ => cases h

/-- Stable entries under new names are read one after the other. -/
theorem readEntries_stable (part : Part) {entries : List (String × α)}
    (stable : ∀ e ∈ entries, Stable read wrap e)
    (distinct : (t.names ++ entries.map Prod.fst).Nodup) :
    ∃ all, readEntries part read (entries.map fun e => (.text e.1, wrap e.2)) t = .ok all ∧
      all.entries = t.entries ++ entries := by
  induction entries generalizing t with
  | nil => exact ⟨t, rfl, (List.append_nil _).symm⟩
  | cons entry rest ih =>
    obtain ⟨name, a⟩ := entry
    have first : Stable read wrap (name, a) := stable _ (List.mem_cons_self ..)
    have new : name ∉ t.names := fun member =>
      (List.nodup_append.1 distinct).2.2 name member name (List.mem_cons_self ..) rfl
    have names : (t.insert name a).names = t.names ++ [name] := Table.names_insert_of_new new
    obtain ⟨all, read, listed⟩ := ih (t := t.insert name a)
      (fun e member => stable e (List.mem_cons_of_mem _ member))
      (by rw [names, List.append_assoc]; exact distinct)
    refine ⟨all, ?_, ?_⟩
    · rw [List.map_cons, readEntries, if_neg (by rw [first.named]; decide), first.kept]
      exact read
    · rw [listed, Table.entries_insert_of_new new, List.append_assoc]
      rfl

theorem stable_of_readPart
    (idempotent : ∀ name value a, read name value = .ok a → read name (wrap a) = .ok a)
    {value : Value} (h : readPart part read value = .ok result) :
    ∀ e ∈ result.entries, Stable read wrap e := by
  cases value with
  | object entries => exact stable_of_readEntries idempotent h fun e member => nomatch member
  | _ => cases h

theorem readPart_stable (stable : ∀ e ∈ t.entries, Stable read wrap e) :
    readPart part read (.record (t.map wrap).entries) = .ok t := by
  obtain ⟨all, read, listed⟩ := readEntries_stable part (t := Table.empty) stable t.distinct
  have same : all = t := Table.eq_of_entries listed
  rw [← same, ← read]
  simp [readPart, Value.record, Table.map, Function.comp_def, listed, Table.empty]

end Parts

theorem readWeight_ok_iff {name : String} {value : Value} {weight : Float} :
    readWeight name value = .ok weight ↔
      value.number? = some (.ok weight) ∧ Binary.isFinite weight = true ∧ ¬ weight < 0.0 := by
  cases number : value.number? with
  | none =>
    have refused : readWeight name value = refuse (.weightNotFinite name) := by rw [readWeight, number]
    rw [refused]
    exact ⟨nofun, fun h => nomatch h.1⟩
  | some converted =>
    cases converted with
    | error fault =>
      have failed : readWeight name value = .error (.fault fault) := by
        rw [readWeight, number]
        rfl
      rw [failed]
      exact ⟨nofun, fun h => nomatch h.1⟩
    | ok x =>
      have checks : readWeight name value =
          if !Binary.isFinite x then refuse (ConfigurationError.weightNotFinite name)
          else if x < 0.0 then refuse (.weightNegative name value) else .ok x := by
        rw [readWeight, number]
        rfl
      rw [checks]
      constructor
      · intro h
        by_cases finite : Binary.isFinite x = true
        · rw [if_neg (by rw [finite]; decide)] at h
          by_cases negative : x < 0.0
          · rw [if_pos negative] at h
            cases h
          · rw [if_neg negative] at h
            cases h
            exact ⟨rfl, finite, negative⟩
        · rw [if_pos (by rw [Bool.eq_false_iff.2 finite]; decide)] at h
          cases h
      · rintro ⟨same, finite, negative⟩
        cases same
        rw [if_neg (by rw [finite]; decide), if_neg negative]

theorem readWeight_idempotent (name : String) (value : Value) (weight : Float)
    (h : readWeight name value = .ok weight) : readWeight name (.float weight) = .ok weight :=
  readWeight_ok_iff.2 ⟨rfl, (readWeight_ok_iff.1 h).2⟩

/-- What is checked of a configuration when it is made. -/
structure Checked (c : Configuration) : Prop where
  gameType : Text.isBlankText c.gameType = false
  formulas : ∀ e ∈ c.formulas.entries, Stable readFormula .text e
  weights : ∀ e ∈ c.weights.entries, Stable readWeight .float e

variable {c : Configuration} {gameType formulas weights settings : Value}

/-- Names are not blank, and weights are finite and not negative. -/
theorem checked_iff : Checked c ↔ Text.isBlankText c.gameType = false ∧
    (∀ e ∈ c.formulas.entries, Text.isBlankText e.1 = false) ∧
    ∀ e ∈ c.weights.entries, Text.isBlankText e.1 = false ∧ Binary.isFinite e.2 = true ∧ ¬ e.2 < 0.0 := by
  constructor
  · intro h
    exact ⟨h.gameType, fun e member => (h.formulas e member).named, fun e member =>
      ⟨(h.weights e member).named, (readWeight_ok_iff.1 (h.weights e member).kept).2⟩⟩
  · rintro ⟨gameType, formulas, weights⟩
    exact ⟨gameType, fun e member => ⟨formulas e member, rfl⟩, fun e member =>
      ⟨(weights e member).1, readWeight_ok_iff.2 ⟨rfl, (weights e member).2⟩⟩⟩

theorem checked_of_ofValues (h : ofValues gameType formulas weights settings = .ok c) :
    gameType = .text c.gameType ∧ Checked c := by
  cases gameType with
  | text name =>
    simp only [ofValues] at h
    by_cases blank : Text.isBlankText name = true
    · rw [if_pos blank] at h
      cases h
    · rw [if_neg blank] at h
      cases settings with
      | object entries =>
        cases readFormulas : readPart .formulas readFormula formulas with
        | error e => rw [readFormulas] at h; cases h
        | ok formulas' =>
          cases readWeights : readPart .weights readWeight weights with
          | error e => rw [readFormulas, readWeights] at h; cases h
          | ok weights' =>
            rw [readFormulas, readWeights] at h
            cases h
            exact ⟨rfl, Bool.eq_false_iff.2 blank, stable_of_readPart (fun _ _ _ _ => rfl) readFormulas,
              stable_of_readPart readWeight_idempotent readWeights⟩
      | _ => cases h
  | _ => cases h

/-- An object is kept as it is; an empty one stands for nothing, which is read as an empty object. -/
theorem payloadPart_of_lookup {name : String} {payload entries : List (Value × Value)}
    (h : Value.lookup? name payload = some (.object entries)) :
    payloadPart name payload = .object entries := by
  rw [payloadPart, h]
  cases entries <;> rfl

theorem checked_of_ofPayload {payload : Value} (h : ofPayload gameType payload = .ok c) :
    gameType = .text c.gameType ∧ Checked c := by
  cases payload with
  | object entries => exact checked_of_ofValues h
  | _ => cases h

/-- The formulas and weights of a checked configuration are read back, whatever the game and the settings. -/
theorem Checked.ofValues_values (h : Checked c) {name : String} (named : Text.isBlankText name = false)
    (settings : List (Value × Value)) :
    ofValues (.text name) c.formulasValue c.weightsValue (.object settings) =
      .ok ⟨name, c.formulas, c.weights, settings⟩ := by
  simp only [ofValues]
  rw [if_neg (by rw [named]; decide), formulasValue, weightsValue, readPart_stable h.formulas,
    readPart_stable h.weights]
  rfl

/-- A configuration that was checked is read back from its payload. -/
theorem Checked.ofPayload_payload (h : Checked c) : ofPayload (.text c.gameType) c.payload = .ok c := by
  let entries : List (Value × Value) := [(.text Part.formulas.field, c.formulasValue),
    (.text Part.weights.field, c.weightsValue), (.text "settings", .object c.settings)]
  have formulas : payloadPart Part.formulas.field entries = c.formulasValue := payloadPart_of_lookup rfl
  have weights : payloadPart Part.weights.field entries = c.weightsValue := payloadPart_of_lookup rfl
  have settings : payloadPart "settings" entries = .object c.settings := payloadPart_of_lookup rfl
  show ofValues (.text c.gameType) (payloadPart Part.formulas.field entries)
    (payloadPart Part.weights.field entries) (payloadPart "settings" entries) = .ok c
  rw [formulas, weights, settings]
  exact h.ofValues_values h.gameType c.settings

end GameScoring.Scoring.Configuration
