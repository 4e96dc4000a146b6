import GameScoring.Telemetry.Environment

/-!
# Environments are read back

An environment that was read from a value is a value again, the object of its numbers. Reading
that object gives the environment back.
-/
namespace GameScoring.Environment

/-- The object of the numbers of an environment. -/
def value (environment : Environment) : Value := .record (environment.bindings.map Value.float).entries

/-- Every number has a name. -/
def Named (environment : Environment) : Prop := ∀ e ∈ environment.bindings.entries, e.1.isEmpty = false

theorem eq_of_bindings {a b : Environment} (h : a.bindings.entries = b.bindings.entries) : a = b := by
  obtain ⟨bindings, finite⟩ := a
  obtain ⟨bindings', finite'⟩ := b
  cases Table.eq_of_entries h
  rfl

theorem named_of_insertAll {entries : List (Value × Value)} {environment result : Environment}
    (named : environment.Named) (h : environment.insertAll entries = .ok result) : result.Named := by
  induction entries generalizing environment with
  | nil =>
    cases h
    exact named
  | cons entry rest ih =>
    obtain ⟨key, value⟩ := entry
    cases key with
    | text name =>
      simp only [insertAll] at h
      by_cases unnamed : name.isEmpty = true
      · rw [if_pos unnamed] at h
        cases h
      · rw [if_neg unnamed] at h
        obtain ⟨x, -, h⟩ := ok_of_bind h
        by_cases finite : Binary.isFinite x = true
        · rw [dif_pos finite] at h
          refine ih ?_ h
          intro e member
          rcases Table.mem_insert member with rfl | old
          · exact Bool.eq_false_iff.2 unnamed
          · exact named e old
        · rw [dif_neg finite] at h
          cases h
    | _ => cases h

theorem named_of_ofValue {values : Value} {environment : Environment}
    (h : ofValue values = .ok environment) : environment.Named := by
  have none : empty.Named := fun _ member => nomatch member
  unfold ofValue at h
  by_cases nothing : values.isNothing = true
  · rw [if_pos nothing] at h
    cases h
    exact none
  · rw [if_neg nothing] at h
    cases values with
    | object entries => exact named_of_insertAll none h
    | _ => cases h

/-- An environment of a record is made entry by entry. Without entries the record stands for nothing, and
nothing is the empty environment. -/
theorem ofValue_record (entries : List (String × Value)) :
    ofValue (.record entries) = empty.insertAll (entries.map fun e => (.text e.1, e.2)) := by
  cases entries <;> rfl

/-- Finite numbers under new names are inserted one after the other. -/
theorem insertAll_floats {environment : Environment} {entries : List (String × Float)}
    (named : ∀ e ∈ entries, e.1.isEmpty = false) (finite : ∀ e ∈ entries, Binary.isFinite e.2 = true)
    (distinct : (environment.bindings.names ++ entries.map Prod.fst).Nodup) :
    ∃ result, environment.insertAll (entries.map fun e => (.text e.1, .float e.2)) = .ok result ∧
      result.bindings.entries = environment.bindings.entries ++ entries := by
  induction entries generalizing environment with
  | nil => exact ⟨environment, rfl, (List.append_nil _).symm⟩
  | cons entry rest ih =>
    obtain ⟨name, x⟩ := entry
    rw [List.forall_mem_cons] at named finite
    have new : name ∉ environment.bindings.names := fun member =>
      (List.nodup_append.1 distinct).2.2 name member name (List.mem_cons_self ..) rfl
    obtain ⟨result, inserted, listed⟩ := @ih (environment.insert name x finite.1) named.2 finite.2 (by
      show ((environment.bindings.insert name x).names ++ _).Nodup
      rw [Table.names_insert_of_new new, List.append_assoc]
      exact distinct)
    refine ⟨result, ?_, ?_⟩
    · rw [List.map_cons]
      simp only [insertAll]
      rw [if_neg (by rw [named.1]; decide)]
      show (Except.ok x >>= fun x => _) = _
      exact (dif_pos finite.1).trans inserted
    · rw [listed]
      show (environment.bindings.insert name x).entries ++ rest = _
      rw [Table.entries_insert_of_new new, List.append_assoc]
      rfl

/-- An environment whose numbers have names is read back from the object of its numbers. -/
theorem Named.ofValue_value {environment : Environment} (named : environment.Named) :
    ofValue environment.value = .ok environment := by
  obtain ⟨result, inserted, listed⟩ := @insertAll_floats empty _ named environment.finite
    environment.bindings.distinct
  have same : result = environment := eq_of_bindings listed
  rw [same] at inserted
  rw [value, ofValue_record, Table.map, List.map_map]
  exact inserted

end GameScoring.Environment
