import GameScoring.Proofs.Numeral.Closest
import GameScoring.Proofs.Reading
import GameScoring.Proofs.Telemetry.Rereading

/-!
# What environments admit

An environment admits truth values and the numbers that have finite doubles, and refuses everything else as input.
Only a whole number that is too large for a double is not refused but a fault.
-/
namespace GameScoring
open Binary

/-! ## Numbers -/

/-- A number stands for a finite double: a whole number for the closest one, a double for itself. -/
inductive Value.StandsFor : Value → Float → Prop
  | int {i : Int} {x : Float} (small : i.natAbs < integerLimit) (converted : ofInt? i = some x)
      (closest : Closest i x) : StandsFor (.int i) x
  | float {x : Float} (finite : isFinite x = true) : StandsFor (.float x) x

namespace Value.StandsFor
variable {value : Value} {x : Float}

theorem finite (h : value.StandsFor x) : isFinite x = true := by
  cases h with
  | int _ _ closest => exact closest.finite
  | float finite => exact finite

theorem number? (h : value.StandsFor x) : value.number? = some (.ok x) := by
  cases h with
  | int _ converted _ => rw [Value.number?, Numeral.ofInt, converted]
  | float _ => rfl

end Value.StandsFor

/-- A value stands for a finite double, or it is a double that is not finite, a whole number that is too large for a
double, or no number. -/
theorem Value.number_cases (value : Value) :
    (∃ x, value.StandsFor x) ∨ (∃ x, value = .float x ∧ isFinite x = false) ∨
      (∃ i, value = .int i ∧ integerLimit ≤ i.natAbs) ∨ value.number? = none := by
  cases value with
  | int i =>
    rcases ofInt?_cases i with ⟨x, converted, small, closest⟩ | ⟨-, large⟩
    · exact .inl ⟨x, .int small converted closest⟩
    · exact .inr (.inr (.inl ⟨i, rfl, large⟩))
  | float x =>
    by_cases finite : isFinite x = true
    · exact .inl ⟨x, .float finite⟩
    · exact .inr (.inl ⟨x, rfl, Bool.eq_false_iff.2 finite⟩)
  | _ => exact .inr (.inr (.inr rfl))

theorem Numeral.ofInt_of_large {i : Int} (large : integerLimit ≤ i.natAbs) : ofInt i = .error .integerTooLarge := by
  rcases ofInt?_cases i with ⟨x, -, small, -⟩ | ⟨none, -⟩
  · exact absurd large (not_le.2 small)
  · rw [ofInt, none]

/-- The first entry that is not admitted is a whole number that is too large for a double, under a proper name. -/
def LargeFirst {α : Type} (blank : String → Bool) (admitted : Value → α → Prop) (entries : List (Value × Value)) :
    Prop :=
  ∃ (before after : List (Value × Value)) (kept : List (String × α)) (name : String) (i : Int),
    entries = before ++ (.text name, .int i) :: after ∧ List.Forall₂ (Entry.Admits blank admitted) before kept ∧
      blank name = false ∧ integerLimit ≤ i.natAbs

/-- If a reader faults exactly on whole numbers that are too large, so does reading entries with it. -/
theorem Entry.Decides.fault_iff {α ε : Type} {blank : String → Bool} {badName : Value → ε}
    {read : String → Value → Except (Failure ε) α} {admitted : Value → α → Prop}
    {refused : String → Value → Failure ε → Prop} (h : Entry.Decides read admitted refused)
    (faults : ∀ {name value f}, refused name value (.fault f) ↔
      f = .integerTooLarge ∧ ∃ i, value = .int i ∧ integerLimit ≤ i.natAbs)
    {entries : List (Value × Value)} {result : Except (Failure ε) (List (String × α))}
    (reading : Reading (Entry.Admits blank admitted) (Entry.Refuses blank (fun key => .refused (badName key)) refused)
      entries result) {f : Fault} :
    result = .error (.fault f) ↔ f = .integerTooLarge ∧ LargeFirst blank admitted entries := by
  constructor
  · rintro rfl
    cases reading with
    | refused split each first =>
      cases first with
      | named filled first =>
        obtain ⟨rfl, i, rfl, large⟩ := faults.1 first
        exact ⟨rfl, _, _, _, _, i, split, each, filled, large⟩
  · rintro ⟨rfl, before, after, kept, name, i, split, each, filled, large⟩
    exact h.reading_unique reading (.refused split each (.named filled (faults.2 ⟨rfl, i, rfl, large⟩)))

/-- The report of a refusal of input. -/
structure Report.IsInput (report : Report) : Prop where
  kind : report.kind = .input
  code : report.code = "INPUT_ERROR"
  status : report.status = 400

/-! ## Environments -/

theorem EnvironmentError.isInput (e : EnvironmentError) : e.report.IsInput := by
  cases e <;> exact ⟨rfl, rfl, rfl⟩

namespace Environment

/-- Truth values are admitted as one and zero, and numbers as their finite doubles. -/
inductive Admitted : Value → Float → Prop
  | truth (b : Bool) : Admitted (.bool b) (if b then 1.0 else 0.0)
  | number {value : Value} {x : Float} (stands : value.StandsFor x) : Admitted value x

/-- Why the value of a variable is not admitted. -/
inductive Refused (name : String) : Value → Failure EnvironmentError → Prop
  | notNumber {value : Value} (noTruth : ∀ b, value ≠ .bool b) (noNumber : value.number? = none) :
      Refused name value (.refused (.notNumber name value.typeName))
  | notFinite {x : Float} (infinite : isFinite x = false) :
      Refused name (.float x) (.refused (.notFinite name (.float x)))
  | tooLarge {i : Int} (large : integerLimit ≤ i.natAbs) : Refused name (.int i) (.fault .integerTooLarge)

/-- The finite double that a value is admitted as. -/
def read (name : String) (value : Value) : Except (Failure EnvironmentError) Float := do
  let x ← coerce name value
  if isFinite x then .ok x else refuse (.notFinite name value)

theorem refused_fault_iff {name : String} {value : Value} {f : Fault} :
    Refused name value (.fault f) ↔ f = .integerTooLarge ∧ ∃ i, value = .int i ∧ integerLimit ≤ i.natAbs := by
  constructor
  · intro h
    cases h with
    | tooLarge large => exact ⟨rfl, _, rfl, large⟩
  · rintro ⟨rfl, i, rfl, large⟩
    exact .tooLarge large

theorem coerce_int (name : String) (i : Int) :
    coerce name (.int i) = (Numeral.ofInt i).mapError Failure.fault := rfl

theorem coerce_of_standsFor {value : Value} {x : Float} (h : value.StandsFor x) (name : String) :
    coerce name value = .ok x := by
  cases h with
  | int _ converted _ =>
    rw [coerce_int, Numeral.ofInt, converted]
    rfl
  | float _ => rfl

theorem read_decides : Entry.Decides read Admitted Refused where
  admits := by
    intro name value x h
    cases h with
    | truth b => cases b <;> rfl
    | number stands =>
      rw [read, coerce_of_standsFor stands]
      exact if_pos stands.finite
  refuses := by
    intro name value failure h
    cases h with
    | notNumber noTruth noNumber =>
      cases value with
      | bool b => exact absurd rfl (noTruth b)
      | int _ | float _ => cases noNumber
      | _ => rfl
    | notFinite infinite => exact if_neg (by rw [infinite]; decide)
    | tooLarge large =>
      rw [read, coerce_int, Numeral.ofInt_of_large large]
      rfl
  total := by
    intro name value
    by_cases truth : ∃ b, value = .bool b
    · obtain ⟨b, rfl⟩ := truth
      exact .inl ⟨_, .truth b⟩
    · rcases value.number_cases with ⟨x, stands⟩ | ⟨x, rfl, infinite⟩ | ⟨i, rfl, large⟩ | noNumber
      · exact .inl ⟨x, .number stands⟩
      · exact .inr ⟨_, .notFinite infinite⟩
      · exact .inr ⟨_, .tooLarge large⟩
      · exact .inr ⟨_, .notNumber (fun b same => truth ⟨b, same⟩) noNumber⟩

theorem insertAll_named (environment : Environment) {name : String} (filled : name.isEmpty = false) (value : Value)
    (rest : List (Value × Value)) :
    environment.insertAll ((.text name, value) :: rest) = coerce name value >>= fun x =>
      if finite : isFinite x = true then (environment.insert name x finite).insertAll rest
      else refuse (.notFinite name value) := by
  simp only [insertAll]
  rw [if_neg (by rw [filled]; decide)]

theorem insertAll_steps : Entry.Steps insertAll (·.bindings.entries) String.isEmpty
    (fun key => .refused (.badName key)) read where
  finish _ := rfl
  unnamed environment key value rest unfilled := by
    cases key with
    | text name =>
      simp only [insertAll]
      exact if_pos (unfilled name rfl)
    | _ => rfl
  failed environment name value failure rest filled failed := by
    rw [insertAll_named environment filled]
    rw [read] at failed
    cases coerced : coerce name value with
    | error _ =>
      rw [coerced] at failed
      cases failed
      rfl
    | ok x =>
      rw [coerced] at failed
      replace failed : (if isFinite x = true then Except.ok x else refuse _) = .error failure := failed
      by_cases finite : isFinite x = true
      · rw [if_pos finite] at failed
        cases failed
      · rw [if_neg finite] at failed
        cases failed
        exact dif_neg finite
  listed environment name value x rest filled found new := by
    obtain ⟨y, coerced, found⟩ := ok_of_bind found
    rw [insertAll_named environment filled, coerced]
    by_cases finite : isFinite y = true
    · rw [if_pos finite] at found
      cases found
      exact ⟨environment.insert name _ finite, dif_pos finite, Table.entries_insert_of_new new⟩
    · rw [if_neg finite] at found
      cases found

/-- Which entries of an object an environment admits. -/
abbrev Admits : Value × Value → String × Float → Prop := Entry.Admits String.isEmpty Admitted

/-- Which entries of an object an environment refuses, and why. -/
abbrev Refuses : Value × Value → Failure EnvironmentError → Prop :=
  Entry.Refuses String.isEmpty (fun key => .refused (.badName key)) Refused

/-- An environment lists what is admitted of an object, or fails with the first refusal. -/
theorem ofValue_reading {entries : List (Value × Value)} (distinct : Value.Distinct entries) :
    Reading Admits Refuses entries ((ofValue (.object entries)).map (·.bindings.entries)) := by
  have made : ofValue (.object entries) = empty.insertAll entries := by cases entries <;> rfl
  obtain ⟨result, reading, same⟩ := insertAll_steps.reading read_decides (s := empty) distinct.textKeys_nodup
  rw [made, same]
  cases result <;> exact reading

/-- A double that is recorded has its own value in the environment. -/
theorem get?_of_ofValue_record {results : Table Value} {environment : Environment}
    (h : ofValue (.record results.entries) = .ok environment) {name : String} {x : Float}
    (member : (name, .float x) ∈ results.entries) : environment.bindings.get? name = some x := by
  have reading := ofValue_reading (Value.distinct_record results.distinct)
  have recorded : Value.object (results.entries.map fun e => (.text e.1, e.2)) = .record results.entries := rfl
  rw [recorded, h] at reading
  obtain ⟨⟨_, y⟩, stood, admitted⟩ := reading.exists_kept (List.mem_map.2 ⟨_, member, rfl⟩)
  cases admitted with
  | named _ admitted =>
    cases admitted with
    | number stands =>
      cases stands
      exact Table.get?_of_mem stood

/-- What making an environment from an object comes to. The first entry that is not admitted is refused as input,
except for a whole number that is too large. -/
structure Outcome (entries : List (Value × Value)) (result : Except (Failure EnvironmentError) Environment) :
    Prop where
  reading : Reading Admits Refuses entries (result.map (·.bindings.entries))
  refused : ∀ e, result = refuse e → e.report.IsInput
  faulted : ∀ f, result = .error (.fault f) ↔ f = .integerTooLarge ∧ LargeFirst String.isEmpty Admitted entries
  finite : ∀ environment, result = .ok environment → ∀ e ∈ environment.bindings.entries, isFinite e.2 = true

theorem ofValue_outcome {entries : List (Value × Value)} (distinct : Value.Distinct entries) :
    Outcome entries (ofValue (.object entries)) := by
  have reading := ofValue_reading distinct
  refine ⟨reading, fun e _ => e.isInput, fun f => ?_, fun environment _ => environment.finite⟩
  rw [← read_decides.fault_iff refused_fault_iff reading]
  cases ofValue (.object entries) with
  | error failure => exact ⟨congrArg _, fun same => congrArg _ (Except.error.inj same)⟩
  | ok environment => exact ⟨nofun, nofun⟩

end Environment

end GameScoring
