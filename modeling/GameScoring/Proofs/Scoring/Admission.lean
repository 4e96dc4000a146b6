import GameScoring.Proofs.Scoring.Payload
import GameScoring.Proofs.Telemetry.Admission

/-!
# What configurations admit

Formulas are texts, and weights are numbers that have finite doubles and are not negative. Whatever else is given for
a configuration or for an environment is refused as input, except for a whole number that is too large for a double:
where it is the first thing that is wrong, it is a fault.
-/
namespace GameScoring.Scoring

open Binary

theorem ConfigurationError.isInput (e : ConfigurationError) : e.report.IsInput := by
  cases e <;> exact ⟨rfl, rfl, rfl⟩

namespace Configuration

/-! ## Formulas and weights -/

inductive FormulaAdmitted : Value → String → Prop
  | text (text : String) : FormulaAdmitted (.text text) text

inductive FormulaRefused (competency : String) : Value → Failure ConfigurationError → Prop
  | notText {value : Value} (other : ∀ text, value ≠ .text text) :
      FormulaRefused competency value (.refused (.formulaNotText competency))

inductive WeightAdmitted : Value → Float → Prop
  | weight {value : Value} {x : Float} (stands : value.StandsFor x) (notNegative : ¬ x < 0.0) : WeightAdmitted value x

inductive WeightRefused (competency : String) : Value → Failure ConfigurationError → Prop
  | notNumber {value : Value} (noNumber : value.number? = none) :
      WeightRefused competency value (.refused (.weightNotFinite competency))
  | notFinite {x : Float} (infinite : isFinite x = false) :
      WeightRefused competency (.float x) (.refused (.weightNotFinite competency))
  | negative {value : Value} {x : Float} (stands : value.StandsFor x) (negative : x < 0.0) :
      WeightRefused competency value (.refused (.weightNegative competency value))
  | tooLarge {i : Int} (large : integerLimit ≤ i.natAbs) :
      WeightRefused competency (.int i) (.fault .integerTooLarge)

theorem readFormula_decides : Entry.Decides readFormula FormulaAdmitted FormulaRefused where
  admits := by
    rintro _ _ _ ⟨⟩
    rfl
  refuses := by
    rintro name value _ ⟨other⟩
    cases value with
    | text text => exact absurd rfl (other text)
    | _ => rfl
  total name value := by
    by_cases isText : ∃ text, value = .text text
    · obtain ⟨text, rfl⟩ := isText
      exact .inl ⟨text, .text text⟩
    · exact .inr ⟨_, .notText fun text same => isText ⟨text, same⟩⟩

theorem readWeight_decides : Entry.Decides readWeight WeightAdmitted WeightRefused where
  admits := by
    rintro name value x ⟨stands, notNegative⟩
    exact readWeight_ok_iff.2 ⟨stands.number?, stands.finite, notNegative⟩
  refuses := by
    intro name value failure h
    rw [readWeight]
    cases h with
    | notNumber noNumber =>
      rw [noNumber]
      rfl
    | notFinite infinite => exact if_pos (by rw [infinite]; decide)
    | negative stands negative =>
      rw [stands.number?]
      exact (if_neg (by rw [stands.finite]; decide)).trans (if_pos negative)
    | tooLarge large =>
      rw [Value.number?, Numeral.ofInt_of_large large]
      rfl
  total name value := by
    rcases value.number_cases with ⟨x, stands⟩ | ⟨x, rfl, infinite⟩ | ⟨i, rfl, large⟩ | noNumber
    · by_cases negative : x < 0.0
      · exact .inr ⟨_, .negative stands negative⟩
      · exact .inl ⟨x, .weight stands negative⟩
    · exact .inr ⟨_, .notFinite infinite⟩
    · exact .inr ⟨_, .tooLarge large⟩
    · exact .inr ⟨_, .notNumber noNumber⟩

theorem weightRefused_fault_iff {competency : String} {value : Value} {f : Fault} :
    WeightRefused competency value (.fault f) ↔
      f = .integerTooLarge ∧ ∃ i, value = .int i ∧ integerLimit ≤ i.natAbs := by
  constructor
  · intro h
    cases h with
    | tooLarge large => exact ⟨rfl, _, rfl, large⟩
  · rintro ⟨rfl, i, rfl, large⟩
    exact .tooLarge large

/-! ## Parts -/

/-- What becomes of the entries of a part. -/
abbrev PartReading {α : Type} (part : Part) (admitted : Value → α → Prop)
    (refused : String → Value → Failure ConfigurationError → Prop) :=
  Reading (Entry.Admits Text.isBlankText admitted) (Entry.Refuses Text.isBlankText
    (fun _ => .refused (ConfigurationError.badName part)) refused)

theorem readEntries_steps {α : Type} (part : Part) (read : String → Value → Configured α) :
    Entry.Steps (fun table entries => readEntries part read entries table) Table.entries Text.isBlankText
      (fun _ => .refused (ConfigurationError.badName part)) read where
  finish _ := rfl
  unnamed table key value rest unfilled := by
    cases key with
    | text name => exact if_pos (unfilled name rfl)
    | _ => rfl
  failed table name value failure rest filled failed := by
    simp only [readEntries]
    rw [if_neg (by rw [filled]; decide), failed]
    rfl
  listed table name value a rest filled found new := by
    refine ⟨table.insert name a, ?_, Table.entries_insert_of_new new⟩
    simp only [readEntries]
    rw [if_neg (by rw [filled]; decide), found]
    rfl

/-- A part lists what is admitted of an object, or fails with the first refusal. -/
theorem readPart_reading {α : Type} (part : Part) {read : String → Value → Configured α} {admitted : Value → α → Prop}
    {refused : String → Value → Failure ConfigurationError → Prop} (h : Entry.Decides read admitted refused)
    {entries : List (Value × Value)} (distinct : Value.Distinct entries) :
    PartReading part admitted refused entries ((readPart part read (.object entries)).map Table.entries) := by
  obtain ⟨result, reading, same⟩ := (readEntries_steps part read).reading h (s := Table.empty) distinct.textKeys_nodup
  have made : (readPart part read (.object entries)).map Table.entries = result := by
    refine same.trans ?_
    cases result <;> rfl
  rwa [made]

/-! ## Configurations -/

/-- What becomes of a configuration: its game must have a name, and then its formulas are read and its weights. -/
inductive Made (gameType : Value) (formulas weights settings : List (Value × Value)) :
    Configured Configuration → Prop
  | unnamed (unfilled : ∀ name, gameType = .text name → Text.isBlankText name = true) :
      Made gameType formulas weights settings (refuse .noGameType)
  | formulas {name : String} {failure : Failure ConfigurationError} (game : gameType = .text name)
      (filled : Text.isBlankText name = false)
      (formulasRead : PartReading .formulas FormulaAdmitted FormulaRefused formulas (.error failure)) :
      Made gameType formulas weights settings (.error failure)
  | weights {name : String} {kept : List (String × String)} {failure : Failure ConfigurationError}
      (game : gameType = .text name) (filled : Text.isBlankText name = false)
      (formulasRead : PartReading .formulas FormulaAdmitted FormulaRefused formulas (.ok kept))
      (weightsRead : PartReading .weights WeightAdmitted WeightRefused weights (.error failure)) :
      Made gameType formulas weights settings (.error failure)
  | complete {c : Configuration} (game : gameType = .text c.gameType) (filled : Text.isBlankText c.gameType = false)
      (formulasRead : PartReading .formulas FormulaAdmitted FormulaRefused formulas (.ok c.formulas.entries))
      (weightsRead : PartReading .weights WeightAdmitted WeightRefused weights (.ok c.weights.entries))
      (kept : c.settings = settings) : Made gameType formulas weights settings (.ok c)

theorem ofValues_made (gameType : Value) {formulas weights : List (Value × Value)} (settings : List (Value × Value))
    (distinct : Value.Distinct formulas) (distinct' : Value.Distinct weights) :
    Made gameType formulas weights settings
      (ofValues gameType (.object formulas) (.object weights) (.object settings)) := by
  rcases Entry.unnamed_or_named Text.isBlankText gameType with unfilled | ⟨name, rfl, filled⟩
  · have refused : ofValues gameType (.object formulas) (.object weights) (.object settings) =
        refuse .noGameType := by
      cases gameType with
      | text name => exact if_pos (unfilled name rfl)
      | _ => rfl
    rw [refused]
    exact .unnamed unfilled
  · have step : ofValues (.text name) (.object formulas) (.object weights) (.object settings) =
        readPart .formulas readFormula (.object formulas) >>= fun formulas =>
          readPart .weights readWeight (.object weights) >>= fun weights =>
            .ok ⟨name, formulas, weights, settings⟩ := if_neg (by rw [filled]; decide)
    have formulasRead := readPart_reading .formulas readFormula_decides distinct
    have weightsRead := readPart_reading .weights readWeight_decides distinct'
    rw [step]
    cases found : readPart .formulas readFormula (.object formulas) with
    | error failure =>
      rw [found] at formulasRead
      exact .formulas rfl filled formulasRead
    | ok table =>
      rw [found] at formulasRead
      cases found' : readPart .weights readWeight (.object weights) with
      | error failure =>
        rw [found'] at weightsRead
        exact .weights rfl filled formulasRead weightsRead
      | ok table' =>
        rw [found'] at weightsRead
        exact .complete rfl filled formulasRead weightsRead rfl

theorem formulaRefused_ne_fault {competency : String} {value : Value} {f : Fault} :
    ¬ FormulaRefused competency value (.fault f) := nofun

/-- Only a whole number that is too large for a double keeps the making of a configuration from ending with a
configuration or a refusal, and it does where it is the first thing that is wrong. -/
theorem ofValues_fault_iff {gameType : Value} {formulas weights settings : List (Value × Value)}
    (distinct : Value.Distinct formulas) (distinct' : Value.Distinct weights) {f : Fault} :
    ofValues gameType (.object formulas) (.object weights) (.object settings) = .error (.fault f) ↔
      f = .integerTooLarge ∧ (∃ name, gameType = .text name ∧ Text.isBlankText name = false) ∧
        (∃ kept, List.Forall₂ (Entry.Admits Text.isBlankText FormulaAdmitted) formulas kept) ∧
        LargeFirst Text.isBlankText WeightAdmitted weights := by
  have made := ofValues_made gameType settings distinct distinct'
  generalize ofValues gameType (.object formulas) (.object weights) (.object settings) = result at made
  constructor
  · rintro rfl
    cases made with
    | formulas _ _ formulasRead =>
      cases formulasRead with
      | refused _ _ first =>
        cases first with
        | named _ first => exact absurd first formulaRefused_ne_fault
    | weights game filled formulasRead weightsRead =>
      obtain ⟨rfl, large⟩ := (readWeight_decides.fault_iff weightRefused_fault_iff weightsRead).1 rfl
      cases formulasRead with
      | admitted each => exact ⟨rfl, ⟨_, game, filled⟩, ⟨_, each⟩, large⟩
  · rintro ⟨rfl, ⟨name, rfl, filled⟩, ⟨kept, each⟩, large⟩
    have weightsFault {outcome} (weightsRead : PartReading .weights WeightAdmitted WeightRefused weights outcome) :
        outcome = .error (.fault .integerTooLarge) :=
      (readWeight_decides.fault_iff weightRefused_fault_iff weightsRead).2 ⟨rfl, large⟩
    cases made with
    | unnamed unfilled => simp [unfilled name rfl] at filled
    | formulas _ _ formulasRead => cases readFormula_decides.reading_unique formulasRead (.admitted each)
    | weights _ _ _ weightsRead => exact congrArg _ (Except.error.inj (weightsFault weightsRead))
    | complete _ _ _ weightsRead _ => cases weightsFault weightsRead

/-- What making a configuration comes to. The first thing that is wrong is refused as input, except for a whole number
that is too large. -/
structure Outcome (gameType : Value) (formulas weights settings : List (Value × Value))
    (result : Configured Configuration) : Prop where
  made : Made gameType formulas weights settings result
  refused : ∀ e, result = refuse e → e.report.IsInput
  faulted : ∀ f, result = .error (.fault f) ↔ f = .integerTooLarge ∧
    (∃ name, gameType = .text name ∧ Text.isBlankText name = false) ∧
    (∃ kept, List.Forall₂ (Entry.Admits Text.isBlankText FormulaAdmitted) formulas kept) ∧
    LargeFirst Text.isBlankText WeightAdmitted weights
  finite : ∀ c, result = .ok c → ∀ e ∈ c.weights.entries, isFinite e.2 = true ∧ ¬ e.2 < 0.0

end Configuration

variable {values formulas weights : List (Value × Value)}

/-- Environments and configurations admit finite numbers only, and refuse as input whatever else they are given. But a
whole number that is too large for a double is a fault where it is the first thing that is wrong. -/
theorem inputs_are_refused_unless_large (gameType : Value) (settings : List (Value × Value))
    (distinct_values : Value.Distinct values) (distinct_formulas : Value.Distinct formulas)
    (distinct_weights : Value.Distinct weights) :
    Environment.Outcome values (Environment.ofValue (.object values)) ∧
      Configuration.Outcome gameType formulas weights settings
        (Configuration.ofValues gameType (.object formulas) (.object weights) (.object settings)) := by
  refine ⟨Environment.ofValue_outcome distinct_values,
    Configuration.ofValues_made gameType settings distinct_formulas distinct_weights, fun e _ => e.isInput,
    fun f => Configuration.ofValues_fault_iff distinct_formulas distinct_weights, fun c same e member => ?_⟩
  have checked := (Configuration.checked_iff.1 (Configuration.checked_of_ofValues same).2).2.2
  exact (checked e member).2

theorem large_integer_is_no_input_error :
    Environment.ofValue (.object [(.text "a", .bool true), (.text "b", .int (10 ^ 309))]) =
        .error (.fault .integerTooLarge) ∧
      Configuration.ofValues (.text "g") (.object [(.text "c", .text "x")]) (.object [(.text "c", .int (10 ^ 309))])
        (.object []) = .error (.fault .integerTooLarge) := by
  have large : integerLimit ≤ (10 ^ 309 : Int).natAbs := by decide +kernel
  have values : Value.Distinct [(.text "a", .bool true), (.text "b", .int (10 ^ 309))] := by decide
  have formulas : Value.Distinct [(.text "c", .text "x")] := by decide
  have weights : Value.Distinct [(.text "c", .int (10 ^ 309))] := by decide
  obtain ⟨environment, configuration⟩ := inputs_are_refused_unless_large (.text "g") [] values formulas weights
  constructor
  · exact (environment.faulted _).2 ⟨rfl, [(.text "a", .bool true)], [], [("a", 1.0)], "b", 10 ^ 309, rfl,
      .cons (.named rfl (.truth true)) .nil, rfl, large⟩
  · exact (configuration.faulted _).2 ⟨rfl, ⟨"g", rfl, by decide⟩,
      ⟨[("c", "x")], .cons (.named (by decide) (.text "x")) .nil⟩,
      [], [], [], "c", 10 ^ 309, rfl, .nil, by decide, large⟩

end GameScoring.Scoring
