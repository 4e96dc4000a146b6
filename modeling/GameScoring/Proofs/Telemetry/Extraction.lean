import GameScoring.Proofs.Table
import GameScoring.Proofs.Telemetry.Rereading
import GameScoring.Telemetry.Registry

/-!
# Extraction fails as it documents

From telemetry whose whole numbers have doubles, extraction makes an environment or is refused: the game is
not known, a field is missing or malformed, or a result is not finite. Only squares are not under control: a
reaction time that is far from the mean ends the extraction with a fault.
-/
namespace GameScoring
open Binary

namespace Value

mutual

/-- Whether every whole number in a value has a double. Keys are not looked at. -/
def fits : Value → Bool
  | int i => (ofInt? i).isSome
  | list items => itemsFit items
  | object entries => entriesFit entries
  | _ => true

def itemsFit : List Value → Bool
  | [] => true
  | item :: rest => fits item && itemsFit rest

def entriesFit : List (Value × Value) → Bool
  | [] => true
  | (_, value) :: rest => fits value && entriesFit rest

end

theorem fits_of_lookup? {name : String} {entries : List (Value × Value)} {value : Value}
    (fit : entriesFit entries = true) (h : lookup? name entries = some value) : value.fits = true := by
  induction entries with
  | nil => cases h
  | cons entry rest ih =>
    obtain ⟨key, first⟩ := entry
    rw [entriesFit, Bool.and_eq_true] at fit
    cases key with
    | text other =>
      rw [lookup?] at h
      split at h
      next =>
        cases h
        exact fit.1
      next => exact ih fit.2 h
    | _ => exact ih fit.2 h

/-- A value that fits is no number or has a double. -/
theorem number?_of_fits {value : Value} (fit : value.fits = true) :
    value.number? = none ∨ ∃ x, value.number? = some (.ok x) := by
  cases value with
  | int i =>
    rw [fits] at fit
    obtain ⟨x, near⟩ := Option.isSome_iff_exists.1 fit
    exact .inr ⟨x, by rw [number?, Numeral.ofInt, near]⟩
  | float x => exact .inr ⟨x, rfl⟩
  | _ => exact .inl rfl

end Value

namespace Telemetry

/-! ## Refusals -/

/-- The refusals that extraction documents: the game, the telemetry, or other input. -/
def extractionKinds : List Report.Kind := [.unknownGame, .missingTelemetry, .input]

theorem ExtractionError.kind_mem (e : ExtractionError) : e.report.kind ∈ extractionKinds := by
  cases e with
  | unknownGame _ => exact .head _
  | badField _ _ => exact .tail _ (.head _)
  | environment e => cases e <;> exact .tail _ (.tail _ (.head _))

/-- An extraction has a result with a property or is refused as it documents. -/
inductive Documented {α : Type} (P : α → Prop) : Extracted α → Prop
  | ok {a : α} (h : P a) : Documented P (.ok a)
  | refused {e : ExtractionError} (kind : e.report.kind ∈ extractionKinds) : Documented P (refuse e)

namespace Documented
variable {α β : Type} {P : α → Prop} {Q : β → Prop}

theorem refusal (e : ExtractionError) : Documented P (refuse e) := .refused e.kind_mem

theorem bind {x : Extracted α} {f : α → Extracted β} (h : Documented P x)
    (next : ∀ a, x = .ok a → P a → Documented Q (f a)) : Documented Q (x >>= f) := by
  cases h with
  | ok h => exact next _ rfl h
  | refused kind => exact .refused kind

end Documented

/-- An extraction has a result or is refused as it documents. -/
abbrev Answered {α : Type} : Extracted α → Prop := Documented fun _ => True

/-! ## Fields -/

section Fields

variable {fields : Fields} (fit : Value.entriesFit fields = true) (field : String)

include fit

theorem documented_require : Documented (fun value => value.fits = true) (require fields field) := by
  rw [require]
  split
  next => exact .refusal _
  next => exact .refusal _
  next found => exact .ok (Value.fits_of_lookup? fit found)

omit fit in
theorem answered_asNumber {value : Value} (fit : value.fits = true) : Answered (asNumber value field zero) := by
  rw [asNumber]
  rcases Value.number?_of_fits fit with none | ⟨x, number⟩
  · rw [none]
    exact .refusal _
  · rw [number]
    show Answered (if (!isFinite x) = true then _ else _)
    split
    next => exact .refusal _
    next =>
      rw [zero, checkMinimum]
      split
      next => exact .refusal _
      next => exact .ok trivial

theorem answered_requireNumber : Answered (requireNumber fields field zero) :=
  (documented_require fit field).bind fun _ _ fit => answered_asNumber field fit

theorem answered_optionalAmount : Answered (optionalAmount fields field) := by
  rw [optionalAmount]
  split
  next => exact .ok trivial
  next => exact .ok trivial
  next found => exact answered_asNumber field (Value.fits_of_lookup? fit found)

theorem documented_requireList :
    Documented (fun items => Value.itemsFit items = true) (requireList fields field) := by
  refine (documented_require fit field).bind fun value _ fit => ?_
  cases value with
  | list items => exact .ok fit
  | _ => exact .refusal _

end Fields

/-! ## Results -/

/-- Results that are all doubles. -/
def Measured (results : Table Value) : Prop := ∀ e ∈ results.entries, ∃ x, e.2 = .float x

end Telemetry

/-- Doubles are inserted one after the other, or one of them is refused. -/
theorem Environment.insertAll_measured {entries : List (String × Value)} (environment : Environment)
    (measured : ∀ e ∈ entries, ∃ x, e.2 = .float x) :
    (∃ result, environment.insertAll (entries.map fun e => (.text e.1, e.2)) = .ok result) ∨
      ∃ e, environment.insertAll (entries.map fun e => (.text e.1, e.2)) = refuse e := by
  induction entries generalizing environment with
  | nil => exact .inl ⟨environment, rfl⟩
  | cons entry rest ih =>
    obtain ⟨name, value⟩ := entry
    rw [List.forall_mem_cons] at measured
    obtain ⟨x, rfl⟩ : ∃ x, value = .float x := measured.1
    rw [List.map_cons]
    simp only [insertAll]
    split
    next => exact .inr ⟨_, rfl⟩
    next =>
      show (∃ result, (if hx : isFinite x = true then _ else _) = _) ∨
        ∃ e, (if hx : isFinite x = true then _ else _) = _
      split
      next => exact ih _ measured.2
      next => exact .inr ⟨_, rfl⟩

namespace Telemetry

theorem measured_numbers (entries : List (String × Float)) : Measured (numbers entries) := by
  intro e member
  obtain ⟨⟨_, x⟩, -, rfl⟩ := List.mem_map.1 (Table.mem_ofList member)
  exact ⟨x, rfl⟩

/-- The environment of results that are doubles is made, or one of them is refused. -/
theorem documented_environment {results : Table Value} (measured : Measured results) :
    Documented (fun environment : Environment => ∀ e ∈ environment.bindings.entries, isFinite e.2 = true)
      (widen .environment (Environment.ofValue (.record results.entries))) := by
  rw [Environment.ofValue_record]
  rcases Environment.empty.insertAll_measured measured with ⟨result, made⟩ | ⟨e, refused⟩
  · rw [made]
    exact .ok result.finite
  · rw [refused]
    exact .refusal _

/-! ## The built-in games -/

namespace ReactionTime

theorem answered_readTrial {value : Value} (fit : value.fits = true) (index : Nat) :
    Answered (readTrial index value) := by
  cases value with
  | object fields =>
    refine (answered_requireNumber fit "reaction_ms").bind fun reactionMs _ _ => ?_
    split
    next => exact .ok trivial
    next => exact .refusal _
  | _ => exact .refusal _

theorem answered_readTrials {items : List Value} (fit : Value.itemsFit items = true) (index : Nat) :
    Answered (readTrials index items) := by
  induction items generalizing index with
  | nil => exact .ok trivial
  | cons value rest ih =>
    rw [Value.itemsFit, Bool.and_eq_true] at fit
    exact (answered_readTrial fit.1 index).bind fun _ _ _ => (ih fit.2 (index + 1)).bind fun _ _ _ => .ok trivial

/-- The square of a finite number is infinite. -/
def SquareOverflows (x : Float) : Prop := isFinite x = true ∧ (Float.pow x 2.0).isInf = true

theorem square_of_overflows {x : Float} (h : SquareOverflows x) : square x = .error (.fault .powerOutOfRange) :=
  if_pos (by rw [Bool.and_eq_true]; exact h)

theorem square_of_not_overflows {x : Float} (h : ¬ SquareOverflows x) : square x = .ok (Float.pow x 2.0) :=
  if_neg (by rw [Bool.and_eq_true]; exact h)

/-- One of the numbers is so far from their mean that the square of the distance is infinite. -/
def Scattered (times : List Float) : Prop := ∃ x ∈ times, SquareOverflows (x - mean times)

theorem squaredDistances_of_overflows {center : Float} {times : List Float}
    (h : ∃ x ∈ times, SquareOverflows (x - center)) (total : Float) :
    squaredDistances center times total = .error (.fault .powerOutOfRange) := by
  induction times generalizing total with
  | nil => exact absurd h (by simp)
  | cons first rest ih =>
    rw [squaredDistances]
    by_cases near : SquareOverflows (first - center)
    · rw [square_of_overflows near]
      rfl
    · rw [square_of_not_overflows near]
      obtain ⟨x, member, overflows⟩ := h
      rcases List.mem_cons.1 member with rfl | later
      · exact absurd overflows near
      · exact ih ⟨x, later, overflows⟩ _

theorem exists_squaredDistances {center : Float} {times : List Float}
    (h : ∀ x ∈ times, ¬ SquareOverflows (x - center)) (total : Float) :
    ∃ result, squaredDistances center times total = .ok result := by
  induction times generalizing total with
  | nil => exact ⟨total, rfl⟩
  | cons first rest ih =>
    rw [List.forall_mem_cons] at h
    rw [squaredDistances, square_of_not_overflows h.1]
    exact ih h.2 _

/-- The variance of scattered numbers is a fault. -/
theorem variance_of_scattered {times : List Float} (h : Scattered times) :
    variance times = .error (.fault .powerOutOfRange) := by
  have some : ¬ times.isEmpty = true := by
    obtain ⟨x, member, -⟩ := h
    rw [List.isEmpty_iff]
    exact List.ne_nil_of_mem member
  rw [variance, if_neg some, squaredDistances_of_overflows h]
  rfl

theorem exists_variance {times : List Float} (h : ¬ Scattered times) : ∃ x, variance times = .ok x := by
  rw [variance]
  split
  next => exact ⟨0.0, rfl⟩
  next =>
    obtain ⟨total, summed⟩ :=
      exists_squaredDistances (fun x member overflows => h ⟨x, member, overflows⟩) 0.0
    rw [summed]
    exact ⟨_, rfl⟩

theorem summarize_of_scattered {trials : List Trial} (h : Scattered (trials.map Trial.reactionMs))
    (duration : Float) : summarize trials duration = .error (.fault .powerOutOfRange) := by
  rw [summarize, variance_of_scattered h]
  rfl

theorem documented_summarize {trials : List Trial} (h : ¬ Scattered (trials.map Trial.reactionMs))
    (duration : Float) : Documented Measured (summarize trials duration) := by
  obtain ⟨x, var⟩ := exists_variance h
  rw [summarize, var]
  exact .ok (measured_numbers _)

/-- The trials can be read, and their times are scattered. -/
structure ScatteredTrials (fields : Fields) (items : List Value) (duration : Float) (trials : List Trial) : Prop where
  listed : requireList fields "trials" = .ok items
  lasted : optionalAmount fields "duration_seconds" = .ok duration
  read : readTrials 0 items = .ok trials
  scattered : Scattered (trials.map Trial.reactionMs)

theorem extract_of_scattered {fields : Fields} {items : List Value} {duration : Float} {trials : List Trial}
    (h : ScatteredTrials fields items duration trials) : extract fields = .error (.fault .powerOutOfRange) := by
  rw [extract, h.listed, h.lasted]
  show readTrials 0 items >>= _ = _
  rw [h.read]
  exact summarize_of_scattered h.scattered duration

theorem documented_extract {fields : Fields} (fit : Value.entriesFit fields = true)
    (h : ∀ items duration trials, ¬ ScatteredTrials fields items duration trials) :
    Documented Measured (extract fields) := by
  refine (documented_requireList fit "trials").bind fun items listed fits => ?_
  refine (answered_optionalAmount fit "duration_seconds").bind fun duration lasted _ => ?_
  refine (answered_readTrials fits 0).bind fun trials read _ => ?_
  exact documented_summarize (fun scattered => h items duration trials ⟨listed, lasted, read, scattered⟩) duration

end ReactionTime

theorem MemoryMatch.documented_extract {fields : Fields} (fit : Value.entriesFit fields = true) :
    Documented Measured (extract fields) := by
  have number := answered_requireNumber fit
  refine (number "pairs_total").bind fun total _ _ => ?_
  refine (number "pairs_matched").bind fun matched _ _ => ?_
  refine (number "attempts").bind fun attempts _ _ => ?_
  refine (number "duration_seconds").bind fun duration _ _ => ?_
  split
  next => exact .refusal _
  next => exact .ok (measured_numbers _)

theorem FocusTask.documented_extract {fields : Fields} (fit : Value.entriesFit fields = true) :
    Documented Measured (extract fields) := by
  have number := answered_requireNumber fit
  refine (number "targets_shown").bind fun shown _ _ => ?_
  refine (number "targets_hit").bind fun hit _ _ => ?_
  refine (number "distractors_shown").bind fun distractors _ _ => ?_
  refine (number "false_alarms").bind fun alarms _ _ => ?_
  refine (answered_optionalAmount fit "duration_seconds").bind fun duration _ _ => ?_
  split
  next => exact .refusal _
  next =>
    split
    next => exact .refusal _
    next => exact .ok (measured_numbers _)

/-- The games that are known from the start. -/
inductive BuiltIn : String → Strategy → Prop
  | reactionTime : BuiltIn "reaction_time" ReactionTime.strategy
  | memoryMatch : BuiltIn "memory_match" MemoryMatch.strategy
  | focusTask : BuiltIn "focus_task" FocusTask.strategy

theorem builtIn_of_get? {gameType : String} {s : Strategy}
    (found : Registry.builtIn.strategies.get? gameType = some s) : BuiltIn gameType s := by
  have listed : Registry.builtIn.strategies.entries = [("reaction_time", ReactionTime.strategy),
      ("memory_match", MemoryMatch.strategy), ("focus_task", FocusTask.strategy)] := rfl
  have member := Table.mem_of_get? found
  rw [listed] at member
  simp only [List.mem_cons, Prod.mk.injEq, List.not_mem_nil, or_false] at member
  rcases member with ⟨rfl, rfl⟩ | ⟨rfl, rfl⟩ | ⟨rfl, rfl⟩
  · exact .reactionTime
  · exact .memoryMatch
  · exact .focusTask

/-- Telemetry of reactions that can be read, but whose times are scattered. -/
inductive Scatters : String → Value → Prop
  | reactions {fields : Fields} {items : List Value} {duration : Float} {trials : List ReactionTime.Trial}
      (h : ReactionTime.ScatteredTrials fields items duration trials) : Scatters "reaction_time" (.object fields)

theorem Scatters.gameType_eq {gameType : String} {raw : Value} (h : Scatters gameType raw) :
    gameType = "reaction_time" := by
  cases h
  rfl

theorem BuiltIn.documented_extract {gameType : String} {s : Strategy} (known : BuiltIn gameType s)
    {fields : Fields} (fit : Value.entriesFit fields = true) (near : ¬ Scatters gameType (.object fields)) :
    Documented Measured (s.extract fields) := by
  cases known with
  | reactionTime => exact ReactionTime.documented_extract fit fun _ _ _ h => near (.reactions h)
  | memoryMatch => exact MemoryMatch.documented_extract fit
  | focusTask => exact FocusTask.documented_extract fit

theorem extract_of_scatters {gameType : String} {raw : Value} (h : Scatters gameType raw) :
    Registry.builtIn.extract gameType raw = .error (.fault .powerOutOfRange) := by
  cases h with
  | @reactions fields items duration trials h =>
    show ReactionTime.extract fields >>= _ = _
    rw [ReactionTime.extract_of_scattered h]
    rfl

/-- Extraction from telemetry whose whole numbers have doubles makes an environment of finite numbers or is
refused as it documents, except from readable telemetry of reactions with a time so far from the mean that the
square of the distance is infinite: there it ends with a fault. -/
theorem extraction_fails_as_documented {raw : Value} (fit : raw.fits = true) (gameType : String) :
    (Documented (fun environment => ∀ e ∈ environment.bindings.entries, isFinite e.2 = true)
        (Registry.builtIn.extract gameType raw) ↔ ¬ Scatters gameType raw) ∧
      (Scatters gameType raw → Registry.builtIn.extract gameType raw = .error (.fault .powerOutOfRange)) := by
  refine ⟨⟨fun documented scatters => ?_, fun near => ?_⟩, extract_of_scatters⟩
  · rw [extract_of_scatters scatters] at documented
    cases documented
  · -- Without a known game or an object there is nothing to read; otherwise the results are doubles.
    rw [Registry.extract, Registry.strategy]
    cases found : Registry.builtIn.strategies.get? gameType with
    | none => exact .refusal _
    | some s =>
      cases raw with
      | object fields =>
        exact ((builtIn_of_get? found).documented_extract fit near).bind fun _ _ measured =>
          documented_environment measured
      | _ => exact .refusal _

/-- A trial that was answered correctly. -/
def answered (reactionMs : Float) : Value :=
  .object [(.text "reaction_ms", .float reactionMs), (.text "correct", .bool true)]

theorem readTrial_flagged {x : Float} (finite : isFinite x = true) (least : ¬ x < 0.0) (correct : Bool)
    (index : Nat) :
    ReactionTime.readTrial index (.object [(.text "reaction_ms", .float x), (.text "correct", .bool correct)]) =
      .ok ⟨x, correct⟩ := by
  have number : asNumber (.float x) "reaction_ms" zero = .ok x := by
    show (if (!isFinite x) = true then _ else _) = _
    rw [if_neg (by rw [finite]; decide)]
    show (if x < 0.0 then _ else _) >>= _ = _
    rw [if_neg least]
    rfl
  show asNumber (.float x) "reaction_ms" zero >>= _ = _
  rw [number]
  rfl

/-- Two reaction times, one of which is very long. -/
def longReaction : Value := .object [(.text "trials", .list [answered 1e200, answered 0.0])]

/-- The fault is met if the distance of a long reaction time from the mean has an infinite square. No other
game meets it. -/
theorem long_reaction_is_a_fault : longReaction.fits = true ∧
    Documented (fun environment => ∀ e ∈ environment.bindings.entries, isFinite e.2 = true)
      (Registry.builtIn.extract "focus_task" longReaction) ∧
    ((Float.pow (1e200 - ReactionTime.mean [1e200, 0.0]) 2.0).isInf = true →
      Registry.builtIn.extract "reaction_time" longReaction = .error (.fault .powerOutOfRange)) := by
  have fit : longReaction.fits = true := by decide
  have read : ReactionTime.readTrials 0 [answered 1e200, answered 0.0] = .ok [⟨1e200, true⟩, ⟨0.0, true⟩] := by
    have first := readTrial_flagged (x := 1e200) (by decide +kernel) (by decide +kernel) true 0
    have second := readTrial_flagged (x := 0.0) (by decide +kernel) (by decide +kernel) true (0 + 1)
    simp only [ReactionTime.readTrials, answered, first, second]
    rfl
  refine ⟨fit, (extraction_fails_as_documented fit "focus_task").1.2 fun h => absurd h.gameType_eq (by decide),
    fun infinite => ?_⟩
  refine (extraction_fails_as_documented fit "reaction_time").2 (.reactions ⟨rfl, rfl, read, 1e200, ?_, ?_, infinite⟩)
  · exact List.mem_cons_self ..
  · decide +kernel

end Telemetry

end GameScoring
