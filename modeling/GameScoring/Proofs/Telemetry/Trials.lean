import GameScoring.Proofs.Telemetry.Admission
import GameScoring.Proofs.Telemetry.Percentages

/-!
# The first defect of trials

Telemetry of reactions is looked at in order: that there is a list of trials, the duration, and then the trials one
after the other, of each of them its time before its flag. What is refused is the first defect that is met, and
nothing that stands behind it matters.
-/
namespace GameScoring

open Binary

/-! ## Numbers -/

theorem Binary.number_one : number 1.0 = 1 := by
  have unit : (1.0 : Float) = ofMagnitude false Telemetry.onePlace := by
    apply Float.toBits_inj.1
    decide
  rw [unit, number_ofMagnitude (by decide), Telemetry.valueAt_onePlace]
  rfl

/-- The double of a whole number is less than zero exactly if the number is. -/
theorem Binary.Closest.lt_zero_iff {i : Int} {x : Float} (h : Closest i x) : x < 0.0 ↔ i < 0 := by
  rw [Binary.lt_zero_iff h.finite]
  constructor
  · intro below
    by_contra least
    have near := h.least 0.0 (by decide)
    have whole : (0 : ℚ) ≤ i := by exact_mod_cast not_lt.1 least
    rw [number_zero, sub_zero, abs_of_nonneg whole, abs_of_pos (by linarith)] at near
    linarith
  · intro negative
    by_contra least
    have near := h.least (-1.0) (by decide)
    have whole : (i : ℚ) + 1 ≤ 0 := by exact_mod_cast negative
    rw [number_neg (by decide), number_one, sub_neg_eq_add, abs_of_nonpos whole, abs_of_neg (by linarith)] at near
    linarith

namespace Telemetry

/-! ## Exact refusals -/

theorem bind_eq_refuse_iff {ε α β : Type} {x : Except (Failure ε) α} {f : α → Except (Failure ε) β} {e : ε} :
    x >>= f = refuse e ↔ x = refuse e ∨ ∃ a, x = .ok a ∧ f a = refuse e := by
  cases x with
  | error failure =>
    constructor
    · rintro ⟨⟩
      exact .inl rfl
    · rintro (⟨⟨⟩⟩ | ⟨_, ⟨⟩, -⟩)
      rfl
  | ok a =>
    constructor
    · exact fun same => .inr ⟨a, rfl, same⟩
    · rintro (⟨⟨⟩⟩ | ⟨_, ⟨⟩, same⟩)
      exact same

/-- An extraction is refused for exactly the defects that are named, and has a result if there is none. -/
structure Judged {α : Type} (defects : String → Defect → Prop) (x : Extracted α) : Prop where
  refused_iff : ∀ field d, x = refuse (.badField field d) ↔ defects field d
  settled : (∃ a, x = .ok a) ∨ ∃ field d, defects field d

namespace Judged
variable {α β : Type} {defects defects' : String → Defect → Prop} {x : Extracted α}

theorem of_ok {a : α} (sound : ∀ field d, ¬ defects field d) : Judged defects (.ok a : Extracted α) :=
  ⟨fun field d => ⟨nofun, fun h => absurd h (sound field d)⟩, .inl ⟨a, rfl⟩⟩

theorem of_refused {field : String} {d : Defect} (h : defects field d)
    (only : ∀ {field' d'}, defects field' d' → field = field' ∧ d = d') :
    Judged defects (refuse (.badField field d) : Extracted α) where
  refused_iff field' d' := by
    constructor
    · rintro ⟨⟩
      exact h
    · intro other
      obtain ⟨rfl, rfl⟩ := only other
      rfl
  settled := .inr ⟨field, d, h⟩

theorem congr (h : Judged defects x) (same : ∀ field d, defects field d ↔ defects' field d) : Judged defects' x := by
  obtain rfl : defects = defects' := funext fun field => funext fun d => propext (same field d)
  exact h

theorem ok_iff (h : Judged defects x) : (∃ a, x = .ok a) ↔ ∀ field d, ¬ defects field d := by
  constructor
  · rintro ⟨a, rfl⟩ field d defect
    cases (h.refused_iff field d).2 defect
  · intro sound
    refine h.settled.resolve_right ?_
    rintro ⟨field, d, defect⟩
    exact sound field d defect

theorem refused_bind_iff {f : α → Extracted β} {later : α → String → Defect → Prop} (h : Judged defects x)
    (next : ∀ a, x = .ok a → ∀ field d, f a = refuse (.badField field d) ↔ later a field d) (field : String)
    (d : Defect) : x >>= f = refuse (.badField field d) ↔ defects field d ∨ ∃ a, x = .ok a ∧ later a field d := by
  rw [bind_eq_refuse_iff, h.refused_iff]
  exact or_congr_right (exists_congr fun a => and_congr_right fun read => next a read field d)

theorem bind (later : α → String → Defect → Prop) {f : α → Extracted β} (h : Judged defects x)
    (next : ∀ a, x = .ok a → Judged (later a) (f a)) :
    Judged (fun field d => defects field d ∨ ∃ a, x = .ok a ∧ later a field d) (x >>= f) where
  refused_iff := h.refused_bind_iff fun a read => (next a read).refused_iff
  settled := by
    rcases h.settled with ⟨a, read⟩ | ⟨field, d, defect⟩
    · rcases (next a read).settled with ⟨b, made⟩ | ⟨field, d, defect⟩
      · exact .inl ⟨b, by rw [read]; exact made⟩
      · exact .inr ⟨field, d, .inr ⟨a, read, defect⟩⟩
    · exact .inr ⟨field, d, .inl defect⟩

theorem map (h : Judged defects x) (f : α → β) : Judged defects (x >>= fun a => .ok (f a)) := by
  have next : ∀ a, x = .ok a → Judged (fun _ _ => False) (.ok (f a) : Extracted β) :=
    fun _ _ => of_ok fun _ _ => id
  refine (h.bind _ next).congr fun field d => ?_
  simp only [and_false, exists_false, or_false]

end Judged

/-! ## Defects of fields -/

/-- A field is absent or null. -/
def Absent (fields : Fields) (name : String) : Prop :=
  Value.lookup? name fields = none ∨ Value.lookup? name fields = some .null

/-- A field has a value other than null. -/
def Given (fields : Fields) (name : String) (value : Value) : Prop :=
  Value.lookup? name fields = some value ∧ value ≠ .null

/-- Why a value is not a finite number that is zero or more. -/
inductive NoAmount : Value → Defect → Prop
  | notNumber {value : Value} (noWhole : ∀ i, value ≠ .int i) (noDouble : ∀ x, value ≠ .float x) :
      NoAmount value .notNumber
  | notFinite {x : Float} (infinite : isFinite x = false) : NoAmount (.float x) .notFinite
  | negative {i : Int} (negative : i < 0) : NoAmount (.int i) (.below 0.0)
  | below {x : Float} (finite : isFinite x = true) (below : x < 0.0) : NoAmount (.float x) (.below 0.0)

/-- Why a field that has to be an amount is not. -/
inductive AmountDefect (fields : Fields) (name : String) : Defect → Prop
  | missing (absent : Absent fields name) : AmountDefect fields name .missing
  | malformed {value : Value} {d : Defect} (given : Given fields name value) (bad : NoAmount value d) :
      AmountDefect fields name d

/-- Why a field that has to be a list is not. -/
inductive ListDefect (fields : Fields) (name : String) : Defect → Prop
  | missing (absent : Absent fields name) : ListDefect fields name .missing
  | notList {value : Value} (given : Given fields name value) (bad : ∀ items, value ≠ .list items) :
      ListDefect fields name .notList

theorem NoAmount.unique {value : Value} {d d' : Defect} (h : NoAmount value d) (h' : NoAmount value d') : d = d' := by
  cases h with
  | notNumber noWhole noDouble =>
    cases h' with
    | notNumber _ _ => rfl
    | notFinite _ => exact absurd rfl (noDouble _)
    | negative _ => exact absurd rfl (noWhole _)
    | below _ _ => exact absurd rfl (noDouble _)
  | notFinite infinite =>
    cases h' with
    | notNumber _ noDouble => exact absurd rfl (noDouble _)
    | notFinite _ => rfl
    | below finite _ => rw [infinite] at finite; cases finite
  | negative _ =>
    cases h' with
    | notNumber noWhole _ => exact absurd rfl (noWhole _)
    | negative _ => rfl
  | below finite _ =>
    cases h' with
    | notNumber _ noDouble => exact absurd rfl (noDouble _)
    | notFinite infinite => rw [infinite] at finite; cases finite
    | below _ _ => rfl

/-- The finite double of a number is less than zero exactly if the number is no amount. -/
theorem noAmount_iff_of_standsFor {value : Value} {x : Float} (stands : value.StandsFor x) {d : Defect} :
    NoAmount value d ↔ d = .below 0.0 ∧ x < 0.0 := by
  cases stands with
  | int _ _ closest =>
    rw [closest.lt_zero_iff]
    constructor
    · rintro (⟨noWhole, -⟩ | _ | negative | _)
      · exact absurd rfl (noWhole _)
      · exact ⟨rfl, negative⟩
    · rintro ⟨rfl, negative⟩
      exact .negative negative
  | float finite =>
    constructor
    · rintro (⟨-, noDouble⟩ | infinite | _ | ⟨-, below⟩)
      · exact absurd rfl (noDouble _)
      · rw [infinite] at finite
        cases finite
      · exact ⟨rfl, below⟩
    · rintro ⟨rfl, below⟩
      exact .below finite below

theorem asNumber_of_standsFor {value : Value} {x : Float} (stands : value.StandsFor x) (field : String) :
    asNumber value field zero = if x < 0.0 then refuse (.badField field (.below 0.0)) else .ok x := by
  rw [asNumber, stands.number?]
  show (if (!isFinite x) = true then _ else _) = _
  rw [if_neg (by rw [stands.finite]; decide), zero, checkMinimum]
  split <;> rfl

theorem judged_asNumber {value : Value} (fit : value.fits = true) (field : String) :
    Judged (fun name d => name = field ∧ NoAmount value d) (asNumber value field zero) := by
  rcases value.number_cases with ⟨x, stands⟩ | ⟨x, rfl, infinite⟩ | ⟨i, rfl, large⟩ | noNumber
  · rw [asNumber_of_standsFor stands]
    split
    next below =>
      refine .of_refused ⟨rfl, (noAmount_iff_of_standsFor stands).2 ⟨rfl, below⟩⟩ ?_
      rintro _ _ ⟨rfl, bad⟩
      exact ⟨rfl, ((noAmount_iff_of_standsFor stands).1 bad).1.symm⟩
    next least => exact .of_ok fun _ _ bad => least ((noAmount_iff_of_standsFor stands).1 bad.2).2
  · have refused : asNumber (.float x) field zero = refuse (.badField field .notFinite) :=
      if_pos (by rw [infinite]; rfl)
    rw [refused]
    have bad : NoAmount (.float x) .notFinite := .notFinite infinite
    refine .of_refused ⟨rfl, bad⟩ ?_
    rintro _ _ ⟨rfl, other⟩
    exact ⟨rfl, bad.unique other⟩
  · rcases Value.number?_of_fits fit with none | ⟨x, number⟩
    · cases none
    · rw [Value.number?, Numeral.ofInt_of_large large] at number
      cases number
  · have bad : NoAmount value .notNumber := by
      refine .notNumber ?_ ?_
      · rintro i rfl
        cases noNumber
      · rintro x rfl
        cases noNumber
    rw [asNumber, noNumber]
    refine .of_refused ⟨rfl, bad⟩ ?_
    rintro _ _ ⟨rfl, other⟩
    exact ⟨rfl, bad.unique other⟩

section Fields

variable {fields : Fields} {name : String}

theorem require_ok_iff {value : Value} : require fields name = .ok value ↔ Given fields name value := by
  rw [require, Given]
  split
  next none => simp [none, refuse]
  next null => simpa [null, refuse] using fun same => same.symm
  next some found =>
    rw [found]
    constructor
    · rintro ⟨⟩
      exact ⟨rfl, some⟩
    · rintro ⟨⟨⟩, -⟩
      rfl

variable (fields name) in
theorem judged_require : Judged (fun field d => field = name ∧ d = .missing ∧ Absent fields name)
    (require fields name) := by
  by_cases absent : Absent fields name
  · have refused : require fields name = refuse (.badField name .missing) := by
      rw [require]
      rcases absent with none | null
      · rw [none]
      · rw [null]
    rw [refused]
    refine .of_refused ⟨rfl, rfl, absent⟩ ?_
    rintro _ _ ⟨rfl, rfl, -⟩
    exact ⟨rfl, rfl⟩
  · obtain ⟨value, found⟩ := Option.ne_none_iff_exists'.1 (not_or.1 absent).1
    have given : Given fields name value := ⟨found, fun null => absent (.inr (null ▸ found))⟩
    rw [require_ok_iff.2 given]
    exact .of_ok fun _ _ h => absent h.2.2

theorem amountDefect_iff {d : Defect} : AmountDefect fields name d ↔
    d = .missing ∧ Absent fields name ∨ ∃ value, Given fields name value ∧ NoAmount value d := by
  constructor
  · rintro (absent | ⟨given, bad⟩)
    · exact .inl ⟨rfl, absent⟩
    · exact .inr ⟨_, given, bad⟩
  · rintro (⟨rfl, absent⟩ | ⟨_, given, bad⟩)
    · exact .missing absent
    · exact .malformed given bad

theorem listDefect_iff {d : Defect} : ListDefect fields name d ↔
    d = .missing ∧ Absent fields name ∨
      ∃ value, Given fields name value ∧ d = .notList ∧ ∀ items, value ≠ .list items := by
  constructor
  · rintro (absent | ⟨given, bad⟩)
    · exact .inl ⟨rfl, absent⟩
    · exact .inr ⟨_, given, rfl, bad⟩
  · rintro (⟨rfl, absent⟩ | ⟨_, given, rfl, bad⟩)
    · exact .missing absent
    · exact .notList given bad

variable (fields name) in
theorem judged_requireList : Judged (fun field d => field = name ∧ ListDefect fields name d)
    (requireList fields name) := by
  let later (value : Value) (field : String) (d : Defect) : Prop :=
    field = name ∧ d = .notList ∧ ∀ items, value ≠ .list items
  rw [requireList]
  refine ((judged_require fields name).bind later fun value _ => ?_).congr fun field d => ?_
  · cases value with
    | list items => exact .of_ok fun _ _ h => h.2.2 items rfl
    | _ =>
      refine .of_refused ⟨rfl, rfl, by rintro _ ⟨⟩⟩ ?_
      rintro _ _ ⟨rfl, rfl, -⟩
      exact ⟨rfl, rfl⟩
  · simp only [require_ok_iff, listDefect_iff]
    tauto

variable (name) (fit : Value.entriesFit fields = true)
include fit

theorem judged_requireNumber : Judged (fun field d => field = name ∧ AmountDefect fields name d)
    (requireNumber fields name zero) := by
  refine ((judged_require fields name).bind _ fun value read =>
    judged_asNumber (Value.fits_of_lookup? fit (require_ok_iff.1 read).1) name).congr fun field d => ?_
  simp only [require_ok_iff, amountDefect_iff]
  tauto

theorem judged_optionalAmount :
    Judged (fun field d => field = name ∧ ∃ value, Given fields name value ∧ NoAmount value d)
      (optionalAmount fields name) := by
  rw [optionalAmount]
  split
  next none =>
    refine .of_ok ?_
    rintro _ _ ⟨_, _, ⟨found, -⟩, -⟩
    cases none.symm.trans found
  next null =>
    refine .of_ok ?_
    rintro _ _ ⟨_, _, ⟨found, some⟩, -⟩
    exact some (Option.some.inj (null.symm.trans found)).symm
  next value some found =>
    refine (judged_asNumber (Value.fits_of_lookup? fit found) name).congr fun field d => ?_
    refine and_congr_right fun _ => ⟨fun bad => ⟨value, ⟨found, some⟩, bad⟩, ?_⟩
    rintro ⟨_, given, bad⟩
    rwa [← Option.some.inj (found.symm.trans given.1)] at bad

end Fields

/-! ## Defects of trials -/

namespace ReactionTime

/-- The defect that is met first in the trial at a position, with the field that it is reported for. -/
inductive Malformed (index : Nat) : Value → String → Defect → Prop
  | notObject {value : Value} (noObject : ∀ fields, value ≠ .object fields) :
      Malformed index value (trialName index) .notObject
  | untimed {fields : Fields} {d : Defect} (time : AmountDefect fields "reaction_ms" d) :
      Malformed index (.object fields) "reaction_ms" d
  | unflagged {fields : Fields} (timed : ∀ d, ¬ AmountDefect fields "reaction_ms" d)
      (flag : ∀ b, Value.lookup? "correct" fields ≠ some (.bool b)) :
      Malformed index (.object fields) (trialName index ++ ".correct") .notTruthValue

/-- A trial has no defect. -/
def WellFormed (value : Value) : Prop := ∀ index field d, ¬ Malformed index value field d

theorem Malformed.at {index : Nat} {value : Value} {field : String} {d : Defect} (h : Malformed index value field d)
    (other : Nat) : ∃ field', Malformed other value field' d := by
  cases h with
  | notObject noObject => exact ⟨_, .notObject noObject⟩
  | untimed time => exact ⟨_, .untimed time⟩
  | unflagged timed flag => exact ⟨_, .unflagged timed flag⟩

theorem wellFormed_iff (index : Nat) {value : Value} :
    WellFormed value ↔ ∀ field d, ¬ Malformed index value field d := by
  refine ⟨fun h => h index, fun h other field d bad => ?_⟩
  obtain ⟨field', bad⟩ := bad.at index
  exact h field' d bad

theorem judged_readTrial {value : Value} (fit : value.fits = true) (index : Nat) :
    Judged (Malformed index value) (readTrial index value) := by
  cases value with
  | object fields =>
    let later (_ : Float) (field : String) (d : Defect) : Prop :=
      field = trialName index ++ ".correct" ∧ d = .notTruthValue ∧ ∀ b, Value.lookup? "correct" fields ≠ some (.bool b)
    have timed := judged_requireNumber "reaction_ms" fit
    refine (timed.bind later fun ms _ => ?_).congr fun field d => ?_
    · split
      next b flag => exact .of_ok fun _ _ h => h.2.2 b flag
      next none =>
        refine .of_refused ⟨rfl, rfl, none⟩ ?_
        rintro _ _ ⟨rfl, rfl, -⟩
        exact ⟨rfl, rfl⟩
    · constructor
      · rintro (⟨rfl, time⟩ | ⟨ms, read, rfl, rfl, flag⟩)
        · exact .untimed time
        · exact .unflagged (fun d time => timed.ok_iff.1 ⟨ms, read⟩ _ d ⟨rfl, time⟩) flag
      · rintro (noObject | time | ⟨none, flag⟩)
        · exact absurd rfl (noObject fields)
        · exact .inl ⟨rfl, time⟩
        · obtain ⟨ms, read⟩ := timed.ok_iff.2 fun _ d time => none d time.2
          exact .inr ⟨ms, read, rfl, rfl, flag⟩
  | _ =>
    refine .of_refused (.notObject (by rintro _ ⟨⟩)) ?_
    rintro _ _ ⟨-⟩
    exact ⟨rfl, rfl⟩

/-- The defect of the first trial that has one, where trials are counted from an index. -/
inductive FirstMalformed (index : Nat) (items : List Value) (field : String) (d : Defect) : Prop
  | intro {before after : List Value} {bad : Value} (split : items = before ++ bad :: after)
      (sound : ∀ value ∈ before, WellFormed value) (first : Malformed (index + before.length) bad field d)

theorem firstMalformed_cons_iff {index : Nat} {value : Value} {rest : List Value} {field : String} {d : Defect} :
    FirstMalformed index (value :: rest) field d ↔
      Malformed index value field d ∨ WellFormed value ∧ FirstMalformed (index + 1) rest field d := by
  constructor
  · rintro ⟨split, sound, first⟩
    rename_i before after bad
    cases before with
    | nil =>
      cases split
      exact .inl first
    | cons head before =>
      cases split
      rw [List.forall_mem_cons] at sound
      rw [List.length_cons, ← Nat.add_assoc, Nat.add_right_comm] at first
      exact .inr ⟨sound.1, rfl, sound.2, first⟩
  · rintro (first | ⟨sound, @⟨before, after, bad, rfl, others, first⟩⟩)
    · exact ⟨(List.nil_append _).symm, nofun, first⟩
    · refine ⟨(List.cons_append ..).symm, List.forall_mem_cons.2 ⟨sound, others⟩, ?_⟩
      rwa [List.length_cons, ← Nat.add_assoc, Nat.add_right_comm]

theorem judged_readTrials {items : List Value} (fit : Value.itemsFit items = true) (index : Nat) :
    Judged (FirstMalformed index items) (readTrials index items) := by
  induction items generalizing index with
  | nil =>
    refine .of_ok ?_
    rintro _ _ ⟨split, -, -⟩
    simp at split
  | cons value rest ih =>
    rw [Value.itemsFit, Bool.and_eq_true] at fit
    have head := judged_readTrial fit.1 index
    refine (head.bind _ fun trial _ => (ih fit.2 (index + 1)).map (trial :: ·)).congr fun field d => ?_
    rw [firstMalformed_cons_iff, wellFormed_iff index, ← head.ok_iff]
    simp only [exists_and_right]

/-! ## Extraction -/

/-- The defect that is met first in telemetry of reactions: in the list of trials, in the duration, or in the trials. -/
inductive FirstDefect (fields : Fields) : String → Defect → Prop
  | trials {d : Defect} (unlisted : ListDefect fields "trials" d) : FirstDefect fields "trials" d
  | duration {items : List Value} {value : Value} {d : Defect}
      (listed : Value.lookup? "trials" fields = some (.list items)) (given : Given fields "duration_seconds" value)
      (bad : NoAmount value d) : FirstDefect fields "duration_seconds" d
  | trial {items : List Value} {field : String} {d : Defect}
      (listed : Value.lookup? "trials" fields = some (.list items))
      (lasting : ∀ value d, Given fields "duration_seconds" value → ¬ NoAmount value d)
      (first : FirstMalformed 0 items field d) : FirstDefect fields field d

theorem requireList_ok_iff {fields : Fields} {name : String} {items : List Value} :
    requireList fields name = .ok items ↔ Value.lookup? name fields = some (.list items) := by
  constructor
  · intro read
    obtain ⟨value, given, read⟩ := ok_of_bind read
    cases value with
    | list _ =>
      cases read
      exact (require_ok_iff.1 given).1
    | _ => cases read
  · intro found
    rw [requireList, require_ok_iff.2 ⟨found, nofun⟩]
    rfl

/-- The results are never refused for a field. -/
theorem summarize_ne_refuse (trials : List Trial) (duration : Float) (field : String) (d : Defect) :
    summarize trials duration ≠ refuse (.badField field d) := by
  by_cases scattered : Scattered (trials.map Trial.reactionMs)
  · rw [summarize_of_scattered scattered]
    rintro ⟨⟩
  · obtain ⟨x, var⟩ := exists_variance scattered
    rw [summarize, var]
    rintro ⟨⟩

theorem extract_refused_iff {fields : Fields} (fit : Value.entriesFit fields = true) (field : String) (d : Defect) :
    extract fields = refuse (.badField field d) ↔ FirstDefect fields field d := by
  have listing := judged_requireList fields "trials"
  have lasting := judged_optionalAmount "duration_seconds" fit
  have last : ∀ trials duration field d, summarize trials duration = refuse (.badField field d) ↔ False :=
    fun trials duration field d => iff_of_false (summarize_ne_refuse trials duration field d) id
  have unfold := listing.refused_bind_iff (fun items listed => lasting.refused_bind_iff fun duration _ =>
    (judged_readTrials (Value.fits_of_lookup? fit (requireList_ok_iff.1 listed)) 0).refused_bind_iff
      fun trials _ => last trials duration) field d
  rw [extract]
  refine unfold.trans ?_
  simp only [requireList_ok_iff, and_false, exists_false, or_false]
  constructor
  · rintro (⟨rfl, unlisted⟩ | ⟨items, listed, ⟨rfl, value, given, bad⟩ | ⟨duration, read, first⟩⟩)
    · exact .trials unlisted
    · exact .duration listed given bad
    · have sound := lasting.ok_iff.1 ⟨duration, read⟩
      exact .trial listed (fun value d given bad => sound _ d ⟨rfl, value, given, bad⟩) first
  · rintro (unlisted | ⟨listed, given, bad⟩ | ⟨listed, none, first⟩)
    · exact .inl ⟨rfl, unlisted⟩
    · exact .inr ⟨_, listed, .inl ⟨rfl, _, given, bad⟩⟩
    · obtain ⟨duration, read⟩ : ∃ duration, optionalAmount fields "duration_seconds" = .ok duration := by
        rw [lasting.ok_iff]
        rintro _ d ⟨-, value, given, bad⟩
        exact none value d given bad
      exact .inr ⟨_, listed, .inr ⟨duration, read, first⟩⟩

/-- Another trial has the same defect: it agrees on the fields that are looked at until the defect is met. -/
inductive SharesDefect : Value → Value → Prop
  | noObjects {value value' : Value} (noObject : ∀ fields, value ≠ .object fields)
      (noObject' : ∀ fields, value' ≠ .object fields) : SharesDefect value value'
  | untimed {fields fields' : Fields} {d : Defect} (time : AmountDefect fields "reaction_ms" d)
      (same : Value.lookup? "reaction_ms" fields' = Value.lookup? "reaction_ms" fields) :
      SharesDefect (.object fields) (.object fields')
  | unflagged {fields fields' : Fields}
      (same : Value.lookup? "reaction_ms" fields' = Value.lookup? "reaction_ms" fields)
      (same' : Value.lookup? "correct" fields' = Value.lookup? "correct" fields) :
      SharesDefect (.object fields) (.object fields')

theorem given_congr {fields fields' : Fields} {name : String}
    (same : Value.lookup? name fields' = Value.lookup? name fields) {value : Value} :
    Given fields' name value ↔ Given fields name value := by
  rw [Given, Given, same]

theorem amountDefect_congr {fields fields' : Fields} {name : String}
    (same : Value.lookup? name fields' = Value.lookup? name fields) {d : Defect} :
    AmountDefect fields' name d ↔ AmountDefect fields name d := by
  simp only [amountDefect_iff, Absent, given_congr same, same]

theorem Malformed.shared {index : Nat} {value value' : Value} {field : String} {d : Defect}
    (h : Malformed index value field d) (shares : SharesDefect value value') : Malformed index value' field d := by
  cases shares with
  | noObjects noObject noObject' =>
    cases h with
    | notObject _ => exact .notObject noObject'
    | untimed _ => exact absurd rfl (noObject _)
    | unflagged _ _ => exact absurd rfl (noObject _)
  | untimed time same =>
    cases h with
    | notObject noObject => exact absurd rfl (noObject _)
    | untimed time => exact .untimed ((amountDefect_congr same).2 time)
    | unflagged timed _ => exact absurd time (timed _)
  | unflagged same same' =>
    cases h with
    | notObject noObject => exact absurd rfl (noObject _)
    | untimed time => exact .untimed ((amountDefect_congr same).2 time)
    | unflagged timed flag => exact .unflagged (fun d time => timed d ((amountDefect_congr same).1 time)) (same' ▸ flag)

end ReactionTime

open ReactionTime

theorem extract_reactions_refused_iff {fields : Fields} (fit : Value.entriesFit fields = true) (field : String)
    (d : Defect) : Registry.builtIn.extract "reaction_time" (.object fields) = refuse (.badField field d) ↔
      FirstDefect fields field d := by
  have environment_ne : ∀ results : Table Value,
      widen ExtractionError.environment (Environment.ofValue (.record results.entries)) ≠
        refuse (ExtractionError.badField field d) := by
    intro results
    cases Environment.ofValue (.record results.entries) with
    | error failure => cases failure <;> rintro ⟨⟩
    | ok environment => rintro ⟨⟩
  rw [← extract_refused_iff fit]
  show ReactionTime.extract fields >>= _ = _ ↔ _
  refine bind_eq_refuse_iff.trans (or_iff_left ?_)
  rintro ⟨results, -, refused⟩
  exact environment_ne results refused

theorem ExtractionError.eq_badField_of_kind {e : ExtractionError} (kind : e.report.kind = .missingTelemetry) :
    ∃ field d, e = .badField field d := by
  cases e with
  | unknownGame _ => cases kind
  | badField field d => exact ⟨field, d, rfl⟩
  | environment e => cases e <;> cases kind

/-- Telemetry of reactions is refused as missing something exactly if it has a defect, and then for the first one.
What stands behind the defect of a trial, in the trial or after it, does not matter. -/
theorem reactions_refused_for_first_defect {fields : Fields} (fit : Value.entriesFit fields = true) :
    (∀ field d, Registry.builtIn.extract "reaction_time" (.object fields) = refuse (.badField field d) ↔
      FirstDefect fields field d) ∧
    ((∃ e, Registry.builtIn.extract "reaction_time" (.object fields) = refuse e ∧
        e.report.kind = .missingTelemetry) ↔ ∃ field d, FirstDefect fields field d) ∧
    ∀ {before after : List Value} {bad : Value} {field : String} {d : Defect},
      Value.lookup? "trials" fields = some (.list (before ++ bad :: after)) →
      (∀ value ∈ before, WellFormed value) → Malformed before.length bad field d →
      ∀ {fields' : Fields} {bad' : Value} {after' : List Value}, Value.entriesFit fields' = true →
        Value.lookup? "trials" fields' = some (.list (before ++ bad' :: after')) →
        Value.lookup? "duration_seconds" fields' = Value.lookup? "duration_seconds" fields →
        SharesDefect bad bad' →
        Registry.builtIn.extract "reaction_time" (.object fields') =
          Registry.builtIn.extract "reaction_time" (.object fields) := by
  refine ⟨extract_reactions_refused_iff fit, ⟨?_, ?_⟩, ?_⟩
  · rintro ⟨e, refused, kind⟩
    obtain ⟨field, d, rfl⟩ := ExtractionError.eq_badField_of_kind kind
    exact ⟨field, d, (extract_reactions_refused_iff fit field d).1 refused⟩
  · rintro ⟨field, d, defect⟩
    exact ⟨_, (extract_reactions_refused_iff fit field d).2 defect, rfl⟩
  · intro before after bad field d listed sound malformed fields' bad' after' fit' listed' same shares
    rw [← Nat.zero_add before.length] at malformed
    have both : ∃ field d, FirstDefect fields field d ∧ FirstDefect fields' field d := by
      by_cases lasting : ∃ value d, Given fields "duration_seconds" value ∧ NoAmount value d
      · obtain ⟨value, d, given, none⟩ := lasting
        exact ⟨_, d, .duration listed given none, .duration listed' ((given_congr same).2 given) none⟩
      · simp only [not_exists, not_and] at lasting
        exact ⟨field, d, .trial listed lasting ⟨rfl, sound, malformed⟩,
          .trial listed' (fun value d given => lasting value d ((given_congr same).1 given))
            ⟨rfl, sound, malformed.shared shares⟩⟩
    obtain ⟨field, d, first, first'⟩ := both
    rw [(extract_reactions_refused_iff fit' field d).2 first', (extract_reactions_refused_iff fit field d).2 first]

theorem ReactionTime.wellFormed_answered {x : Float} (finite : isFinite x = true) (least : ¬ x < 0.0) :
    WellFormed (answered x) :=
  (wellFormed_iff 0).2 ((judged_readTrial rfl 0).ok_iff.1 ⟨_, readTrial_flagged finite least true 0⟩)

/-- A trial whose time is a truth value, and whose flag is given or left out. -/
def untimed (flags : Fields) : Value := .object ((.text "reaction_ms", .bool true) :: flags)

/-- Telemetry whose second trial is the first with a defect. -/
def secondUntimed (flags : Fields) (after : List Value) : Fields :=
  [(.text "trials", .list (answered 300.0 :: untimed flags :: after))]

/-- The second trial is refused for its time. Neither its flag nor a third trial that is no object matters. -/
theorem second_untimed_refused :
    Registry.builtIn.extract "reaction_time" (.object (secondUntimed [] [])) =
        refuse (.badField "reaction_ms" .notNumber) ∧
      Registry.builtIn.extract "reaction_time" (.object (secondUntimed [(.text "correct", .bool true)] [.null])) =
        Registry.builtIn.extract "reaction_time" (.object (secondUntimed [] [])) := by
  have sound : ∀ value ∈ [answered 300.0], WellFormed value :=
    List.forall_mem_singleton.2 (wellFormed_answered (by decide +kernel) (by decide +kernel))
  have time : ∀ flags, AmountDefect ((.text "reaction_ms", .bool true) :: flags) "reaction_ms" .notNumber :=
    fun flags => .malformed ⟨rfl, nofun⟩ (.notNumber nofun nofun)
  have fit : Value.entriesFit (secondUntimed [] []) = true := by decide +kernel
  have fit' : Value.entriesFit (secondUntimed [(.text "correct", .bool true)] [.null]) = true := by decide +kernel
  obtain ⟨refused, -, shared⟩ := reactions_refused_for_first_defect fit
  refine ⟨(refused _ _).2 ?_, shared rfl sound (.untimed (time [])) fit' rfl rfl (.untimed (time []) rfl)⟩
  exact .trial rfl (fun _ _ given => nomatch given.1) ⟨rfl, sound, .untimed (time [])⟩

end Telemetry

end GameScoring
