import GameScoring.Proofs.Telemetry.Efficiency
import GameScoring.Proofs.Telemetry.Trials

/-!
# What does not depend on the order of trials

Trials are counted, and the first of the fastest and of the slowest ones is kept. In another order the counts are the
same, and a zero that is kept may at most have another sign. The mean and the deviation are sums of doubles, so nothing
is said of them here.
-/
namespace GameScoring

open Binary

/-! ## Numbers -/

theorem Value.StandsFor.unique {value : Value} {x y : Float} (h : value.StandsFor x) (h' : value.StandsFor y) :
    x = y := by
  have same := h.number?.symm.trans h'.number?
  cases same
  rfl

/-- Where a later number replaces the kept one if its key is less, what is kept at the end has the least key. -/
theorem foldl_least_key (key : Float → ℚ) (replaces : Float → Float → Prop) [DecidableRel replaces] {first : Float}
    {rest : List Float} (agree : ∀ x ∈ first :: rest, ∀ y ∈ first :: rest, replaces x y ↔ key x < key y) :
    rest.foldl (fun best x => if replaces x best then x else best) first ∈ first :: rest ∧
      ∀ x ∈ first :: rest, key (rest.foldl (fun best x => if replaces x best then x else best) first) ≤ key x := by
  induction rest generalizing first with
  | nil => exact ⟨List.mem_cons_self .., fun x member => (List.mem_singleton.1 member ▸ le_rfl)⟩
  | cons second rest ih =>
    rw [List.foldl_cons]
    obtain ⟨best, chosen, member, le, le'⟩ : ∃ best, (if replaces second first then second else first) = best ∧
        best ∈ [first, second] ∧ key best ≤ key first ∧ key best ≤ key second := by
      have decides := agree second (by simp) first (by simp)
      split
      next before => exact ⟨second, rfl, by simp, (decides.1 before).le, le_rfl⟩
      next after => exact ⟨first, rfl, by simp, le_rfl, not_lt.1 (mt decides.2 after)⟩
    rw [chosen]
    have sub : ∀ x ∈ best :: rest, x ∈ first :: second :: rest := by
      intro x later
      simp only [List.mem_cons, List.not_mem_nil, or_false] at later member ⊢
      grind
    obtain ⟨kept, least⟩ := ih fun x hx y hy => agree x (sub x hx) y (sub y hy)
    refine ⟨sub _ kept, fun x listed => ?_⟩
    have bound := least best (List.mem_cons_self ..)
    rcases List.mem_cons.1 listed with rfl | listed
    · exact bound.trans le
    · rcases List.mem_cons.1 listed with rfl | listed
      · exact bound.trans le'
      · exact least x (List.mem_cons_of_mem _ listed)

namespace Telemetry

/-- A count of fewer than `2 ^ 53` is the sum of the counts of its parts also as a double. -/
theorem count_add {whole part rest : Nat} (sum : whole = part + rest) (small : whole < 2 ^ 53) :
    (count whole == count part + count rest) = true := by
  obtain ⟨place, whole_at, nearest⟩ := count_at whole
  obtain ⟨place', part_at, nearest'⟩ := count_at part
  obtain ⟨place'', rest_at, nearest''⟩ := count_at rest
  obtain ⟨less, value⟩ := nearest.whole small
  obtain ⟨less', value'⟩ := nearest'.whole (by omega)
  obtain ⟨less'', value''⟩ := nearest''.whole (by omega)
  obtain ⟨total, total_at, total_nearest⟩ := part_at.add rest_at less' less''
  have same : total = place := by
    rw [value', value'', ← Nat.cast_add, ← sum] at total_nearest
    exact total_nearest.unique nearest
  subst same
  rw [beq_iff_number_eq (whole_at.finite less) (total_at.finite less), whole_at.number_eq less, total_at.number_eq less]

namespace ReactionTime

/-! ## What a trial tells -/

/-- A trial has a reaction time. -/
inductive Timed : Value → Float → Prop
  | intro {fields : Fields} {value : Value} {x : Float} (given : Value.lookup? "reaction_ms" fields = some value)
      (stands : value.StandsFor x) : Timed (.object fields) x

/-- Whether a trial has a flag that tells whether it was answered correctly. -/
def isFlagged (correct : Bool) : Value → Bool
  | .object fields =>
    match Value.lookup? "correct" fields with
    | some (.bool b) => b == correct
    | _ => false
  | _ => false

/-- A trial has a reaction time and a flag. -/
structure Tells (value : Value) (trial : Trial) : Prop where
  timed : Timed value trial.reactionMs
  flagged : ∀ b, isFlagged b value = (trial.correct == b)

theorem Timed.unique {value : Value} {x y : Float} (h : Timed value x) (h' : Timed value y) : x = y := by
  obtain ⟨given, stands⟩ := h
  obtain ⟨given', stands'⟩ := h'
  rw [given, Option.some_inj] at given'
  subst given'
  exact stands.unique stands'

theorem standsFor_of_asNumber {value : Value} {field : String} {x : Float} (h : asNumber value field zero = .ok x) :
    value.StandsFor x := by
  rcases value.number_cases with ⟨y, stands⟩ | ⟨y, rfl, infinite⟩ | ⟨i, rfl, large⟩ | noNumber
  · rw [asNumber_of_standsFor stands] at h
    split at h
    next => cases h
    next =>
      cases h
      exact stands
  · rw [asNumber] at h
    replace h : (if (!isFinite y) = true then refuse _ else _) = Except.ok x := h
    rw [if_pos (by rw [infinite]; rfl)] at h
    cases h
  · rw [asNumber, Value.number?, Numeral.ofInt_of_large large] at h
    cases h
  · rw [asNumber, noNumber] at h
    cases h

theorem tells_of_readTrial {index : Nat} {value : Value} {trial : Trial} (h : readTrial index value = .ok trial) :
    Tells value trial := by
  cases value with
  | object fields =>
    obtain ⟨ms, time, h⟩ := ok_of_bind h
    obtain ⟨given, present, number⟩ := ok_of_bind time
    split at h
    next b flag =>
      cases h
      refine ⟨.intro (require_ok_iff.1 present).1 (standsFor_of_asNumber number), fun other => ?_⟩
      simp only [isFlagged, flag]
    next => cases h
  | _ => cases h

theorem tells_of_readTrials {index : Nat} {items : List Value} {trials : List Trial}
    (h : readTrials index items = .ok trials) : List.Forall₂ Tells items trials := by
  induction items generalizing index trials with
  | nil =>
    cases h
    exact .nil
  | cons value rest ih =>
    obtain ⟨trial, first, h⟩ := ok_of_bind h
    obtain ⟨others, later, h⟩ := ok_of_bind h
    cases h
    exact .cons (tells_of_readTrial first) (ih later)

/-! ## Counts -/

section Counts
variable {items items' : List Value} {trials : List Trial}

theorem countP_isFlagged (told : List.Forall₂ Tells items trials) (correct : Bool) :
    items.countP (isFlagged correct) = trials.countP (·.correct == correct) := by
  induction told with
  | nil => rfl
  | cons first _ ih => rw [List.countP_cons, List.countP_cons, ih, first.flagged]

/-- Every trial is flagged as correct or as wrong. -/
theorem length_eq_flagged (told : List.Forall₂ Tells items trials) :
    items.length = items.countP (isFlagged true) + items.countP (isFlagged false) := by
  rw [told.length_eq, countP_isFlagged told, countP_isFlagged told,
    List.length_eq_countP_add_countP (·.correct == true)]
  congr 2
  funext trial
  cases trial.correct <;> rfl

/-- What is counted of trials, and the ratios of the counts. -/
def tally (items : List Value) (duration : Float) : List (String × Float) :=
  let total := count items.length
  let correct := count (items.countP (isFlagged true))
  [("total_trials", total), ("correct_trials", correct), ("errors", count (items.countP (isFlagged false))),
    ("accuracy", ratio correct total 100.0), ("trials_per_minute", ratio total duration 60.0)]

theorem tally_perm (perm : items.Perm items') (duration : Float) : tally items duration = tally items' duration := by
  rw [tally, tally, perm.length_eq, perm.countP_eq, perm.countP_eq]

end Counts

/-! ## Extremes -/

/-- A number is one of those listed and before all of them, or zero if none is listed. -/
inductive Kept (before : Float → Float → Prop) (times : List Float) (x : Float) : Prop
  | none (empty : times = []) (zero : x = 0.0)
  | some (member : x ∈ times) (first : ∀ y ∈ times, before x y)

/-- A time is that of a trial and before the times of all trials, or zero if there is no trial. -/
inductive Extreme (before : Float → Float → Prop) (items : List Value) (x : Float) : Prop
  | none (empty : items = []) (zero : x = 0.0)
  | some {value : Value} (member : value ∈ items) (time : Timed value x)
      (first : ∀ other ∈ items, ∀ y, Timed other y → before x y)

theorem kept_fastest {times : List Float} (finite : ∀ x ∈ times, isFinite x = true) :
    Kept (fun x y => x ≤ y) times (fastest times) := by
  cases times with
  | nil => exact .none rfl rfl
  | cons first rest =>
    obtain ⟨kept, least⟩ := foldl_least_key number (fun x y => x < y) fun x hx y hy =>
      lt_iff_number_lt (finite x hx) (finite y hy)
    exact .some kept fun y member => (le_iff_number_le (finite _ kept) (finite y member)).2 (least y member)

theorem kept_slowest {times : List Float} (finite : ∀ x ∈ times, isFinite x = true) :
    Kept (fun x y => y ≤ x) times (slowest times) := by
  cases times with
  | nil => exact .none rfl rfl
  | cons first rest =>
    obtain ⟨kept, least⟩ := foldl_least_key (fun x => -number x) (fun x y => y < x) fun x hx y hy =>
      (lt_iff_number_lt (finite y hy) (finite x hx)).trans neg_lt_neg_iff.symm
    exact .some kept fun y member =>
      (le_iff_number_le (finite y member) (finite _ kept)).2 (neg_le_neg_iff.1 (least y member))

section Extreme
variable {before : Float → Float → Prop} {items items' : List Value} {trials : List Trial} {x x' : Float}

theorem extreme_of_kept (told : List.Forall₂ Tells items trials) (h : Kept before (trials.map Trial.reactionMs) x) :
    Extreme before items x := by
  cases h with
  | none empty zero =>
    rw [List.map_eq_nil_iff] at empty
    subst empty
    cases told
    exact .none rfl zero
  | some member first =>
    obtain ⟨trial, listed, rfl⟩ := List.mem_map.1 member
    obtain ⟨value, given, tells⟩ := exists_of_mem_right told listed
    refine .some given tells.timed fun other given' y time => ?_
    obtain ⟨trial', listed', tells'⟩ := exists_of_mem_right told.flip given'
    rw [time.unique tells'.timed]
    exact first _ (List.mem_map_of_mem listed')

/-- The extremes of trials in another order are one number. -/
theorem Extreme.number_eq (h : Extreme before items x) (h' : Extreme before items' x') (perm : items.Perm items')
    (antisymm : before x x' → before x' x → number x = number x') : number x = number x' := by
  cases h with
  | none empty zero =>
    subst empty zero
    cases h' with
    | none _ zero => rw [zero]
    | some member _ _ => cases perm.mem_iff.2 member
  | some member time first =>
    cases h' with
    | none empty _ =>
      subst empty
      cases perm.mem_iff.1 member
    | some member' time' first' =>
      exact antisymm (first _ (perm.mem_iff.2 member') _ time') (first' _ (perm.mem_iff.1 member) _ time)

end Extreme

/-! ## Extraction -/

/-- What is extracted from trials, except for their mean and deviation. -/
structure Tallied (items : List Value) (duration : Float) (environment : Environment) : Prop where
  counted : ∀ entry ∈ tally items duration, environment.bindings.get? entry.1 = some entry.2
  flagged : items.length = items.countP (isFlagged true) + items.countP (isFlagged false)
  fastest : ∃ x, environment.bindings.get? "min_reaction_ms" = some x ∧ Extreme (fun x y => x ≤ y) items x
  slowest : ∃ x, environment.bindings.get? "max_reaction_ms" = some x ∧ Extreme (fun x y => y ≤ x) items x

theorem tallied_of_extract {fields : Fields} {environment : Environment}
    (h : Registry.builtIn.extract "reaction_time" (.object fields) = .ok environment) :
    ∃ items duration, Value.lookup? "trials" fields = some (.list items) ∧
      optionalAmount fields "duration_seconds" = .ok duration ∧ Tallied items duration environment := by
  have found : Registry.builtIn.strategies.get? "reaction_time" = some strategy := rfl
  obtain ⟨_, results, ⟨⟩, extracted, made⟩ := results_of_extract found h
  obtain ⟨items, listed, h⟩ := ok_of_bind extracted
  obtain ⟨duration, lasted, h⟩ := ok_of_bind h
  obtain ⟨trials, read, h⟩ := ok_of_bind h
  obtain ⟨variance, -, h⟩ := ok_of_bind h
  cases h
  have told := tells_of_readTrials read
  have finite : ∀ x ∈ trials.map Trial.reactionMs, isFinite x = true := by
    intro x member
    obtain ⟨trial, listed, rfl⟩ := List.mem_map.1 member
    obtain ⟨value, -, ⟨-, stands⟩, -⟩ := exists_of_mem_right told listed
    exact stands.finite
  have correct : trials.countP Trial.correct = items.countP (isFlagged true) := by
    rw [countP_isFlagged told]
    simp only [beq_true]
  have errors : trials.length - trials.countP Trial.correct = items.countP (isFlagged false) := by
    rw [correct, ← told.length_eq, length_eq_flagged told, Nat.add_sub_cancel_left]
  have bound {name : String} {x : Float} (member : (name, Value.float x) ∈ _) :=
    Environment.get?_of_ofValue_record made member
  refine ⟨items, duration, requireList_ok_iff.1 listed, lasted, ?_, length_eq_flagged told, ?_, ?_⟩
  · intro entry member
    refine bound (mem_numbers (by simp) ?_)
    rw [errors, correct, ← told.length_eq]
    simp only [tally, List.mem_cons, List.not_mem_nil, or_false] at member ⊢
    grind
  · exact ⟨_, bound (mem_numbers (by simp) (by simp)), extreme_of_kept told (kept_fastest finite)⟩
  · exact ⟨_, bound (mem_numbers (by simp) (by simp)), extreme_of_kept told (kept_slowest finite)⟩

/-- The results that do not depend on the order of trials. -/
def orderless : List String :=
  ["total_trials", "correct_trials", "errors", "accuracy", "trials_per_minute", "min_reaction_ms", "max_reaction_ms"]

/-- Both environments bind a name, and to one number. -/
def SameNumber (environment environment' : Environment) (name : String) : Prop :=
  ∃ x x', environment.bindings.get? name = some x ∧ environment'.bindings.get? name = some x' ∧ (x == x') = true

theorem Tallied.sameNumber {items items' : List Value} {duration : Float} {environment environment' : Environment}
    (h : Tallied items duration environment) (h' : Tallied items' duration environment') (perm : items.Perm items')
    {name : String} (member : name ∈ orderless) : SameNumber environment environment' name := by
  have finite {environment : Environment} {name : String} {x : Float}
      (bound : environment.bindings.get? name = some x) := environment.finite _ (Table.mem_of_get? bound)
  have counts : orderless = (tally items duration).map Prod.fst ++ ["min_reaction_ms", "max_reaction_ms"] := rfl
  rw [counts] at member
  rcases List.mem_append.1 member with counted | extreme
  · obtain ⟨entry, listed, rfl⟩ := List.mem_map.1 counted
    have bound := h.counted entry listed
    rw [tally_perm perm] at listed
    exact ⟨entry.2, entry.2, bound, h'.counted entry listed, beq_self_of_finite (finite bound)⟩
  · simp only [List.mem_cons, List.not_mem_nil, or_false] at extreme
    rcases extreme with rfl | rfl
    · obtain ⟨x, bound, fastest⟩ := h.fastest
      obtain ⟨x', bound', fastest'⟩ := h'.fastest
      refine ⟨x, x', bound, bound', (beq_iff_number_eq (finite bound) (finite bound')).2 ?_⟩
      refine fastest.number_eq fastest' perm fun le le' => le_antisymm ?_ ?_
      · exact (le_iff_number_le (finite bound) (finite bound')).1 le
      · exact (le_iff_number_le (finite bound') (finite bound)).1 le'
    · obtain ⟨x, bound, slowest⟩ := h.slowest
      obtain ⟨x', bound', slowest'⟩ := h'.slowest
      refine ⟨x, x', bound, bound', (beq_iff_number_eq (finite bound) (finite bound')).2 ?_⟩
      refine slowest.number_eq slowest' perm fun le le' => le_antisymm ?_ ?_
      · exact (le_iff_number_le (finite bound) (finite bound')).1 le'
      · exact (le_iff_number_le (finite bound') (finite bound)).1 le

end ReactionTime

open ReactionTime

/-- In another order, trials are counted the same, and their fastest and slowest times are the same numbers. Every trial
counts as correct or as an error, and the fastest and the slowest time are those of trials. As doubles, the two counts
have the sum that is counted as long as doubles reach every count. -/
theorem reactions_tallied_in_any_order {fields fields' : Fields} {items items' : List Value}
    {environment environment' : Environment} (listed : Value.lookup? "trials" fields = some (.list items))
    (listed' : Value.lookup? "trials" fields' = some (.list items')) (perm : items.Perm items')
    (lasting : Value.lookup? "duration_seconds" fields' = Value.lookup? "duration_seconds" fields)
    (h : Registry.builtIn.extract "reaction_time" (.object fields) = .ok environment)
    (h' : Registry.builtIn.extract "reaction_time" (.object fields') = .ok environment') :
    (∀ name ∈ orderless, SameNumber environment environment' name) ∧
      (∃ duration, optionalAmount fields "duration_seconds" = .ok duration ∧ Tallied items duration environment) ∧
      ∃ total correct errors, environment.bindings.get? "total_trials" = some total ∧
        environment.bindings.get? "correct_trials" = some correct ∧
        environment.bindings.get? "errors" = some errors ∧
        (items.length < 2 ^ 53 → (total == correct + errors) = true) := by
  obtain ⟨_, duration, found, lasted, tallied⟩ := tallied_of_extract h
  obtain ⟨_, duration', found', lasted', tallied'⟩ := tallied_of_extract h'
  cases listed.symm.trans found
  cases listed'.symm.trans found'
  have same : duration' = duration := by
    rw [optionalAmount, lasting, ← optionalAmount, lasted] at lasted'
    cases lasted'
    rfl
  subst same
  refine ⟨fun name member => tallied.sameNumber tallied' perm member, ⟨_, lasted, tallied⟩, _, _, _,
    tallied.counted _ (.head _), tallied.counted _ (.tail _ (.head _)), tallied.counted _ (.tail _ (.tail _ (.head _))),
    fun small => count_add tallied.flagged small⟩

/-- A trial that was answered wrongly. -/
def missed (reactionMs : Float) : Value :=
  .object [(.text "reaction_ms", .float reactionMs), (.text "correct", .bool false)]

/-- The trials of a minute of play. -/
def minute (items : List Value) : Fields := [(.text "trials", .list items), (.text "duration_seconds", .int 60)]

namespace ReactionTime

theorem extract_minute {items : List Value} {trials : List Trial} (read : readTrials 0 items = .ok trials) :
    Registry.builtIn.extract "reaction_time" (.object (minute items)) =
      summarize trials 60.0 >>= fun results => widen .environment (Environment.ofValue (.record results.entries)) := by
  show (readTrials 0 items >>= fun trials => summarize trials 60.0) >>= _ = _
  rw [read]
  rfl

/-- Two times have a variance where the power function squares how far they lie from their mean. -/
theorem variance_of_pair {first second : Float} (near : Float.pow (first - mean [first, second]) 2.0 = 625.0)
    (far : Float.pow (second - mean [first, second]) 2.0 = 625.0) : variance [first, second] = .ok 625.0 := by
  have squared {x : Float} (product : Float.pow x 2.0 = 625.0) : square x = .ok 625.0 := by
    rw [square_of_not_overflows, product]
    rintro ⟨-, infinite⟩
    rw [product] at infinite
    exact absurd infinite (by decide +kernel)
  rw [variance, if_neg (by simp)]
  simp only [squaredDistances, squared near, squared far]
  have half : (0.0 + 625.0 + 625.0) / count 2 = 625.0 := by decide +kernel
  exact congrArg Except.ok half

end ReactionTime

/-- A minute without trials is tallied. So are two trials, and again when they are exchanged, where the power function
squares their distances from the mean. -/
theorem exchanged_trials_tallied :
    (∃ environment, Registry.builtIn.extract "reaction_time" (.object (minute [])) = .ok environment ∧
      ∀ name ∈ orderless, SameNumber environment environment name) ∧
    (Float.pow 25.0 2.0 = 625.0 → Float.pow (-25.0) 2.0 = 625.0 → ∃ environment environment',
      Registry.builtIn.extract "reaction_time" (.object (minute [answered 300.0, missed 250.0])) = .ok environment ∧
      Registry.builtIn.extract "reaction_time" (.object (minute [missed 250.0, answered 300.0])) = .ok environment' ∧
      ∀ name ∈ orderless, SameNumber environment environment' name) := by
  have succeeds : (Registry.builtIn.extract "reaction_time" (.object (minute []))).toOption.isSome = true := by
    decide +kernel
  obtain ⟨environment, made⟩ := Option.isSome_iff_exists.1 succeeds
  have extracted := ok_of_toOption made
  have listed (items : List Value) : Value.lookup? "trials" (minute items) = some (.list items) := rfl
  have lasting (items items' : List Value) :
      Value.lookup? "duration_seconds" (minute items') = Value.lookup? "duration_seconds" (minute items) := rfl
  refine ⟨⟨environment, extracted, ?_⟩, fun ahead behind => ?_⟩
  · exact (reactions_tallied_in_any_order (listed _) (listed _) .nil (lasting _ _) extracted extracted).1
  · have slow (index : Nat) : readTrial index (answered 300.0) = .ok ⟨300.0, true⟩ :=
      readTrial_flagged (by decide +kernel) (by decide +kernel) true index
    have fast (index : Nat) : readTrial index (missed 250.0) = .ok ⟨250.0, false⟩ :=
      readTrial_flagged (by decide +kernel) (by decide +kernel) false index
    have read : readTrials 0 [answered 300.0, missed 250.0] = .ok [⟨300.0, true⟩, ⟨250.0, false⟩] := by
      simp only [readTrials, slow, fast]
      rfl
    have read' : readTrials 0 [missed 250.0, answered 300.0] = .ok [⟨250.0, false⟩, ⟨300.0, true⟩] := by
      simp only [readTrials, slow, fast]
      rfl
    have center : mean [300.0, 250.0] = 275.0 := by decide +kernel
    have center' : mean [250.0, 300.0] = 275.0 := by decide +kernel
    have slower : (300.0 : Float) - 275.0 = 25.0 := by decide +kernel
    have faster : (250.0 : Float) - 275.0 = -25.0 := by decide +kernel
    have spread : variance ([⟨300.0, true⟩, ⟨250.0, false⟩].map Trial.reactionMs) = .ok 625.0 :=
      variance_of_pair (by rwa [center, slower]) (by rwa [center, faster])
    have spread' : variance ([⟨250.0, false⟩, ⟨300.0, true⟩].map Trial.reactionMs) = .ok 625.0 :=
      variance_of_pair (by rwa [center', faster]) (by rwa [center', slower])
    have tallied : (Registry.builtIn.extract "reaction_time"
        (.object (minute [answered 300.0, missed 250.0]))).toOption.isSome = true := by
      rw [extract_minute read, summarize, spread]
      decide +kernel
    have tallied' : (Registry.builtIn.extract "reaction_time"
        (.object (minute [missed 250.0, answered 300.0]))).toOption.isSome = true := by
      rw [extract_minute read', summarize, spread']
      decide +kernel
    obtain ⟨environment, made⟩ := Option.isSome_iff_exists.1 tallied
    obtain ⟨environment', made'⟩ := Option.isSome_iff_exists.1 tallied'
    have extracted := ok_of_toOption made
    have extracted' := ok_of_toOption made'
    exact ⟨environment, environment', extracted, extracted',
      (reactions_tallied_in_any_order (listed _) (listed _) (.swap _ _ _) (lasting _ _) extracted extracted').1⟩

end Telemetry

end GameScoring
