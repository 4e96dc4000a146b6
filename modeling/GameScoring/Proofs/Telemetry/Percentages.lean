import GameScoring.Proofs.Numeral.Arithmetic
import GameScoring.Proofs.Scoring.Bounds
import GameScoring.Proofs.Telemetry.Admission
import GameScoring.Proofs.Telemetry.Extraction

/-!
# Percentages are percentages

What is counted in telemetry is part of something that is counted, too, and the part is guarded to be no more than the
whole. So the percentages that are extracted lie between 0 and 100, and what is left of a whole is not negative,
whichever way the quotients and the sums in them are rounded.
-/
namespace GameScoring

open Binary

/-! ## Ratios -/

namespace Telemetry

/-- The place of one. -/
def onePlace : Nat := 4607182418800017408

theorem valueAt_onePlace : valueAt onePlace = 1 := by
  have mantissa : mantissaAt onePlace = 2 ^ 52 := by decide
  have exponent : exponentAt onePlace = -(52 : Nat) := by decide
  rw [valueAt, mantissa, exponent, zpow_neg, zpow_natCast, Nat.cast_pow, Nat.cast_ofNat,
    mul_inv_cancel₀ (pow_ne_zero _ two_ne_zero)]

theorem hundred_at : At Scoring.maxRawPlace (100.0 : Float) := by
  have same : (100.0 : Float) = ofMagnitude false Scoring.maxRawPlace := Scoring.maxRawScore_at
  rw [same]
  exact .at false nofun

variable {place other : Nat} {x y : Float}

/-- A hundred times what is at most one is at most a hundred, however it is rounded. -/
theorem mul_hundred (hx : At place x) (le : place ≤ onePlace) :
    ∃ product ≤ Scoring.maxRawPlace, At product (x * 100.0) := by
  have one : onePlace < infinityMagnitude := by decide
  obtain ⟨product, stands, nearest⟩ := hx.mul hundred_at (le.trans_lt one) Scoring.maxRawPlace_lt
  refine ⟨product, nearest.mono (isNearest_valueAt Scoring.maxRawPlace_lt.le) ?_, stands⟩
  calc valueAt place * valueAt Scoring.maxRawPlace ≤ 1 * valueAt Scoring.maxRawPlace :=
        mul_le_mul_of_nonneg_right (valueAt_onePlace ▸ valueAt_le le one.le) (valueAt_nonneg _)
    _ = valueAt Scoring.maxRawPlace := one_mul _

/-- The ratio of a part to its whole is a percentage if it is a number. -/
theorem ratio_bounds (hx : At place x) (hy : At other y) (le : place ≤ other) (most : other ≤ infinityMagnitude)
    (finite : isFinite (ratio x y 100.0) = true) : 0.0 ≤ ratio x y 100.0 ∧ ratio x y 100.0 ≤ 100.0 := by
  have one : onePlace < infinityMagnitude := by decide
  suffices quotient : ∃ place ≤ onePlace, At place (Numeral.divideOr 0.0 x y) by
    obtain ⟨quotient, small, stands⟩ := quotient
    obtain ⟨product, small, stands⟩ := mul_hundred stands small
    have less := small.trans_lt Scoring.maxRawPlace_lt
    exact ⟨(At.zero.le_iff stands (Nat.zero_le _) less.le).2 (Nat.zero_le _),
      (stands.le_iff hundred_at less.le Scoring.maxRawPlace_lt.le).2 small⟩
  rw [Numeral.divideOr]
  by_cases zero : other = 0
  · rw [if_pos ((hy.beq_zero_iff most).2 zero)]
    exact ⟨0, Nat.zero_le _, .zero⟩
  · rw [if_neg (mt (hy.beq_zero_iff most).1 zero)]
    have pos := Nat.pos_of_ne_zero zero
    rcases most.lt_or_eq with less | rfl
    · obtain ⟨quotient, stands, nearest⟩ := hx.div hy (le.trans_lt less) less pos
      refine ⟨quotient, nearest.mono (isNearest_valueAt one.le) ?_, stands⟩
      rw [valueAt_onePlace]
      exact div_le_one_of_le₀ (valueAt_le le less.le) (valueAt_nonneg _)
    · rcases le.lt_or_eq with less | rfl
      · exact ⟨0, Nat.zero_le _, hx.div_infinity hy less⟩
      · exfalso
        have fraction : ratio x y 100.0 = x / y * 100.0 := by
          rw [ratio, Numeral.divideOr, if_neg (mt (hy.beq_zero_iff most).1 zero)]
        rw [fraction, At.not_finite_mul (hx.infinity_div_infinity hy)] at finite
        cases finite

/-! ## Numbers that are read -/

theorem amount_of_asNumber {value : Value} {field : String} (h : asNumber value field zero = .ok x) :
    isFinite x = true ∧ NonNegative x := by
  rw [asNumber] at h
  cases number : value.number? with
  | none =>
    rw [number] at h
    cases h
  | some converted =>
    rw [number] at h
    obtain ⟨y, -, h⟩ := ok_of_bind h
    by_cases finite : isFinite y = true
    · rw [if_neg (by rw [finite]; decide), zero, checkMinimum] at h
      by_cases below : y < 0.0
      · rw [if_pos below] at h
        cases h
      · rw [if_neg below] at h
        cases h
        exact ⟨finite, nonNegative_of_not_lt below⟩
    · rw [if_pos (by rw [Bool.eq_false_iff.2 finite]; decide)] at h
      cases h

theorem exists_at_of_requireNumber {fields : Fields} {field : String} (h : requireNumber fields field zero = .ok x) :
    ∃ place, place < infinityMagnitude ∧ At place x := by
  obtain ⟨value, -, h⟩ := ok_of_bind h
  obtain ⟨finite, amount⟩ := amount_of_asNumber h
  exact amount.exists_at finite

/-- A count stands at the place nearest to it. -/
theorem count_at (n : Nat) : ∃ place, At place (count n) ∧ IsNearest n place := by
  obtain ⟨place, near, nearest⟩ := exists_nearest false n Nat.one_pos
  rw [Nat.cast_one, div_one] at nearest
  refine ⟨place, ?_, nearest⟩
  rw [count, near]
  exact .at false nofun

theorem mem_numbers {entries : List (String × Float)} (distinct : (entries.map Prod.fst).Nodup) {name : String}
    (member : (name, x) ∈ entries) : (name, .float x) ∈ (numbers entries).entries := by
  rw [numbers, Table.entries_ofList (by rwa [List.map_map])]
  exact List.mem_map.2 ⟨_, member, rfl⟩

/-! ## Results of the built-in games -/

/-- The results of a game that are percentages of a whole. -/
def percentages : String → List String
  | "reaction_time" => ["accuracy"]
  | "memory_match" => ["completion"]
  | "focus_task" => ["hit_rate", "false_alarm_rate", "accuracy"]
  | _ => []

/-- The results of a game that are left of a whole. -/
def remainders : String → List String
  | "reaction_time" => ["errors"]
  | "focus_task" => ["misses"]
  | _ => []

/-- A result that is a percentage if it is finite, and one that is not negative. -/
structure Shares (results : Table Value) (percentages remainders : List String) : Prop where
  percentage : ∀ name ∈ percentages, ∃ x, (name, .float x) ∈ results.entries ∧
    (isFinite x = true → 0.0 ≤ x ∧ x ≤ 100.0)
  remainder : ∀ name ∈ remainders, ∃ x, (name, .float x) ∈ results.entries ∧ 0.0 ≤ x

theorem ReactionTime.shares {fields : Fields} {results : Table Value} (h : extract fields = .ok results) :
    Shares results ["accuracy"] ["errors"] := by
  obtain ⟨items, -, h⟩ := ok_of_bind h
  obtain ⟨duration, -, h⟩ := ok_of_bind h
  obtain ⟨trials, -, h⟩ := ok_of_bind h
  obtain ⟨variance, -, h⟩ := ok_of_bind h
  cases h
  obtain ⟨whole, total_at, total⟩ := count_at trials.length
  obtain ⟨part, correct_at, correct⟩ := count_at (trials.countP Trial.correct)
  obtain ⟨rest, errors_at, errors⟩ := count_at (trials.length - trials.countP Trial.correct)
  refine ⟨fun name member => ?_, fun name member => ?_⟩ <;> obtain rfl := List.mem_singleton.1 member
  · refine ⟨ratio (count (trials.countP Trial.correct)) (count trials.length) 100.0,
      mem_numbers (by simp) (by simp), ?_⟩
    refine ratio_bounds correct_at total_at (correct.mono total ?_) total.le_infinity
    exact_mod_cast List.countP_le_length
  · refine ⟨count (trials.length - trials.countP Trial.correct), mem_numbers (by simp) (by simp), ?_⟩
    exact (At.zero.le_iff errors_at (Nat.zero_le _) errors.le_infinity).2 (Nat.zero_le _)

theorem MemoryMatch.shares {fields : Fields} {results : Table Value} (h : extract fields = .ok results) :
    Shares results ["completion"] [] := by
  obtain ⟨total, total_read, h⟩ := ok_of_bind h
  obtain ⟨matched, matched_read, h⟩ := ok_of_bind h
  obtain ⟨attempts, -, h⟩ := ok_of_bind h
  obtain ⟨duration, -, h⟩ := ok_of_bind h
  split at h
  next => cases h
  next guarded =>
    cases h
    obtain ⟨whole, whole_less, total_at⟩ := exists_at_of_requireNumber total_read
    obtain ⟨part, part_less, matched_at⟩ := exists_at_of_requireNumber matched_read
    rw [total_at.lt_iff matched_at whole_less.le part_less.le, not_lt] at guarded
    refine ⟨fun name member => ?_, fun name member => nomatch member⟩
    obtain rfl := List.mem_singleton.1 member
    exact ⟨ratio matched total 100.0, mem_numbers (by simp) (by simp),
      ratio_bounds matched_at total_at guarded whole_less.le⟩

/-- What is hit and what is rightly let pass are together no more than what is shown. -/
theorem FocusTask.decisions_le {hit shown alarms distractors : Nat} {h s a d : Float} (hit_at : At hit h)
    (shown_at : At shown s) (alarms_at : At alarms a) (distractors_at : At distractors d)
    (shown_less : shown < infinityMagnitude) (distractors_less : distractors < infinityMagnitude)
    (hits : hit ≤ shown) (rejected : alarms ≤ distractors) :
    ∃ part whole, At part (h + (d - a)) ∧ At whole (s + d) ∧ part ≤ whole ∧ whole ≤ infinityMagnitude := by
  obtain ⟨passed, passed_at, passed_near⟩ := distractors_at.sub alarms_at distractors_less rejected
  have fewer : passed ≤ distractors := by
    refine passed_near.mono (isNearest_valueAt distractors_less.le) ?_
    exact sub_le_self _ (valueAt_nonneg _)
  obtain ⟨part, part_at, part_near⟩ :=
    hit_at.add passed_at (hits.trans_lt shown_less) (fewer.trans_lt distractors_less)
  obtain ⟨whole, whole_at, whole_near⟩ := shown_at.add distractors_at shown_less distractors_less
  refine ⟨part, whole, part_at, whole_at, part_near.mono whole_near ?_, whole_near.le_infinity⟩
  exact add_le_add (valueAt_le hits shown_less.le) (valueAt_le fewer distractors_less.le)

theorem FocusTask.shares {fields : Fields} {results : Table Value} (h : extract fields = .ok results) :
    Shares results ["hit_rate", "false_alarm_rate", "accuracy"] ["misses"] := by
  obtain ⟨shown, shown_read, h⟩ := ok_of_bind h
  obtain ⟨hit, hit_read, h⟩ := ok_of_bind h
  obtain ⟨distractors, distractors_read, h⟩ := ok_of_bind h
  obtain ⟨alarms, alarms_read, h⟩ := ok_of_bind h
  obtain ⟨duration, -, h⟩ := ok_of_bind h
  split at h
  next => cases h
  next hits =>
    split at h
    next => cases h
    next rejected =>
      cases h
      obtain ⟨shown_place, shown_less, shown_at⟩ := exists_at_of_requireNumber shown_read
      obtain ⟨hit_place, hit_less, hit_at⟩ := exists_at_of_requireNumber hit_read
      obtain ⟨distractors_place, distractors_less, distractors_at⟩ := exists_at_of_requireNumber distractors_read
      obtain ⟨alarms_place, alarms_less, alarms_at⟩ := exists_at_of_requireNumber alarms_read
      rw [shown_at.lt_iff hit_at shown_less.le hit_less.le, not_lt] at hits
      rw [distractors_at.lt_iff alarms_at distractors_less.le alarms_less.le, not_lt] at rejected
      refine ⟨fun name member => ?_, fun name member => ?_⟩
      · simp only [List.mem_cons, List.not_mem_nil, or_false] at member
        rcases member with rfl | rfl | rfl
        · exact ⟨ratio hit shown 100.0, mem_numbers (by simp) (by simp),
            ratio_bounds hit_at shown_at hits shown_less.le⟩
        · exact ⟨ratio alarms distractors 100.0, mem_numbers (by simp) (by simp),
            ratio_bounds alarms_at distractors_at rejected distractors_less.le⟩
        · obtain ⟨part, whole, part_at, whole_at, le, most⟩ :=
            decisions_le hit_at shown_at alarms_at distractors_at shown_less distractors_less hits rejected
          exact ⟨ratio (hit + (distractors - alarms)) (shown + distractors) 100.0, mem_numbers (by simp) (by simp),
            ratio_bounds part_at whole_at le most⟩
      · obtain rfl := List.mem_singleton.1 member
        obtain ⟨missed, missed_at, near⟩ := shown_at.sub hit_at shown_less hits
        exact ⟨shown - hit, mem_numbers (by simp) (by simp),
          (At.zero.le_iff missed_at (Nat.zero_le _) near.le_infinity).2 (Nat.zero_le _)⟩

theorem BuiltIn.shares {gameType : String} {s : Strategy} (known : BuiltIn gameType s) {fields : Fields}
    {results : Table Value} (h : s.extract fields = .ok results) :
    Shares results (percentages gameType) (remainders gameType) := by
  cases known with
  | reactionTime => exact ReactionTime.shares h
  | memoryMatch => exact MemoryMatch.shares h
  | focusTask => exact FocusTask.shares h

/-- Whatever the telemetry is, the percentages that are extracted from it lie between 0 and 100, and what is left of a
whole is not negative. -/
theorem percentages_are_bounded {gameType : String} {raw : Value} {environment : Environment}
    (h : Registry.builtIn.extract gameType raw = .ok environment) :
    (∀ name ∈ percentages gameType, ∃ x, environment.bindings.get? name = some x ∧ 0.0 ≤ x ∧ x ≤ 100.0) ∧
      ∀ name ∈ remainders gameType, ∃ x, environment.bindings.get? name = some x ∧ 0.0 ≤ x := by
  obtain ⟨s, known, h⟩ := ok_of_bind h
  rw [Registry.strategy] at known
  cases found : Registry.builtIn.strategies.get? gameType with
  | none =>
    rw [found] at known
    cases known
  | some strategy =>
    rw [found] at known
    cases known
    cases raw with
    | object fields =>
      obtain ⟨results, extracted, h⟩ := ok_of_bind h
      have shares := (builtIn_of_get? found).shares extracted
      have made := ok_of_widen h
      refine ⟨fun name member => ?_, fun name member => ?_⟩
      · obtain ⟨x, listed, bounds⟩ := shares.percentage name member
        have bound := Environment.get?_of_ofValue_record made listed
        exact ⟨x, bound, bounds (environment.finite _ (Table.mem_of_get? bound))⟩
      · obtain ⟨x, listed, least⟩ := shares.remainder name member
        exact ⟨x, Environment.get?_of_ofValue_record made listed, least⟩
    | _ => cases h

/-- Telemetry whose stimuli are too many to be counted together, and of whose distractors none was let pass. -/
def overwhelming : Value :=
  .record [("targets_shown", .float 1.5e308), ("targets_hit", .float 0.25), ("distractors_shown", .float 1.5e308),
    ("false_alarms", .float 1.5e308)]

/-- The sum of the stimuli is infinite, but the accuracy is still a percentage. -/
theorem overwhelming_accuracy_is_bounded :
    ∃ environment, Registry.builtIn.extract "focus_task" overwhelming = .ok environment ∧
      ∃ x, environment.bindings.get? "accuracy" = some x ∧ 0.0 ≤ x ∧ x ≤ 100.0 := by
  have succeeds : (Registry.builtIn.extract "focus_task" overwhelming).toOption.isSome = true := by decide +kernel
  obtain ⟨environment, some⟩ := Option.isSome_iff_exists.1 succeeds
  have extracted := ok_of_toOption some
  exact ⟨environment, extracted, (percentages_are_bounded extracted).1 "accuracy" (by decide)⟩

end Telemetry

end GameScoring
