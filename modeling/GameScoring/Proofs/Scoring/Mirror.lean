import Mathlib
import GameScoring.Proofs.Scoring.Delta

/-!
# Comparisons read backwards

Two configurations that are compared in the other order differ in the same places, with what was old and what is new
exchanged and with every delta negated. Only the order in which the places are listed may be another one, as names are
listed first by the configuration that comes first.
-/
namespace GameScoring.Scoring
open Binary

/-! ## Changes read backwards -/

section Changes

variable {α : Type} {same : α → α → Bool} {before after : Table α} {found found' : List (Change α)}

/-- A change read backwards. -/
def Change.turn (c : Change α) : Change α := ⟨c.name, c.new, c.old⟩

/-- What stands under a name in two tables. -/
def Change.between (before after : Table α) (name : String) : Change α := ⟨name, before.get? name, after.get? name⟩

theorem Differ.swap (symmetric : ∀ a b, same a b = same b a) {old new : Option α} (differ : Differ same old new) :
    Differ same new old := by
  cases differ with
  | added new => exact .removed new
  | removed old => exact .added old
  | replaced other => exact .replaced ((symmetric _ _).trans other)

/-- Changes are known from the names that they tell. -/
theorem Tells.map_between (tells : Tells same before after found) :
    (found.map Change.name).map (Change.between before after) = found := by
  rw [List.map_map]
  refine (List.map_congr_left fun c member => ?_).trans (List.map_id found)
  obtain ⟨old, new⟩ := tells.sides c member
  show Change.between before after c.name = ⟨c.name, c.old, c.new⟩
  rw [Change.between, old, new]

/-- What is told of two tables and what is told of them in the other order are the same changes, read backwards. -/
theorem Tells.perm_turn (symmetric : ∀ a b, same a b = same b a) (tells : Tells same before after found)
    (tells' : Tells same after before found') : (found.map Change.turn).Perm found' := by
  have names : (found.map Change.name).Perm (found'.map Change.name) := by
    refine (List.perm_ext_iff_of_nodup tells.once tells'.once).2 fun name => ?_
    rw [tells.names, tells'.names]
    exact ⟨Differ.swap symmetric, Differ.swap symmetric⟩
  -- The names come in another order, and each of them has its sides exchanged.
  have turned : (found.map Change.name).map (Change.between after before) = found.map Change.turn := by
    have both : Change.between after before = Change.turn ∘ Change.between before after := rfl
    rw [both, ← List.map_map, tells.map_between]
  have listed := names.map (Change.between after before)
  rwa [turned, tells'.map_between] at listed

end Changes

/-! ## Entries in another order -/

/-- The entries of two lists correspond one to one, in whatever order they stand. -/
def Matches {α β : Type} (R : α → β → Prop) (list : List α) (other : List β) : Prop :=
  ∃ ordered, List.Forall₂ R list ordered ∧ ordered.Perm other

theorem matches_of_perm_map {α β γ : Type} {f : α → γ} {g : β → γ} {list : List α} {other : List β}
    (same : (list.map f).Perm (other.map g)) : Matches (fun a b => f a = g b) list other := by
  have own : List.Forall₂ (fun c b => c = g b) (other.map g) other := by
    rw [List.forall₂_map_left_iff]
    exact List.forall₂_same.2 fun _ _ => rfl
  obtain ⟨ordered, each, perm⟩ := List.perm_comp_forall₂ same own
  exact ⟨ordered, List.forall₂_map_left_iff.1 each, perm⟩

/-- The changes that are told either way match, each read backwards. -/
theorem Tells.matches_turn {α β : Type} {same : α → α → Bool} {before after : Table α} {change : β → Change α}
    {found found' : List β} (symmetric : ∀ a b, same a b = same b a)
    (tells : Tells same before after (found.map change)) (tells' : Tells same after before (found'.map change)) :
    Matches (fun c c' => (change c).turn = change c') found found' := by
  have turned := tells.perm_turn symmetric tells'
  rw [List.map_map] at turned
  exact matches_of_perm_map turned

theorem Matches.imp_of_mem {α β : Type} {R S : α → β → Prop} {list : List α} {other : List β}
    (h : Matches R list other) (imp : ∀ a ∈ list, ∀ b ∈ other, R a b → S a b) : Matches S list other := by
  obtain ⟨ordered, each, perm⟩ := h
  refine ⟨ordered, List.forall₂_iff_zip.2 ⟨each.length_eq, fun {a b} paired => ?_⟩, perm⟩
  obtain ⟨left, right⟩ := List.of_mem_zip paired
  exact imp a left b (perm.subset right) (List.forall₂_zip each paired)

/-! ## Mirror images -/

/-- One double is the negative of another as a number: zeros of either sign are the same. -/
def Negative (x y : Float) : Prop := (y == -x) = true

/-- A change of a weight read backwards, with the negative delta. -/
structure WeightChange.Mirrors (forth back : WeightChange) : Prop where
  competency : back.competency = forth.competency
  old : back.old = forth.new
  new : back.new = forth.old
  delta : Negative forth.delta back.delta

/-- A change of a formula read backwards. -/
structure FormulaChange.Mirrors (forth back : FormulaChange) : Prop where
  competency : back.competency = forth.competency
  old : back.old = forth.new
  new : back.new = forth.old

/-- A difference read backwards: the same changes with their sides exchanged, in whatever order, and the negative delta
of the final scores, or none in both. -/
structure Difference.Mirrors (forth back : Difference) : Prop where
  weights : Matches WeightChange.Mirrors forth.weights back.weights
  formulas : Matches FormulaChange.Mirrors forth.formulas back.formulas
  scoreDelta : Option.Rel Negative forth.scoreDelta back.scoreDelta

/-- Amounts that are subtracted either way have negative differences. -/
theorem Amount.number_difference {x y z w : Float} (hx : Amount x) (hy : Amount y)
    (forth : Numeral.difference x y = .ok z) (back : Numeral.difference y x = .ok w) :
    isFinite z = true ∧ isFinite w = true ∧ number w = -number z := by
  obtain ⟨_, shown, hz⟩ := Numeral.finite_difference hx.finite hy.finite hx.least hy.least
  cases shown.symm.trans forth
  obtain ⟨_, shown', hw⟩ := Numeral.finite_difference hy.finite hx.finite hy.least hx.least
  cases shown'.symm.trans back
  exact ⟨hz, hw, Numeral.number_difference_swap forth back hx.finite hy.finite hz⟩

section Difference

variable {a b : Configuration} {first second first' second' : String} {forth back : Difference}

theorem PatchBetween.mirrors_weights (patch : PatchBetween (first, a) (second, b) forth)
    (patch' : PatchBetween (second', b) (first', a) back) (ha : a.Checked) (hb : b.Checked) :
    Matches WeightChange.Mirrors forth.weights back.weights := by
  refine (patch.weights.matches_turn (fun _ _ => BEq.comm) patch'.weights).imp_of_mem
    fun w member w' member' same => ?_
  have stood := patch.weights.sides _ (List.mem_map_of_mem member)
  have shown := patch.deltas w member
  have shown' := patch'.deltas w' member'
  obtain ⟨competency, old, new, delta⟩ := w
  obtain ⟨_, _, _, delta'⟩ := w'
  cases same
  obtain rfl : old = a.weights.get? competency := stood.1
  obtain rfl : new = b.weights.get? competency := stood.2
  obtain ⟨finite, finite', opposite⟩ :=
    (hb.amount_weight competency).number_difference (ha.amount_weight competency) shown shown'
  exact ⟨rfl, rfl, rfl, (Numeral.beq_neg_iff finite finite').2 opposite⟩

theorem PatchBetween.mirrors_formulas (patch : PatchBetween (first, a) (second, b) forth)
    (patch' : PatchBetween (second', b) (first', a) back) :
    Matches FormulaChange.Mirrors forth.formulas back.formulas := by
  refine (patch.formulas.matches_turn (fun _ _ => BEq.comm) patch'.formulas).imp_of_mem fun f _ f' _ same => ?_
  obtain ⟨competency, old, new⟩ := f
  cases same
  exact ⟨rfl, rfl, rfl⟩

end Difference

section Entries

variable {environment : Option Environment} {before after before' after' : Entry}

/-- A configuration has the same result whatever it is shown under. -/
theorem EntryOf.result_eq (own : EntryOf environment before) (own' : EntryOf environment before')
    (same : before.1.2 = before'.1.2) : before.2.map Outcome.result = before'.2.map Outcome.result := by
  cases environment with
  | none =>
    cases own
    cases own'
    rfl
  | some env =>
    obtain ⟨result, gets⟩ := exists_gets before.1.2 env
    rw [(own.result_iff result).2 gets, (own'.result_iff result).2 (same ▸ gets)]

/-- Results that are compared either way have negative deltas, or none. -/
theorem rel_scoreDelta (hb : Fit before) (ha : Fit after)
    (same : before.2.map Outcome.result = before'.2.map Outcome.result)
    (same' : after.2.map Outcome.result = after'.2.map Outcome.result) {delta delta' : Option Float}
    (forth : scoreDelta? before.2 after.2 = .ok delta) (back : scoreDelta? after'.2 before'.2 = .ok delta') :
    Option.Rel Negative delta delta' := by
  have shown := isSome_scoreDelta forth
  have shown' := isSome_scoreDelta back
  rw [← same, ← same'] at shown'
  cases delta with
  | none =>
    cases delta' with
    | none => exact .none
    | some _ =>
      obtain ⟨new, old, later, scored⟩ := shown'.1 rfl
      exact nomatch shown.2 ⟨old, new, scored, later⟩
  | some _ =>
    obtain ⟨old, new, scored, later⟩ := shown.1 rfl
    obtain ⟨exact, delta, subtracted, rounded, ⟨⟩⟩ := scoreDelta_ok scored later forth
    obtain ⟨exact', delta', subtracted', rounded', rfl⟩ :=
      scoreDelta_ok (same' ▸ later) (same ▸ scored) back
    obtain ⟨finite, finite', opposite⟩ := (ha.amount later).number_difference (hb.amount scored) subtracted subtracted'
    -- Rounding is odd, and so it keeps what the exact differences are to each other.
    have low : 0 ≤ finalPlaces := by decide
    have opposite := Numeral.number_roundHalfUp_neg finite finite' low (by decide) opposite rounded rounded'
    have finite := Numeral.isFinite_roundHalfUp finite low rounded
    have finite' := Numeral.isFinite_roundHalfUp finite' low rounded'
    exact .some ((Numeral.beq_neg_iff finite finite').2 opposite)

end Entries

/-- What is found between two configurations that are compared, under whatever labels. -/
inductive Found (environment : Option Environment) (a b : Configuration) (d : Difference) : Prop
  | between {first second : String} {outcome later : Option Outcome} (own : EntryOf environment ((first, a), outcome))
      (own' : EntryOf environment ((second, b), later))
      (differ : difference ((first, a), outcome) ((second, b), later) = .ok d)

theorem Found.mirrors {environment : Option Environment} {a b : Configuration} {forth back : Difference}
    (ha : a.Checked) (hb : b.Checked) (found : Found environment a b forth) (found' : Found environment b a back) :
    forth.Mirrors back := by
  obtain ⟨own, own', differ⟩ := found
  obtain ⟨later, earlier, differ'⟩ := found'
  have patch := patchBetween_of_difference ha hb differ
  have patch' := patchBetween_of_difference hb ha differ'
  obtain ⟨weights, -, differ⟩ := ok_of_bind differ
  obtain ⟨delta, shown, differ⟩ := ok_of_bind differ
  obtain ⟨weights', -, differ'⟩ := ok_of_bind differ'
  obtain ⟨delta', shown', differ'⟩ := ok_of_bind differ'
  cases differ
  cases differ'
  exact {
    weights := patch.mirrors_weights patch' ha hb
    formulas := patch.mirrors_formulas patch'
    scoreDelta := rel_scoreDelta (own.fit ha) (own'.fit hb) (own.result_eq earlier rfl) (own'.result_eq later rfl)
      shown shown' }

/-- Two configurations are compared to their difference. -/
theorem exists_found {a b : Configuration} {values : Option Value} {environment : Option Environment}
    {labels : Option (List Value)} (ha : a.Checked) (hb : b.Checked) (enough : Labels [a, b] labels)
    (reads : Reads values environment) : ∃ outcomes d,
      (compare [a, b] values labels).outcome = .ok ⟨outcomes, [d]⟩ ∧ Found environment a b d := by
  have checked : ∀ c ∈ [a, b], c.Checked := by simp [ha, hb]
  obtain ⟨outcomes, found, compared, scored, differ⟩ := compare_eq le_rfl checked enough reads
  -- There are two entries, whatever their labels are, and one difference between them.
  have own := scored.entries
  have listed := map_snd_labelled enough
  rw [← map_fst_entriesOf scored, List.map_map] at listed
  generalize entriesOf (labelled [a, b] labels) outcomes = entries at differ own listed
  obtain ⟨⟨⟨first, _⟩, outcome⟩, rest, rfl, rfl, others⟩ := List.map_eq_cons_iff.1 listed
  obtain ⟨⟨⟨second, _⟩, later⟩, none, rfl, rfl, ends⟩ := List.map_eq_cons_iff.1 others
  obtain rfl := List.map_eq_nil_iff.1 ends
  rw [differences] at differ
  obtain ⟨d, between, differ⟩ := ok_of_bind differ
  obtain ⟨_, ⟨⟩, differ⟩ := ok_of_bind differ
  cases differ
  refine ⟨outcomes, d, by rw [compared], ?_⟩
  exact .between (own _ (List.mem_cons_self ..)) (own _ (List.mem_cons_of_mem _ (List.mem_cons_self ..))) between

/-- Two checked configurations are compared in either order to differences that mirror each other. Values that are no
environment are refused in either order alike. -/
theorem comparison_is_antisymmetric {a b : Configuration} {values : Option Value} {labels labels' : Option (List Value)}
    (ha : a.Checked) (hb : b.Checked) (enough : Labels [a, b] labels) (enough' : Labels [b, a] labels') :
    (∀ environment, Reads values environment → ∃ outcomes outcomes' forth back,
      (compare [a, b] values labels).outcome = .ok ⟨outcomes, [forth]⟩ ∧
      (compare [b, a] values labels').outcome = .ok ⟨outcomes', [back]⟩ ∧ forth.Mirrors back) ∧
    ∀ given e, values = some given → Environment.ofValue given = .error e →
      (compare [a, b] values labels).outcome = .error (e.map .environment) ∧
      (compare [b, a] values labels').outcome = .error (e.map .environment) := by
  constructor
  · intro environment reads
    obtain ⟨outcomes, forth, compared, found⟩ := exists_found ha hb enough reads
    obtain ⟨outcomes', back, compared', found'⟩ := exists_found hb ha enough' reads
    exact ⟨outcomes, outcomes', forth, back, compared, compared', found.mirrors ha hb found'⟩
  · rintro given e rfl unread
    exact ⟨compare_unread le_rfl enough unread, compare_unread le_rfl enough' unread⟩

/-- Between the first two drafts a weight moves. The competency that comes first loses it. -/
theorem comparison_is_antisymmetric_drafts :
    drafts[0].Checked ∧ drafts[1].Checked ∧ Labels [drafts[0], drafts[1]] none ∧ Labels [drafts[1], drafts[0]] none ∧
      Reads (some session.value) (some session) ∧ ∃ outcomes outcomes' forth back,
        (compare [drafts[0], drafts[1]] (some session.value) none).outcome = .ok ⟨outcomes, [forth]⟩ ∧
        (compare [drafts[1], drafts[0]] (some session.value) none).outcome = .ok ⟨outcomes', [back]⟩ ∧
        forth.Mirrors back ∧ forth.weights.map WeightChange.competency = ["focus", "calm"] ∧
        back.weights.map WeightChange.competency = ["calm", "focus"] := by
  have first : drafts[0].Checked := checked_drafts _ (List.getElem_mem _)
  have second : drafts[1].Checked := checked_drafts _ (List.getElem_mem _)
  have enough : Labels [drafts[0], drafts[1]] none := nofun
  have enough' : Labels [drafts[1], drafts[0]] none := nofun
  have reads : Reads (some session.value) (some session) := .values named_session.ofValue_value
  obtain ⟨outcomes, outcomes', forth, back, compared, compared', mirrors⟩ :=
    (comparison_is_antisymmetric first second enough enough').1 _ reads
  have listed : (compare [drafts[0], drafts[1]] (some session.value) none).outcome.toOption.map
      (fun c => c.differences.map fun d => d.weights.map WeightChange.competency) = some [["focus", "calm"]] := by
    decide +kernel
  have listed' : (compare [drafts[1], drafts[0]] (some session.value) none).outcome.toOption.map
      (fun c => c.differences.map fun d => d.weights.map WeightChange.competency) = some [["calm", "focus"]] := by
    decide +kernel
  rw [compared] at listed
  rw [compared'] at listed'
  refine ⟨first, second, enough, enough', reads, outcomes, outcomes', forth, back, compared, compared', mirrors, ?_, ?_⟩
  · exact (List.cons.inj (Option.some_inj.1 listed)).1
  · exact (List.cons.inj (Option.some_inj.1 listed')).1

end GameScoring.Scoring
