import Mathlib
import GameScoring.Proofs.Numeral.Equality
import GameScoring.Proofs.Scoring.Comparison
import GameScoring.Proofs.Table

/-!
# Differences are patches

The changes between two tables tell exactly where they differ: which names, each once and in a fixed order,
and what stood there before and stands there after. Applied to the first table they give the second, and
the changes along a list of tables, applied in turn, lead from its first table to its last.
-/
namespace GameScoring.Scoring
open Binary

variable {α : Type} {same : α → α → Bool}

/-! ## Where tables differ -/

/-- The sides of a name differ if only one of them has an entry, or if their entries are not the same. -/
inductive Differ (same : α → α → Bool) : Option α → Option α → Prop
  | added (new : α) : Differ same none (some new)
  | removed (old : α) : Differ same (some old) none
  | replaced {old new : α} (other : same old new = false) : Differ same (some old) (some new)

theorem sameOption_eq_false_iff {old new : Option α} : sameOption same old new = false ↔ Differ same old new := by
  constructor
  · intro h
    cases old with
    | none =>
      cases new with
      | none => cases h
      | some new => exact .added new
    | some old =>
      cases new with
      | none => exact .removed old
      | some new => exact .replaced h
  · intro h
    cases h with
    | added new => rfl
    | removed old => rfl
    | replaced other => exact other

theorem sameOption_eq_true_iff {old new : Option α} : sameOption same old new = true ↔ ¬ Differ same old new := by
  rw [← sameOption_eq_false_iff, Bool.not_eq_false]

/-- Tables are the same, whatever the order of their names, if no name has sides that differ. -/
theorem sameTable_iff {s t : Table α} :
    Configuration.sameTable same s t = true ↔ ∀ name, ¬ Differ same (s.get? name) (t.get? name) := by
  rw [Configuration.sameTable, Bool.and_eq_true, List.all_eq_true, beq_iff_eq]
  constructor
  · rintro ⟨size, each⟩ name differ
    have known : s.names ⊆ t.names := by
      intro name member
      obtain ⟨⟨_, a⟩, stood, rfl⟩ := List.mem_map.1 member
      obtain ⟨b, found, -⟩ := (Option.any_eq_true _ _).1 (each _ stood)
      exact Table.mem_names_iff.2 ⟨b, found⟩
    have all : s.names.Perm t.names := by
      refine (List.subperm_of_subset s.distinct known).perm_of_length_le ?_
      simpa [Table.size, Table.names] using size.ge
    cases found : s.get? name with
    | none =>
      have absent : t.get? name = none := by
        rw [Option.eq_none_iff_forall_ne_some]
        intro entry stood
        obtain ⟨_, other⟩ := Table.mem_names_iff.1 (all.mem_iff.2 (Table.mem_names_iff.2 ⟨entry, stood⟩))
        rw [found] at other
        cases other
      rw [found, absent] at differ
      cases differ
    | some a =>
      obtain ⟨b, stood, equal⟩ := (Option.any_eq_true _ _).1 (each _ (Table.mem_of_get? found))
      rw [found, stood] at differ
      cases differ with
      | replaced other => exact absurd equal (by rw [other]; decide)
  · intro none
    have all : s.names.Perm t.names := by
      refine (List.perm_ext_iff_of_nodup s.distinct t.distinct).2 fun name => ?_
      have agree := none name
      rw [← Table.names, ← Table.names, Table.mem_names_iff, Table.mem_names_iff]
      constructor
      · rintro ⟨a, found⟩
        rw [found] at agree
        cases stood : t.get? name with
        | none => exact absurd (stood ▸ .removed a) agree
        | some b => exact ⟨b, rfl⟩
      · rintro ⟨b, stood⟩
        rw [stood] at agree
        cases found : s.get? name with
        | none => exact absurd (found ▸ .added b) agree
        | some a => exact ⟨a, rfl⟩
    refine ⟨?_, ?_⟩
    · simpa [Table.size, Table.names] using all.length_eq
    · rintro ⟨name, a⟩ member
      have agree := none name
      rw [Table.get?_of_mem member] at agree
      cases stood : t.get? name with
      | none => exact absurd (stood ▸ .removed a) agree
      | some b =>
        rw [stood, ← sameOption_eq_true_iff] at agree
        exact agree

/-! ## Changes -/

/-- Changes tell how a table differs from another: they name exactly what differs, each name once, with both
sides of it, in the order of the names before and then of those only after. -/
structure Tells (same : α → α → Bool) (before after : Table α) (found : List (Change α)) : Prop where
  names : ∀ name, name ∈ found.map Change.name ↔ Differ same (before.get? name) (after.get? name)
  once : (found.map Change.name).Nodup
  sides : ∀ c ∈ found, c.old = before.get? c.name ∧ c.new = after.get? c.name
  order : (found.map Change.name).Sublist (before.names ++ after.names.filter (· ∉ before.names))

theorem orderedNames_eq (before after : Table α) :
    orderedNames before after = before.names ++ after.names.filter (· ∉ before.names) := by
  have new (name : String) : (!before.contains name) = decide (name ∉ before.names) := by
    rw [Bool.eq_iff_iff]
    simp [← Table.contains_iff]
  simp only [orderedNames, new]

theorem nodup_orderedNames (before after : Table α) : (orderedNames before after).Nodup := by
  rw [orderedNames_eq]
  refine List.Nodup.append before.distinct (after.distinct.filter _) ?_
  intro name member other
  simp [member] at other

theorem mem_orderedNames_of_differ {before after : Table α} {name : String}
    (differ : Differ same (before.get? name) (after.get? name)) : name ∈ orderedNames before after := by
  rw [orderedNames_eq, List.mem_append, List.mem_filter]
  by_cases known : name ∈ before.names
  · exact .inl known
  · cases stood : after.get? name with
    | none =>
      rw [stood] at differ
      cases found : before.get? name with
      | none =>
        rw [found] at differ
        cases differ
      | some old => exact absurd (Table.mem_names_iff.2 ⟨old, found⟩) known
    | some new => exact .inr ⟨Table.mem_names_iff.2 ⟨new, stood⟩, by simpa using known⟩

theorem names_changes (before after : Table α) : (changes same before after).map Change.name =
    (orderedNames before after).filter fun name => !sameOption same (before.get? name) (after.get? name) := by
  rw [changes, List.filter_map, List.map_map]
  exact List.map_id _

theorem tells_changes (before after : Table α) : Tells same before after (changes same before after) where
  names name := by
    rw [names_changes, List.mem_filter, Bool.not_eq_true', sameOption_eq_false_iff]
    exact and_iff_right_of_imp mem_orderedNames_of_differ
  once := by
    rw [names_changes]
    exact (nodup_orderedNames before after).filter _
  sides c member := by
    obtain ⟨name, -, rfl⟩ := List.mem_map.1 (List.mem_filter.1 member).1
    exact ⟨rfl, rfl⟩
  order := by
    rw [names_changes, ← orderedNames_eq]
    exact List.filter_sublist

namespace Tells

variable {before after : Table α} {found : List (Change α)}

/-- There is nothing to tell exactly if the tables are the same. -/
theorem eq_nil_iff (tells : Tells same before after found) :
    found = [] ↔ Configuration.sameTable same before after = true := by
  rw [sameTable_iff, ← List.map_eq_nil_iff (f := Change.name), List.eq_nil_iff_forall_not_mem]
  exact forall_congr' fun name => not_congr (tells.names name)

end Tells

/-! ## Patches -/

/-- Sets the entry of a name to the new one, or removes it. -/
def Change.apply (t : Table α) (c : Change α) : Table α :=
  match c.new with
  | some entry => t.insert c.name entry
  | none => t.erase c.name

/-- Applies changes one after the other. -/
def patch (t : Table α) (found : List (Change α)) : Table α := found.foldl Change.apply t

theorem Change.get?_apply (t : Table α) (c : Change α) (name : String) :
    (c.apply t).get? name = if name = c.name then c.new else t.get? name := by
  rw [apply]
  split
  next entry new => rw [Table.get?_insert, new]
  next new => rw [Table.get?_erase, new]

theorem get?_patch_of_not_mem {found : List (Change α)} {name : String} (t : Table α)
    (untold : name ∉ found.map Change.name) : (patch t found).get? name = t.get? name := by
  induction found generalizing t with
  | nil => rfl
  | cons c rest ih =>
    rw [List.map_cons, List.mem_cons, not_or] at untold
    rw [patch, List.foldl_cons, ← patch, ih _ untold.2, Change.get?_apply, if_neg untold.1]

theorem get?_patch_of_mem {found : List (Change α)} {c : Change α} (t : Table α)
    (once : (found.map Change.name).Nodup) (told : c ∈ found) : (patch t found).get? c.name = c.new := by
  induction found generalizing t with
  | nil => cases told
  | cons first rest ih =>
    rw [List.map_cons, List.nodup_cons] at once
    rw [patch, List.foldl_cons, ← patch]
    rcases List.mem_cons.1 told with rfl | later
    · rw [get?_patch_of_not_mem _ once.1, Change.get?_apply, if_pos rfl]
    · exact ih _ once.2 later

/-- Entries can be compared: what stands in a table is the same as itself, and what is the same as one entry
is the same. -/
structure Comparable (same : α → α → Bool) (t : Table α) : Prop where
  refl : ∀ e ∈ t.entries, same e.2 e.2 = true
  trans : ∀ {a b c}, same a b = true → same b c = true → same a c = true

theorem Comparable.not_differ {t : Table α} (h : Comparable same t) (name : String) :
    ¬ Differ same (t.get? name) (t.get? name) := by
  intro differ
  cases found : t.get? name with
  | none =>
    rw [found] at differ
    cases differ
  | some a =>
    rw [found] at differ
    cases differ with
    | replaced other => exact absurd (h.refl _ (Table.mem_of_get? found)) (by rw [other]; decide)

/-- Changes take every table that is the same as the one before to the one after. -/
theorem Tells.patch {before after t : Table α} {found : List (Change α)} (tells : Tells same before after found)
    (comparable : Comparable same after) (start : Configuration.sameTable same t before = true) :
    Configuration.sameTable same (patch t found) after = true := by
  rw [sameTable_iff] at start ⊢
  intro name
  -- A name that is told gets its side after; any other is the same in all three tables.
  by_cases told : name ∈ found.map Change.name
  · obtain ⟨c, member, rfl⟩ := List.mem_map.1 told
    rw [get?_patch_of_mem t tells.once member, (tells.sides c member).2]
    exact comparable.not_differ c.name
  · have kept := start name
    have agree := mt (tells.names name).2 told
    rw [get?_patch_of_not_mem t told]
    rw [← sameOption_eq_true_iff] at kept agree ⊢
    generalize t.get? name = a at kept ⊢
    generalize before.get? name = b at kept agree
    generalize after.get? name = c at agree ⊢
    match a, b, c, kept, agree with
    | none, none, none, _, _ => rfl
    | some _, some _, some _, kept, agree => exact comparable.trans kept agree

/-- The changes between neighbours, applied in turn, take the first table of a list to its last. -/
theorem patch_chain {β δ : Type} (part : β → Table α) {told : δ → List (Change α)} {first last : β}
    {rest : List β} {found : List δ}
    (tells : List.Forall₂ (fun pair d => Tells same (part pair.1) (part pair.2) (told d))
      ((first :: rest).zip rest) found)
    (comparable : ∀ b ∈ first :: rest, Comparable same (part b))
    (ends : (first :: rest).getLast? = some last) {t : Table α}
    (start : Configuration.sameTable same t (part first) = true) :
    Configuration.sameTable same (found.foldl (fun t d => patch t (told d)) t) (part last) = true := by
  induction rest generalizing first found t with
  | nil =>
    cases tells
    cases ends
    exact start
  | cons second rest ih =>
    rw [List.zip_cons_cons] at tells
    cases tells with
    | cons told later =>
      rw [List.getLast?_cons_cons] at ends
      rw [List.forall_mem_cons] at comparable
      have next := told.patch (comparable.2 second (List.mem_cons_self ..)) start
      exact ih later comparable.2 ends next

/-! ## Comparisons -/

def WeightChange.change (w : WeightChange) : Change Float := ⟨w.competency, w.old, w.new⟩

def FormulaChange.change (f : FormulaChange) : Change String := ⟨f.competency, f.old, f.new⟩

def Difference.weightPatch (d : Difference) : List (Change Float) := d.weights.map WeightChange.change

def Difference.formulaPatch (d : Difference) : List (Change String) := d.formulas.map FormulaChange.change

theorem forall₂_of_mapM {α β ε : Type} {f : α → Except ε β} {list : List α} {results : List β}
    (h : list.mapM f = .ok results) : List.Forall₂ (fun a b => f a = .ok b) list results := by
  induction list generalizing results with
  | nil =>
    cases h
    exact .nil
  | cons a rest ih =>
    rw [List.mapM_cons] at h
    obtain ⟨b, first, h⟩ := ok_of_bind h
    obtain ⟨others, later, h⟩ := ok_of_bind h
    cases h
    exact .cons first (ih later)

theorem weightChange_ok {c : Change Float} {w : WeightChange} (h : weightChange c = .ok w) :
    w.change = c ∧ Numeral.optionalDifference w.new w.old = .ok w.delta := by
  obtain ⟨delta, shown, h⟩ := ok_of_bind h
  cases h
  exact ⟨rfl, shown⟩

/-- Changes of weights are shown with the difference of their sides. -/
theorem weightChanges_ok {before after : Table Float} {found : List WeightChange}
    (h : weightChanges before after = .ok found) :
    found.map WeightChange.change = changes (· == ·) before after ∧
      ∀ w ∈ found, Numeral.optionalDifference w.new w.old = .ok w.delta := by
  have each := (forall₂_of_mapM h).imp fun _ _ shown => weightChange_ok shown
  clear h
  generalize changes (· == ·) before after = listed at each ⊢
  induction each with
  | nil => exact ⟨rfl, nofun⟩
  | cons first _ ih =>
    rw [List.map_cons, first.1, ih.1, List.forall_mem_cons]
    exact ⟨rfl, first.2, ih.2⟩

theorem Configuration.Checked.comparable_weights {c : Configuration} (checked : c.Checked) :
    Comparable (· == ·) c.weights where
  refl e member :=
    beq_self_of_finite (Configuration.readWeight_ok_iff.1 (checked.weights e member).kept).2.1
  trans := BEq.trans

theorem comparable_formulas (t : Table String) : Comparable (· == ·) t where
  refl e _ := beq_self_eq_true e.2
  trans first second := by simp_all

/-- A difference is a patch from one labelled configuration to another. -/
structure PatchBetween (before after : Labelled) (d : Difference) : Prop where
  fromLabel : d.fromLabel = before.1
  toLabel : d.toLabel = after.1
  weights : Tells (· == ·) before.2.weights after.2.weights d.weightPatch
  formulas : Tells (· == ·) before.2.formulas after.2.formulas d.formulaPatch
  deltas : ∀ w ∈ d.weights, Numeral.optionalDifference w.new w.old = .ok w.delta
  weights_patched :
    Configuration.sameTable (· == ·) (patch before.2.weights d.weightPatch) after.2.weights = true
  formulas_patched :
    Configuration.sameTable (· == ·) (patch before.2.formulas d.formulaPatch) after.2.formulas = true
  weights_eq_nil_iff :
    d.weights = [] ↔ Configuration.sameTable (· == ·) before.2.weights after.2.weights = true
  formulas_eq_nil_iff :
    d.formulas = [] ↔ Configuration.sameTable (· == ·) before.2.formulas after.2.formulas = true

theorem Comparable.sameTable_self {t : Table α} (h : Comparable same t) :
    Configuration.sameTable same t t = true :=
  sameTable_iff.2 h.not_differ

theorem patchBetween_of_difference {before after : Entry} {d : Difference} (hb : before.1.2.Checked)
    (ha : after.1.2.Checked) (h : difference before after = .ok d) : PatchBetween before.1 after.1 d := by
  obtain ⟨found, weighed, h⟩ := ok_of_bind h
  obtain ⟨delta, -, h⟩ := ok_of_bind h
  cases h
  obtain ⟨listed, deltas⟩ := weightChanges_ok weighed
  have weights : Tells (· == ·) before.1.2.weights after.1.2.weights (found.map WeightChange.change) :=
    listed ▸ tells_changes _ _
  have formulas : Tells (· == ·) before.1.2.formulas after.1.2.formulas
      ((formulaChanges before.1.2.formulas after.1.2.formulas).map FormulaChange.change) := by
    rw [formulaChanges, List.map_map]
    exact (List.map_id _).symm ▸ tells_changes _ _
  exact {
    fromLabel := rfl
    toLabel := rfl
    weights := weights
    formulas := formulas
    deltas := deltas
    weights_patched := weights.patch ha.comparable_weights hb.comparable_weights.sameTable_self
    formulas_patched := formulas.patch (comparable_formulas _) (comparable_formulas _).sameTable_self
    weights_eq_nil_iff := List.map_eq_nil_iff.symm.trans weights.eq_nil_iff
    formulas_eq_nil_iff := List.map_eq_nil_iff.symm.trans formulas.eq_nil_iff }

/-- A comparison of checked configurations, scored or not, has a difference for every two neighbours. Each
difference is a patch from the one to the other, and all of them in turn patch the first to the last. -/
theorem differences_patch_the_chain {configurations : List Configuration} {values : Option Value}
    {labels : Option (List Value)} {environment : Option Environment}
    (many : minCompared ≤ configurations.length) (checked : ∀ c ∈ configurations, c.Checked)
    (enough : Labels configurations labels) (reads : Reads values environment) :
    ∃ comparison, (compare configurations values labels).outcome = .ok comparison ∧
      comparison.differences.length + 1 = configurations.length ∧
      List.Forall₂ (fun pair d => PatchBetween pair.1 pair.2 d)
        ((labelled configurations labels).zip (labelled configurations labels).tail) comparison.differences ∧
      ∀ first ∈ configurations.head?, ∀ last ∈ configurations.getLast?,
        Configuration.sameTable (· == ·)
          (comparison.differences.foldl (fun t d => patch t d.weightPatch) first.weights) last.weights = true ∧
        Configuration.sameTable (· == ·)
          (comparison.differences.foldl (fun t d => patch t d.formulaPatch) first.formulas) last.formulas = true := by
  obtain ⟨outcomes, found, compared, scored, differ⟩ := compare_eq many checked enough reads
  have same := map_snd_labelled enough
  generalize labelled configurations labels = listed at scored differ same ⊢
  have checked : ∀ l ∈ listed, l.2.Checked := fun l member =>
    checked _ (same ▸ List.mem_map.2 ⟨l, member, rfl⟩)
  have fit := fit_of_outcomes checked scored
  have between := forall₂_neighbours scored differ fun before hb after ha _ =>
    patchBetween_of_difference (fit before hb).checked (fit after ha).checked
  refine ⟨⟨outcomes, found⟩, by rw [compared], ?_, between, fun first starts last ends => ?_⟩
  · have count := between.length_eq
    rw [List.length_zip, List.length_tail, ← List.length_map Prod.snd, same] at count
    have := show 2 ≤ configurations.length from many
    show found.length + 1 = _
    omega
  · rw [← same, List.head?_map] at starts
    rw [← same, List.getLast?_map] at ends
    obtain ⟨start, opens, rfl⟩ := Option.map_eq_some_iff.1 starts
    obtain ⟨final, closes, rfl⟩ := Option.map_eq_some_iff.1 ends
    obtain ⟨rest, rfl⟩ := List.head?_eq_some_iff.1 opens
    have weights := fun l member => (checked l member).comparable_weights
    constructor
    · exact patch_chain (fun l => l.2.weights) (between.imp fun _ _ patch => patch.weights) weights closes
        (weights start (List.mem_cons_self ..)).sameTable_self
    · exact patch_chain (fun l => l.2.formulas) (between.imp fun _ _ patch => patch.formulas)
        (fun l _ => comparable_formulas _) closes (comparable_formulas _).sameTable_self

/-- Three drafts of a configuration: a weight moves to a new competency, and then all is removed. -/
def drafts : List Configuration := [
  ⟨"focus_task", Table.empty.insert "focus" "accuracy", Table.empty.insert "focus" 0.5, []⟩,
  ⟨"focus_task", (Table.empty.insert "focus" "accuracy").insert "calm" "100 - false_alarm_rate",
    Table.empty.insert "calm" 0.5, []⟩,
  ⟨"focus_task", Table.empty, Table.empty, []⟩]

theorem checked_drafts : ∀ c ∈ drafts, c.Checked := by
  intro c member
  rw [Configuration.checked_iff]
  revert c
  decide +kernel

/-- From the first draft to the last every weight is removed. -/
theorem drafts_are_patched : minCompared ≤ drafts.length ∧ (∀ c ∈ drafts, c.Checked) ∧ Labels drafts none ∧
    Reads none none ∧
    ∃ comparison, (compare drafts none none).outcome = .ok comparison ∧ comparison.differences.length = 2 ∧
      Configuration.sameTable (· == ·)
        (comparison.differences.foldl (fun t d => patch t d.weightPatch) (Table.empty.insert "focus" 0.5))
        Table.empty = true := by
  have many : minCompared ≤ drafts.length := by decide
  have enough : Labels drafts none := nofun
  obtain ⟨comparison, compared, count, -, chain⟩ :=
    differences_patch_the_chain many checked_drafts enough .nothing
  exact ⟨many, checked_drafts, enough, .nothing, comparison, compared, Nat.succ.inj count, (chain _ rfl _ rfl).1⟩

end GameScoring.Scoring
