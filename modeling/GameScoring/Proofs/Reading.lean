import Mathlib.Data.List.Forall2
import GameScoring.Proofs.Table
import GameScoring.Report

/-!
# Reading entries in order

Environments and the parts of configurations are read from objects in the same way: entry by entry, until one is
refused because of its name or of its value. A reader is told by what it admits and what it refuses, and from its
single steps follows what becomes of all entries.
-/
namespace GameScoring

theorem exists_of_mem_right {α β : Type} {R : α → β → Prop} {xs : List α} {ys : List β} {y : β}
    (h : List.Forall₂ R xs ys) (member : y ∈ ys) : ∃ x ∈ xs, R x y := by
  induction h with
  | nil => cases member
  | cons first _ ih =>
    rcases List.mem_cons.1 member with rfl | later
    · exact ⟨_, List.mem_cons_self .., first⟩
    · obtain ⟨x, stood, related⟩ := ih later
      exact ⟨x, List.mem_cons_of_mem _ stood, related⟩

/-- What becomes of entries that are read in order: each one is admitted, or the first that is not ends the reading. -/
inductive Reading {ε α : Type} (admits : Value × Value → String × α → Prop) (refuses : Value × Value → ε → Prop)
    (entries : List (Value × Value)) : Except ε (List (String × α)) → Prop
  | admitted {kept : List (String × α)} (each : List.Forall₂ admits entries kept) :
      Reading admits refuses entries (.ok kept)
  | refused {before after : List (Value × Value)} {entry : Value × Value} {kept : List (String × α)} {failure : ε}
      (split : entries = before ++ entry :: after) (each : List.Forall₂ admits before kept)
      (first : refuses entry failure) : Reading admits refuses entries (.error failure)

namespace Reading
variable {ε α : Type} {admits : Value × Value → String × α → Prop} {refuses : Value × Value → ε → Prop}
  {entry : Value × Value} {kept : String × α} {entries : List (Value × Value)}
  {result result' : Except ε (List (String × α))}

theorem cons (first : admits entry kept) (h : Reading admits refuses entries result) :
    Reading admits refuses (entry :: entries) (result.map (kept :: ·)) := by
  cases h with
  | admitted each => exact .admitted (.cons first each)
  | refused split each ending => exact .refused (congrArg (entry :: ·) split) (.cons first each) ending

theorem eq_of_nil (h : Reading admits refuses [] result) : result = .ok [] := by
  cases h with
  | admitted each =>
    cases each
    rfl
  | refused split => simp at split

theorem cases_cons (h : Reading admits refuses (entry :: entries) result) :
    (∃ kept rest, admits entry kept ∧ Reading admits refuses entries rest ∧ result = rest.map (kept :: ·)) ∨
      ∃ failure, refuses entry failure ∧ result = .error failure := by
  cases h with
  | admitted each =>
    cases each with
    | cons first each => exact .inl ⟨_, _, first, .admitted each, rfl⟩
  | refused split each ending =>
    cases each with
    | nil =>
      cases split
      exact .inr ⟨_, ending, rfl⟩
    | cons first each =>
      cases split
      exact .inl ⟨_, _, first, .refused rfl each ending, rfl⟩

/-- Where all entries are admitted, each of them is. -/
theorem exists_kept {kept : List (String × α)} (h : Reading admits refuses entries (.ok kept))
    (member : entry ∈ entries) : ∃ k ∈ kept, admits entry k := by
  cases h with
  | admitted each => exact exists_of_mem_right each.flip member

end Reading

/-! ## Keys -/

namespace Value

/-- No key of an object is given twice. -/
def Distinct (entries : List (Value × Value)) : Prop := entries.Pairwise fun e e' => sameAtom e.1 e'.1 = false

instance (entries : List (Value × Value)) : Decidable (Distinct entries) :=
  inferInstanceAs (Decidable (List.Pairwise _ _))

/-- The keys that are text. -/
def textKeys (entries : List (Value × Value)) : List String :=
  entries.filterMap fun e => match e.1 with
    | .text name => some name
    | _ => none

theorem Distinct.textKeys_nodup {entries : List (Value × Value)} (h : Distinct entries) :
    (textKeys entries).Nodup := by
  refine List.Pairwise.filterMap _ (fun e e' apart name named name' named' => ?_) h
  obtain ⟨key, value⟩ := e
  obtain ⟨key', value'⟩ := e'
  cases key <;> cases named
  cases key' <;> cases named'
  simpa [sameAtom] using apart

/-- No key of a record is given twice. -/
theorem distinct_record {entries : List (String × Value)} (distinct : (entries.map Prod.fst).Nodup) :
    Distinct (entries.map fun e => (.text e.1, e.2)) := by
  rw [Distinct, List.pairwise_map]
  refine (List.pairwise_map.1 distinct).imp fun {e e'} apart => ?_
  simpa [sameAtom] using apart

end Value

/-! ## Readers -/

namespace Entry
variable {ε α σ : Type} {blank : String → Bool} {badName : Value → ε} {read : String → Value → Except ε α}
  {admitted : Value → α → Prop} {refused : String → Value → ε → Prop}

/-- An entry is admitted if it has a name that is not blank and a value that is admitted. -/
inductive Admits (blank : String → Bool) (admitted : Value → α → Prop) : Value × Value → String × α → Prop
  | named {name : String} {value : Value} {a : α} (filled : blank name = false) (h : admitted value a) :
      Admits blank admitted (.text name, value) (name, a)

/-- An entry is refused because its key is no name, or else because its value is refused under the name. -/
inductive Refuses (blank : String → Bool) (badName : Value → ε) (refused : String → Value → ε → Prop) :
    Value × Value → ε → Prop
  | unnamed {key value : Value} (unfilled : ∀ name, key = .text name → blank name = true) :
      Refuses blank badName refused (key, value) (badName key)
  | named {name : String} {value : Value} {failure : ε} (filled : blank name = false)
      (h : refused name value failure) : Refuses blank badName refused (.text name, value) failure

/-- Every value is admitted or refused by a reader, which returns what is admitted and fails with what is refused. -/
structure Decides (read : String → Value → Except ε α) (admitted : Value → α → Prop)
    (refused : String → Value → ε → Prop) : Prop where
  admits : ∀ {name value a}, admitted value a → read name value = .ok a
  refuses : ∀ {name value failure}, refused name value failure → read name value = .error failure
  total : ∀ name value, (∃ a, admitted value a) ∨ ∃ failure, refused name value failure

/-- Entries are read in steps: each one fails on a bad name or with the reader, or lists what the reader returns. -/
structure Steps (run : σ → List (Value × Value) → Except ε σ) (listed : σ → List (String × α))
    (blank : String → Bool) (badName : Value → ε) (read : String → Value → Except ε α) : Prop where
  finish : ∀ s, run s [] = .ok s
  unnamed : ∀ s {key} value rest, (∀ name, key = .text name → blank name = true) →
    run s ((key, value) :: rest) = .error (badName key)
  failed : ∀ s {name value failure} rest, blank name = false → read name value = .error failure →
    run s ((.text name, value) :: rest) = .error failure
  listed : ∀ s {name value a} rest, blank name = false → read name value = .ok a →
    name ∉ (listed s).map Prod.fst →
    ∃ s', run s ((.text name, value) :: rest) = run s' rest ∧ listed s' = listed s ++ [(name, a)]

theorem unnamed_or_named (blank : String → Bool) (key : Value) :
    (∀ name, key = .text name → blank name = true) ∨ ∃ name, key = .text name ∧ blank name = false := by
  by_cases named : ∃ name, key = .text name ∧ blank name = false
  · exact .inr named
  · refine .inl fun name same => ?_
    by_contra filled
    exact named ⟨name, same, Bool.eq_false_iff.2 filled⟩

/-- Where the reader decides, what becomes of entries is determined. -/
theorem Decides.reading_unique (h : Decides read admitted refused) {entries : List (Value × Value)}
    {result result' : Except ε (List (String × α))}
    (reading : Reading (Admits blank admitted) (Refuses blank badName refused) entries result)
    (reading' : Reading (Admits blank admitted) (Refuses blank badName refused) entries result') :
    result = result' := by
  induction entries generalizing result result' with
  | nil => rw [reading.eq_of_nil, reading'.eq_of_nil]
  | cons entry rest ih =>
    rcases reading.cases_cons with ⟨kept, result, first, later, rfl⟩ | ⟨failure, first, rfl⟩ <;>
      rcases reading'.cases_cons with ⟨kept', result', first', later', rfl⟩ | ⟨failure', first', rfl⟩
    · rw [ih later later']
      cases first with
      | @named name _ _ _ first =>
        cases first' with
        | named _ first' =>
          have same := (show read name _ = .ok _ from h.admits first).symm.trans (h.admits first')
          cases same
          rfl
    · cases first with
      | named filled first =>
        cases first' with
        | unnamed unfilled => simp [unfilled _ rfl] at filled
        | named _ first' => cases (h.admits first).symm.trans (h.refuses first')
    · cases first' with
      | named filled first' =>
        cases first with
        | unnamed unfilled => simp [unfilled _ rfl] at filled
        | named _ first => cases (h.admits first').symm.trans (h.refuses first)
    · cases first with
      | unnamed unfilled =>
        cases first' with
        | unnamed _ => rfl
        | named filled _ => simp [unfilled _ rfl] at filled
      | named filled first =>
        cases first' with
        | unnamed unfilled => simp [unfilled _ rfl] at filled
        | named _ first' =>
          cases (h.refuses first).symm.trans (h.refuses first')
          rfl

/-- Entries without a repeated name are read as the steps tell. -/
theorem Steps.reading {run : σ → List (Value × Value) → Except ε σ} {listed : σ → List (String × α)}
    (steps : Steps run listed blank badName read) (h : Decides read admitted refused) {s : σ}
    {entries : List (Value × Value)} (distinct : ((listed s).map Prod.fst ++ Value.textKeys entries).Nodup) :
    ∃ result, Reading (Admits blank admitted) (Refuses blank badName refused) entries result ∧
      (run s entries).map listed = result.map (listed s ++ ·) := by
  induction entries generalizing s with
  | nil => exact ⟨.ok [], .admitted .nil, by rw [steps.finish]; simp [Except.map]⟩
  | cons entry rest ih =>
    obtain ⟨key, value⟩ := entry
    rcases unnamed_or_named blank key with unfilled | ⟨name, rfl, filled⟩
    · exact ⟨_, .refused rfl .nil (.unnamed unfilled), by rw [steps.unnamed s value rest unfilled]; rfl⟩
    rcases h.total name value with ⟨a, first⟩ | ⟨failure, first⟩
    · have new : name ∉ (listed s).map Prod.fst := fun member =>
        (List.nodup_append.1 distinct).2.2 _ member _ (List.mem_cons_self ..) rfl
      obtain ⟨s', moved, grown⟩ := steps.listed s rest filled (h.admits first) new
      obtain ⟨result, reading, same⟩ := @ih s' (by simpa [grown, Value.textKeys] using distinct)
      refine ⟨_, reading.cons (.named filled first), ?_⟩
      rw [moved, same, grown]
      cases result <;> simp [Except.map]
    · exact ⟨_, .refused rfl .nil (.named filled first),
        by rw [steps.failed s rest filled (h.refuses first)]; rfl⟩

end Entry

end GameScoring
