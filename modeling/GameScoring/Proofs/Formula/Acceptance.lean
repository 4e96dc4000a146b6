import GameScoring.Formula.Basic
import GameScoring.Proofs.Formula.Reading
import GameScoring.Proofs.Formula.Derivation
import GameScoring.Proofs.Formula.WellFormed

/-!
# Exactly the sentences of the grammar are accepted

The text of a formula is accepted when its tokens are those of a phrase that stands for a
tree and the limits are kept, and then the formula has this tree. The parser reads the
tokens of a phrase, and what it reads is a phrase.
-/
namespace GameScoring.Formula
open Formula.Parser

/-- The limits on a formula that is written as a phrase and has a tree. The formula itself is
the outermost level of nesting. -/
structure Phrase.Limits (p : Phrase .conditional) (root : Node) : Prop where
  height_le : root.height ≤ maxDepth
  size_le : root.size ≤ maxNodes
  nesting_le : p.nesting + 1 ≤ maxDepth

namespace Phrase

theorem limits_iff {p : Phrase .conditional} {root : Node} (h : p.meaning? = some root) :
    p.Limits root ↔ Fits maxDepth (0 + p.nodeCount) (p.nesting + 1) root.depth := by
  have height : root.depth = root.height := WellFormed.depth_eq_height (p.wellFormed h)
  have size : root.size = p.nodeCount := p.totals h
  rw [Nat.zero_add, height, ← size]
  exact ⟨fun l => ⟨l.size_le, l.nesting_le, l.height_le⟩, fun f => ⟨f.depth_le, f.nodes_le, f.nesting_le⟩⟩

/-- The parser reads the tokens of a phrase to their end. -/
theorem reads_whole (p : Phrase .conditional) (finish : Nat) :
    Reads p.meaning? p.Limits ⟨[], finish, p.nodeCount⟩ (whole ⟨p.tokens, finish, 0⟩) := by
  have expression : Reads p.meaning?
      (fun t => Fits maxDepth (0 + p.nodeCount) (p.nesting + 1) t.depth) ⟨[], finish, 0 + p.nodeCount⟩
      ((Level.within maxDepth).expression ⟨p.tokens ++ [], finish, 0⟩) :=
    p.read.expression (ends_nil _) (Nat.zero_le maxNodes)
  rw [List.append_nil] at expression
  rw [whole]
  refine .bind expression ?_ ?_
  · intro root means fits
    rw [run_peek, Nat.zero_add]
    exact .ok means ((limits_iff means).2 fits)
  · exact fun root means => ⟨root, means, (limits_iff means).1⟩

end Phrase

/-- All tokens that the parser reads to their end are those of a phrase. -/
theorem phrase_of_whole {tokens : List Token} {finish nodes : Nat} {root : Node} {c : Cursor}
    (h : whole ⟨tokens, finish, nodes⟩ = .ok (root, c)) :
    ∃ p : Phrase .conditional, p.tokens = tokens := by
  rw [whole] at h
  obtain ⟨t, c', ht, h⟩ := bind_ok h
  obtain ⟨start, ht⟩ := position_ok ht
  obtain ⟨p, moved⟩ := (Level.sound_within maxDepth).conditional start ht
  obtain ⟨found, head, h⟩ := peek_ok h
  split at h
  next =>
    have nothing : c'.tokens = [] := List.head?_eq_none_iff.1 (Option.map_eq_none_iff.1 head)
    rw [nothing, List.append_nil] at moved
    exact ⟨p, moved.symm⟩
  next => cases h

/-- The parser accepts the tokens of a phrase that stands for a tree and keeps the limits. -/
theorem whole_ok_iff {tokens : List Token} {finish : Nat} {root : Node} {c : Cursor} :
    whole ⟨tokens, finish, 0⟩ = .ok (root, c) ↔
      ∃ p : Phrase .conditional, p.tokens = tokens ∧ p.meaning? = some root ∧ p.Limits root ∧
        c = ⟨[], finish, root.size⟩ := by
  constructor
  · intro h
    obtain ⟨p, rfl⟩ := phrase_of_whole h
    obtain ⟨means, limits, rfl⟩ := (p.reads_whole finish).ok_iff.1 h
    exact ⟨p, rfl, means, limits, by rw [show root.size = p.nodeCount from p.totals means]⟩
  · rintro ⟨p, rfl, means, limits, rfl⟩
    rw [(p.reads_whole finish).ok_iff, show root.size = p.nodeCount from p.totals means]
    exact ⟨means, limits, rfl⟩

theorem ofText_eq {text : String} (notBlank : Text.isBlankText text = false)
    (short : text.length ≤ maxLength) {tokens : List Token} (scans : Token.scan text = .ok tokens) :
    ofText text =
      (whole ⟨tokens, text.length, 0⟩).map fun r => ⟨text, r.1, r.2.nodes, r.1.variableNames⟩ := by
  rw [ofText, notBlank, if_neg (by simp), if_neg (Nat.not_lt.2 short)]
  simp only [scans]
  rfl

/-- What an accepted text has passed before the parser. -/
theorem checked_of_ofText {text : String} {f : Formula} (h : ofText text = .ok f) :
    Text.isBlankText text = false ∧ text.length ≤ maxLength ∧ ∃ tokens, Token.scan text = .ok tokens := by
  cases blank : Text.isBlankText text with
  | true =>
    rw [ofText, blank] at h
    cases h
  | false =>
    by_cases long : maxLength < text.length
    · rw [ofText, blank, if_neg (by simp), if_pos long] at h
      cases h
    · cases scans : Token.scan text with
      | ok tokens => exact ⟨rfl, Nat.not_lt.1 long, tokens, rfl⟩
      | error r =>
        rw [ofText, blank, if_neg (by simp), if_neg long, scans] at h
        cases h

/-- The text is written as the phrase, and the phrase stands for the tree, whatever their size. -/
structure Writes (text : String) (p : Phrase .conditional) (root : Node) : Prop where
  notBlank : Text.isBlankText text = false
  scans : Token.scan text = .ok p.tokens
  means : p.meaning? = some root

/-- The formula that is made of an accepted text. -/
theorem ofText_ok_iff {text : String} {f : Formula} :
    ofText text = .ok f ↔ ∃ p, Writes text p f.root ∧ text.length ≤ maxLength ∧ p.Limits f.root ∧
      f = ⟨text, f.root, f.root.size, f.root.variableNames⟩ := by
  constructor
  · intro h
    obtain ⟨notBlank, short, tokens, scans⟩ := checked_of_ofText h
    rw [ofText_eq notBlank short scans] at h
    cases read : whole ⟨tokens, text.length, 0⟩ with
    | error r =>
      rw [read] at h
      cases h
    | ok result =>
      obtain ⟨root, c⟩ := result
      rw [read] at h
      cases h
      obtain ⟨p, rfl, means, limits, rfl⟩ := whole_ok_iff.1 read
      exact ⟨p, ⟨notBlank, scans, means⟩, short, limits, rfl⟩
  · rintro ⟨p, ⟨notBlank, scans, means⟩, short, limits, made⟩
    rw [ofText_eq notBlank short scans, whole_ok_iff.2 ⟨p, rfl, means, limits, rfl⟩, made]
    rfl

theorem ofText_tooComplex {text : String} {p : Phrase .conditional} {root : Node}
    (writes : Writes text p root) (breaks : ¬ (text.length ≤ maxLength ∧ p.Limits root)) :
    ∃ r, ofText text = .error r ∧ r.reason.isComplexity = true := by
  by_cases short : text.length ≤ maxLength
  · have unfit : ¬ p.Limits root := fun limits => breaks ⟨short, limits⟩
    obtain ⟨r, rejected, complex⟩ := (p.reads_whole text.length).error_of_unfit writes.means unfit
    rw [ofText_eq writes.notBlank short writes.scans, rejected]
    exact ⟨r, rfl, complex⟩
  · rw [ofText, writes.notBlank, if_neg (by simp), if_pos (Nat.not_le.1 short)]
    exact ⟨_, rfl, rfl⟩

/-- A text is accepted with a tree if and only if it is not blank and not too long and its tokens
are those of a phrase that stands for the tree and keeps the limits. There is at most one
phrase of these tokens, and when only limits are broken, the formula is rejected as too
complex. -/
theorem accepts_exactly_the_grammar :
    (∀ text root, (∃ f, ofText text = .ok f ∧ f.root = root) ↔
      ∃ p, Writes text p root ∧ text.length ≤ maxLength ∧ p.Limits root) ∧
    (∀ p q : Phrase .conditional, p.tokens = q.tokens → p = q) ∧
    (∀ text p root, Writes text p root → ¬ (text.length ≤ maxLength ∧ p.Limits root) →
      ∃ r, ofText text = .error r ∧ r.report.kind = .complexity) := by
  refine ⟨fun text root => ⟨?_, ?_⟩, fun p q h => Phrase.tokens_injective .conditional h, ?_⟩
  · rintro ⟨f, accepted, rfl⟩
    obtain ⟨p, writes, short, limits, -⟩ := ofText_ok_iff.1 accepted
    exact ⟨p, writes, short, limits⟩
  · rintro ⟨p, writes, short, limits⟩
    exact ⟨⟨text, root, root.size, root.variableNames⟩,
      ofText_ok_iff.2 ⟨p, writes, short, limits, rfl⟩, rfl⟩
  · intro text p root writes breaks
    obtain ⟨r, rejected, complex⟩ := ofText_tooComplex writes breaks
    refine ⟨r, rejected, ?_⟩
    rw [Rejection.report, if_pos complex]
    rfl

/-- The minus of `-a^b` is outside of the power. -/
theorem accepts_negated_power : ∃ f, ofText "-a^b" = .ok f ∧
    f.root = Node.negate 0 (Node.arithmetic 2 .power (Node.reference 1 "a") (Node.reference 3 "b")) := by
  let p : Phrase .conditional :=
    .plain (.single (.chain (.summand (.chain (.factor
      (.negate 0 (.unsigned (.power (.reference "a" 1) 2 (.unsigned (.bare (.reference "b" 3)))))))
      .done)) .done))
  have scans : Token.scan "-a^b" = .ok p.tokens := ok_of_toOption (by decide +kernel)
  have writes : Writes "-a^b" p _ := ⟨by decide, scans, rfl⟩
  exact (accepts_exactly_the_grammar.1 _ _).2 ⟨p, writes, by decide, by decide, by decide, by decide⟩

end GameScoring.Formula
