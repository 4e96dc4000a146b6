import Mathlib.Data.List.Chain
import GameScoring.Proofs.Formula.Unambiguity

/-!
# Where phrases are over

Inside of a phrase an operand is followed by an operator or by a closing mark, never by the start
of another operand; only the name of a function stands before an opening parenthesis. So a
phrase is over not only before a lexeme that is looser than its category, but also before the
start of an operand, although no phrase goes on there.
-/
namespace GameScoring.Formula
open Formula.Parser

/-- Whether an operand can end with a lexeme. -/
def Lexeme.endsOperand : Lexeme → Bool
  | number _ | identifier _ | rightParen => true
  | _ => false

/-- Two tokens can stand side by side as far as operands are concerned. -/
def Adjacent (s t : Token) : Prop :=
  s.lexeme.endsOperand = true → t.lexeme.startsPrimary = true →
    (∃ name, s.lexeme = .identifier name) ∧ t.lexeme = .leftParen

section Chains
variable {s : Token} {us vs : List Token}

theorem adjacent_append (h : us.IsChain Adjacent) (h' : vs.IsChain Adjacent)
    (separate : ∀ t ∈ vs.head?, t.lexeme.startsPrimary = false) : (us ++ vs).IsChain Adjacent := by
  refine List.isChain_append.2 ⟨h, h', fun s _ t ht _ starts => ?_⟩
  rw [separate t ht] at starts
  cases starts

theorem adjacent_cons (isOpen : s.lexeme.endsOperand = false) (h : us.IsChain Adjacent) :
    (s :: us).IsChain Adjacent := by
  refine List.isChain_cons.2 ⟨fun t _ ends => ?_, h⟩
  rw [isOpen] at ends
  cases ends

end Chains

namespace Phrase

theorem adjacent_tokens {c : Category} (p : Phrase c) : p.tokens.IsChain Adjacent := by
  induction p with
  | plain body ih => exact ih
  | choose condition question yes colon no ihc ihy ihn =>
    refine adjacent_append ihc (adjacent_cons rfl (adjacent_append ihy (adjacent_cons rfl ihn) ?_)) ?_ <;>
      simp [Lexeme.startsPrimary]
  | single body ih => exact ih
  | compare left op sign right ihl ihr =>
    exact adjacent_append ihl (adjacent_cons rfl ihr) (by simp [Lexeme.startsPrimary])
  | chain first rest ihf ihr =>
    refine adjacent_append ihf ihr ?_
    cases rest <;> simp [Lexeme.startsPrimary]
  | done => exact .nil
  | turn op joins sign right rest ihr ihm =>
    refine adjacent_cons rfl (adjacent_append ihr ihm ?_)
    cases rest <;> simp [Lexeme.startsPrimary]
  | summand body ih => exact ih
  | factor body ih => exact ih
  | unsigned body ih => exact ih
  | negate sign operand ih => exact adjacent_cons rfl ih
  | bare base ih => exact ih
  | power base sign exponent ihb ihe =>
    exact adjacent_append ihb (adjacent_cons rfl ihe) (by simp [Lexeme.startsPrimary])
  | number literal start => exact .singleton _
  | reference name start => exact .singleton _
  | parenthesised opening body closing ih =>
    exact adjacent_cons rfl (adjacent_append ih (.singleton _) (by simp [Lexeme.startsPrimary]))
  | call name start opening arguments closing ih =>
    refine List.isChain_cons_cons.2 ⟨fun _ _ => ⟨⟨name, rfl⟩, rfl⟩, ?_⟩
    exact adjacent_cons rfl (adjacent_append ih (.singleton _) (by simp [Lexeme.startsPrimary]))
  | noArguments => exact .nil
  | someArguments list ih => exact ih
  | lastArgument argument ih => exact ih
  | nextArgument argument comma rest iha ihr =>
    exact adjacent_append iha (adjacent_cons rfl ihr) (by simp [Lexeme.startsPrimary])

end Phrase

/-- A parser has moved past tokens. -/
structure Past (c : Cursor) (us : List Token) (c' : Cursor) : Prop where
  tokens : c.tokens = us ++ c'.tokens
  finish : c'.finish = c.finish

namespace Past
variable {c c₁ c₂ : Cursor} {us vs : List Token}

theorem refl (c : Cursor) : Past c [] c := ⟨rfl, rfl⟩

theorem trans (h : Past c us c₁) (h' : Past c₁ vs c₂) : Past c (us ++ vs) c₂ :=
  ⟨by rw [h.tokens, h'.tokens, List.append_assoc], h'.finish.trans h.finish⟩

end Past

/-- A parser stands where a phrase of the category is over that was begun at the first cursor:
before a looser lexeme, or before an operand although it has just read one. -/
structure Settled (k : Category) (c c' : Cursor) : Prop where
  finish : c'.finish = c.finish
  head : ∀ t ∈ c'.tokens.head?,
    (k.looseness < t.lexeme.looseness ∧ t.lexeme.startsPrimary = false) ∨
      ∃ us s, c.tokens = us ++ s :: c'.tokens ∧ ¬ Adjacent s t

namespace Settled
variable {k d : Category} {c c' c'' : Cursor}

/-- What is over for a category is over for a looser one before all lexemes that go on with neither. -/
theorem loosen (h : Settled k c c')
    (step : ∀ l, c'.tokens.head?.map Token.lexeme = some l → k.looseness < l.looseness →
      l.startsPrimary = false → d.looseness < l.looseness) : Settled d c c' := by
  refine ⟨h.finish, fun t ht => (h.head t ht).imp_left ?_⟩
  rintro ⟨loose, operator⟩
  exact ⟨step t.lexeme (by rw [ht]; rfl) loose operator, operator⟩

theorem mono (h : Settled k c c') (le : d.looseness ≤ k.looseness) : Settled d c c' :=
  h.loosen fun _ _ loose _ => Nat.lt_of_le_of_lt le loose

theorem earlier {us : List Token} (h : Settled k c' c'') (past : Past c us c') : Settled k c c'' := by
  refine ⟨h.finish.trans past.finish, fun t ht => (h.head t ht).imp_right ?_⟩
  rintro ⟨vs, s, tokens, unattached⟩
  exact ⟨us ++ vs, s, by rw [past.tokens, tokens, List.append_assoc], unattached⟩

theorem later (h : Settled k c c') (past : Past c' [] c'') : Settled k c c'' := by
  have same : c'.tokens = c''.tokens := past.tokens
  exact ⟨past.finish.trans h.finish, same ▸ h.head⟩

/-- An operand is over behind its last token, unless a name stands before an opening parenthesis. -/
theorem of_operand {us : List Token} {s : Token} (past : Past c (us ++ [s]) c')
    (ends : s.lexeme.endsOperand = true)
    (noCall : ∀ name, s.lexeme = .identifier name → c'.tokens.head?.map Token.lexeme ≠ some .leftParen) :
    Settled .primary c c' := by
  refine ⟨past.finish, fun t ht => ?_⟩
  cases starts : t.lexeme.startsPrimary with
  | false =>
    refine .inl ⟨?_, rfl⟩
    cases found : t.lexeme with
    | leftParen => simp [found, Lexeme.startsPrimary] at starts
    | arithmetic op => cases op <;> simp
    | _ => simp
  | true =>
    refine .inr ⟨us, s, by rw [past.tokens, List.append_assoc, List.singleton_append], fun adjacent => ?_⟩
    obtain ⟨⟨name, identifier⟩, opening⟩ := adjacent ends starts
    exact noCall name identifier (by rw [ht, Option.map_some, opening])

/-- Where a phrase is over, no other phrase of its category can be read. -/
theorem cancels (h : Settled k c c') {p q : Phrase k} {rest xs : List Token} (past : Past c p.tokens c')
    (same : xs.head? = c'.tokens.head?) (tokens : p.tokens ++ xs = q.tokens ++ rest)
    (ends : Ends k rest) : p = q ∧ xs = rest := by
  cases xs with
  | nil => exact p.cancels tokens (ends_nil k) ends
  | cons t xs =>
    obtain ⟨loose, -⟩ | ⟨us, s, before, unattached⟩ := h.head t same.symm
    · exact p.cancels tokens (ends_cons.2 loose) ends
    · have last : p.tokens = us ++ [s] := by
        rw [past.tokens, ← List.singleton_append, ← List.append_assoc] at before
        exact List.append_cancel_right before
      obtain ⟨vs, longer, behind⟩ | ⟨vs, shorter, behind⟩ := List.append_eq_append_iff.1 tokens
      · cases vs with
        | nil => exact ⟨Phrase.tokens_injective k (by rw [longer, List.append_nil]), behind⟩
        | cons t' vs =>
          -- The other phrase would go on with an operand.
          obtain ⟨rfl, -⟩ := List.cons.inj behind
          have chain := q.adjacent_tokens
          rw [longer, last, List.append_assoc, List.singleton_append] at chain
          exact absurd (List.isChain_cons_cons.1 (List.isChain_append.1 chain).2.1).1 unattached
      · cases vs with
        | nil => exact ⟨Phrase.tokens_injective k (by rw [shorter, List.append_nil]), behind.symm⟩
        | cons t' vs =>
          rw [behind] at ends
          have whole : q.tokens ++ t' :: vs = p.tokens ++ [] := by rw [shorter, List.append_nil]
          cases (q.cancels whole (ends_cons.2 (ends_cons.1 ends)) (ends_nil k)).2

end Settled

end GameScoring.Formula
