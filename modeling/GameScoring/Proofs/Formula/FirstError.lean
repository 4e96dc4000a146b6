import GameScoring.Formula.Trial
import GameScoring.Proofs.Formula.Acceptance
import GameScoring.Proofs.Formula.Halting
import GameScoring.Proofs.Formula.Placement
import GameScoring.Proofs.Formula.Scanning

/-!
# Syntax errors are reported as early as can be

A formula that is no sentence of the grammar is rejected at the first token with which it can no
longer be completed: the tokens before it start a sentence, and with it they start none.
-/
namespace GameScoring.Formula
open Formula.Parser

/-- A syntax error of the parser is at the first token with which the tokens start no expression. -/
theorem whole_stuck {tokens : List Token} {finish : Nat} {r : Rejection}
    (h : whole ⟨tokens, finish, 0⟩ = .error r) (isSyntax : r.reason.isSyntax = true) :
    ∃ us c, Past ⟨tokens, finish, 0⟩ us c ∧ r.position = some c.place ∧
      (∃ p : Phrase .conditional, us <+: p.tokens) ∧
      ∀ (p : Phrase .conditional) (xs : List Token), xs.head? = c.tokens.head? → us ++ xs ≠ p.tokens := by
  rw [whole] at h
  have outcome := (Level.halting_within maxDepth).expression ⟨tokens, finish, 0⟩
  obtain failed | ⟨root, c, read, h⟩ := bind_error h
  · rw [failed] at outcome
    obtain ⟨us, c, past, position, starts, blocked⟩ := outcome isSyntax
    refine ⟨us, c, past, position, starts, fun p xs head same => ?_⟩
    exact blocked head (same.trans (List.append_nil _).symm) (ends_nil _)
  · rw [read] at outcome
    obtain ⟨p, moved⟩ := (Level.sound_within maxDepth).expression read
    have past : Past ⟨tokens, finish, 0⟩ p.tokens c := ⟨moved, outcome.finish⟩
    obtain ⟨found, head, h⟩ := peek_error h
    split at h
    next => cases h
    next l =>
      cases h
      refine ⟨p.tokens, c, past, rfl, ⟨p, List.prefix_rfl⟩, fun q xs same tokens => ?_⟩
      obtain ⟨-, rfl⟩ := Settled.cancels outcome past same
        (tokens.trans (List.append_nil _).symm) (ends_nil _)
      rw [← same] at head
      cases head

/-- Some sentence of the grammar starts with the lexemes. -/
def Viable (ls : List Lexeme) : Prop := ∃ p : Phrase .conditional, ls <+: lexemes p.tokens

/-- The lexemes are those of a sentence of the grammar. -/
def IsSentence (ls : List Lexeme) : Prop := ∃ p : Phrase .conditional, lexemes p.tokens = ls

/-- What starts a sentence can be written with any positions. -/
theorem Viable.exists_tokens {ts : List Token} (h : Viable (lexemes ts)) :
    ∃ (p : Phrase .conditional) (us : List Token), p.tokens = ts ++ us := by
  obtain ⟨p, ls, same⟩ := h
  have placed : lexemes (ts ++ ls.map fun l => ⟨l, 0⟩) = lexemes p.tokens := by
    rw [← same]
    simp [lexemes, Function.comp_def]
  obtain ⟨q, tokens, -⟩ := p.movable _ placed
  exact ⟨q, _, tokens⟩

section Places
variable {us vs : List Token} {t : Token}

/-- The tokens before one of them, in a row where they stand one after the other. -/
theorem filter_before (ordered : (us ++ t :: vs).Pairwise fun s t => s.position < t.position) :
    (us ++ t :: vs).filter (·.position < t.position) = us ∧
      (us ++ t :: vs).filter (·.position ≤ t.position) = us ++ [t] := by
  obtain ⟨-, behind, before⟩ := List.pairwise_append.1 ordered
  have after {s : Token} (hs : s ∈ vs) : t.position < s.position := List.rel_of_pairwise_cons behind hs
  have earlier (s) (hs : s ∈ us) : s.position < t.position := before s hs t (List.mem_cons_self ..)
  constructor
  · rw [List.filter_append, List.filter_eq_self.2, List.filter_eq_nil_iff.2, List.append_nil]
    · intro s hs
      obtain rfl | hs := List.mem_cons.1 hs
      · simp
      · simpa using Nat.le_of_lt (after hs)
    · exact fun s hs => by simpa using earlier s hs
  · rw [List.filter_append, List.filter_eq_self.2, List.filter_cons_of_pos (by simp),
      List.filter_eq_nil_iff.2]
    · exact fun s hs => by simpa using after hs
    · exact fun s hs => by simpa using Nat.le_of_lt (earlier s hs)

end Places

theorem isSyntax_ofCharacter (c : Char) : (Reason.ofCharacter c).isSyntax = false := by
  rw [Reason.ofCharacter]
  split
  next => rfl
  next => split <;> rfl

/-- Syntax errors are errors of the parser. -/
theorem parser_rejects {text : String} {r : Rejection} (rejected : ofText text = .error r)
    (isSyntax : r.reason.isSyntax = true) :
    ∃ tokens, Token.scan text = .ok tokens ∧ whole ⟨tokens, text.length, 0⟩ = .error r := by
  cases blank : Text.isBlankText text with
  | true =>
    rw [ofText, blank] at rejected
    cases rejected
    cases isSyntax
  | false =>
    by_cases long : maxLength < text.length
    · rw [ofText, blank, if_neg (by simp), if_pos long] at rejected
      cases rejected
      cases isSyntax
    · cases scans : Token.scan text with
      | error e =>
        rw [ofText, blank, if_neg (by simp), if_neg long, scans] at rejected
        cases rejected
        obtain ⟨c, same⟩ := Token.scanFrom_error scans
        rw [same, isSyntax_ofCharacter] at isSyntax
        cases isSyntax
      | ok tokens =>
        rw [ofText_eq blank (Nat.not_lt.1 long) scans] at rejected
        cases read : whole ⟨tokens, text.length, 0⟩ with
        | ok result =>
          rw [read] at rejected
          cases rejected
        | error e =>
          rw [read] at rejected
          cases rejected
          exact ⟨tokens, rfl, read⟩

/-- A syntax error is reported at the place where a formula can no longer be completed: the tokens
before it start some sentence, but with the token there they start none. At the end of the text
all tokens start a sentence, but are none. -/
theorem syntax_error_is_earliest {text : String} {r : Rejection} (rejected : ofText text = .error r)
    (isSyntax : r.reason.isSyntax = true) :
    ∃ tokens place, Token.scan text = .ok tokens ∧ r.position = some place ∧
      Viable (lexemes (tokens.filter (·.position < place))) ∧
      (place = text.length ∧ ¬ IsSentence (lexemes tokens) ∨
        (∃ t ∈ tokens, t.position = place) ∧
          ¬ Viable (lexemes (tokens.filter (·.position ≤ place)))) := by
  obtain ⟨tokens, scans, failed⟩ := parser_rejects rejected isSyntax
  obtain ⟨us, c, past, position, ⟨p, rest, starts⟩, blocked⟩ := whole_stuck failed isSyntax
  obtain ⟨ordered, bounds⟩ := Token.scanFrom_positions scans
  have viable : Viable (lexemes us) := ⟨p, lexemes rest, by simp [← starts]⟩
  have split : tokens = us ++ c.tokens := past.tokens
  refine ⟨tokens, c.place, scans, position, ?_⟩
  cases behind : c.tokens with
  | nil =>
    have place : c.place = text.length := by rw [Cursor.place, behind, List.head?_nil]; exact past.finish
    rw [behind, List.append_nil] at split
    subst split
    refine ⟨?_, .inl ⟨place, ?_⟩⟩
    · rwa [List.filter_eq_self.2]
      intro t ht
      have bound := (bounds t ht).2
      rw [String.length_toList, Nat.zero_add] at bound
      simpa [place] using bound
    · rintro ⟨q, same⟩
      obtain ⟨q', tokens, -⟩ := q.movable _ same.symm
      exact blocked q' [] (by rw [behind]) (by rw [tokens, List.append_nil])
  | cons t vs =>
    have place : c.place = t.position := by rw [Cursor.place, behind]; rfl
    rw [behind] at split
    subst split
    obtain ⟨before, upTo⟩ := filter_before ordered
    rw [place, before, upTo]
    refine ⟨viable, .inr ⟨⟨t, by simp, rfl⟩, fun more => ?_⟩⟩
    obtain ⟨q, xs, same⟩ := more.exists_tokens
    exact blocked q (t :: xs) (by rw [behind]; rfl) (by rw [same, List.append_assoc, List.singleton_append])

/-- After a plus, a star cannot stand. -/
theorem star_after_plus_is_reported : ∃ r, ofText "a + * b" = .error r ∧ r.position = some 4 ∧
    Viable [.identifier "a", .arithmetic .add] ∧
    ¬ Viable [.identifier "a", .arithmetic .add, .arithmetic .multiply] := by
  have scans : Token.scan "a + * b" = .ok [⟨.identifier "a", 0⟩, ⟨.arithmetic .add, 2⟩,
      ⟨.arithmetic .multiply, 4⟩, ⟨.identifier "b", 6⟩] := ok_of_toOption (by decide +kernel)
  have rejected : ofText "a + * b" =
      .error ⟨.unexpected (some (.arithmetic .multiply)) (some .operand), some 4⟩ :=
    rejected_of_check (by decide +kernel)
  obtain ⟨tokens, place, scans', position, viable, ends⟩ := syntax_error_is_earliest rejected rfl
  cases scans.symm.trans scans'
  cases position
  refine ⟨_, rejected, rfl, viable, ?_⟩
  obtain ⟨atEnd, -⟩ | ⟨-, stuck⟩ := ends
  · exact absurd atEnd (by decide)
  · exact stuck

end GameScoring.Formula
