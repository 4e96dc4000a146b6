import GameScoring.Proofs.Formula.Phrase

/-!
# The grammar is unambiguous

Every lexeme that can go on with a phrase has a looseness, and a phrase ends before a
lexeme that is looser than its category. Two phrases of one category that are read from
the same tokens and end there are equal, whatever limits a formula has to keep. There is
one step for each rule of the grammar, and the induction over phrases puts them together.
-/
namespace GameScoring.Formula

/-- How loosely the phrases of a category hold together. -/
def Category.looseness : Category → Nat
  | .primary => 0
  | .power | .signed | .operand .multiplicative => 1
  | .chain .multiplicative | .turns .multiplicative | .operand .additive => 2
  | .chain .additive | .turns .additive => 3
  | .comparison => 4
  | .conditional => 5
  | .arguments | .argumentList => 6

/-- The looseness of the tightest phrases that a lexeme can make longer. Only where there are no
arguments yet does a number or a name go on with a phrase. -/
def Lexeme.looseness : Lexeme → Nat
  | .leftParen => 0
  | .arithmetic .power => 1
  | .arithmetic .multiply | .arithmetic .divide => 2
  | .arithmetic .add | .arithmetic .subtract => 3
  | .compare _ => 4
  | .question => 5
  | .comma | .number _ | .identifier _ => 6
  | .rightParen | .colon => 7

/-- A phrase of the category that stands before these tokens is not longer. -/
def Ends (c : Category) (rest : List Token) : Prop :=
  ∀ t ∈ rest.head?, c.looseness < t.lexeme.looseness

attribute [simp] Category.looseness Lexeme.looseness

theorem ends_nil (c : Category) : Ends c [] := by simp [Ends]

@[simp] theorem ends_cons {c : Category} {l : Lexeme} {position : Nat} {rest : List Token} :
    Ends c (⟨l, position⟩ :: rest) ↔ c.looseness < l.looseness := by simp [Ends]

theorem Ends.mono {c d : Category} {rest : List Token} (h : Ends d rest)
    (le : c.looseness ≤ d.looseness) : Ends c rest :=
  fun t ht => Nat.lt_of_le_of_lt le (h t ht)

theorem Ends.not_head {c : Category} {l : Lexeme} {position : Nat} {rest : List Token}
    (h : Ends c (⟨l, position⟩ :: rest)) (le : l.looseness ≤ c.looseness) : False :=
  absurd (ends_cons.1 h) (Nat.not_lt.2 le)

theorem Ends.ne_head {c : Category} {rest : List Token} (h : Ends c rest) {l : Lexeme}
    (loose : l.looseness ≤ c.looseness) : rest.head?.map Token.lexeme ≠ some l := by
  intro head
  obtain ⟨t, ht, rfl⟩ := Option.map_eq_some_iff.1 head
  exact absurd (h t ht) (Nat.not_lt.2 loose)

theorem Tier.looseness_operand (tier : Tier) :
    (Category.operand tier).looseness < (Category.turns tier).looseness := by
  cases tier <;> decide

theorem Tier.looseness_chain (tier : Tier) :
    (Category.chain tier).looseness = (Category.turns tier).looseness := by
  cases tier <;> rfl

theorem Tier.looseness_of_joins {tier : Tier} {op : Arithmetic} (joins : tier.joins op = true) :
    (Lexeme.arithmetic op).looseness = (Category.turns tier).looseness := by
  cases tier <;> cases op <;> first | rfl | exact absurd joins (by decide)

namespace Lexeme

def startsPrimary : Lexeme → Bool
  | number _ | identifier _ | leftParen => true
  | _ => false

/-- Whether a phrase other than turns can start with a lexeme. -/
def starts (l : Lexeme) : Bool := l.startsPrimary || l == .arithmetic .subtract

theorem looseness_le_of_starts {l : Lexeme} (h : l.starts = true) :
    l.looseness ≤ Category.arguments.looseness := by
  cases l with
  | arithmetic op => cases op <;> simp
  | rightParen => cases h
  | colon => cases h
  | _ => simp

theorem starts_of_startsPrimary {l : Lexeme} (h : l.startsPrimary = true) : l.starts = true := by
  simp [starts, h]

end Lexeme

namespace Phrase

theorem head_primary (p : Phrase .primary) :
    ∃ t rest, p.tokens = t :: rest ∧ t.lexeme.startsPrimary = true := by
  cases p <;> exact ⟨_, _, rfl, rfl⟩

theorem head_power (p : Phrase .power) :
    ∃ t rest, p.tokens = t :: rest ∧ t.lexeme.startsPrimary = true := by
  cases p with
  | bare base => exact base.head_primary
  | power base sign exponent =>
    obtain ⟨t, rest, h, starts⟩ := base.head_primary
    exact ⟨t, rest ++ ⟨.arithmetic .power, sign⟩ :: exponent.tokens, by simp [tokens, h], starts⟩

theorem head_signed (p : Phrase .signed) :
    ∃ t rest, p.tokens = t :: rest ∧ t.lexeme.starts = true := by
  cases p with
  | unsigned body =>
    obtain ⟨t, rest, h, starts⟩ := body.head_power
    exact ⟨t, rest, h, Lexeme.starts_of_startsPrimary starts⟩
  | negate sign operand => exact ⟨_, _, rfl, rfl⟩

private theorem head_chain_of {tier : Tier}
    (head : ∀ p : Phrase (.operand tier), ∃ t rest, p.tokens = t :: rest ∧ t.lexeme.starts = true)
    (p : Phrase (.chain tier)) : ∃ t rest, p.tokens = t :: rest ∧ t.lexeme.starts = true := by
  cases p with
  | chain first turns =>
    obtain ⟨t, rest, h, starts⟩ := head first
    exact ⟨t, rest ++ turns.tokens, by simp [tokens, h], starts⟩

theorem head_operand {tier : Tier} (p : Phrase (.operand tier)) :
    ∃ t rest, p.tokens = t :: rest ∧ t.lexeme.starts = true := by
  have factor (p : Phrase (.operand .multiplicative)) :
      ∃ t rest, p.tokens = t :: rest ∧ t.lexeme.starts = true := by
    cases p with
    | factor body => exact body.head_signed
  cases p with
  | summand body => exact head_chain_of factor body
  | factor body => exact body.head_signed

theorem head_chain {tier : Tier} (p : Phrase (.chain tier)) :
    ∃ t rest, p.tokens = t :: rest ∧ t.lexeme.starts = true :=
  head_chain_of head_operand p

theorem head_conditional (p : Phrase .conditional) :
    ∃ t rest, p.tokens = t :: rest ∧ t.lexeme.starts = true := by
  have comparison (p : Phrase .comparison) :
      ∃ t rest, p.tokens = t :: rest ∧ t.lexeme.starts = true := by
    cases p with
    | single body => exact body.head_chain
    | compare left op sign right =>
      obtain ⟨t, rest, h, starts⟩ := left.head_chain
      exact ⟨t, rest ++ ⟨.compare op, sign⟩ :: right.tokens, by simp [tokens, h], starts⟩
  cases p with
  | plain body => exact comparison body
  | choose condition question yes colon no =>
    obtain ⟨t, rest, h, starts⟩ := comparison condition
    exact ⟨t, rest ++ ⟨.question, question⟩ :: (yes.tokens ++ ⟨.colon, colon⟩ :: no.tokens),
      by simp [tokens, h], starts⟩

theorem head_argumentList (p : Phrase .argumentList) :
    ∃ t rest, p.tokens = t :: rest ∧ t.lexeme.starts = true := by
  cases p with
  | lastArgument argument => exact argument.head_conditional
  | nextArgument argument comma list =>
    obtain ⟨t, rest, h, starts⟩ := argument.head_conditional
    exact ⟨t, rest ++ ⟨.comma, comma⟩ :: list.tokens, by simp [tokens, h], starts⟩

/-- Operands are separated by operators that are looser than they are. -/
theorem ends_turns {tier : Tier} (p : Phrase (.turns tier)) {rest : List Token}
    (h : Ends (.turns tier) rest) : Ends (.operand tier) (p.tokens ++ rest) := by
  cases p with
  | done => exact h.mono (Nat.le_of_lt tier.looseness_operand)
  | turn op joins sign right more =>
    rw [tokens, List.cons_append, ends_cons, Tier.looseness_of_joins joins]
    exact tier.looseness_operand

/-- No other phrase of the category can be read where the phrase is read and ends. -/
def Cancels {c : Category} (p : Phrase c) : Prop :=
  ∀ ⦃q : Phrase c⦄ ⦃rest rest' : List Token⦄, p.tokens ++ rest = q.tokens ++ rest' →
    Ends c rest → Ends c rest' → p = q ∧ rest = rest'

/-- Where a phrase ends for a looser category, it is not followed by a lexeme that this
category goes on with. -/
private theorem Cancels.no_suffix {c d : Category} {p q : Phrase c} (hp : p.Cancels) {l : Lexeme}
    {position : Nat} {rest more : List Token}
    (h : p.tokens ++ rest = q.tokens ++ ⟨l, position⟩ :: more) (ends : Ends d rest)
    (tight : c.looseness < l.looseness) (loose : l.looseness ≤ d.looseness) : False := by
  obtain ⟨-, rfl⟩ := hp h (ends.mono (by omega)) (ends_cons.2 tight)
  exact ends.not_head loose

private theorem Cancels.plain {body : Phrase .comparison} (hb : body.Cancels) :
    (plain body).Cancels := by
  intro q rest rest' h ends ends'
  cases q with
  | plain body' =>
    obtain ⟨rfl, same⟩ := hb h (ends.mono (by simp)) (ends'.mono (by simp))
    exact ⟨rfl, same⟩
  | choose condition question yes colon no =>
    simp only [tokens, List.append_assoc, List.cons_append] at h
    exact (hb.no_suffix h ends (by simp) (by simp)).elim

private theorem Cancels.choose {condition : Phrase .comparison} {yes no : Phrase .conditional}
    (hc : condition.Cancels) (hy : yes.Cancels) (hn : no.Cancels) (question colon : Nat) :
    (choose condition question yes colon no).Cancels := by
  intro q rest rest' h ends ends'
  cases q with
  | plain body =>
    simp only [tokens, List.append_assoc, List.cons_append] at h
    obtain ⟨-, rfl⟩ := hc h (by simp) (ends'.mono (by simp))
    exact (ends'.not_head (by simp)).elim
  | choose condition' question' yes' colon' no' =>
    simp only [tokens, List.append_assoc, List.cons_append] at h
    obtain ⟨rfl, h₁⟩ := hc h (by simp) (by simp)
    obtain ⟨mark, h₂⟩ := List.cons.inj h₁
    obtain ⟨rfl, h₃⟩ := hy h₂ (by simp) (by simp)
    obtain ⟨mark', h₄⟩ := List.cons.inj h₃
    obtain ⟨rfl, same⟩ := hn h₄ ends ends'
    cases mark
    cases mark'
    exact ⟨rfl, same⟩

private theorem Cancels.single {body : Phrase (.chain .additive)} (hb : body.Cancels) :
    (single body).Cancels := by
  intro q rest rest' h ends ends'
  cases q with
  | single body' =>
    obtain ⟨rfl, same⟩ := hb h (ends.mono (by simp)) (ends'.mono (by simp))
    exact ⟨rfl, same⟩
  | compare left op sign right =>
    simp only [tokens, List.append_assoc, List.cons_append] at h
    exact (hb.no_suffix h ends (by simp) (by simp)).elim

private theorem Cancels.compare {left right : Phrase (.chain .additive)} (hl : left.Cancels)
    (hr : right.Cancels) (op : Comparison) (sign : Nat) : (compare left op sign right).Cancels := by
  intro q rest rest' h ends ends'
  cases q with
  | single body =>
    simp only [tokens, List.append_assoc, List.cons_append] at h
    obtain ⟨-, rfl⟩ := hl h (by simp) (ends'.mono (by simp))
    exact (ends'.not_head (by simp)).elim
  | compare left' op' sign' right' =>
    simp only [tokens, List.append_assoc, List.cons_append] at h
    obtain ⟨rfl, h₁⟩ := hl h (by simp) (by simp)
    obtain ⟨mark, h₂⟩ := List.cons.inj h₁
    obtain ⟨rfl, same⟩ := hr h₂ (ends.mono (by simp)) (ends'.mono (by simp))
    cases mark
    exact ⟨rfl, same⟩

private theorem Cancels.chain {tier : Tier} {first : Phrase (.operand tier)}
    {more : Phrase (.turns tier)} (hf : first.Cancels) (hm : more.Cancels) :
    (chain first more).Cancels := by
  intro q rest rest' h ends ends'
  cases q with
  | chain first' more' =>
    simp only [tokens, List.append_assoc] at h
    have ends_more : Ends (.turns tier) rest := ends.mono (Nat.le_of_eq tier.looseness_chain.symm)
    have ends_more' : Ends (.turns tier) rest' := ends'.mono (Nat.le_of_eq tier.looseness_chain.symm)
    obtain ⟨rfl, h₁⟩ := hf h (more.ends_turns ends_more) (more'.ends_turns ends_more')
    obtain ⟨rfl, same⟩ := hm h₁ ends_more ends_more'
    exact ⟨rfl, same⟩

private theorem Cancels.done {tier : Tier} : (done : Phrase (.turns tier)).Cancels := by
  intro q rest rest' h ends ends'
  cases q with
  | done => exact ⟨rfl, h⟩
  | turn op joins sign right more =>
    simp only [tokens, List.nil_append, List.cons_append] at h
    subst h
    exact (ends.not_head (Nat.le_of_eq (Tier.looseness_of_joins joins))).elim

private theorem Cancels.turn {tier : Tier} {op : Arithmetic} {joins : tier.joins op = true}
    {right : Phrase (.operand tier)} {more : Phrase (.turns tier)} (hr : right.Cancels)
    (hm : more.Cancels) (sign : Nat) : (turn op joins sign right more).Cancels := by
  intro q rest rest' h ends ends'
  cases q with
  | done =>
    simp only [tokens, List.nil_append, List.cons_append] at h
    subst h
    exact (ends'.not_head (Nat.le_of_eq (Tier.looseness_of_joins joins))).elim
  | turn op' joins' sign' right' more' =>
    simp only [tokens, List.append_assoc, List.cons_append] at h
    obtain ⟨mark, h₁⟩ := List.cons.inj h
    obtain ⟨rfl, h₂⟩ := hr h₁ (more.ends_turns ends) (more'.ends_turns ends')
    obtain ⟨rfl, same⟩ := hm h₂ ends ends'
    cases mark
    exact ⟨rfl, same⟩

private theorem Cancels.unsigned {body : Phrase .power} (hb : body.Cancels) :
    (unsigned body).Cancels := by
  intro q rest rest' h ends ends'
  cases q with
  | unsigned body' =>
    obtain ⟨rfl, same⟩ := hb h (ends.mono (by simp)) (ends'.mono (by simp))
    exact ⟨rfl, same⟩
  | negate sign operand =>
    obtain ⟨t, more, start, primary⟩ := body.head_power
    simp only [tokens, start, List.cons_append, List.cons.injEq] at h
    rw [h.1] at primary
    cases primary

private theorem Cancels.negate {operand : Phrase .signed} (ho : operand.Cancels) (sign : Nat) :
    (negate sign operand).Cancels := by
  intro q rest rest' h ends ends'
  cases q with
  | unsigned body =>
    obtain ⟨t, more, start, primary⟩ := body.head_power
    simp only [tokens, start, List.cons_append, List.cons.injEq] at h
    rw [← h.1] at primary
    cases primary
  | negate sign' operand' =>
    obtain ⟨mark, h₁⟩ := List.cons.inj h
    obtain ⟨rfl, same⟩ := ho h₁ ends ends'
    cases mark
    exact ⟨rfl, same⟩

private theorem Cancels.bare {base : Phrase .primary} (hb : base.Cancels) : (bare base).Cancels := by
  intro q rest rest' h ends ends'
  cases q with
  | bare base' =>
    obtain ⟨rfl, same⟩ := hb h (ends.mono (by simp)) (ends'.mono (by simp))
    exact ⟨rfl, same⟩
  | power base' sign exponent =>
    simp only [tokens, List.append_assoc, List.cons_append] at h
    exact (hb.no_suffix h ends (by simp) (by simp)).elim

private theorem Cancels.power {base : Phrase .primary} {exponent : Phrase .signed}
    (hb : base.Cancels) (he : exponent.Cancels) (sign : Nat) :
    (power base sign exponent).Cancels := by
  intro q rest rest' h ends ends'
  cases q with
  | bare base' =>
    simp only [tokens, List.append_assoc, List.cons_append] at h
    obtain ⟨-, rfl⟩ := hb h (by simp) (ends'.mono (by simp))
    exact (ends'.not_head (by simp)).elim
  | power base' sign' exponent' =>
    simp only [tokens, List.append_assoc, List.cons_append] at h
    obtain ⟨rfl, h₁⟩ := hb h (by simp) (by simp)
    obtain ⟨mark, h₂⟩ := List.cons.inj h₁
    obtain ⟨rfl, same⟩ := he h₂ ends ends'
    cases mark
    exact ⟨rfl, same⟩

private theorem Cancels.number (literal : String) (start : Nat) : (number literal start).Cancels := by
  intro q rest rest' h ends ends'
  cases q <;> simp_all [tokens]

private theorem Cancels.reference (name : String) (start : Nat) : (reference name start).Cancels := by
  intro q rest rest' h ends ends'
  cases q with
  | reference name' start' => simp_all [tokens]
  | call name' start' opening arguments closing =>
    obtain ⟨-, rfl⟩ := List.cons.inj h
    exact (ends.not_head (by simp)).elim
  | number _ _ => simp [tokens] at h
  | parenthesised _ _ _ => simp [tokens] at h

private theorem Cancels.parenthesised {body : Phrase .conditional} (hb : body.Cancels)
    (opening closing : Nat) : (parenthesised opening body closing).Cancels := by
  intro q rest rest' h ends ends'
  cases q with
  | parenthesised opening' body' closing' =>
    simp only [tokens, List.append_assoc, List.cons_append, List.nil_append] at h
    obtain ⟨mark, h₁⟩ := List.cons.inj h
    obtain ⟨rfl, h₂⟩ := hb h₁ (by simp) (by simp)
    obtain ⟨mark', same⟩ := List.cons.inj h₂
    cases mark
    cases mark'
    exact ⟨rfl, same⟩
  | number _ _ => simp [tokens] at h
  | reference _ _ => simp [tokens] at h
  | call _ _ _ _ _ => simp [tokens] at h

private theorem Cancels.call {arguments : Phrase .arguments} (ha : arguments.Cancels)
    (name : String) (start opening closing : Nat) :
    (call name start opening arguments closing).Cancels := by
  intro q rest rest' h ends ends'
  cases q with
  | call name' start' opening' arguments' closing' =>
    simp only [tokens, List.append_assoc, List.cons_append, List.nil_append] at h
    obtain ⟨mark, h₁⟩ := List.cons.inj h
    obtain ⟨mark', h₂⟩ := List.cons.inj h₁
    obtain ⟨rfl, h₃⟩ := ha h₂ (by simp) (by simp)
    obtain ⟨mark'', same⟩ := List.cons.inj h₃
    cases mark
    cases mark'
    cases mark''
    exact ⟨rfl, same⟩
  | reference name' start' =>
    obtain ⟨-, rfl⟩ := List.cons.inj h
    exact (ends'.not_head (by simp)).elim
  | number _ _ => simp [tokens] at h
  | parenthesised _ _ _ => simp [tokens] at h

private theorem Cancels.noArguments : noArguments.Cancels := by
  intro q rest rest' h ends ends'
  cases q with
  | noArguments => exact ⟨rfl, h⟩
  | someArguments list =>
    obtain ⟨t, more, start, starts⟩ := list.head_argumentList
    simp only [tokens, start, List.nil_append, List.cons_append] at h
    subst h
    exact (ends.not_head (Lexeme.looseness_le_of_starts starts)).elim

private theorem Cancels.someArguments {list : Phrase .argumentList} (hl : list.Cancels) :
    (someArguments list).Cancels := by
  intro q rest rest' h ends ends'
  cases q with
  | noArguments =>
    obtain ⟨t, more, start, starts⟩ := list.head_argumentList
    simp only [tokens, start, List.nil_append, List.cons_append] at h
    subst h
    exact (ends'.not_head (Lexeme.looseness_le_of_starts starts)).elim
  | someArguments list' =>
    obtain ⟨rfl, same⟩ := hl h (ends.mono (by simp)) (ends'.mono (by simp))
    exact ⟨rfl, same⟩

private theorem Cancels.lastArgument {argument : Phrase .conditional} (ha : argument.Cancels) :
    (lastArgument argument).Cancels := by
  intro q rest rest' h ends ends'
  cases q with
  | lastArgument argument' =>
    obtain ⟨rfl, same⟩ := ha h (ends.mono (by simp)) (ends'.mono (by simp))
    exact ⟨rfl, same⟩
  | nextArgument argument' comma list =>
    simp only [tokens, List.append_assoc, List.cons_append] at h
    exact (ha.no_suffix h ends (by simp) (by simp)).elim

private theorem Cancels.nextArgument {argument : Phrase .conditional} {list : Phrase .argumentList}
    (ha : argument.Cancels) (hl : list.Cancels) (comma : Nat) :
    (nextArgument argument comma list).Cancels := by
  intro q rest rest' h ends ends'
  cases q with
  | lastArgument argument' =>
    simp only [tokens, List.append_assoc, List.cons_append] at h
    obtain ⟨-, rfl⟩ := ha h (by simp) (ends'.mono (by simp))
    exact (ends'.not_head (by simp)).elim
  | nextArgument argument' comma' list' =>
    simp only [tokens, List.append_assoc, List.cons_append] at h
    obtain ⟨rfl, h₁⟩ := ha h (by simp) (by simp)
    obtain ⟨mark, h₂⟩ := List.cons.inj h₁
    obtain ⟨rfl, same⟩ := hl h₂ ends ends'
    cases mark
    exact ⟨rfl, same⟩

private theorem Cancels.operand {c : Category} {tier : Tier} {body : Phrase c}
    (wrap : Phrase c → Phrase (.operand tier))
    (tokens_wrap : ∀ body, (wrap body).tokens = body.tokens)
    (unwrap : ∀ q : Phrase (.operand tier), ∃ body, q = wrap body)
    (loose : c.looseness ≤ (Category.operand tier).looseness) (hb : body.Cancels) :
    (wrap body).Cancels := by
  intro q rest rest' h ends ends'
  obtain ⟨body', rfl⟩ := unwrap q
  rw [tokens_wrap, tokens_wrap] at h
  obtain ⟨rfl, same⟩ := hb h (ends.mono loose) (ends'.mono loose)
  exact ⟨rfl, same⟩

/-- Every phrase is the only one of its category that is read where it is read. -/
theorem cancels {c : Category} (p : Phrase c) : p.Cancels := by
  induction p with
  | plain body ih => exact ih.plain
  | choose condition question yes colon no ihc ihy ihn => exact ihc.choose ihy ihn question colon
  | single body ih => exact ih.single
  | compare left op sign right ihl ihr => exact ihl.compare ihr op sign
  | chain first more ihf ihm => exact ihf.chain ihm
  | done => exact .done
  | turn op joins sign right more ihr ihm => exact ihr.turn ihm sign
  | summand body ih =>
    exact .operand .summand (fun _ => rfl) (fun | .summand body => ⟨body, rfl⟩) (by simp) ih
  | factor body ih =>
    exact .operand .factor (fun _ => rfl) (fun | .factor body => ⟨body, rfl⟩) (by simp) ih
  | unsigned body ih => exact ih.unsigned
  | negate sign operand ih => exact ih.negate sign
  | bare base ih => exact ih.bare
  | power base sign exponent ihb ihe => exact ihb.power ihe sign
  | number literal start => exact .number literal start
  | reference name start => exact .reference name start
  | parenthesised opening body closing ih => exact ih.parenthesised opening closing
  | call name start opening arguments closing ih => exact ih.call name start opening closing
  | noArguments => exact .noArguments
  | someArguments list ih => exact ih.someArguments
  | lastArgument argument ih => exact ih.lastArgument
  | nextArgument argument comma list iha ihl => exact iha.nextArgument ihl comma

/-- A row of tokens is that of at most one phrase of a category. -/
theorem tokens_injective (c : Category) : Function.Injective (tokens (c := c)) := by
  intro p q h
  have h : p.tokens ++ [] = q.tokens ++ [] := by rw [h]
  exact (p.cancels h (ends_nil c) (ends_nil c)).1

end Phrase

end GameScoring.Formula
