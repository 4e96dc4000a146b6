import GameScoring.Proofs.Formula.Phrase

/-!
# What the parser reads is a phrase

Whenever a rule of the parser succeeds, the tokens it has moved past are those of a phrase
of its category. There is one step for each rule, given the rules of the next level, and
the induction is on the number of levels.
-/
namespace GameScoring.Formula
open Formula.Parser

namespace Parser
variable {α β : Type} {a : α} {c c' : Cursor}

/-- The tokens that a successful run moves past are those of a phrase of the category. -/
def Moves (k : Category) (x : Parser α) : Prop :=
  ∀ ⦃c : Cursor⦄ ⦃a : α⦄ ⦃c' : Cursor⦄, x c = .ok (a, c') →
    ∃ p : Phrase k, c.tokens = p.tokens ++ c'.tokens

theorem bind_ok {x : Parser α} {f : α → Parser β} {b : β} (h : (x >>= f) c = .ok (b, c')) :
    ∃ a mid, x c = .ok (a, mid) ∧ f a mid = .ok (b, c') := by
  change Except.bind (x c) (fun r => f r.1 r.2) = _ at h
  cases hx : x c with
  | error r =>
    rw [hx] at h
    cases h
  | ok r =>
    rw [hx] at h
    exact ⟨r.1, r.2, rfl, h⟩

theorem bind_error {x : Parser α} {f : α → Parser β} {r : Rejection} (h : (x >>= f) c = .error r) :
    x c = .error r ∨ ∃ a mid, x c = .ok (a, mid) ∧ f a mid = .error r := by
  change Except.bind (x c) (fun r => f r.1 r.2) = _ at h
  cases hx : x c with
  | error e =>
    rw [hx] at h
    cases h
    exact .inl rfl
  | ok result =>
    rw [hx] at h
    exact .inr ⟨result.1, result.2, rfl, h⟩

theorem position_ok {f : Nat → Parser α} (h : (position >>= f) c = .ok (a, c')) :
    ∃ start, f start c = .ok (a, c') := ⟨_, h⟩

theorem peek_ok {f : Option Lexeme → Parser α} (h : (peek >>= f) c = .ok (a, c')) :
    ∃ found, c.tokens.head?.map Token.lexeme = found ∧ f found c = .ok (a, c') := ⟨_, rfl, h⟩

theorem peek_error {f : Option Lexeme → Parser α} {r : Rejection} (h : (peek >>= f) c = .error r) :
    ∃ found, c.tokens.head?.map Token.lexeme = found ∧ f found c = .error r := ⟨_, rfl, h⟩

theorem advance_ok {f : Unit → Parser α} (h : (advance >>= f) c = .ok (a, c')) :
    f () { c with tokens := c.tokens.tail } = .ok (a, c') := h

theorem build_ok {node t : Node} (h : build node c = .ok (t, c')) : c'.tokens = c.tokens := by
  rw [build] at h
  split at h
  next => cases h
  next =>
    split at h
    next => cases h
    next =>
      cases h
      rfl

/-- A cursor before a lexeme stands before a token. -/
theorem tokens_of_head {l : Lexeme} (h : c.tokens.head?.map Token.lexeme = some l) :
    ∃ start, c.tokens = ⟨l, start⟩ :: c.tokens.tail := by
  obtain ⟨t, ht, rfl⟩ := Option.map_eq_some_iff.1 h
  obtain ⟨rest, same⟩ := List.head?_eq_some_iff.1 ht
  exact ⟨t.position, by rw [same]; rfl⟩

namespace Level

/-- The rules that lead into a level read phrases. -/
structure Sound (inner : Level) : Prop where
  conditional : ∀ opener, Moves .conditional (inner.conditional opener)
  unary : ∀ opener, Moves .signed (inner.unary opener)

namespace Sound
variable {inner : Level}

theorem expression (sound : Sound inner) : Moves .conditional inner.expression := by
  intro c t c' h
  rw [Level.expression] at h
  obtain ⟨start, h⟩ := position_ok h
  exact sound.conditional start h

theorem arguments (sound : Sound inner) (turns : Nat) :
    Moves .argumentList (inner.arguments turns) := by
  induction turns with
  | zero =>
    intro c ts c' h
    cases h
  | succ turns ih =>
    intro c ts c' h
    rw [Level.arguments] at h
    obtain ⟨t, c₁, ht, h⟩ := bind_ok h
    obtain ⟨argument, moved⟩ := sound.expression ht
    obtain ⟨found, head, h⟩ := peek_ok h
    split at h
    next comma =>
      obtain ⟨place, next⟩ := tokens_of_head (head.trans comma)
      obtain ⟨us, c₂, hus, h⟩ := bind_ok (advance_ok h)
      obtain ⟨list, moved'⟩ := ih hus
      cases h
      refine ⟨.nextArgument argument place list, ?_⟩
      rw [moved, next, show c₁.tokens.tail = _ from moved']
      simp
    next =>
      cases h
      exact ⟨.lastArgument argument, moved⟩

private theorem closed {function : Function} {start : Nat} {ts : List Node} {c c' : Cursor} {t : Node}
    (h : close function start ts c = .ok (t, c')) :
    ∃ closing, c.tokens = ⟨.rightParen, closing⟩ :: c'.tokens := by
  rw [close] at h
  obtain ⟨found, head, h⟩ := peek_ok h
  split at h
  next =>
    obtain ⟨closing, next⟩ := tokens_of_head head
    have h := advance_ok h
    split at h
    next => exact ⟨closing, by rw [next, build_ok h]⟩
    next => cases h
  next => cases h
  next => cases h

/-- A call in parentheses, after the name of the function. -/
private theorem call (sound : Sound inner) {name : String} {start : Nat} {c c' : Cursor} {t : Node}
    (head : c.tokens.head?.map Token.lexeme = some .leftParen)
    (h : inner.call name start c = .ok (t, c')) :
    ∃ (opening : Nat) (arguments : Phrase .arguments) (closing : Nat),
      c.tokens = ⟨.leftParen, opening⟩ :: (arguments.tokens ++ ⟨.rightParen, closing⟩ :: c'.tokens) := by
  obtain ⟨opening, next⟩ := tokens_of_head head
  rw [Level.call] at h
  cases known : Function.ofName? name with
  | none =>
    rw [known] at h
    cases h
  | some function =>
    rw [known] at h
    obtain ⟨found, -, h⟩ := peek_ok (advance_ok h)
    split at h
    next none =>
      obtain ⟨closing, next'⟩ := closed h
      exact ⟨opening, .noArguments, closing, by rw [next]; exact congrArg _ next'⟩
    next some =>
      obtain ⟨ts, c₁, hts, h⟩ := bind_ok h
      obtain ⟨list, moved⟩ := sound.arguments _ hts
      obtain ⟨closing, next'⟩ := closed h
      exact ⟨opening, .someArguments list, closing, by rw [next, ← next']; exact congrArg _ moved⟩

theorem primary (sound : Sound inner) : Moves .primary inner.primary := by
  intro c t c' h
  rw [Level.primary] at h
  obtain ⟨start, h⟩ := position_ok h
  obtain ⟨found, head, h⟩ := peek_ok h
  split at h
  next literal =>
    obtain ⟨place, next⟩ := tokens_of_head head
    have h := advance_ok h
    rw [Level.number] at h
    split at h
    next => exact ⟨.number literal place, by rw [next, build_ok h]; rfl⟩
    next => cases h
  next name =>
    obtain ⟨place, next⟩ := tokens_of_head head
    obtain ⟨found', head', h⟩ := peek_ok (advance_ok h)
    split at h
    next paren =>
      obtain ⟨opening, arguments, closing, moved⟩ := sound.call (head'.trans paren) h
      refine ⟨.call name place opening arguments closing, ?_⟩
      rw [next, show c.tokens.tail = _ from moved]
      simp
    next =>
      cases known : Function.ofName? name with
      | some function =>
        rw [known] at h
        cases h
      | none =>
        rw [known] at h
        exact ⟨.reference name place, by rw [next, build_ok h]; rfl⟩
  next =>
    obtain ⟨opening, next⟩ := tokens_of_head head
    obtain ⟨u, c₁, hu, h⟩ := bind_ok (advance_ok h)
    obtain ⟨body, moved⟩ := sound.expression hu
    obtain ⟨found, head, h⟩ := peek_ok h
    split at h
    next close =>
      obtain ⟨closing, next'⟩ := tokens_of_head (head.trans close)
      cases h
      refine ⟨.parenthesised opening body closing, ?_⟩
      rw [next, show c.tokens.tail = _ from moved, next']
      simp
    next => cases h
  next => cases h

theorem power (sound : Sound inner) : Moves .power inner.power := by
  intro c t c' h
  rw [Level.power] at h
  obtain ⟨b, c₁, hb, h⟩ := bind_ok h
  obtain ⟨base, moved⟩ := sound.primary hb
  obtain ⟨sign, h⟩ := position_ok h
  obtain ⟨found, head, h⟩ := peek_ok h
  split at h
  next caret =>
    obtain ⟨place, next⟩ := tokens_of_head (head.trans caret)
    obtain ⟨e, c₂, he, h⟩ := bind_ok (advance_ok h)
    obtain ⟨exponent, moved'⟩ := sound.unary _ he
    refine ⟨.power base place exponent, ?_⟩
    rw [moved, next, show c₁.tokens.tail = _ from moved', build_ok h]
    simp
  next =>
    cases h
    exact ⟨.bare base, moved⟩

theorem signed (sound : Sound inner) : Moves .signed inner.signed := by
  intro c t c' h
  rw [Level.signed] at h
  obtain ⟨sign, h⟩ := position_ok h
  obtain ⟨found, head, h⟩ := peek_ok h
  split at h
  next minus =>
    obtain ⟨place, next⟩ := tokens_of_head (head.trans minus)
    obtain ⟨u, c₁, hu, h⟩ := bind_ok (advance_ok h)
    obtain ⟨operand, moved⟩ := sound.unary _ hu
    refine ⟨.negate place operand, ?_⟩
    rw [next, show c.tokens.tail = _ from moved, build_ok h]
    simp
  next =>
    obtain ⟨body, moved⟩ := sound.power h
    exact ⟨.unsigned body, moved⟩

end Sound

/-- Operators of a tier with an operand after each. -/
theorem moves_chain {tier : Tier} {operand : Parser Node}
    (sound : Moves (.operand tier) operand) (turns : Nat) (left : Node) :
    Moves (.turns tier) (Level.chain operand tier.joins turns left) := by
  induction turns generalizing left with
  | zero =>
    intro c t c' h
    cases h
  | succ turns ih =>
    intro c t c' h
    rw [Level.chain] at h
    obtain ⟨sign, h⟩ := position_ok h
    obtain ⟨found, head, h⟩ := peek_ok h
    split at h
    next op =>
      obtain ⟨place, next⟩ := tokens_of_head head
      split at h
      next joins =>
        obtain ⟨r, c₁, hr, h⟩ := bind_ok (advance_ok h)
        obtain ⟨right, moved⟩ := sound hr
        obtain ⟨made, c₂, hmade, h⟩ := bind_ok h
        obtain ⟨rest, moved'⟩ := ih made h
        refine ⟨.turn op joins place right rest, ?_⟩
        rw [next, show c.tokens.tail = _ from moved, ← build_ok hmade, moved']
        simp
      next =>
        cases h
        exact ⟨.done, rfl⟩
    next =>
      cases h
      exact ⟨.done, rfl⟩

/-- An operand and the turns after it. -/
private theorem moves_first {tier : Tier} {operand : Parser Node}
    (sound : Moves (.operand tier) operand) (turns : Nat) :
    Moves (.chain tier) (operand >>= Level.chain operand tier.joins turns) := by
  intro c t c' h
  obtain ⟨u, c₁, hu, h⟩ := bind_ok h
  obtain ⟨first, moved⟩ := sound hu
  obtain ⟨rest, moved'⟩ := moves_chain sound turns u h
  refine ⟨.chain first rest, ?_⟩
  rw [moved, moved']
  simp

namespace Sound
variable {inner : Level}

theorem factor (sound : Sound inner) : Moves (.operand .multiplicative) inner.signed := by
  intro c t c' h
  obtain ⟨body, moved⟩ := sound.signed h
  exact ⟨.factor body, moved⟩

theorem summand (sound : Sound inner) : Moves (.operand .additive) inner.term := by
  intro c t c' h
  obtain ⟨body, moved⟩ := moves_first sound.factor _ h
  exact ⟨.summand body, moved⟩

theorem additive (sound : Sound inner) : Moves (.chain .additive) inner.additive :=
  moves_first sound.summand _

theorem comparison (sound : Sound inner) : Moves .comparison inner.comparison := by
  intro c t c' h
  rw [Level.comparison] at h
  obtain ⟨l, c₁, hl, h⟩ := bind_ok h
  obtain ⟨left, moved⟩ := sound.additive hl
  obtain ⟨sign, h⟩ := position_ok h
  obtain ⟨found, head, h⟩ := peek_ok h
  split at h
  next op =>
    obtain ⟨place, next⟩ := tokens_of_head head
    obtain ⟨r, c₂, hr, h⟩ := bind_ok (advance_ok h)
    obtain ⟨right, moved'⟩ := sound.additive hr
    obtain ⟨found, head, h⟩ := peek_ok h
    split at h
    next => cases h
    next =>
      refine ⟨.compare left op place right, ?_⟩
      rw [moved, next, show c₁.tokens.tail = _ from moved', build_ok h]
      simp
  next =>
    cases h
    exact ⟨.single left, moved⟩

theorem choice (sound : Sound inner) : Moves .conditional inner.choice := by
  intro c t c' h
  rw [Level.choice] at h
  obtain ⟨b, c₁, hb, h⟩ := bind_ok h
  obtain ⟨condition, moved⟩ := sound.comparison hb
  obtain ⟨mark, h⟩ := position_ok h
  obtain ⟨found, head, h⟩ := peek_ok h
  split at h
  next question =>
    obtain ⟨place, next⟩ := tokens_of_head (head.trans question)
    obtain ⟨y, c₂, hy, h⟩ := bind_ok (advance_ok h)
    obtain ⟨yes, moved'⟩ := sound.conditional _ hy
    obtain ⟨found, head, h⟩ := peek_ok h
    split at h
    next colon =>
      obtain ⟨place', next'⟩ := tokens_of_head (head.trans colon)
      obtain ⟨n, c₃, hn, h⟩ := bind_ok (advance_ok h)
      obtain ⟨no, moved''⟩ := sound.conditional _ hn
      refine ⟨.choose condition place yes place' no, ?_⟩
      rw [moved, next, show c₁.tokens.tail = _ from moved', next',
        show c₂.tokens.tail = _ from moved'', build_ok h]
      simp
    next => cases h
  next =>
    cases h
    exact ⟨.plain condition, moved⟩

end Sound

/-- However many levels there are, their rules read phrases. -/
theorem sound_within (allowed : Nat) : Sound (within allowed) := by
  induction allowed with
  | zero =>
    constructor <;>
    · intro opener c t c' h
      cases h
  | succ allowed ih => exact ⟨fun _ => ih.choice, fun _ => ih.signed⟩

end Level

end Parser

end GameScoring.Formula
