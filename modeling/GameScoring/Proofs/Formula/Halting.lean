import GameScoring.Proofs.Formula.Derivation
import GameScoring.Proofs.Formula.Blocking

/-!
# Where the parser halts

There is one step for each rule of the parser: where it succeeds, it stands where a phrase is over,
and where it fails with a syntax error, it is stuck. The induction over the levels puts the steps
together.
-/
namespace GameScoring.Formula
open Formula.Parser

/-- Whether the tokens of a formula are not those of a sentence of the grammar. -/
def Reason.isSyntax : Reason → Bool
  | unexpected _ _ | unclosed | chainedComparison => true
  | _ => false

/-- The outcome of a parser from a cursor on, that goes on with a phrase begun at the first cursor. -/
def Outcome {α : Type} (k : Category) (c₀ c : Cursor) : Except Rejection (α × Cursor) → Prop
  | .ok (_, c') => Settled k c₀ c'
  | .error r => r.reason.isSyntax = true → Stuck k c r

/-- A parser reads a phrase until it is over, or it is stuck in it. -/
def Halts {α : Type} (k : Category) (x : Parser α) : Prop := ∀ c, Outcome k c c (x c)

namespace Outcome
variable {α β : Type} {k d : Category} {c₀ c c₁ c₂ : Cursor} {us : List Token}

theorem position {f : Nat → Parser α} (h : Outcome k c₀ c (f c₁.place c₁)) :
    Outcome k c₀ c ((Parser.position >>= f) c₁) := h

theorem peek {f : Option Lexeme → Parser α}
    (h : ∀ found, c₁.tokens.head?.map Token.lexeme = found → Outcome k c₀ c (f found c₁)) :
    Outcome k c₀ c ((Parser.peek >>= f) c₁) := h _ rfl

theorem advance {l : Lexeme} {f : Unit → Parser α} (head : c₁.tokens.head?.map Token.lexeme = some l)
    (h : ∀ start c₂, Past c₁ [⟨l, start⟩] c₂ → Outcome k c₀ c (f () c₂)) :
    Outcome k c₀ c ((Parser.advance >>= f) c₁) := by
  obtain ⟨start, tokens⟩ := tokens_of_head head
  exact h start _ ⟨tokens, rfl⟩

/-- An error that is not about the syntax. -/
theorem other {r : Rejection} (h : r.reason.isSyntax = false) :
    Outcome k c₀ c (.error r : Except Rejection (α × Cursor)) := by
  intro isSyntax
  rw [h] at isSyntax
  cases isSyntax

theorem reject {reason : Reason} (h : reason.isSyntax = false) (position : Nat) :
    Outcome k c₀ c ((Parser.reject reason position : Parser α) c₁) := .other h

/-- An error at the next token, where no phrase goes on. -/
theorem stuck {reason : Reason} (past : Past c us c₁) (starts : ∃ p : Phrase k, us <+: p.tokens)
    (blocked : Blocked k us c₁.tokens.head?) :
    Outcome k c₀ c ((Parser.reject reason c₁.place : Parser α) c₁) :=
  fun _ => ⟨us, c₁, past, rfl, starts, blocked⟩

/-- A part of a phrase and then what follows it. -/
theorem bind {x : Parser α} {f : α → Parser β} (moves : Moves d x) (halts : Halts d x)
    (past : Past c us c₁) (frame : Frame k d us c₁.tokens.head?)
    (follow : ∀ a c₂ (q : Phrase d), Past c₁ q.tokens c₂ → Settled d c₁ c₂ → Outcome k c₀ c (f a c₂)) :
    Outcome k c₀ c ((x >>= f) c₁) := by
  show Outcome k c₀ c (Except.bind (x c₁) fun result => f result.1 result.2)
  have outcome := halts c₁
  cases h : x c₁ with
  | ok result =>
    obtain ⟨a, c₂⟩ := result
    rw [h] at outcome
    obtain ⟨q, moved⟩ := moves h
    exact follow a c₂ q ⟨moved, Settled.finish outcome⟩ outcome
  | error r =>
    rw [h] at outcome
    exact fun isSyntax => (outcome isSyntax).inside past frame

/-- The last part of a phrase. -/
theorem inside {c₀' : Cursor} {x : Except Rejection (α × Cursor)} (h : Outcome d c₀' c₁ x)
    (past : Past c us c₁) (frame : Frame k d us c₁.tokens.head?)
    (settle : ∀ c', Settled d c₀' c' → Settled k c₀ c') : Outcome k c₀ c x := by
  cases x with
  | ok result => exact settle result.2 h
  | error r => exact fun isSyntax => (h isSyntax).inside past frame

theorem build {f : Node → Parser α} (node : Node)
    (follow : ∀ c₂, Past c₁ [] c₂ → Outcome k c₀ c (f node c₂)) :
    Outcome k c₀ c ((Parser.build node >>= f) c₁) := by
  show Outcome k c₀ c (Except.bind (Parser.build node c₁) fun result => f result.1 result.2)
  rw [Parser.build]
  split
  next => exact .other rfl
  next =>
    split
    next => exact .other rfl
    next => exact follow _ ⟨rfl, rfl⟩

theorem built (node : Node) (settled : Settled k c₀ c₁) : Outcome k c₀ c (Parser.build node c₁) := by
  have outcome : Outcome k c₀ c ((Parser.build node >>= pure) c₁) :=
    .build node fun c₂ past => settled.later past
  rwa [bind_pure] at outcome

end Outcome

namespace Parser.Level

/-- The rules that lead into a level read phrases until they are over, or are stuck in them. -/
structure Halting (inner : Level) : Prop where
  conditional : ∀ opener, Halts .conditional (inner.conditional opener)
  unary : ∀ opener, Halts .signed (inner.unary opener)

namespace Halting
variable {inner : Level}

theorem expression (h : Halting inner) : Halts .conditional inner.expression :=
  fun c => h.conditional c.place c

theorem arguments (sound : Sound inner) (h : Halting inner) (turns : Nat) :
    Halts .argumentList (inner.arguments turns) := by
  induction turns with
  | zero => exact fun c => .other rfl
  | succ turns ih =>
    intro c
    rw [Level.arguments]
    refine .bind sound.expression h.expression (.refl c) .argument fun t c₁ argument past settled => ?_
    refine .peek fun found head => ?_
    split
    next comma =>
      refine .advance (head.trans comma) fun place c₂ past' => ?_
      refine .bind (sound.arguments turns) ih (past.trans past') (.others argument place)
        fun ts c₃ list past'' settled' => ?_
      exact settled'.earlier (past.trans past')
    next noComma =>
      refine settled.loosen fun l next loose operator => ?_
      cases l with
      | comma => exact absurd (head.symm.trans next) noComma
      | number _ => cases operator
      | identifier _ => cases operator
      | rightParen => simp
      | colon => simp
      | leftParen => simp at loose
      | question => simp at loose
      | compare _ => simp at loose
      | arithmetic op => cases op <;> simp at loose

/-- The end of a call. -/
theorem close {function : Function} {start : Nat} {ts : List Node} {us : List Token} {c c₁ : Cursor}
    (past : Past c us c₁) (starts : ∃ p : Phrase .primary, us <+: p.tokens)
    (blocked : c₁.tokens.head?.map Token.lexeme ≠ some .rightParen →
      Blocked .primary us c₁.tokens.head?) :
    Outcome .primary c c (Level.close function start ts c₁) := by
  rw [Level.close]
  refine .peek fun found head => ?_
  split
  next =>
    refine .advance head fun closing c₂ past' => ?_
    split
    next => exact .built _ (.of_operand (past.trans past') rfl (by simp))
    next => exact .reject rfl start
  next => exact .stuck past starts (blocked (by simp [head]))
  next other => exact .stuck past starts (blocked fun same => other (Option.some.inj (head.symm.trans same)))

/-- No operand starts with another token. -/
theorem blocked_operand {c : Cursor} (h : ∀ t ∈ c.tokens.head?, t.lexeme.startsPrimary = false) :
    Blocked .primary [] c.tokens.head? := by
  intro p rest xs head tokens ends
  obtain ⟨t, more, start, primary⟩ := p.head_primary
  rw [List.nil_append, start] at tokens
  rw [tokens] at head
  rw [h t head.symm] at primary
  cases primary

/-- An expression is over in parentheses, but they are not closed. -/
theorem blocked_parenthesised {opening : Nat} {body : Phrase .conditional} {c c' : Cursor}
    (past : Past c body.tokens c') (settled : Settled .conditional c c')
    (noClosing : c'.tokens.head?.map Token.lexeme ≠ some .rightParen) :
    Blocked .primary (⟨.leftParen, opening⟩ :: body.tokens) c'.tokens.head? := by
  intro p rest xs head tokens ends
  cases p with
  | parenthesised opening' body' closing =>
    simp only [Phrase.tokens, List.append_assoc, List.cons_append] at tokens
    obtain ⟨-, behind⟩ := settled.cancels past head (List.cons.inj tokens).2 (by simp)
    rw [← head, behind] at noClosing
    exact noClosing rfl
  | number _ _ => simp at tokens
  | reference _ _ => simp at tokens
  | call _ _ _ _ _ => simp at tokens

/-- The arguments of a call are over, but the call is not closed. -/
theorem blocked_call {name : String} {start opening : Nat} {list : Phrase .argumentList} {c c' : Cursor}
    (past : Past c list.tokens c') (settled : Settled .argumentList c c')
    (noClosing : c'.tokens.head?.map Token.lexeme ≠ some .rightParen) :
    Blocked .primary (⟨.identifier name, start⟩ :: ⟨.leftParen, opening⟩ :: list.tokens)
      c'.tokens.head? := by
  intro p rest xs head tokens ends
  cases p with
  | call name' start' opening' arguments closing =>
    simp only [Phrase.tokens, List.append_assoc, List.cons_append, List.cons.injEq] at tokens
    cases arguments with
    | noArguments =>
      obtain ⟨t, more, first, starts⟩ := list.head_argumentList
      simp only [first, Phrase.tokens, List.cons_append, List.nil_append, List.cons.injEq] at tokens
      rw [tokens.2.2.1] at starts
      cases starts
    | someArguments list' =>
      obtain ⟨-, behind⟩ := settled.cancels past head tokens.2.2 (by simp)
      rw [← head, behind] at noClosing
      exact noClosing rfl
  | reference _ _ =>
    obtain ⟨-, rfl⟩ := List.cons.inj tokens
    exact ends.not_head (by simp)
  | number _ _ => simp at tokens
  | parenthesised _ _ _ => simp at tokens

/-- A call, behind the name of the function. -/
theorem call (sound : Sound inner) (h : Halting inner) {name : String} {start place : Nat} {c c₁ : Cursor}
    (past : Past c [⟨.identifier name, place⟩] c₁)
    (head : c₁.tokens.head?.map Token.lexeme = some .leftParen) :
    Outcome .primary c c (inner.call name start c₁) := by
  rw [Level.call]
  cases Function.ofName? name with
  | none => exact .reject rfl start
  | some function =>
    refine .advance head fun opening c₂ past' => ?_
    refine .peek fun found head' => ?_
    split
    next none =>
      refine close (past.trans past') ?_ fun noClosing => absurd (head'.trans none) noClosing
      exact ⟨.call name place opening .noArguments 0, ⟨[⟨.rightParen, 0⟩], rfl⟩⟩
    next some =>
      refine .bind (sound.arguments _) (h.arguments sound _) (past.trans past')
        (.arguments name place opening (head' ▸ some)) fun ts c₃ list past'' settled => ?_
      refine close ((past.trans past').trans past'') ?_ (blocked_call past'' settled)
      exact ⟨.call name place opening (.someArguments list) 0, ⟨[⟨.rightParen, 0⟩], by simp⟩⟩

theorem primary (sound : Sound inner) (h : Halting inner) : Halts .primary inner.primary := by
  intro c
  rw [Level.primary]
  refine .position (.peek fun found head => ?_)
  split
  next literal =>
    refine .advance head fun start c₁ past => ?_
    rw [Level.number]
    split
    next => exact .built _ (.of_operand (.trans (.refl c) past) rfl (by simp))
    next => exact .reject rfl _
  next name =>
    refine .advance head fun place c₁ past => ?_
    refine .peek fun found head' => ?_
    split
    next opening => exact h.call sound past (head'.trans opening)
    next noCall =>
      cases Function.ofName? name with
      | some function => exact .reject rfl _
      | none => exact .built _ (.of_operand (.trans (.refl c) past) rfl fun _ _ => head' ▸ noCall)
  next =>
    refine .advance head fun opening c₁ past => ?_
    refine .bind sound.expression h.expression past (.body opening) fun t c₂ body past' settled => ?_
    refine .peek fun found head' => ?_
    split
    next closed =>
      refine .advance (head'.trans closed) fun closing c₃ past'' => ?_
      exact .of_operand ((past.trans past').trans past'') rfl (by simp)
    next unclosed =>
      refine .stuck (past.trans past') ?_ (blocked_parenthesised past' settled (head' ▸ unclosed))
      exact ⟨.parenthesised opening body 0, ⟨[⟨.rightParen, 0⟩], by simp⟩⟩
  next noNumber noName noOpening =>
    refine .stuck (.refl c) ⟨default, List.nil_prefix⟩ (blocked_operand fun t ht => ?_)
    rw [ht] at head
    subst head
    cases found : t.lexeme with
    | number literal => exact absurd (congrArg some found) (noNumber literal)
    | identifier name => exact absurd (congrArg some found) (noName name)
    | leftParen => exact absurd (congrArg some found) noOpening
    | _ => rfl

theorem power (sound : Sound inner) (h : Halting inner) : Halts .power inner.power := by
  intro c
  rw [Level.power]
  refine .bind sound.primary (h.primary sound) (.refl c) .base fun b c₁ base past settled => ?_
  refine .position (.peek fun found head => ?_)
  split
  next caret =>
    refine .advance (head.trans caret) fun sign c₂ past' => ?_
    refine .bind (sound.unary _) (h.unary _) (past.trans past') (.exponent base sign)
      fun e c₃ exponent past'' settled' => ?_
    exact .built _ ((settled'.earlier (past.trans past')).mono (by simp))
  next noCaret =>
    refine settled.loosen fun l next loose operator => ?_
    cases l with
    | arithmetic op =>
      cases op with
      | power => exact absurd (head.symm.trans next) noCaret
      | _ => simp
    | leftParen => simp at loose
    | _ => simp

theorem signed (sound : Sound inner) (h : Halting inner) : Halts .signed inner.signed := by
  intro c
  rw [Level.signed]
  refine .position (.peek fun found head => ?_)
  split
  next minus =>
    refine .advance (head.trans minus) fun sign c₁ past => ?_
    refine .bind (sound.unary _) (h.unary _) past (.negated sign) fun u c₂ operand past' settled => ?_
    exact .built _ (settled.earlier past)
  next noMinus =>
    refine (h.power sound c).inside (.refl c) (.unsigned (head ▸ noMinus)) fun c' settled => ?_
    exact settled.mono (by simp)

end Halting

/-- Operators of a tier with an operand after each, behind an operand that is over. -/
theorem halts_turns {tier : Tier} {operand : Parser Node} (sound : Moves (.operand tier) operand)
    (halts : Halts (.operand tier) operand) (turns : Nat) (left : Node) {us : List Token}
    {c₀ c : Cursor} (past : Past c₀ us c) (settled : Settled (.operand tier) c₀ c) :
    Outcome (.turns tier) c₀ c (Level.chain operand tier.joins turns left c) := by
  induction turns generalizing left us c with
  | zero => exact .other rfl
  | succ turns ih =>
    have ended (h : ∀ op, c.tokens.head?.map Token.lexeme = some (.arithmetic op) → tier.joins op = false) :
        Settled (.turns tier) c₀ c := by
      refine settled.loosen fun l next loose operator => ?_
      cases l with
      | arithmetic op =>
        have apart := h op next
        cases tier <;> cases op <;> simp_all [Tier.joins, isAdditive, isMultiplicative]
      | _ => cases tier <;> simp_all [Lexeme.startsPrimary]
    rw [Level.chain]
    refine .position (.peek fun found head => ?_)
    split
    next op =>
      split
      next joins =>
        refine .advance head fun sign c₁ past₁ => ?_
        refine .bind sound halts past₁ (.operand joins sign) fun r c₂ right past₂ settled₂ => ?_
        refine .build _ fun c₃ past₃ => ?_
        have settled₃ := settled₂.later past₃
        have past₃ : Past c₁ right.tokens c₃ := by simpa using past₂.trans past₃
        have rest := ih (Node.arithmetic c.place op left r) ((past.trans past₁).trans past₃) (settled₃.earlier (past.trans past₁))
        exact rest.inside (past₁.trans past₃) (.more joins sign past₃ settled₃) fun c' => id
      next apart =>
        refine ended fun op' same => ?_
        cases head.symm.trans same
        exact Bool.eq_false_iff.2 apart
    next other =>
      refine ended fun op same => ?_
      exact absurd (head.symm.trans same) (other op)

/-- An operand and the turns after it. -/
theorem halts_chain {tier : Tier} {operand : Parser Node} (sound : Moves (.operand tier) operand)
    (halts : Halts (.operand tier) operand) (turns : Nat) :
    Halts (.chain tier) (operand >>= Level.chain operand tier.joins turns) := by
  intro c
  refine .bind sound halts (.refl c) .first fun left c₁ first past settled => ?_
  refine (halts_turns sound halts turns left past settled).inside past (.turns past settled) ?_
  exact fun c' settled' => settled'.mono (Nat.le_of_eq tier.looseness_chain)

namespace Halting
variable {inner : Level}

theorem factor (sound : Sound inner) (h : Halting inner) : Halts (.operand .multiplicative) inner.signed :=
  fun c => (h.signed sound c).inside (.refl c) .factor fun _ settled => settled.mono (by simp)

theorem summand (sound : Sound inner) (h : Halting inner) : Halts (.operand .additive) inner.term :=
  fun c => (halts_chain sound.factor (h.factor sound) _ c).inside (.refl c) .summand
    fun _ settled => settled.mono (by simp)

theorem additive (sound : Sound inner) (h : Halting inner) : Halts (.chain .additive) inner.additive :=
  halts_chain sound.summand (h.summand sound) _

/-- Two comparisons side by side. -/
theorem blocked_comparison {left right : Phrase (.chain .additive)} {op op' : Comparison} {sign : Nat}
    {c c' : Cursor} (past : Past c right.tokens c') (settled : Settled (.chain .additive) c c')
    (chained : c'.tokens.head?.map Token.lexeme = some (.compare op')) :
    Blocked .comparison (left.tokens ++ ⟨.compare op, sign⟩ :: right.tokens) c'.tokens.head? := by
  intro p rest xs head tokens ends
  cases p with
  | single body =>
    simp only [Phrase.tokens, List.append_assoc, List.cons_append] at tokens
    obtain ⟨-, rfl⟩ := left.cancels tokens (by simp) (ends.mono (by simp))
    exact ends.not_head (by simp)
  | compare left' op'' sign' right' =>
    simp only [Phrase.tokens, List.append_assoc, List.cons_append] at tokens
    obtain ⟨-, behind⟩ := left.cancels tokens (by simp) (by simp)
    obtain ⟨-, rfl⟩ := settled.cancels past head (List.cons.inj behind).2 (ends.mono (by simp))
    exact ends.ne_head (by simp) (head ▸ chained)

theorem comparison (sound : Sound inner) (h : Halting inner) : Halts .comparison inner.comparison := by
  intro c
  rw [Level.comparison]
  refine .bind sound.additive (h.additive sound) (.refl c) .left fun l c₁ left past settled => ?_
  refine .position (.peek fun found head => ?_)
  split
  next op =>
    refine .advance head fun sign c₂ past' => ?_
    refine .bind sound.additive (h.additive sound) (past.trans past') (.right left op sign)
      fun r c₃ right past'' settled' => ?_
    refine .peek fun found' head' => ?_
    split
    next op' =>
      have past : Past c (left.tokens ++ ⟨.compare op, sign⟩ :: right.tokens) c₃ := by
        simpa using (past.trans past').trans past''
      exact .stuck past ⟨.compare left op sign right, List.prefix_rfl⟩
        (blocked_comparison past'' settled' head')
    next unchained =>
      refine .built _ ((settled'.loosen fun l next loose operator => ?_).earlier (past.trans past'))
      cases l with
      | compare op' => exact absurd (head'.symm.trans next) (unchained op')
      | arithmetic op' => cases op' <;> simp at loose
      | leftParen => simp at loose
      | _ => simp
  next uncompared =>
    refine settled.loosen fun l next loose operator => ?_
    cases l with
    | compare op => exact absurd (head.symm.trans next) (uncompared op)
    | arithmetic op => cases op <;> simp at loose
    | leftParen => simp at loose
    | _ => simp

/-- The first branch of a conditional is over, but there is no second one. -/
theorem blocked_choice {condition : Phrase .comparison} {question : Nat} {yes : Phrase .conditional}
    {c c' : Cursor} (past : Past c yes.tokens c') (settled : Settled .conditional c c')
    (noColon : c'.tokens.head?.map Token.lexeme ≠ some .colon) :
    Blocked .conditional (condition.tokens ++ ⟨.question, question⟩ :: yes.tokens) c'.tokens.head? := by
  intro p rest xs head tokens ends
  cases p with
  | plain body =>
    simp only [Phrase.tokens, List.append_assoc, List.cons_append] at tokens
    obtain ⟨-, rfl⟩ := condition.cancels tokens (by simp) (ends.mono (by simp))
    exact ends.not_head (by simp)
  | choose condition' question' yes' colon no =>
    simp only [Phrase.tokens, List.append_assoc, List.cons_append] at tokens
    obtain ⟨-, behind⟩ := condition.cancels tokens (by simp) (by simp)
    obtain ⟨-, behind'⟩ := settled.cancels past head (List.cons.inj behind).2 (by simp)
    rw [← head, behind'] at noColon
    exact noColon rfl

theorem choice (sound : Sound inner) (h : Halting inner) : Halts .conditional inner.choice := by
  intro c
  rw [Level.choice]
  refine .bind sound.comparison (h.comparison sound) (.refl c) .condition
    fun b c₁ condition past settled => ?_
  refine .position (.peek fun found head => ?_)
  split
  next asked =>
    refine .advance (head.trans asked) fun question c₂ past' => ?_
    refine .bind (sound.conditional _) (h.conditional _) (past.trans past') (.yes condition question)
      fun y c₃ yes past'' settled' => ?_
    have read : Past c (condition.tokens ++ ⟨.question, question⟩ :: yes.tokens) c₃ := by
      simpa using (past.trans past').trans past''
    refine .peek fun found' head' => ?_
    split
    next answered =>
      refine .advance (head'.trans answered) fun colon c₄ past₄ => ?_
      have read' : Past c
          (condition.tokens ++ ⟨.question, question⟩ :: (yes.tokens ++ [⟨.colon, colon⟩])) c₄ := by
        simpa using read.trans past₄
      refine .bind (sound.conditional _) (h.conditional _) read' (.no condition question yes colon)
        fun n c₅ no _ settled'' => ?_
      exact .built _ (settled''.earlier read')
    next unanswered =>
      refine .stuck read ?_ (blocked_choice past'' settled' (head' ▸ unanswered))
      exact ⟨.choose condition question yes 0 default,
        ⟨⟨.colon, 0⟩ :: (default : Phrase .conditional).tokens, by simp⟩⟩
  next unasked =>
    refine settled.loosen fun l next loose operator => ?_
    cases l with
    | question => exact absurd (head.symm.trans next) unasked
    | arithmetic op => cases op <;> simp at loose
    | leftParen => simp at loose
    | compare _ => simp at loose
    | _ => simp

end Halting

/-- However many levels there are, their rules read phrases until they are over. -/
theorem halting_within (allowed : Nat) : Halting (within allowed) := by
  induction allowed with
  | zero => constructor <;> exact fun opener c => .other rfl
  | succ allowed ih =>
    have sound := sound_within allowed
    exact ⟨fun _ => ih.choice sound, fun _ => ih.signed sound⟩

end Parser.Level

end GameScoring.Formula
