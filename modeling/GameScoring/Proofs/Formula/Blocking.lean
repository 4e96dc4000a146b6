import GameScoring.Proofs.Formula.Settling

/-!
# Where no phrase goes on

A parser is stuck behind tokens that start a phrase of its category if no phrase of the category
starts with these tokens and the next one. A rule that is stuck in a part of its phrase is stuck
itself: every rule that stands in a phrase has a frame there, the tokens before it. A phrase of
the part can be put into the frame, and what is read behind the frame starts with a phrase of
the part.
-/
namespace GameScoring.Formula
open Formula.Parser

instance : Inhabited (Phrase .primary) := ⟨.number "0" 0⟩

instance : Inhabited (Phrase .conditional) :=
  ⟨.plain (.single (.chain (.summand (.chain (.factor (.unsigned (.bare default))) .done)) .done))⟩

/-- The position of the next token or of the end. -/
def Cursor.place (c : Cursor) : Nat := (c.tokens.head?.map Token.position).getD c.finish

/-- No phrase of the category is read from the tokens and the next one. -/
def Blocked (k : Category) (us : List Token) (ahead : Option Token) : Prop :=
  ∀ ⦃p : Phrase k⦄ ⦃rest xs : List Token⦄, xs.head? = ahead → us ++ xs = p.tokens ++ rest →
    ¬ Ends k rest

/-- A rejection is about the first token with which the tokens from the cursor on do not start a
phrase of the category. -/
def Stuck (k : Category) (c : Cursor) (r : Rejection) : Prop :=
  ∃ us c', Past c us c' ∧ r.position = some c'.place ∧ (∃ p : Phrase k, us <+: p.tokens) ∧
    Blocked k us c'.tokens.head?

/-- The tokens of a phrase of category `k` that stand before a part of category `d`. -/
structure Frame (k d : Category) (us : List Token) (ahead : Option Token) : Prop where
  plug : ∀ q : Phrase d, ∃ p : Phrase k, us ++ q.tokens <+: p.tokens
  unplug : ∀ ⦃p : Phrase k⦄ ⦃rest xs : List Token⦄, xs.head? = ahead → us ++ xs = p.tokens ++ rest →
    Ends k rest → ∃ (q : Phrase d) (rest' : List Token), xs = q.tokens ++ rest' ∧ Ends d rest'

theorem Stuck.inside {k d : Category} {c c₁ : Cursor} {us : List Token} {r : Rejection}
    (stuck : Stuck d c₁ r) (past : Past c us c₁) (frame : Frame k d us c₁.tokens.head?) :
    Stuck k c r := by
  obtain ⟨vs, c₂, past', position, ⟨q, starts⟩, blocked⟩ := stuck
  refine ⟨us ++ vs, c₂, past.trans past', position, ?_, ?_⟩
  · obtain ⟨p, framed⟩ := frame.plug q
    exact ⟨p, ((List.prefix_append_right_inj us).2 starts).trans framed⟩
  · intro p rest xs head tokens ends
    have same : (vs ++ xs).head? = c₁.tokens.head? := by
      rw [past'.tokens, List.head?_append, List.head?_append, head]
    rw [List.append_assoc] at tokens
    obtain ⟨q', rest', tokens', ends'⟩ := frame.unplug same tokens ends
    exact blocked head tokens' ends'

namespace Frame
variable {ahead : Option Token} {tier : Tier} {c c' : Cursor}

/-- A part that a phrase can start with. -/
theorem of_start {k d : Category} (plug : ∀ q : Phrase d, ∃ p : Phrase k, q.tokens <+: p.tokens)
    (unplug : ∀ (p : Phrase k) (rest : List Token), Ends k rest →
      ∃ (q : Phrase d) (rest' : List Token), p.tokens ++ rest = q.tokens ++ rest' ∧ Ends d rest') :
    Frame k d [] ahead := by
  refine ⟨plug, fun p rest xs _ tokens ends => ?_⟩
  obtain ⟨q, rest', tokens', ends'⟩ := unplug p rest ends
  exact ⟨q, rest', tokens.trans tokens', ends'⟩

theorem condition : Frame .conditional .comparison [] ahead := by
  refine of_start (fun q => ⟨.plain q, List.prefix_rfl⟩) fun p rest ends => ?_
  cases p with
  | plain body => exact ⟨body, rest, rfl, ends.mono (by simp)⟩
  | choose condition question yes colon no => exact ⟨condition, _, by simp; rfl, by simp⟩

theorem yes (condition : Phrase .comparison) (question : Nat) :
    Frame .conditional .conditional (condition.tokens ++ [⟨.question, question⟩]) ahead := by
  refine ⟨fun q => ⟨.choose condition question q 0 default, ?_⟩, fun p rest xs _ tokens ends => ?_⟩
  · exact ⟨⟨.colon, 0⟩ :: (default : Phrase .conditional).tokens, by simp⟩
  · cases p with
    | plain body =>
      simp only [Phrase.tokens, List.append_assoc, List.singleton_append] at tokens
      obtain ⟨-, rfl⟩ := condition.cancels tokens (by simp) (ends.mono (by simp))
      exact (ends.not_head (by simp)).elim
    | choose condition' question' yes colon no =>
      simp only [Phrase.tokens, List.append_assoc, List.cons_append] at tokens
      obtain ⟨-, behind⟩ := condition.cancels tokens (by simp) (by simp)
      exact ⟨yes, _, (List.cons.inj behind).2, by simp⟩

theorem no (condition : Phrase .comparison) (question : Nat) (yes : Phrase .conditional) (colon : Nat) :
    Frame .conditional .conditional
      (condition.tokens ++ ⟨.question, question⟩ :: (yes.tokens ++ [⟨.colon, colon⟩])) ahead := by
  refine ⟨fun q => ⟨.choose condition question yes colon q, by simp⟩, fun p rest xs _ tokens ends => ?_⟩
  cases p with
  | plain body =>
    simp only [Phrase.tokens, List.append_assoc, List.cons_append] at tokens
    obtain ⟨-, rfl⟩ := condition.cancels tokens (by simp) (ends.mono (by simp))
    exact (ends.not_head (by simp)).elim
  | choose condition' question' yes' colon' no =>
    simp only [Phrase.tokens, List.append_assoc, List.cons_append] at tokens
    obtain ⟨-, behind⟩ := condition.cancels tokens (by simp) (by simp)
    obtain ⟨-, behind'⟩ := yes.cancels (List.cons.inj behind).2 (by simp) (by simp)
    exact ⟨no, rest, (List.cons.inj behind').2, ends⟩

theorem left : Frame .comparison (.chain .additive) [] ahead := by
  refine of_start (fun q => ⟨.single q, List.prefix_rfl⟩) fun p rest ends => ?_
  cases p with
  | single body => exact ⟨body, rest, rfl, ends.mono (by simp)⟩
  | compare left op sign right => exact ⟨left, _, by simp; rfl, by simp⟩

theorem right (left : Phrase (.chain .additive)) (op : Comparison) (sign : Nat) :
    Frame .comparison (.chain .additive) (left.tokens ++ [⟨.compare op, sign⟩]) ahead := by
  refine ⟨fun q => ⟨.compare left op sign q, by simp⟩, fun p rest xs _ tokens ends => ?_⟩
  cases p with
  | single body =>
    simp only [Phrase.tokens, List.append_assoc, List.singleton_append] at tokens
    obtain ⟨-, rfl⟩ := left.cancels tokens (by simp) (ends.mono (by simp))
    exact (ends.not_head (by simp)).elim
  | compare left' op' sign' right =>
    simp only [Phrase.tokens, List.append_assoc, List.cons_append] at tokens
    obtain ⟨-, behind⟩ := left.cancels tokens (by simp) (by simp)
    exact ⟨right, rest, (List.cons.inj behind).2, ends.mono (by simp)⟩

theorem first : Frame (.chain tier) (.operand tier) [] ahead := by
  refine of_start (fun q => ⟨.chain q .done, by simp⟩) fun p rest ends => ?_
  cases p with
  | chain first turns =>
    have ends' : Ends (.turns tier) rest := ends.mono (Nat.le_of_eq tier.looseness_chain.symm)
    exact ⟨first, turns.tokens ++ rest, by simp, turns.ends_turns ends'⟩

/-- The turns after the first operand. -/
theorem turns {first : Phrase (.operand tier)} (past : Past c first.tokens c')
    (settled : Settled (.operand tier) c c') :
    Frame (.chain tier) (.turns tier) first.tokens c'.tokens.head? := by
  refine ⟨fun q => ⟨.chain first q, by simp⟩, fun p rest xs head tokens ends => ?_⟩
  cases p with
  | chain first' turns =>
    have ends' : Ends (.turns tier) rest := ends.mono (Nat.le_of_eq tier.looseness_chain.symm)
    simp only [Phrase.tokens, List.append_assoc] at tokens
    obtain ⟨-, behind⟩ := settled.cancels past head tokens (turns.ends_turns ends')
    exact ⟨turns, rest, behind, ends'⟩

/-- The operand of a turn. -/
theorem operand {op : Arithmetic} (joins : tier.joins op = true) (sign : Nat) :
    Frame (.turns tier) (.operand tier) [⟨.arithmetic op, sign⟩] ahead := by
  refine ⟨fun q => ⟨.turn op joins sign q .done, by simp⟩, fun p rest xs _ tokens ends => ?_⟩
  cases p with
  | done =>
    simp only [Phrase.tokens, List.nil_append, List.singleton_append] at tokens
    subst tokens
    exact (ends.not_head (Nat.le_of_eq (Tier.looseness_of_joins joins))).elim
  | turn op' joins' sign' right more =>
    simp only [Phrase.tokens, List.append_assoc, List.cons_append] at tokens
    exact ⟨right, more.tokens ++ rest, (List.cons.inj tokens).2, more.ends_turns ends⟩

/-- The turns after a turn. -/
theorem more {op : Arithmetic} (joins : tier.joins op = true) (sign : Nat)
    {right : Phrase (.operand tier)} (past : Past c right.tokens c')
    (settled : Settled (.operand tier) c c') :
    Frame (.turns tier) (.turns tier) (⟨.arithmetic op, sign⟩ :: right.tokens) c'.tokens.head? := by
  refine ⟨fun q => ⟨.turn op joins sign right q, by simp⟩, fun p rest xs head tokens ends => ?_⟩
  cases p with
  | done =>
    simp only [Phrase.tokens, List.nil_append, List.cons_append] at tokens
    subst tokens
    exact (ends.not_head (Nat.le_of_eq (Tier.looseness_of_joins joins))).elim
  | turn op' joins' sign' right' more =>
    simp only [Phrase.tokens, List.append_assoc, List.cons_append] at tokens
    obtain ⟨-, behind⟩ := settled.cancels past head (List.cons.inj tokens).2 (more.ends_turns ends)
    exact ⟨more, rest, behind, ends⟩

theorem summand : Frame (.operand .additive) (.chain .multiplicative) [] ahead := by
  refine of_start (fun q => ⟨.summand q, List.prefix_rfl⟩) fun p rest ends => ?_
  cases p with
  | summand body => exact ⟨body, rest, rfl, ends.mono (by simp)⟩

theorem factor : Frame (.operand .multiplicative) .signed [] ahead := by
  refine of_start (fun q => ⟨.factor q, List.prefix_rfl⟩) fun p rest ends => ?_
  cases p with
  | factor body => exact ⟨body, rest, rfl, ends.mono (by simp)⟩

/-- A phrase without a minus before it. -/
theorem unsigned (noMinus : ahead.map Token.lexeme ≠ some (.arithmetic .subtract)) :
    Frame .signed .power [] ahead := by
  refine ⟨fun q => ⟨.unsigned q, List.prefix_rfl⟩, fun p rest xs head tokens ends => ?_⟩
  cases p with
  | unsigned body => exact ⟨body, rest, tokens, ends.mono (by simp)⟩
  | negate sign operand =>
    rw [← head, show xs = _ from tokens] at noMinus
    exact (noMinus rfl).elim

theorem negated (sign : Nat) : Frame .signed .signed [⟨.arithmetic .subtract, sign⟩] ahead := by
  refine ⟨fun q => ⟨.negate sign q, by simp⟩, fun p rest xs _ tokens ends => ?_⟩
  cases p with
  | unsigned body =>
    obtain ⟨t, more, start, primary⟩ := body.head_power
    simp only [Phrase.tokens, start, List.cons_append, List.cons.injEq] at tokens
    rw [← tokens.1] at primary
    cases primary
  | negate sign' operand => exact ⟨operand, rest, (List.cons.inj tokens).2, ends⟩

theorem base : Frame .power .primary [] ahead := by
  refine of_start (fun q => ⟨.bare q, List.prefix_rfl⟩) fun p rest ends => ?_
  cases p with
  | bare base => exact ⟨base, rest, rfl, ends.mono (by simp)⟩
  | power base sign exponent => exact ⟨base, _, by simp; rfl, by simp⟩

theorem exponent (base : Phrase .primary) (sign : Nat) :
    Frame .power .signed (base.tokens ++ [⟨.arithmetic .power, sign⟩]) ahead := by
  refine ⟨fun q => ⟨.power base sign q, by simp⟩, fun p rest xs _ tokens ends => ?_⟩
  cases p with
  | bare base' =>
    simp only [Phrase.tokens, List.append_assoc, List.singleton_append] at tokens
    obtain ⟨-, rfl⟩ := base.cancels tokens (by simp) (ends.mono (by simp))
    exact (ends.not_head (by simp)).elim
  | power base' sign' exponent =>
    simp only [Phrase.tokens, List.append_assoc, List.cons_append] at tokens
    obtain ⟨-, behind⟩ := base.cancels tokens (by simp) (by simp)
    exact ⟨exponent, rest, (List.cons.inj behind).2, ends⟩

/-- The expression in parentheses. -/
theorem body (opening : Nat) : Frame .primary .conditional [⟨.leftParen, opening⟩] ahead := by
  refine ⟨fun q => ⟨.parenthesised opening q 0, ⟨[⟨.rightParen, 0⟩], by simp⟩⟩,
    fun p rest xs _ tokens ends => ?_⟩
  cases p with
  | parenthesised opening' body closing =>
    simp only [Phrase.tokens, List.append_assoc, List.cons_append] at tokens
    exact ⟨body, _, (List.cons.inj tokens).2, by simp⟩
  | number _ _ => simp at tokens
  | reference _ _ => simp at tokens
  | call _ _ _ _ _ => simp at tokens

/-- The arguments of a call, if there are any. -/
theorem arguments (name : String) (start opening : Nat)
    (some : ahead.map Token.lexeme ≠ some .rightParen) :
    Frame .primary .argumentList [⟨.identifier name, start⟩, ⟨.leftParen, opening⟩] ahead := by
  refine ⟨fun q => ⟨.call name start opening (.someArguments q) 0, ⟨[⟨.rightParen, 0⟩], by simp⟩⟩,
    fun p rest xs head tokens ends => ?_⟩
  cases p with
  | call name' start' opening' arguments closing =>
    simp only [Phrase.tokens, List.append_assoc, List.cons_append, List.nil_append, List.cons.injEq] at tokens
    cases arguments with
    | noArguments =>
      rw [← head, tokens.2.2] at some
      exact (some rfl).elim
    | someArguments list => exact ⟨list, _, tokens.2.2, by simp⟩
  | reference _ _ =>
    simp only [Phrase.tokens, List.cons_append, List.nil_append, List.cons.injEq] at tokens
    obtain ⟨-, rfl⟩ := tokens
    exact (ends.not_head (by simp)).elim
  | number _ _ => simp at tokens
  | parenthesised _ _ _ => simp at tokens

theorem argument : Frame .argumentList .conditional [] ahead := by
  refine of_start (fun q => ⟨.lastArgument q, List.prefix_rfl⟩) fun p rest ends => ?_
  cases p with
  | lastArgument argument => exact ⟨argument, rest, rfl, ends.mono (by simp)⟩
  | nextArgument argument comma list => exact ⟨argument, _, by simp; rfl, by simp⟩

theorem others (argument : Phrase .conditional) (comma : Nat) :
    Frame .argumentList .argumentList (argument.tokens ++ [⟨.comma, comma⟩]) ahead := by
  refine ⟨fun q => ⟨.nextArgument argument comma q, by simp⟩, fun p rest xs _ tokens ends => ?_⟩
  cases p with
  | lastArgument argument' =>
    simp only [Phrase.tokens, List.append_assoc, List.singleton_append] at tokens
    obtain ⟨-, rfl⟩ := argument.cancels tokens (by simp) (ends.mono (by simp))
    exact (ends.not_head (by simp)).elim
  | nextArgument argument' comma' list =>
    simp only [Phrase.tokens, List.append_assoc, List.cons_append] at tokens
    obtain ⟨-, behind⟩ := argument.cancels tokens (by simp) (by simp)
    exact ⟨list, rest, (List.cons.inj behind).2, ends⟩

end Frame

end GameScoring.Formula
