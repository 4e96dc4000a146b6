import GameScoring.Proofs.Formula.Acceptance
import GameScoring.Proofs.Formula.Placement
import GameScoring.Proofs.Formula.Scanning

/-!
# Texts that spell phrases

A text spells a phrase if it is scanned as the lexemes of the phrase wherever it starts. There is
one step for each rule of the grammar: texts that spell the parts of a phrase are put together to
one that spells the phrase, with separators at the seams. A text that spells an expression is
accepted with the tree of the expression, if it keeps the limits.
-/
namespace GameScoring.Formula
open Text

/-- Wherever they start, the characters are scanned as these lexemes. -/
def Yields (cs : List Char) (ls : List Lexeme) : Prop :=
  ∀ n, ∃ ts, Token.scanFrom n cs = .ok ts ∧ lexemes ts = ls

namespace Yields
variable {c : Char} {cs rest : List Char} {l : Lexeme} {ls ms : List Lexeme}

theorem nil : Yields [] [] := fun n => ⟨[], by rw [Token.scanFrom], rfl⟩

theorem blank (isBlank : isBlank c = true) (h : Yields cs ls) : Yields (c :: cs) ls := by
  intro n
  rw [Token.scanFrom, if_pos isBlank]
  exact h (n + 1)

theorem lexeme {length : Nat} (visible : isBlank c = false)
    (found : Lexeme.leading? c cs = some (l, length)) (h : Yields (cs.drop length) ls) :
    Yields (c :: cs) (l :: ls) := by
  intro n
  obtain ⟨ts, scans, same⟩ := h (n + 1 + length)
  refine ⟨⟨l, n⟩ :: ts, ?_, congrArg (l :: ·) same⟩
  rw [Token.scanFrom, visible, found]
  simp only [scans]
  rfl

/-- What is scanned in one place is scanned in all places. -/
theorem of_scanFrom {n : Nat} {ts : List Token} (scans : Token.scanFrom n cs = .ok ts) :
    Yields cs (lexemes ts) := by
  induction n, cs using Token.scanFrom.induct generalizing ts with
  | case1 n =>
    rw [Token.scanFrom] at scans
    cases scans
    exact .nil
  | case2 n first more isBlank ih =>
    rw [Token.scanFrom, if_pos isBlank] at scans
    exact (ih scans).blank isBlank
  | case3 n first more visible unknown =>
    rw [Token.scanFrom, if_neg visible, unknown] at scans
    cases scans
  | case4 n first more visible l length found ih =>
    rw [Token.scanFrom, if_neg visible, found] at scans
    obtain ⟨later, scanned, same⟩ := ok_of_bind scans
    cases same
    exact .lexeme (Bool.eq_false_iff.2 visible) found (ih scanned)

theorem append (h : Yields cs ls) (separates : Separates c) (h' : Yields (c :: rest) ms) :
    Yields (cs ++ c :: rest) (ls ++ ms) := by
  intro n
  obtain ⟨ts, scans, same⟩ := h n
  obtain ⟨us, scans', same'⟩ := h' (n + cs.length)
  refine ⟨ts ++ us, ?_, ?_⟩
  · rw [Token.scanFrom_append separates scans, scans']
    rfl
  · rw [lexemes, List.map_append, ← same, ← same']

/-! ## Marks and words -/

theorem mark (visible : isBlank c = false) (found : Lexeme.leading? c cs = some (l, 0))
    (h : Yields cs ls) : Yields (c :: cs) (l :: ls) := .lexeme visible found h

theorem opening (h : Yields cs ls) : Yields ('(' :: cs) (.leftParen :: ls) := .mark (by decide) rfl h

theorem closing (h : Yields cs ls) : Yields (')' :: cs) (.rightParen :: ls) := .mark (by decide) rfl h

theorem comma (h : Yields cs ls) : Yields (',' :: cs) (.comma :: ls) := .mark (by decide) rfl h

theorem question (h : Yields cs ls) : Yields ('?' :: cs) (.question :: ls) := .mark (by decide) rfl h

theorem colon (h : Yields cs ls) : Yields (':' :: cs) (.colon :: ls) := .mark (by decide) rfl h

theorem space (h : Yields cs ls) : Yields (' ' :: cs) ls := .blank (by decide) h

theorem word {text : String} (scans : (Token.scan text).toOption = some [⟨l, 0⟩]) :
    Yields text.toList [l] := of_scanFrom (ok_of_toOption scans)

theorem arithmetic (op : Arithmetic) : Yields op.symbol.toList [.arithmetic op] := by
  cases op <;> exact word (by decide +kernel)

theorem compare (op : Comparison) : Yields op.symbol.toList [.compare op] := by
  cases op <;> exact word (by decide +kernel)

theorem name (f : Function) : Yields f.name.toList [.identifier f.name] := by
  cases f <;> exact word (by decide +kernel)

end Yields

theorem separates_space : Separates ' ' := by constructor <;> decide

theorem separates_opening : Separates '(' := by constructor <;> decide

theorem separates_closing : Separates ')' := by constructor <;> decide

theorem separates_comma : Separates ',' := by constructor <;> decide

/-- A sign with a space on both sides of it. -/
theorem Yields.between {cs ds sign : List Char} {l : Lexeme} {ls ms : List Lexeme} (h : Yields cs ls)
    (hs : Yields sign [l]) (h' : Yields ds ms) :
    Yields (cs ++ ' ' :: (sign ++ ' ' :: ds)) (ls ++ l :: ms) :=
  h.append separates_space (hs.append separates_space h'.space).space

/-- The characters are scanned as a phrase with a meaning. -/
def Spells (k : Category) (cs : List Char) (m : k.Meaning) : Prop :=
  ∃ p : Phrase k, p.meaning? = some m ∧ Yields cs (lexemes p.tokens)

namespace Spells
variable {cs ds es : List Char} {t u v : Node} {ts : List Node} {tier : Tier}

/-! ## One rule inside the next looser one -/

theorem bare (h : Spells .primary cs t) : Spells .power cs t := by
  obtain ⟨p, means, yields⟩ := h
  exact ⟨.bare p, means, yields⟩

theorem unsigned (h : Spells .power cs t) : Spells .signed cs t := by
  obtain ⟨p, means, yields⟩ := h
  exact ⟨.unsigned p, means, yields⟩

theorem factor (h : Spells .signed cs t) : Spells (.operand .multiplicative) cs t := by
  obtain ⟨p, means, yields⟩ := h
  exact ⟨.factor p, means, yields⟩

theorem alone (h : Spells (.operand tier) cs t) : Spells (.chain tier) cs t := by
  obtain ⟨p, means, yields⟩ := h
  refine ⟨.chain p .done, Phrase.meaning?_chain.2 ⟨t, id, means, rfl, rfl⟩, ?_⟩
  rw [Phrase.tokens, Phrase.tokens, List.append_nil]
  exact yields

theorem summand (h : Spells (.chain .multiplicative) cs t) : Spells (.operand .additive) cs t := by
  obtain ⟨p, means, yields⟩ := h
  exact ⟨.summand p, means, yields⟩

theorem single (h : Spells (.chain .additive) cs t) : Spells .comparison cs t := by
  obtain ⟨p, means, yields⟩ := h
  exact ⟨.single p, means, yields⟩

theorem plain (h : Spells .comparison cs t) : Spells .conditional cs t := by
  obtain ⟨p, means, yields⟩ := h
  exact ⟨.plain p, means, yields⟩

/-! ## The rules that put phrases together -/

theorem parenthesised (h : Spells .conditional cs t) : Spells .primary ('(' :: (cs ++ [')'])) t := by
  obtain ⟨p, means, yields⟩ := h
  refine ⟨.parenthesised 0 p 0, means, ?_⟩
  simpa using (yields.append separates_closing (.closing .nil)).opening

theorem negated (h : Spells .signed cs t) : Spells .signed ('-' :: cs) (Node.negate 0 t) := by
  obtain ⟨p, means, yields⟩ := h
  exact ⟨.negate 0 p, Phrase.meaning?_negate.2 ⟨t, means, rfl⟩, .mark (by decide) rfl yields⟩

theorem power (hl : Spells .primary cs t) (hr : Spells .signed ds u) :
    Spells .power (cs ++ ' ' :: (Arithmetic.power.symbol.toList ++ ' ' :: ds))
      (Node.arithmetic 0 .power t u) := by
  obtain ⟨p, means, yields⟩ := hl
  obtain ⟨q, means', yields'⟩ := hr
  refine ⟨.power p 0 q, Phrase.meaning?_power.2 ⟨t, u, means, means', rfl⟩, ?_⟩
  simpa using yields.between (.arithmetic .power) yields'

theorem joined {op : Arithmetic} (joins : tier.joins op = true) (hl : Spells (.operand tier) cs t)
    (hr : Spells (.operand tier) ds u) :
    Spells (.chain tier) (cs ++ ' ' :: (op.symbol.toList ++ ' ' :: ds)) (Node.arithmetic 0 op t u) := by
  obtain ⟨p, means, yields⟩ := hl
  obtain ⟨q, means', yields'⟩ := hr
  have turn : (Phrase.turn op joins 0 q .done).meaning? = some (Node.arithmetic 0 op · u) :=
    Phrase.meaning?_turn.2 ⟨u, id, means', rfl, rfl⟩
  refine ⟨.chain p (.turn op joins 0 q .done), Phrase.meaning?_chain.2 ⟨t, _, means, turn, rfl⟩, ?_⟩
  simpa using yields.between (.arithmetic op) yields'

theorem compare (op : Comparison) (hl : Spells (.chain .additive) cs t)
    (hr : Spells (.chain .additive) ds u) :
    Spells .comparison (cs ++ ' ' :: (op.symbol.toList ++ ' ' :: ds)) (Node.compare 0 op t u) := by
  obtain ⟨p, means, yields⟩ := hl
  obtain ⟨q, means', yields'⟩ := hr
  refine ⟨.compare p op 0 q, Phrase.meaning?_compare.2 ⟨t, u, means, means', rfl⟩, ?_⟩
  simpa using yields.between (.compare op) yields'

theorem choose (hc : Spells .comparison cs t) (hy : Spells .conditional ds u)
    (hn : Spells .conditional es v) :
    Spells .conditional (cs ++ ' ' :: '?' :: ' ' :: (ds ++ ' ' :: ':' :: ' ' :: es))
      (Node.choose 0 t u v) := by
  obtain ⟨p, means, yields⟩ := hc
  obtain ⟨q, means', yields'⟩ := hy
  obtain ⟨r, means'', yields''⟩ := hn
  refine ⟨.choose p 0 q 0 r, Phrase.meaning?_choose.2 ⟨t, u, v, means, means', means'', rfl⟩, ?_⟩
  have branches := yields'.append separates_space yields''.space.colon.space
  simpa using yields.append separates_space branches.space.question.space

theorem lastArgument (h : Spells .conditional cs t) : Spells .argumentList cs [t] := by
  obtain ⟨p, means, yields⟩ := h
  exact ⟨.lastArgument p, Phrase.meaning?_lastArgument.2 ⟨t, means, rfl⟩, yields⟩

theorem nextArgument (h : Spells .conditional cs t) (h' : Spells .argumentList ds ts) :
    Spells .argumentList (cs ++ ',' :: ' ' :: ds) (t :: ts) := by
  obtain ⟨p, means, yields⟩ := h
  obtain ⟨q, means', yields'⟩ := h'
  refine ⟨.nextArgument p 0 q, Phrase.meaning?_nextArgument.2 ⟨t, ts, means, means', rfl⟩, ?_⟩
  simpa using yields.append separates_comma yields'.space.comma

theorem call {f : Function} (accepted : f.accepts ts.length = true) (h : Spells .argumentList cs ts) :
    Spells .primary (f.name.toList ++ '(' :: (cs ++ [')'])) (Node.call 0 f ts) := by
  obtain ⟨p, means, yields⟩ := h
  have known := Function.ofName?_name f
  refine ⟨.call f.name 0 0 (.someArguments p) 0,
    Phrase.meaning?_call.2 ⟨f, ts, known, means, accepted, rfl⟩, ?_⟩
  have enclosed := (yields.append separates_closing (.closing .nil)).opening
  simpa using (Yields.name f).append separates_opening enclosed

/-- Operands of an operator are phrases that bind as tightly as can be. -/
theorem arithmetic (op : Arithmetic) (hl : Spells .primary cs t) (hr : Spells .primary ds u) :
    Spells (.chain .additive) (cs ++ ' ' :: (op.symbol.toList ++ ' ' :: ds))
      (Node.arithmetic 0 op t u) := by
  have hl' : Spells (.operand .multiplicative) cs t := hl.bare.unsigned.factor
  have hr' : Spells (.operand .multiplicative) ds u := hr.bare.unsigned.factor
  cases op with
  | add => exact hl'.alone.summand.joined rfl hr'.alone.summand
  | subtract => exact hl'.alone.summand.joined rfl hr'.alone.summand
  | multiply => exact (hl'.joined rfl hr').summand.alone
  | divide => exact (hl'.joined rfl hr').summand.alone
  | power => exact (hl.power hr.bare.unsigned).unsigned.factor.alone.summand.alone

theorem expression (h : Spells .signed cs t) : Spells (.chain .additive) cs t :=
  h.factor.alone.summand.alone

theorem argumentList {first : Formula} {others : List Formula}
    (h : ∀ f ∈ first :: others, Spells .conditional f.text.toList f.root) :
    Spells .argumentList (", ".intercalate ((first :: others).map text)).toList
      ((first :: others).map root) := by
  induction others generalizing first with
  | nil => simpa using lastArgument (h first (List.mem_cons_self ..))
  | cons second others ih =>
    obtain ⟨one, more⟩ := List.forall_mem_cons.1 h
    simpa using one.nextArgument (ih more)

end Spells

/-! ## Accepted texts -/

/-- The lexemes of a text that is accepted are those of a phrase for its tree. -/
theorem Spells.of_ofText {text : String} {f : Formula} (accepted : ofText text = .ok f) :
    Spells .conditional text.toList f.root := by
  obtain ⟨p, writes, -⟩ := ofText_ok_iff.1 accepted
  exact ⟨p, writes.means, .of_scanFrom writes.scans⟩

theorem isBlankText_of_yields {text : String} {l : Lexeme} {ls : List Lexeme}
    (yields : Yields text.toList (l :: ls)) : isBlankText text = false := by
  have scans_blank (n : Nat) (cs : List Char) (h : cs.all isBlank = true) :
      Token.scanFrom n cs = .ok [] := by
    induction cs generalizing n with
    | nil => rw [Token.scanFrom]
    | cons c cs ih =>
      rw [List.all_cons, Bool.and_eq_true] at h
      rw [Token.scanFrom, if_pos h.1, ih _ h.2]
  refine Bool.eq_false_iff.2 fun blank => ?_
  obtain ⟨ts, scans, same⟩ := yields 0
  rw [scans_blank 0 _ blank] at scans
  cases scans
  cases same

/-- A text with the lexemes of a phrase that stands for a tree is accepted with this tree, or it
breaks a limit. -/
theorem Spells.ofText {text : String} {t : Node} (spells : Spells .conditional text.toList t) :
    (∃ f, ofText text = .ok f ∧ f.root.bare = t.bare) ∨
      ∃ r, Formula.ofText text = .error r ∧ r.report.kind = .complexity := by
  obtain ⟨p, means, yields⟩ := spells
  obtain ⟨ts, scans, same⟩ := yields 0
  obtain ⟨q, rfl, alike⟩ := p.movable _ same
  obtain ⟨u, means', bare⟩ := alike t means
  have notBlank : isBlankText text = false := by
    obtain ⟨first, rest, tokens, -⟩ := p.head_conditional
    rw [tokens] at yields
    exact isBlankText_of_yields yields
  have writes : Writes text q u := ⟨notBlank, scans, means'⟩
  by_cases limits : text.length ≤ maxLength ∧ q.Limits u
  · exact .inl ⟨⟨text, u, u.size, u.variableNames⟩,
      ofText_ok_iff.2 ⟨q, writes, limits.1, limits.2, rfl⟩, bare.symm⟩
  · exact .inr (accepts_exactly_the_grammar.2.2 text q u writes limits)

end GameScoring.Formula
