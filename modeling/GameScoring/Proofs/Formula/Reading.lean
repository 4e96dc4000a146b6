import GameScoring.Proofs.Formula.Unambiguity

/-!
# The parser reads phrases

Where the tokens of a phrase stand and the phrase ends, the rule of its category reads
exactly these tokens. It gives what the phrase stands for if the limits are kept; else it
rejects the formula, and if the phrase stands for something, then as too complex.
-/
namespace GameScoring.Formula
open Formula.Parser

/-- The outcome of a parser that is to read a phrase: `value?` is what the phrase stands
for, `fits` says that it keeps the limits, and `after` is the place behind it. -/
def Reads {α : Type} (value? : Option α) (fits : α → Prop) (after : Cursor) :
    Except Rejection (α × Cursor) → Prop
  | .ok (a, c) => value? = some a ∧ fits a ∧ c = after
  | .error r => ∀ a, value? = some a → ¬ fits a ∧ r.reason.isComplexity = true

namespace Reads
variable {α β : Type} {value? : Option α} {fits : α → Prop} {after mid : Cursor}

theorem ok {a : α} (means : value? = some a) (h : fits a) : Reads value? fits after (.ok (a, after)) :=
  ⟨means, h, rfl⟩

theorem none {r : Rejection} (h : value? = .none) : Reads value? fits after (.error r) :=
  fun a ha => by rw [h] at ha; cases ha

theorem tooComplex {reason : Reason} {position : Option Nat} (h : ∀ a, value? = some a → ¬ fits a)
    (complex : reason.isComplexity = true) :
    Reads value? fits after (.error ⟨reason, position⟩) :=
  fun a ha => ⟨h a ha, complex⟩

theorem bind {value'? : Option β} {fits' : β → Prop} {x : Parser α} {f : α → Parser β} {c : Cursor}
    (first : Reads value? fits mid (x c))
    (next : ∀ a, value? = some a → fits a → Reads value'? fits' after (f a mid))
    (back : ∀ b, value'? = some b → ∃ a, value? = some a ∧ (fits' b → fits a)) :
    Reads value'? fits' after ((x >>= f) c) := by
  show Reads value'? fits' after (Except.bind (x c) fun (a, c) => f a c)
  cases h : x c with
  | ok result =>
    obtain ⟨a, c'⟩ := result
    rw [h] at first
    obtain ⟨means, ok, rfl⟩ := first
    exact next a means ok
  | error r =>
    rw [h] at first
    intro b hb
    obtain ⟨a, ha, weaken⟩ := back b hb
    obtain ⟨unfit, complex⟩ := first a ha
    exact ⟨fun ok => unfit (weaken ok), complex⟩

theorem ok_iff {x : Except Rejection (α × Cursor)} (h : Reads value? fits after x) {a : α} {c : Cursor} :
    x = .ok (a, c) ↔ value? = some a ∧ fits a ∧ c = after := by
  constructor
  · rintro rfl
    exact h
  · rintro ⟨means, fit, rfl⟩
    cases x with
    | ok result =>
      obtain ⟨b, c'⟩ := result
      obtain ⟨means', -, rfl⟩ := h
      rw [Option.some.inj (means.symm.trans means')]
    | error r => exact absurd fit (h a means).1

theorem error_of_unfit {x : Except Rejection (α × Cursor)} (h : Reads value? fits after x) {a : α}
    (means : value? = some a) (unfit : ¬ fits a) :
    ∃ r, x = .error r ∧ r.reason.isComplexity = true := by
  cases x with
  | ok result =>
    obtain ⟨means', fit, -⟩ := h
    cases means.symm.trans means'
    exact absurd fit unfit
  | error r => exact ⟨r, rfl, (h a means).2⟩

theorem congr {value'? : Option α} {fits' : α → Prop} {after' : Cursor}
    {x : Except Rejection (α × Cursor)} (h : Reads value? fits after x) (value : value? = value'?)
    (same : ∀ a, fits a ↔ fits' a) (place : after = after') : Reads value'? fits' after' x := by
  subst value place
  rwa [show fits' = fits from funext fun a => propext (same a).symm]

end Reads

namespace Parser
variable {α : Type} {l : Lexeme} {start finish nodes : Nat} {rest : List Token}

theorem run_position (f : Nat → Parser α) :
    (position >>= f) ⟨rest, finish, nodes⟩ =
      f ((rest.head?.map Token.position).getD finish) ⟨rest, finish, nodes⟩ := rfl

theorem run_peek (f : Option Lexeme → Parser α) :
    (peek >>= f) ⟨rest, finish, nodes⟩ =
      f (rest.head?.map Token.lexeme) ⟨rest, finish, nodes⟩ := rfl

theorem run_position_cons (f : Nat → Parser α) :
    (position >>= f) ⟨⟨l, start⟩ :: rest, finish, nodes⟩ =
      f start ⟨⟨l, start⟩ :: rest, finish, nodes⟩ := rfl

theorem run_peek_cons (f : Option Lexeme → Parser α) :
    (peek >>= f) ⟨⟨l, start⟩ :: rest, finish, nodes⟩ =
      f (some l) ⟨⟨l, start⟩ :: rest, finish, nodes⟩ := rfl

theorem run_advance_cons (f : Unit → Parser α) :
    (advance >>= f) ⟨⟨l, start⟩ :: rest, finish, nodes⟩ = f () ⟨rest, finish, nodes⟩ := rfl

theorem run_ite {β : Type} {p : Prop} [Decidable p] (x y : Parser α) (f : α → Parser β) :
    (if p then x >>= f else y >>= f) = (if p then x else y) >>= f := by
  split <;> rfl

theorem run_pure (a : α) (c : Cursor) : (pure a : Parser α) c = .ok (a, c) := rfl

end Parser

namespace Tier

/-- The rule that reads an operand. -/
def operandRule : Tier → Level → Parser Node
  | additive => Level.term
  | multiplicative => Level.signed

/-- The rule that reads operands and the operators between them. -/
def chainRule : Tier → Level → Parser Node
  | additive => Level.additive
  | multiplicative => Level.term

theorem chainRule_eq (tier : Tier) (inner : Level) : tier.chainRule inner =
    tier.operandRule inner >>= Level.chain (tier.operandRule inner) tier.joins (maxNodes + 1) := by
  cases tier <;> rfl

end Tier

/-- The limits on what has been read: the number of nodes, the levels of nesting and the depth
of a tree. -/
structure Fits (allowed nodes nesting depth : Nat) : Prop where
  nodes_le : nodes ≤ maxNodes
  nesting_le : nesting ≤ allowed
  depth_le : depth ≤ maxDepth

theorem Fits.mono {allowed nodes nodes' nesting nesting' depth depth' : Nat}
    (h : Fits allowed nodes nesting depth) (hn : nodes' ≤ nodes) (hk : nesting' ≤ nesting)
    (hd : depth' ≤ depth) : Fits allowed nodes' nesting' depth' :=
  ⟨Nat.le_trans hn h.nodes_le, Nat.le_trans hk h.nesting_le, Nat.le_trans hd h.depth_le⟩

theorem reads_build {tree? : Option Node} {node : Node} {tokens : List Token}
    {finish allowed nodes nodes' nesting : Nat} (means : tree? = some node) (count : nodes' = nodes + 1)
    (nested : nesting ≤ allowed) :
    Reads tree? (fun t => Fits allowed nodes' nesting t.depth) ⟨tokens, finish, nodes'⟩
      (build node ⟨tokens, finish, nodes⟩) := by
  subst means count
  rw [build]
  split
  next many => exact .tooComplex (fun _ _ fits => Nat.not_lt.2 fits.nodes_le many) rfl
  next few =>
    split
    next deep =>
      refine .tooComplex (fun t ht fits => Nat.not_lt.2 fits.depth_le ?_) rfl
      exact Option.some.inj ht ▸ deep
    next shallow => exact .ok rfl ⟨Nat.not_lt.1 few, nested, Nat.not_lt.1 shallow⟩

namespace Phrase

/-- A rule reads a phrase that stands for a tree. -/
def ReadBy {c : Category} (p : Phrase c) (tree? : Option Node) (rule : Level → Parser Node) : Prop :=
  ∀ ⦃allowed nodes finish : Nat⦄ ⦃rest : List Token⦄, Ends c rest → nodes ≤ maxNodes →
    Reads tree? (fun t => Fits allowed (nodes + p.nodeCount) p.nesting t.depth)
      ⟨rest, finish, nodes + p.nodeCount⟩
      (rule (Level.within allowed) ⟨p.tokens ++ rest, finish, nodes⟩)

/-- The rule of its category reads a phrase. The repetitions read turns after the tree to
their left and arguments after each other, as long as the node limit leaves turns. -/
def Read : {c : Category} → Phrase c → Prop
  | .conditional, p => p.ReadBy p.meaning? Level.choice
  | .comparison, p => p.ReadBy p.meaning? Level.comparison
  | .chain tier, p => p.ReadBy p.meaning? tier.chainRule
  | .operand tier, p => p.ReadBy p.meaning? tier.operandRule
  | .signed, p => p.ReadBy p.meaning? Level.signed
  | .power, p => p.ReadBy p.meaning? Level.power
  | .primary, p => p.ReadBy p.meaning? Level.primary
  | .turns tier, p => ∀ ⦃allowed nodes finish turns : Nat⦄ ⦃rest : List Token⦄ ⦃left : Node⦄,
      Ends (.turns tier) rest → nodes ≤ maxNodes → maxNodes < nodes + turns → left.depth ≤ maxDepth →
      Reads (p.meaning?.map (· left)) (fun t => Fits allowed (nodes + p.nodeCount) p.nesting t.depth)
        ⟨rest, finish, nodes + p.nodeCount⟩
        (Level.chain (tier.operandRule (Level.within allowed)) tier.joins turns left
          ⟨p.tokens ++ rest, finish, nodes⟩)
  | .arguments, p => ∀ ⦃allowed nodes finish closing : Nat⦄ ⦃rest : List Token⦄, nodes ≤ maxNodes →
      Reads p.meaning? (fun ts => Fits allowed (nodes + p.nodeCount) p.nesting (Node.deepest ts))
        ⟨⟨.rightParen, closing⟩ :: rest, finish, nodes + p.nodeCount⟩
        ((if (p.tokens ++ ⟨.rightParen, closing⟩ :: rest).head?.map Token.lexeme = some .rightParen
          then pure [] else (Level.within allowed).arguments (maxNodes + 1))
          ⟨p.tokens ++ ⟨.rightParen, closing⟩ :: rest, finish, nodes⟩)
  | .argumentList, p => ∀ ⦃allowed nodes finish turns : Nat⦄ ⦃rest : List Token⦄,
      Ends .argumentList rest → nodes ≤ maxNodes → maxNodes < nodes + turns →
      Reads p.meaning? (fun ts => Fits allowed (nodes + p.nodeCount) p.nesting (Node.deepest ts))
        ⟨rest, finish, nodes + p.nodeCount⟩
        ((Level.within allowed).arguments turns ⟨p.tokens ++ rest, finish, nodes⟩)

/-- One level further in, a phrase needs one level more. -/
private theorem ReadBy.inside {c : Category} {p : Phrase c} {tree? : Option Node}
    {rule : Level → Parser Node} (enter : Level → Nat → Parser Node) (hp : p.ReadBy tree? rule)
    (opener : Nat) (beyond : enter (Level.within 0) opener = reject .nestedTooDeep opener)
    (within : ∀ allowed, enter (Level.within (allowed + 1)) opener = rule (Level.within allowed))
    {allowed nodes finish : Nat} {rest : List Token} (ends : Ends c rest) (bound : nodes ≤ maxNodes) :
    Reads tree? (fun t => Fits allowed (nodes + p.nodeCount) (p.nesting + 1) t.depth)
      ⟨rest, finish, nodes + p.nodeCount⟩
      (enter (Level.within allowed) opener ⟨p.tokens ++ rest, finish, nodes⟩) := by
  cases allowed with
  | zero =>
    rw [beyond]
    exact .tooComplex (fun _ _ fits => absurd fits.nesting_le (by omega)) rfl
  | succ allowed =>
    rw [within]
    refine (hp ends bound).congr rfl (fun t => ?_) rfl
    exact ⟨fun h => ⟨h.nodes_le, Nat.succ_le_succ h.nesting_le, h.depth_le⟩,
      fun h => ⟨h.nodes_le, Nat.le_of_succ_le_succ h.nesting_le, h.depth_le⟩⟩

private theorem Read.conditional {p : Phrase .conditional} (hp : p.Read) (opener : Nat)
    {allowed nodes finish : Nat} {rest : List Token} (ends : Ends .conditional rest)
    (bound : nodes ≤ maxNodes) :
    Reads p.meaning? (fun t => Fits allowed (nodes + p.nodeCount) (p.nesting + 1) t.depth)
      ⟨rest, finish, nodes + p.nodeCount⟩
      ((Level.within allowed).conditional opener ⟨p.tokens ++ rest, finish, nodes⟩) :=
  ReadBy.inside Level.conditional hp opener rfl (fun _ => rfl) ends bound

private theorem Read.unary {p : Phrase .signed} (hp : p.Read) (opener : Nat)
    {allowed nodes finish : Nat} {rest : List Token} (ends : Ends .signed rest)
    (bound : nodes ≤ maxNodes) :
    Reads p.meaning? (fun t => Fits allowed (nodes + p.nodeCount) (p.nesting + 1) t.depth)
      ⟨rest, finish, nodes + p.nodeCount⟩
      ((Level.within allowed).unary opener ⟨p.tokens ++ rest, finish, nodes⟩) :=
  ReadBy.inside Level.unary hp opener rfl (fun _ => rfl) ends bound

theorem Read.expression {p : Phrase .conditional} (hp : p.Read)
    {allowed nodes finish : Nat} {rest : List Token} (ends : Ends .conditional rest)
    (bound : nodes ≤ maxNodes) :
    Reads p.meaning? (fun t => Fits allowed (nodes + p.nodeCount) (p.nesting + 1) t.depth)
      ⟨rest, finish, nodes + p.nodeCount⟩
      ((Level.within allowed).expression ⟨p.tokens ++ rest, finish, nodes⟩) := by
  rw [Level.expression, run_position]
  exact hp.conditional _ ends bound

private theorem Read.plain {body : Phrase .comparison} (hb : body.Read) : (plain body).Read := by
  intro allowed nodes finish rest ends bound
  rw [Level.choice]
  refine .bind (hb (ends.mono (by simp)) bound) ?_ ?_
  · intro t means fits
    rw [run_position, run_peek, if_neg (ends.ne_head (by simp))]
    exact .ok means fits
  · exact fun t means => ⟨t, means, id⟩

private theorem Read.choose {condition : Phrase .comparison} {yes no : Phrase .conditional}
    (hc : condition.Read) (hy : yes.Read) (hn : no.Read) (question colon : Nat) :
    (choose condition question yes colon no).Read := by
  intro allowed nodes finish rest ends bound
  simp only [tokens, List.append_assoc, List.cons_append]
  rw [Level.choice]
  refine .bind (hc (by simp) bound) ?_ ?_
  · intro c means fits
    rw [run_position_cons, run_peek_cons, if_pos rfl, run_advance_cons]
    refine .bind (hy.conditional question (by simp) fits.nodes_le) ?_ ?_
    · intro y means' fits'
      rw [run_peek_cons, if_pos rfl, run_advance_cons]
      refine .bind (hn.conditional question ends fits'.nodes_le) ?_ ?_
      · intro n means'' fits''
        refine reads_build (by simp [means, means', means'']) (by simp only [nodeCount]; omega) ?_
        have nested := fits'.nesting_le
        have nested' := fits''.nesting_le
        exact Nat.max_le.2 ⟨fits.nesting_le, by omega⟩
      · intro t ht
        obtain ⟨_, _, n, -, -, hn, rfl⟩ := meaning?_choose.1 ht
        refine ⟨n, hn, fun h => h.mono ?_ ?_ ?_⟩
        · simp only [nodeCount]; omega
        · simp only [nesting]; omega
        · rw [Node.depth_choose]; omega
    · intro t ht
      obtain ⟨_, y, _, -, hy, -, rfl⟩ := meaning?_choose.1 ht
      refine ⟨y, hy, fun h => h.mono ?_ ?_ ?_⟩
      · simp only [nodeCount]; omega
      · simp only [nesting]; omega
      · rw [Node.depth_choose]; omega
  · intro t ht
    obtain ⟨c, _, _, hc, -, -, rfl⟩ := meaning?_choose.1 ht
    refine ⟨c, hc, fun h => h.mono ?_ ?_ ?_⟩
    · simp only [nodeCount]; omega
    · simp only [nesting]; omega
    · rw [Node.depth_choose]; omega

private theorem Read.single {body : Phrase (.chain .additive)} (hb : body.Read) :
    (single body).Read := by
  intro allowed nodes finish rest ends bound
  rw [Level.comparison]
  refine .bind (hb (ends.mono (by simp)) bound) ?_ ?_
  · intro t means fits
    rw [run_position, run_peek]
    generalize head : rest.head?.map Token.lexeme = found
    split
    next op => exact absurd head (ends.ne_head (by simp))
    next => exact .ok means fits
  · exact fun t means => ⟨t, means, id⟩

private theorem Read.compare {left right : Phrase (.chain .additive)} (hl : left.Read)
    (hr : right.Read) (op : Comparison) (sign : Nat) : (compare left op sign right).Read := by
  intro allowed nodes finish rest ends bound
  simp only [tokens, List.append_assoc, List.cons_append]
  rw [Level.comparison]
  refine .bind (hl (by simp) bound) ?_ ?_
  · intro l means fits
    rw [run_position_cons, run_peek_cons]
    dsimp only
    rw [run_advance_cons]
    refine .bind (hr (ends.mono (by simp)) fits.nodes_le) ?_ ?_
    · intro r means' fits'
      rw [run_peek]
      generalize head : rest.head?.map Token.lexeme = found
      split
      next op' => exact absurd head (ends.ne_head (by simp))
      next =>
        refine reads_build (by simp [means, means']) (by simp only [nodeCount]; omega) ?_
        exact Nat.max_le.2 ⟨fits.nesting_le, fits'.nesting_le⟩
    · intro t ht
      obtain ⟨_, r, -, hr, rfl⟩ := meaning?_compare.1 ht
      refine ⟨r, hr, fun h => h.mono ?_ ?_ ?_⟩
      · simp only [nodeCount]; omega
      · simp only [nesting]; omega
      · rw [Node.depth_compare]; omega
  · intro t ht
    obtain ⟨l, _, hl, -, rfl⟩ := meaning?_compare.1 ht
    refine ⟨l, hl, fun h => h.mono ?_ ?_ ?_⟩
    · simp only [nodeCount]; omega
    · simp only [nesting]; omega
    · rw [Node.depth_compare]; omega

/-- Each turn makes the tree to its left deeper. -/
private theorem depth_le_of_turns {tier : Tier} : (p : Phrase (.turns tier)) → {f : Node → Node} →
    p.meaning? = some f → ∀ left : Node, left.depth ≤ (f left).depth
  | .done, f, h, left => by
    cases h
    exact Nat.le_refl _
  | .turn op joins sign right rest, f, h, left => by
    obtain ⟨r, g, -, hg, rfl⟩ := meaning?_turn.1 h
    have deeper := rest.depth_le_of_turns hg (Node.arithmetic sign op left r)
    rw [Node.depth_arithmetic] at deeper
    show left.depth ≤ (g (Node.arithmetic sign op left r)).depth
    omega

private theorem Read.chain {tier : Tier} {first : Phrase (.operand tier)}
    {more : Phrase (.turns tier)} (hf : first.Read) (hm : more.Read) : (chain first more).Read := by
  intro allowed nodes finish rest ends bound
  have ends_more : Ends (.turns tier) rest := ends.mono (Nat.le_of_eq tier.looseness_chain.symm)
  rw [tokens, List.append_assoc, Tier.chainRule_eq]
  refine .bind (hf (more.ends_turns ends_more) bound) ?_ ?_
  · intro u means fits
    refine (hm ends_more fits.nodes_le (by omega) fits.depth_le).congr ?_ ?_ ?_
    · rw [meaning?, means]
      cases more.meaning? <;> rfl
    · intro t
      rw [nodeCount, nesting, ← Nat.add_assoc]
      exact ⟨fun h => ⟨h.nodes_le, Nat.max_le.2 ⟨fits.nesting_le, h.nesting_le⟩, h.depth_le⟩,
        fun h => h.mono (Nat.le_refl _) (Nat.le_max_right ..) (Nat.le_refl _)⟩
    · rw [nodeCount, Nat.add_assoc]
  · intro t ht
    obtain ⟨u, f, hu, hf, rfl⟩ := meaning?_chain.1 ht
    refine ⟨u, hu, fun h => h.mono ?_ ?_ (more.depth_le_of_turns hf u)⟩
    · simp only [nodeCount]; omega
    · simp only [nesting]; omega

private theorem Read.done {tier : Tier} : (done : Phrase (.turns tier)).Read := by
  intro allowed nodes finish turns rest left ends bound enough shallow
  cases turns with
  | zero => omega
  | succ turns =>
    have stops : Reads (some left) (fun t => Fits allowed nodes 0 t.depth) ⟨rest, finish, nodes⟩
        (.ok (left, ⟨rest, finish, nodes⟩)) := .ok rfl ⟨bound, Nat.zero_le _, shallow⟩
    rw [tokens, List.nil_append, Level.chain, run_position, run_peek]
    generalize head : rest.head?.map Token.lexeme = found
    split
    next op =>
      split
      next joins =>
        exact absurd head (ends.ne_head (Nat.le_of_eq (Tier.looseness_of_joins joins)))
      next => exact stops
    next => exact stops

private theorem Read.turn {tier : Tier} {op : Arithmetic} {joins : tier.joins op = true}
    {right : Phrase (.operand tier)} {more : Phrase (.turns tier)} (hr : right.Read)
    (hm : more.Read) (sign : Nat) : (turn op joins sign right more).Read := by
  intro allowed nodes finish turns rest left ends bound enough shallow
  cases turns with
  | zero => omega
  | succ turns =>
    simp only [tokens, List.append_assoc, List.cons_append]
    rw [Level.chain, run_position_cons, run_peek_cons]
    dsimp only
    rw [if_pos joins, run_advance_cons]
    refine .bind (hr (more.ends_turns ends) bound) ?_ ?_
    · intro r means fits
      have made : Reads (some (Node.arithmetic sign op left r))
          (fun t => Fits allowed (nodes + right.nodeCount + 1) right.nesting t.depth)
          ⟨more.tokens ++ rest, finish, nodes + right.nodeCount + 1⟩
          (build (Node.arithmetic sign op left r)
            ⟨more.tokens ++ rest, finish, nodes + right.nodeCount⟩) :=
        reads_build rfl rfl fits.nesting_le
      refine .bind made ?_ ?_
      · intro t ht fits'
        cases ht
        refine (hm ends fits'.nodes_le (by omega) fits'.depth_le).congr ?_ ?_ ?_
        · rw [meaning?, means]
          cases more.meaning? <;> rfl
        · intro t
          rw [nodeCount, nesting, ← Nat.add_assoc, ← Nat.add_assoc]
          exact ⟨fun h => ⟨h.nodes_le, Nat.max_le.2 ⟨fits.nesting_le, h.nesting_le⟩, h.depth_le⟩,
            fun h => h.mono (Nat.le_refl _) (Nat.le_max_right ..) (Nat.le_refl _)⟩
        · rw [nodeCount, ← Nat.add_assoc, ← Nat.add_assoc]
      · intro t ht
        obtain ⟨f, hf, rfl⟩ := Option.map_eq_some_iff.1 ht
        obtain ⟨r', g, hr, hg, rfl⟩ := meaning?_turn.1 hf
        cases means.symm.trans hr
        refine ⟨_, rfl, fun h => h.mono ?_ ?_ (more.depth_le_of_turns hg _)⟩
        · simp only [nodeCount]; omega
        · simp only [nesting]; omega
    · intro t ht
      obtain ⟨f, hf, rfl⟩ := Option.map_eq_some_iff.1 ht
      obtain ⟨r, g, hr, hg, rfl⟩ := meaning?_turn.1 hf
      have deeper := more.depth_le_of_turns hg (Node.arithmetic sign op left r)
      rw [Node.depth_arithmetic] at deeper
      refine ⟨r, hr, fun h => h.mono ?_ ?_ (Nat.le_trans ?_ deeper)⟩
      · simp only [nodeCount]; omega
      · simp only [nesting]; omega
      · omega

private theorem Read.summand {body : Phrase (.chain .multiplicative)} (hb : body.Read) :
    (summand body).Read :=
  fun _ _ _ _ ends bound => hb (ends.mono (by simp)) bound

private theorem Read.factor {body : Phrase .signed} (hb : body.Read) : (factor body).Read :=
  fun _ _ _ _ ends bound => hb (ends.mono (by simp)) bound

private theorem Read.unsigned {body : Phrase .power} (hb : body.Read) : (unsigned body).Read := by
  intro allowed nodes finish rest ends bound
  obtain ⟨t, more, start, primary⟩ := body.head_power
  have head : (body.unsigned.tokens ++ rest).head?.map Token.lexeme ≠
      some (.arithmetic .subtract) := by
    rw [tokens, start]
    intro h
    rw [show t.lexeme = .arithmetic .subtract by simpa using h] at primary
    cases primary
  rw [Level.signed, run_position, run_peek, if_neg head]
  exact hb (ends.mono (by simp)) bound

private theorem Read.negate {operand : Phrase .signed} (ho : operand.Read) (sign : Nat) :
    (negate sign operand).Read := by
  intro allowed nodes finish rest ends bound
  simp only [tokens, List.cons_append]
  rw [Level.signed, run_position_cons, run_peek_cons, if_pos rfl, run_advance_cons]
  refine .bind (ho.unary sign ends bound) ?_ ?_
  · intro u means fits
    exact reads_build (by simp [means]) (by simp only [nodeCount]; omega) fits.nesting_le
  · intro t ht
    obtain ⟨u, hu, rfl⟩ := meaning?_negate.1 ht
    refine ⟨u, hu, fun h => h.mono ?_ (Nat.le_refl _) ?_⟩
    · simp only [nodeCount]; omega
    · rw [Node.depth_negate]; omega

private theorem Read.bare {base : Phrase .primary} (hb : base.Read) : (bare base).Read := by
  intro allowed nodes finish rest ends bound
  rw [Level.power]
  refine .bind (hb (ends.mono (by simp)) bound) ?_ ?_
  · intro t means fits
    rw [run_position, run_peek, if_neg (ends.ne_head (by simp))]
    exact .ok means fits
  · exact fun t means => ⟨t, means, id⟩

private theorem Read.power {base : Phrase .primary} {exponent : Phrase .signed} (hb : base.Read)
    (he : exponent.Read) (sign : Nat) : (power base sign exponent).Read := by
  intro allowed nodes finish rest ends bound
  simp only [tokens, List.append_assoc, List.cons_append]
  rw [Level.power]
  refine .bind (hb (by simp) bound) ?_ ?_
  · intro b means fits
    rw [run_position_cons, run_peek_cons, if_pos rfl, run_advance_cons]
    refine .bind (he.unary sign (ends.mono (by simp)) fits.nodes_le) ?_ ?_
    · intro e means' fits'
      refine reads_build (by simp [means, means']) (by simp only [nodeCount]; omega) ?_
      exact Nat.max_le.2 ⟨fits.nesting_le, fits'.nesting_le⟩
    · intro t ht
      obtain ⟨_, e, -, he, rfl⟩ := meaning?_power.1 ht
      refine ⟨e, he, fun h => h.mono ?_ ?_ ?_⟩
      · simp only [nodeCount]; omega
      · simp only [nesting]; omega
      · rw [Node.depth_arithmetic]; omega
  · intro t ht
    obtain ⟨b, _, hb, -, rfl⟩ := meaning?_power.1 ht
    refine ⟨b, hb, fun h => h.mono ?_ ?_ ?_⟩
    · simp only [nodeCount]; omega
    · simp only [nesting]; omega
    · rw [Node.depth_arithmetic]; omega

private theorem Read.number (literal : String) (start : Nat) : (number literal start).Read := by
  intro allowed nodes finish rest ends bound
  rw [tokens, List.cons_append, Level.primary, run_position_cons, run_peek_cons]
  dsimp only
  rw [run_advance_cons, Level.number]
  split
  next finite =>
    exact reads_build (meaning?_number.2 ⟨finite, rfl⟩) rfl (Nat.zero_le _)
  next unfinite =>
    exact .none (by rw [meaning?, if_neg unfinite])

private theorem Read.reference (name : String) (start : Nat) : (reference name start).Read := by
  intro allowed nodes finish rest ends bound
  rw [tokens, List.cons_append, Level.primary, run_position_cons, run_peek_cons]
  dsimp only
  rw [run_advance_cons, List.nil_append, run_peek, if_neg (ends.ne_head (by simp))]
  cases found : Function.ofName? name with
  | some function => exact .none (by simp [found])
  | none => exact reads_build (meaning?_reference.2 ⟨found, rfl⟩) rfl (Nat.zero_le _)

private theorem Read.parenthesised {body : Phrase .conditional} (hb : body.Read)
    (opening closing : Nat) : (parenthesised opening body closing).Read := by
  intro allowed nodes finish rest ends bound
  simp only [tokens, List.append_assoc, List.cons_append, List.nil_append]
  rw [Level.primary, run_position_cons, run_peek_cons]
  dsimp only
  rw [run_advance_cons]
  refine .bind (hb.expression (by simp) bound) ?_ ?_
  · intro t means fits
    rw [run_peek_cons, if_pos rfl, run_advance_cons]
    exact .ok means fits
  · exact fun t means => ⟨t, means, id⟩

private theorem Read.call {arguments : Phrase .arguments} (ha : arguments.Read) (name : String)
    (start opening closing : Nat) : (call name start opening arguments closing).Read := by
  intro allowed nodes finish rest ends bound
  simp only [tokens, List.append_assoc, List.cons_append, List.nil_append]
  rw [Level.primary, run_position_cons, run_peek_cons]
  dsimp only
  rw [run_advance_cons, run_peek_cons, if_pos rfl, Level.call]
  cases found : Function.ofName? name with
  | none => exact .none (by simp [found])
  | some function =>
    dsimp only
    rw [run_advance_cons, run_peek, run_ite]
    refine .bind (ha bound) ?_ ?_
    · intro ts means fits
      rw [Level.close, run_peek_cons]
      dsimp only
      rw [run_advance_cons]
      split
      next accepted =>
        refine reads_build (meaning?_call.2 ⟨function, ts, found, means, accepted, rfl⟩) ?_ fits.nesting_le
        simp only [nodeCount]; omega
      next refused => exact .none (by simp [found, means, refused])
    · intro t ht
      obtain ⟨_, ts, -, hts, -, rfl⟩ := meaning?_call.1 ht
      refine ⟨ts, hts, fun h => h.mono ?_ (Nat.le_refl _) ?_⟩
      · simp only [nodeCount]; omega
      · rw [Node.depth_call]; omega

private theorem Read.noArguments : noArguments.Read := by
  intro allowed nodes finish closing rest bound
  rw [tokens, List.nil_append, List.head?_cons, Option.map_some, if_pos rfl]
  exact .ok rfl ⟨bound, Nat.zero_le _, Nat.zero_le _⟩

private theorem Read.someArguments {list : Phrase .argumentList} (hl : list.Read) :
    (someArguments list).Read := by
  intro allowed nodes finish closing rest bound
  obtain ⟨t, more, start, starts⟩ := list.head_argumentList
  have head : (list.someArguments.tokens ++ ⟨.rightParen, closing⟩ :: rest).head?.map Token.lexeme ≠
      some .rightParen := by
    rw [tokens, start]
    intro h
    rw [show t.lexeme = .rightParen by simpa using h] at starts
    cases starts
  rw [if_neg head]
  exact hl (by simp) bound (by omega)

/-- Where there are tokens, there are nodes. -/
theorem nodeCount_pos {c : Category} (p : Phrase c) (h : p.tokens ≠ []) : 0 < p.nodeCount := by
  induction p with
  | plain body ih => exact ih h
  | single body ih => exact ih h
  | chain first more ihf ihm =>
    obtain ⟨t, rest, start, -⟩ := first.head_operand
    have := ihf (by simp [start])
    rw [nodeCount]; omega
  | done => exact absurd rfl h
  | turn op joins sign right more ihr ihm => rw [nodeCount]; omega
  | summand body ih => exact ih h
  | factor body ih => exact ih h
  | unsigned body ih => exact ih h
  | bare base ih => exact ih h
  | parenthesised opening body closing ih =>
    obtain ⟨t, rest, start, -⟩ := body.head_conditional
    exact ih (by simp [start])
  | noArguments => exact absurd rfl h
  | someArguments list ih => exact ih h
  | lastArgument argument ih => exact ih h
  | nextArgument argument comma list iha ihl =>
    obtain ⟨t, rest, start, -⟩ := argument.head_conditional
    have := iha (by simp [start])
    rw [nodeCount]; omega
  | _ => exact Nat.succ_pos _

private theorem nodeCount_conditional (p : Phrase .conditional) : 0 < p.nodeCount := by
  obtain ⟨t, rest, start, -⟩ := p.head_conditional
  exact p.nodeCount_pos (by simp [start])

private theorem Read.lastArgument {argument : Phrase .conditional} (ha : argument.Read) :
    (lastArgument argument).Read := by
  intro allowed nodes finish turns rest ends bound enough
  cases turns with
  | zero => omega
  | succ turns =>
    rw [Level.arguments]
    refine .bind (ha.expression (ends.mono (by simp)) bound) ?_ ?_
    · intro t means fits
      rw [run_peek, if_neg (ends.ne_head (by simp))]
      refine .ok (meaning?_lastArgument.2 ⟨t, means, rfl⟩) ?_
      exact fits.mono (Nat.le_refl _) (Nat.le_refl _) (by simp)
    · intro ts hts
      obtain ⟨t, ht, rfl⟩ := meaning?_lastArgument.1 hts
      exact ⟨t, ht, fun h => h.mono (Nat.le_refl _) (Nat.le_refl _) (by simp)⟩

private theorem Read.nextArgument {argument : Phrase .conditional} {list : Phrase .argumentList}
    (ha : argument.Read) (hl : list.Read) (comma : Nat) : (nextArgument argument comma list).Read := by
  intro allowed nodes finish turns rest ends bound enough
  cases turns with
  | zero => omega
  | succ turns =>
    simp only [tokens, List.append_assoc, List.cons_append]
    rw [Level.arguments]
    refine .bind (ha.expression (by simp) bound) ?_ ?_
    · intro t means fits
      rw [run_peek_cons, if_pos rfl, run_advance_cons]
      have counted := argument.nodeCount_conditional
      refine .bind (hl ends fits.nodes_le (by omega)) ?_ ?_
      · intro ts means' fits'
        rw [run_pure, nodeCount, ← Nat.add_assoc]
        refine .ok (meaning?_nextArgument.2 ⟨t, ts, means, means', rfl⟩) ⟨?_, ?_, ?_⟩
        · exact fits'.nodes_le
        · exact Nat.max_le.2 ⟨fits.nesting_le, fits'.nesting_le⟩
        · rw [Node.deepest_cons]
          exact Nat.max_le.2 ⟨fits.depth_le, fits'.depth_le⟩
      · intro ts hts
        obtain ⟨_, us, -, hus, rfl⟩ := meaning?_nextArgument.1 hts
        refine ⟨us, hus, fun h => h.mono ?_ ?_ ?_⟩
        · simp only [nodeCount]; omega
        · simp only [nesting]; omega
        · rw [Node.deepest_cons]; omega
    · intro ts hts
      obtain ⟨t, us, ht, -, rfl⟩ := meaning?_nextArgument.1 hts
      refine ⟨t, ht, fun h => h.mono ?_ ?_ ?_⟩
      · simp only [nodeCount]; omega
      · simp only [nesting]; omega
      · rw [Node.deepest_cons]; omega

/-- Every phrase is read by the rule of its category. -/
theorem read {c : Category} (p : Phrase c) : p.Read := by
  induction p with
  | plain body ih => exact ih.plain
  | choose condition question yes colon no ihc ihy ihn => exact ihc.choose ihy ihn question colon
  | single body ih => exact ih.single
  | compare left op sign right ihl ihr => exact ihl.compare ihr op sign
  | chain first more ihf ihm => exact ihf.chain ihm
  | done => exact .done
  | turn op joins sign right more ihr ihm => exact ihr.turn ihm sign
  | summand body ih => exact ih.summand
  | factor body ih => exact ih.factor
  | unsigned body ih => exact ih.unsigned
  | negate sign operand ih => exact ih.negate sign
  | bare base ih => exact ih.bare
  | power base sign exponent ihb ihe => exact ihb.power ihe sign
  | number literal start => exact .number literal start
  | reference name start => exact .reference name start
  | parenthesised opening body closing ih => exact ih.parenthesised opening closing
  | call name start opening arguments closing ih => exact ih.call name start opening closing
  | noArguments => exact .noArguments
  | someArguments list ih => exact ih.someArguments
  | lastArgument argument ih => exact ih.lastArgument
  | nextArgument argument comma list iha ihl => exact iha.nextArgument ihl comma

end Phrase

end GameScoring.Formula
