import GameScoring.Proofs.Formula.Recursion
import GameScoring.Proofs.Formula.Reading

/-!
# The machine does what the parser does

From the start of a rule, with any frames below it, the machine comes to the node that the rule reads, or
to the error that the rule ends with. There is one step for each way of putting rules together, and then
one for each rule. The levels of the parser are the levels that the machine may still open. The bounds on
the repetitions are never met, since each turn builds a node.
-/
namespace GameScoring.Formula.Machine
open Formula.Parser

section Definitions
variable (tokens : List Token) (finish : Nat)

/-- The cursor of the parser before the token at an index. -/
def cursor (index nodes : Nat) : Cursor := ⟨tokens.drop index, finish, nodes⟩

/-- All numbers among the tokens can be read. -/
def Readable : Prop :=
  ∀ literal, (∃ t ∈ tokens, t.lexeme = .number literal) → (Numeral.ofLiteral? literal.toList).isSome

/-- Not behind the end of the tokens, and not above the node limit. -/
structure Inside (index nodes : Nat) : Prop where
  index : index ≤ tokens.length
  nodes : nodes ≤ maxNodes

/-- The machine comes to the outcome of a rule of the parser. A node is left for the frames that were there
before, on the same level, and more nodes are counted than before. -/
def Ends (x : Step) (frames : List Frame) (nesting before : Nat) : Except Rejection (Node × Cursor) → Prop
  | .ok (node, c) => ∃ i m, Inside tokens i m ∧ before < m ∧ c = cursor tokens finish i m ∧
      Leads tokens finish x (.ok ⟨.leave node, frames, i, m, nesting⟩)
  | .error r => Leads tokens finish x (.error (.rejected r))

/-- Whatever frames are below it, a rule of the machine comes to the outcome of a rule of the parser. -/
def Simulates (rule : Rule) (nesting : Nat) (x : Parser Node) : Prop :=
  ∀ ⦃frames i m⦄, Inside tokens i m →
    Ends tokens finish (.ok ⟨.enter rule, frames, i, m, nesting⟩) frames nesting m (x (cursor tokens finish i m))

/-- A rule of the parser that is one level further in does what the machine does there, and it rejects where
the machine may not open the level. -/
structure Nested (rule : Rule) (nesting : Nat) (x : Nat → Parser Node) : Prop where
  refuses : maxDepth ≤ nesting → x = fun opener => Parser.reject .nestedTooDeep opener
  simulates : nesting < maxDepth → ∀ opener, Simulates tokens finish rule (nesting + 1) (x opener)

/-- The rules that lead one level further in from a level of nesting. -/
structure Deeper (nesting : Nat) (inner : Level) : Prop where
  conditional : Nested tokens finish .conditional nesting inner.conditional
  unary : Nested tokens finish .unary nesting inner.unary

end Definitions

variable {tokens : List Token} {finish : Nat} {K K' : List Frame} {i m n n' before : Nat}

/-! ## Cursors -/

section Cursors
variable {α : Type}

theorem position_cursor (f : Nat → Parser α) : (position >>= f) (cursor tokens finish i m) =
    f (place tokens finish i) (cursor tokens finish i m) := by
  rw [cursor, run_position, List.head?_drop]
  rfl

theorem peek_cursor (f : Option Lexeme → Parser α) : (peek >>= f) (cursor tokens finish i m) =
    f (found tokens i) (cursor tokens finish i m) := by
  rw [cursor, run_peek, List.head?_drop]
  rfl

theorem advance_cursor (f : Unit → Parser α) : (advance >>= f) (cursor tokens finish i m) =
    f () (cursor tokens finish (i + 1) m) := by
  show f () ⟨(tokens.drop i).tail, finish, m⟩ = _
  rw [List.tail_drop]
  rfl

theorem mem_of_found {l : Lexeme} (next : found tokens i = some l) : ∃ t ∈ tokens, t.lexeme = l := by
  obtain ⟨t, at_, same⟩ := Option.map_eq_some_iff.1 next
  exact ⟨t, List.mem_of_getElem? at_, same⟩

theorem Inside.advance (h : Inside tokens i m) {l : Lexeme} (next : found tokens i = some l) :
    Inside tokens (i + 1) m := ⟨lt_length_of_found next, h.nodes⟩

end Cursors

/-! ## Steps of a simulation -/

namespace Ends
variable {x : Step} {mode : Mode} {node : Node} {p : Parser Node} {f : Node → Parser Node}
  {out : Except Rejection (Node × Cursor)}

/-- What the machine does first. -/
theorem step {s : State} (h : Ends tokens finish (Machine.step tokens finish s) K n before out) :
    Ends tokens finish (.ok s) K n before out := by
  cases out with
  | ok result =>
    obtain ⟨j, m', inside, more, same, leads⟩ := h
    exact ⟨j, m', inside, more, same, .step leads⟩
  | error r => exact Leads.step h

theorem enter {rule : Rule}
    (h : Ends tokens finish (Machine.enter tokens finish rule ⟨.enter rule, K', i, m, n'⟩) K n before out) :
    Ends tokens finish (.ok ⟨.enter rule, K', i, m, n'⟩) K n before out := step h

theorem leave (inside : Inside tokens i m) (more : before < m) :
    Ends tokens finish (.ok ⟨.leave node, K, i, m, n⟩) K n before
      ((pure node : Parser Node) (cursor tokens finish i m)) :=
  ⟨i, m, inside, more, rfl, .refl _⟩

theorem reject (reason : Reason) (place : Nat) {c : Cursor} :
    Ends tokens finish (Machine.reject reason place) K n before ((Parser.reject reason place : Parser Node) c) :=
  Leads.refl _

theorem rejectHere (reason : Reason) : Ends tokens finish (Machine.reject reason (place tokens finish i)) K n before
    ((do Parser.reject reason (← position) : Parser Node) (cursor tokens finish i m)) := by
  rw [position_cursor]
  exact reject ..

theorem unexpected {l : Option Lexeme} (next : found tokens i = l) (expected : Option Expected) :
    Ends tokens finish (Machine.reject (.unexpected l expected) (place tokens finish i)) K n before
      ((Parser.unexpected expected : Parser Node) (cursor tokens finish i m)) := by
  rw [Parser.unexpected, peek_cursor, next]
  exact rejectHere _

theorem advance {f : Unit → Parser Node} (h : Ends tokens finish x K n before (f () (cursor tokens finish (i + 1) m))) :
    Ends tokens finish x K n before ((Parser.advance >>= f) (cursor tokens finish i m)) := by
  rwa [advance_cursor]

/-- Both look at the next token. -/
theorem look {f : Option Lexeme × Nat → Step} {g : Option Lexeme → Parser Node} (inside : Inside tokens i m)
    (next : ∀ l, found tokens i = l → Ends tokens finish (f (l, place tokens finish i)) K n before
      (g l (cursor tokens finish i m))) :
    Ends tokens finish (Machine.look tokens finish ⟨mode, K', i, m, n'⟩ >>= f) K n before
      ((Parser.peek >>= g) (cursor tokens finish i m)) := by
  rw [run_look inside.index, peek_cursor]
  exact next _ rfl

/-- A rule, and then the frame that waits for its node. -/
theorem bind {frame : Frame} (first : Ends tokens finish x (frame :: K') n' m (p (cursor tokens finish i m)))
    (next : ∀ t j m', Inside tokens j m' → m < m' →
      Ends tokens finish (resume tokens finish frame t ⟨.leave t, K', j, m', n'⟩) K n before
        (f t (cursor tokens finish j m'))) :
    Ends tokens finish x K n before ((p >>= f) (cursor tokens finish i m)) := by
  show Ends tokens finish x K n before (Except.bind (p (cursor tokens finish i m)) fun r => f r.1 r.2)
  generalize p (cursor tokens finish i m) = out at first
  cases out with
  | error r => exact first
  | ok result =>
    obtain ⟨t, c⟩ := result
    obtain ⟨j, m', inside, more, rfl, leads⟩ := first
    have rest := next t j m' inside more
    simp only [Except.bind]
    generalize f t (cursor tokens finish j m') = out at rest ⊢
    cases out with
    | error r => exact leads.trans (.step rest)
    | ok result =>
      obtain ⟨j', m'', inside', more', same, leads'⟩ := rest
      exact ⟨j', m'', inside', more', same, leads.trans (.step leads')⟩

/-- A rule whose node is left as it is. -/
theorem last {frame : Frame} (first : Ends tokens finish x (frame :: K) n' m (p (cursor tokens finish i m)))
    (next : ∀ t j m', resume tokens finish frame t ⟨.leave t, K, j, m', n'⟩ = .ok ⟨.leave t, K, j, m', n⟩) :
    Ends tokens finish x K n m (p (cursor tokens finish i m)) := by
  rw [← bind_pure p]
  refine bind first fun t j m' inside more => ?_
  rw [next]
  exact leave inside more

/-- Both open a level, or neither may. -/
theorem opens {rule : Rule} {opener : Nat} {frame : Frame} {x : Nat → Parser Node} (h : Nested tokens finish rule n' x)
    (inside : Inside tokens i m) (next : n' < maxDepth → ∀ t j m', Inside tokens j m' → m < m' →
      Ends tokens finish (resume tokens finish frame t ⟨.leave t, K', j, m', n' + 1⟩) K n before
        (f t (cursor tokens finish j m'))) :
    Ends tokens finish (do return (← State.nest opener ⟨mode, K', i, m, n'⟩).call frame rule) K n before
      ((x opener >>= f) (cursor tokens finish i m)) := by
  rw [State.nest]
  split
  next full =>
    rw [h.refuses (Nat.lt_succ_iff.1 full)]
    exact Leads.refl _
  next few =>
    have less : n' < maxDepth := Nat.not_lt.1 few
    exact bind (h.simulates less opener inside) (next less)

/-- Both count a node and go on, or neither may. -/
theorem build {f : State → Step} {g : Node → Parser Node} (inside : Inside tokens i m)
    (next : Inside tokens i (m + 1) → Ends tokens finish (f ⟨mode, K', i, m + 1, n'⟩) K n before
      (g node (cursor tokens finish i (m + 1)))) :
    Ends tokens finish (State.build node ⟨mode, K', i, m, n'⟩ >>= f) K n before
      ((Parser.build node >>= g) (cursor tokens finish i m)) := by
  show Ends tokens finish _ K n before (Except.bind (Parser.build node (cursor tokens finish i m)) fun r => g r.1 r.2)
  rw [State.build, Parser.build, cursor]
  split
  next => exact Leads.refl _
  next few =>
    split
    next => exact Leads.refl _
    next => exact next ⟨inside.index, Nat.not_lt.1 few⟩

/-- A node at the end of a rule. -/
theorem built (inside : Inside tokens i m) (more : before ≤ m) :
    Ends tokens finish (do return (← State.build node ⟨mode, K, i, m, n⟩).leave node) K n before
      (Parser.build node (cursor tokens finish i m)) := by
  rw [← bind_pure (Parser.build node)]
  exact build inside fun inside' => leave inside' (Nat.lt_succ_of_le more)

/-! ## The rules -/

theorem close {function : Function} {start : Nat} {arguments : List Node} (inside : Inside tokens i m)
    (more : before ≤ m) :
    Ends tokens finish (close tokens finish function start arguments ⟨mode, K, i, m, n⟩) K n before
      (Level.close function start arguments (cursor tokens finish i m)) := by
  refine .look inside fun l next => ?_
  cases l with
  | none => exact .rejectHere _
  | some l =>
    cases l with
    | rightParen =>
      refine .advance ?_
      dsimp only
      split
      next => exact .built (inside.advance next) more
      next => exact .reject ..
    | _ => exact .unexpected next _

theorem number {literal : String} {start : Nat} (reads : (Numeral.ofLiteral? literal.toList).isSome)
    (inside : Inside tokens i m) : Ends tokens finish (number literal start ⟨mode, K, i, m, n⟩) K n m
      (Level.number literal start (cursor tokens finish i m)) := by
  rw [Machine.number, if_neg (by simp [Option.isSome_iff_ne_none.1 reads]), Level.number]
  dsimp only
  split
  next => exact .built inside (Nat.le_refl m)
  next => exact .reject ..

theorem turns {tier : Tier} {x : Parser Node} (hx : Simulates tokens finish (operand tier) n x) (turns : Nat)
    {left : Node} (inside : Inside tokens i m) (more : before < m) (enough : maxNodes < m + turns) :
    Ends tokens finish (Machine.turns tokens finish tier left ⟨mode, K, i, m, n⟩) K n before
      (Level.chain x tier.joins turns left (cursor tokens finish i m)) := by
  induction turns generalizing i m left mode with
  -- Each turn counts a node, so the turns do not run out below the node limit.
  | zero => exact absurd inside.nodes (Nat.not_le.2 enough)
  | succ turns ih =>
    rw [Level.chain, position_cursor]
    refine .look inside fun l next => ?_
    cases l with
    | none => exact .leave inside more
    | some l =>
      cases l with
      | arithmetic op =>
        dsimp only
        split
        next =>
          refine .advance (.bind (hx (inside.advance next)) fun t j m' inside' more' => ?_)
          exact .build inside' fun inside'' => ih inside'' (by omega) (by omega)
        next => exact .leave inside more
      | _ => exact .leave inside more

end Ends

/-- Both repetitions. -/
theorem Simulates.chain {tier : Tier} {x : Parser Node} (hx : Simulates tokens finish (operand tier) n x) :
    Simulates tokens finish (.chain tier) n (x >>= Level.chain x tier.joins (maxNodes + 1)) := by
  intro K i m inside
  refine .enter (.bind (hx inside) fun t j m' inside' more => ?_)
  exact .turns hx (maxNodes + 1) inside' more (by omega)

namespace Deeper
variable {inner : Level} (h : Deeper tokens finish n inner)
include h

theorem expression : Simulates tokens finish .expression n inner.expression := by
  intro K i m inside
  refine .enter ?_
  rw [enter, run_look inside.index, Level.expression, position_cursor, ← bind_pure (inner.conditional _)]
  exact .opens h.conditional inside fun _ t j m' inside more => .leave inside more

/-- The arguments after those that have been read, and the end of the call. -/
theorem arguments (function : Function) (start turns : Nat) (read : List Node) {f : List Node → Parser Node}
    (closes : ∀ rest, f rest = Level.close function start (read ++ rest)) (inside : Inside tokens i m)
    (more : before ≤ m) (enough : maxNodes < m + turns) :
    Ends tokens finish (.ok ⟨.enter .expression, .argument function start read :: K, i, m, n⟩) K n before
      ((inner.arguments turns >>= f) (cursor tokens finish i m)) := by
  induction turns generalizing i m read f with
  | zero => exact absurd inside.nodes (Nat.not_le.2 enough)
  | succ turns ih =>
    rw [Level.arguments, bind_assoc]
    refine .bind (h.expression inside) fun t j m' inside' more' => ?_
    have more := Nat.le_trans more (Nat.le_of_lt more')
    have enough : maxNodes < m' + turns := by omega
    rw [bind_assoc]
    refine .look inside' fun l next => ?_
    dsimp only
    split
    next comma =>
      rw [bind_assoc]
      refine .advance ?_
      rw [bind_assoc]
      refine ih (read ++ [t]) (fun rest => ?_) (inside'.advance (next.trans comma)) more enough
      rw [pure_bind, closes, List.append_assoc]
      rfl
    next =>
      rw [pure_bind, closes]
      exact .close inside' more

theorem call {name : String} {start : Nat} (inside : Inside tokens i m) (next : found tokens i = some .leftParen) :
    Ends tokens finish (.ok ⟨.enter (.call name start), K, i, m, n⟩) K n m
      (inner.call name start (cursor tokens finish i m)) := by
  refine .enter ?_
  rw [enter, Level.call]
  cases Function.ofName? name with
  | none => exact .reject ..
  | some function =>
    have inside := inside.advance next
    refine .advance (.look inside fun l _ => ?_)
    dsimp only
    split
    next => exact .close inside (Nat.le_refl m)
    next => exact h.arguments function start (maxNodes + 1) [] (fun _ => rfl) inside (Nat.le_refl m) (by omega)

theorem primary (readable : Readable tokens) : Simulates tokens finish .primary n inner.primary := by
  intro K i m inside
  refine .enter ?_
  rw [Level.primary, position_cursor]
  refine .look inside fun l next => ?_
  cases l with
  | none => exact .unexpected next _
  | some l =>
    cases l with
    | number literal => exact .advance (.number (readable literal (mem_of_found next)) (inside.advance next))
    | identifier name =>
      have inside := inside.advance next
      refine .advance (.look inside fun l next => ?_)
      dsimp only
      split
      next paren => exact .last (h.call inside (next.trans paren)) fun t j m' => rfl
      next =>
        cases Function.ofName? name with
        | some function => exact .reject ..
        | none => exact .built inside (Nat.le_refl m)
    | leftParen =>
      refine .advance (.bind (h.expression (inside.advance next)) fun t j m' inside' more => ?_)
      refine .look inside' fun l next => ?_
      dsimp only
      split
      next closing => exact .advance (.leave (inside'.advance (next.trans closing)) more)
      next => exact .rejectHere _
    | _ => exact .unexpected next _

theorem power (readable : Readable tokens) : Simulates tokens finish .power n inner.power := by
  intro K i m inside
  refine .enter (.bind (h.primary readable inside) fun t j m' inside' more => ?_)
  rw [position_cursor]
  refine .look inside' fun l next => ?_
  dsimp only
  split
  next operator =>
    refine .advance (.opens h.unary (inside'.advance (next.trans operator)) fun _ u j' m'' inside'' more' => ?_)
    exact .built inside'' (Nat.le_of_lt (Nat.lt_trans more more'))
  next => exact .leave inside' more

theorem signed (readable : Readable tokens) : Simulates tokens finish .unary n inner.signed := by
  intro K i m inside
  refine .enter ?_
  rw [Level.signed, position_cursor]
  refine .look inside fun l next => ?_
  dsimp only
  split
  next minus =>
    refine .advance (.opens h.unary (inside.advance (next.trans minus)) fun _ t j m' inside' more => ?_)
    exact .built inside' (Nat.le_of_lt more)
  next => exact .last (h.power readable inside) fun t j m' => rfl

theorem term (readable : Readable tokens) : Simulates tokens finish (.chain .multiplicative) n inner.term :=
  .chain (h.signed readable)

theorem additive (readable : Readable tokens) : Simulates tokens finish (.chain .additive) n inner.additive :=
  .chain (h.term readable)

theorem comparison (readable : Readable tokens) : Simulates tokens finish .comparison n inner.comparison := by
  intro K i m inside
  refine .enter (.bind (h.additive readable inside) fun t j m' inside' more => ?_)
  rw [position_cursor]
  refine .look inside' fun l next => ?_
  cases l with
  | none => exact .leave inside' more
  | some l =>
    cases l with
    | compare op =>
      refine .advance (.bind (h.additive readable (inside'.advance next)) fun u j' m'' inside'' more' => ?_)
      have more : m ≤ m'' := Nat.le_of_lt (Nat.lt_trans more more')
      refine .look inside'' fun l _ => ?_
      cases l with
      | none => exact .built inside'' more
      | some l =>
        cases l with
        | compare op => exact .rejectHere _
        | _ => exact .built inside'' more
    | _ => exact .leave inside' more

theorem choice (readable : Readable tokens) : Simulates tokens finish .conditional n inner.choice := by
  intro K i m inside
  refine .enter (.bind (h.comparison readable inside) fun t j₁ m₁ inside₁ more₁ => ?_)
  rw [position_cursor]
  refine .look inside₁ fun l next => ?_
  dsimp only
  split
  next question =>
    refine .advance (.opens h.conditional (inside₁.advance (next.trans question)) fun less u j₂ m₂ inside₂ more₂ => ?_)
    refine .look inside₂ fun l next => ?_
    dsimp only
    split
    next colon =>
      -- The level of the first branch is still open for the second one.
      refine .advance (.bind (h.conditional.simulates less _ (inside₂.advance (next.trans colon))) ?_)
      intro v j₃ m₃ inside₃ more₃
      refine .built inside₃ ?_
      exact Nat.le_of_lt (Nat.lt_trans more₁ (Nat.lt_trans more₂ more₃))
    next => exact .unexpected next _
  next => exact .leave inside₁ more₁

end Deeper

/-- The levels of the parser are those that may still be opened. -/
theorem deeper_within (readable : Readable tokens) {allowed : Nat} (same : n + allowed = maxDepth) :
    Deeper tokens finish n (Level.within allowed) := by
  induction allowed generalizing n with
  | zero =>
    have last : ¬ n < maxDepth := by omega
    exact ⟨⟨fun _ => rfl, fun less => absurd less last⟩, ⟨fun _ => rfl, fun less => absurd less last⟩⟩
  | succ allowed ih =>
    have less : ¬ maxDepth ≤ n := by omega
    have next : Deeper tokens finish (n + 1) (Level.within allowed) := ih (by omega)
    exact ⟨⟨fun full => absurd full less, fun _ _ => next.choice readable⟩,
      ⟨fun full => absurd full less, fun _ _ => next.signed readable⟩⟩

/-- The end of the machine that belongs to an outcome of the parser. -/
def verdict : Except Rejection (Node × Cursor) → Verdict
  | .ok (root, c) => .accepted root c.nodes
  | .error r => .rejected r

/-- The machine ends as the parser does. -/
theorem leads_to_verdict (readable : Readable tokens) :
    Leads tokens finish (.ok start) (.error (verdict (whole ⟨tokens, finish, 0⟩))) := by
  have deeper : Deeper tokens finish 0 (Level.within maxDepth) := deeper_within readable (Nat.zero_add _)
  have inside : Inside tokens 0 0 := ⟨Nat.zero_le _, Nat.zero_le _⟩
  have first : Ends tokens finish (.ok start) [.whole] 0 0 _ := deeper.expression inside
  show Leads tokens finish (.ok start) (.error (verdict
    (Except.bind ((Level.within maxDepth).expression (cursor tokens finish 0 0)) fun r => _)))
  generalize (Level.within maxDepth).expression (cursor tokens finish 0 0) = out at first ⊢
  cases out with
  | error r => exact first
  | ok result =>
    obtain ⟨root, c⟩ := result
    obtain ⟨i, m, inside, -, rfl, leads⟩ := first
    refine leads.trans (.step ?_)
    show Leads tokens finish (look tokens finish _ >>= _)
      (.error (verdict ((peek >>= _) (cursor tokens finish i m))))
    rw [run_look inside.index, peek_cursor]
    dsimp only
    split
    next none =>
      rw [none]
      exact .refl _
    next some =>
      obtain ⟨l, next⟩ := Option.ne_none_iff_exists'.1 some
      have rejects : Ends tokens finish (reject (.unexpected (found tokens i) none) (place tokens finish i)) [] 0 0
          (Parser.unexpected none (cursor tokens finish i m)) := .unexpected rfl none
      rw [next] at rejects ⊢
      exact rejects

end GameScoring.Formula.Machine
