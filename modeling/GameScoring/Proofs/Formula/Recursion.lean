import GameScoring.Proofs.Formula.Machine

/-!
# Bounded recursion

Each rule that is at work was called by the one below it on the stack. On a level of nesting the rules
follow one another in the order of the grammar, so there are no more than nine of them, and a rule that
would start again opens a level. The counter of levels is checked before anything is called, so it never
exceeds `maxDepth`. Only tokens that are there are passed, so the end is never left behind.
-/
namespace GameScoring.Formula.Machine
open Formula.Parser

/-! ## Methods and levels -/

/-- The methods of the parser that call each other. -/
inductive Method
  | parse
  | expression
  | conditional
  | comparison
  | additive
  | term
  | unary
  | power
  | primary
  | call
deriving DecidableEq, Repr

/-- The order in which methods call each other on a level. An expression belongs to the level outside of
the one that it opens. -/
def Method.rank : Method → Nat
  | parse | conditional => 1
  | comparison => 2
  | additive => 3
  | term => 4
  | unary => 5
  | power => 6
  | primary => 7
  | call => 8
  | expression => 9

theorem Method.rank_pos (m : Method) : 1 ≤ m.rank := by cases m <;> decide

theorem Method.rank_le (m : Method) : m.rank ≤ 9 := by cases m <;> decide

def chainMethod : Tier → Method
  | .additive => .additive
  | .multiplicative => .term

def Rule.method : Rule → Method
  | expression => .expression
  | conditional => .conditional
  | comparison => .comparison
  | chain tier => chainMethod tier
  | unary => .unary
  | power => .power
  | primary => .primary
  | call .. => .call

namespace Frame

/-- The method that waits. -/
def method : Frame → Method
  | whole => .parse
  | expression => .expression
  | condition | yes .. | no .. => .conditional
  | left | right .. => .comparison
  | first tier | turn tier .. => chainMethod tier
  | unsigned | negated _ => .unary
  | base | exponent .. => .power
  | called | body => .primary
  | argument .. => .call

/-- The method that is waited for. -/
def callee : Frame → Method
  | whole | body | argument .. => .expression
  | expression | yes .. | no .. => .conditional
  | condition => .comparison
  | left | right .. => .additive
  | first tier | turn tier .. => (operand tier).method
  | unsigned => .power
  | negated _ | exponent .. => .unary
  | base => .primary
  | called => .call

/-- The method that waits has opened a level of nesting for the one it waits for. -/
def opens : Frame → Bool
  | expression | yes .. | no .. | negated _ | exponent .. => true
  | _ => false

/-- On a level, a method calls one that comes behind it. -/
theorem rank_lt {f : Frame} (h : f.opens = false) : f.method.rank < f.callee.rank := by
  cases f with
  | first tier | turn tier => cases tier <;> simp [method, callee, operand, chainMethod, Rule.method, Method.rank]
  | expression | yes | no | negated | exponent => cases h
  | _ => simp [method, callee, Method.rank]

theorem callee_ne_call {f : Frame} (h : f.opens = true) : f.callee ≠ .call := by
  cases f with
  | expression | yes | no | negated | exponent => exact nofun
  | _ => cases h

end Frame

theorem operand_method_ne_call (tier : Tier) : (operand tier).method ≠ .call := by cases tier <;> exact nofun

/-- The levels of nesting that are open. -/
def opened (frames : List Frame) : Nat := frames.countP Frame.opens

/-- The methods that wait, each with the number of levels that were open when it was called. -/
def waiting : List Frame → List (Nat × Method)
  | [] => []
  | f :: rest => (opened rest, f.method) :: waiting rest

/-- The methods that are at work, the last one first. -/
def State.active (s : State) : List (Nat × Method) :=
  match s.mode with
  | .enter rule => (opened s.frames, rule.method) :: waiting s.frames
  | .leave _ => waiting s.frames

/-- A method that is called by the first of the frames, each of which is called by the one behind it. -/
inductive Linked : Method → List Frame → Prop
  | parse : Linked .parse []
  | call (f : Frame) {frames : List Frame} (h : Linked f.method frames) : Linked f.callee (f :: frames)

theorem opened_cons (f : Frame) (frames : List Frame) :
    opened (f :: frames) = opened frames + if f.opens then 1 else 0 := List.countP_cons

namespace Linked
variable {m : Method} {frames : List Frame}

/-- Behind the open levels, the methods at work are at most as many as the order of the last one. -/
theorem length_le (h : Linked m frames) : frames.length + 1 ≤ 9 * opened frames + m.rank := by
  induction h with
  | parse => decide
  | @call f frames h ih =>
    rw [List.length_cons, opened_cons]
    cases opens : f.opens with
    | true =>
      have most := f.method.rank_le
      have least := f.callee.rank_pos
      simp only [if_true]
      omega
    | false =>
      have less := Frame.rank_lt opens
      simp only [Bool.false_eq_true, if_false]
      omega

theorem level_le (h : Linked m frames) : ∀ e ∈ waiting frames, e.1 ≤ opened frames := by
  induction h with
  | parse => exact nofun
  | @call f frames h ih =>
    have grows : opened frames ≤ opened (f :: frames) := by rw [opened_cons]; exact Nat.le_add_right ..
    exact List.forall_mem_cons.2 ⟨grows, fun e he => Nat.le_trans (ih e he) grows⟩

/-- The methods of the last level are at most as many as the order of the last one of them. -/
theorem count_last (h : Linked m frames) :
    (waiting frames).countP (·.1 == opened frames) + 1 ≤ m.rank := by
  induction h with
  | parse => decide
  | @call f frames h ih =>
    rw [waiting, List.countP_cons, opened_cons]
    cases opens : f.opens with
    | true =>
      have none : (waiting frames).countP (·.1 == opened frames + 1) = 0 := by
        refine List.countP_eq_zero.2 fun e he same => ?_
        have bound := h.level_le e he
        rw [beq_iff_eq.1 same] at bound
        omega
      have least := f.callee.rank_pos
      simp only [if_true, none, beq_iff_eq]
      rw [if_neg (by omega)]
      omega
    | false =>
      have less := Frame.rank_lt opens
      simp only [Bool.false_eq_true, if_false, Nat.add_zero, beq_self_eq_true, if_true]
      omega

/-- On every level there are at most nine methods at work. -/
theorem count_le (h : Linked m frames) (level : Nat) :
    ((opened frames, m) :: waiting frames).countP (·.1 == level) ≤ 9 := by
  induction h with
  | parse => exact Nat.le_trans (List.countP_le_length ..) (by decide)
  | @call f frames h ih =>
    by_cases own : opened (f :: frames) = level
    · have last := (Linked.call f h).count_last
      have most := f.callee.rank_le
      rw [List.countP_cons_of_pos (by simpa using own), ← own]
      omega
    · rw [List.countP_cons_of_neg (by simpa using own)]
      exact ih

theorem length_waiting (frames : List Frame) : (waiting frames).length = frames.length := by
  induction frames with
  | nil => rfl
  | cons f rest ih => rw [waiting, List.length_cons, List.length_cons, ih]

end Linked

/-! ## What a step keeps -/

section Steps
variable (tokens : List Token) (finish : Nat)

/-- The method at work was called by the first frame, the levels are counted and not too many, and no token is
passed but those that are there. A call begins before its parenthesis. -/
structure Valid (s : State) : Prop where
  linked : ∃ m, Linked m s.frames ∧ ∀ rule, s.mode = .enter rule → rule.method = m
  nesting : s.nesting = opened s.frames
  bounded : s.nesting ≤ maxDepth
  within : s.index ≤ tokens.length
  behind : ∀ rule, s.mode = .enter rule → rule.method = .call → s.index < tokens.length

/-- The states that open a level next, each with the place of the token it opens at. -/
inductive Opening : State → Nat → Prop
  | expression {K : List Frame} {i m n : Nat} : Opening ⟨.enter .expression, K, i, m, n⟩ (place tokens finish i)
  | branches {condition : Node} {K : List Frame} {i m n : Nat} (next : found tokens i = some .question) :
    Opening ⟨.leave condition, .condition :: K, i, m, n⟩ (place tokens finish i)
  | minus {K : List Frame} {i m n : Nat} (next : found tokens i = some (.arithmetic .subtract)) :
    Opening ⟨.enter .unary, K, i, m, n⟩ (place tokens finish i)
  | exponent {base : Node} {K : List Frame} {i m n : Nat} (next : found tokens i = some (.arithmetic .power)) :
    Opening ⟨.leave base, .base :: K, i, m, n⟩ (place tokens finish i)

/-- The state after a step is valid, and a level was opened only if it may be. -/
def Keeps (nesting : Nat) (mayOpen : Prop) (x : Step) : Prop :=
  ∀ s, x = .ok s → Valid tokens s ∧ (nesting < s.nesting → mayOpen)

/-- A method is at work on a level that is neither new nor one too many. -/
structure Running (m : Method) (nesting : Nat) (s : State) : Prop where
  linked : Linked m s.frames
  counted : s.nesting = opened s.frames
  bounded : s.nesting ≤ maxDepth
  settled : s.nesting ≤ nesting
  within : s.index ≤ tokens.length

end Steps

namespace Keeps
variable {tokens : List Token} {finish nesting : Nat} {mayOpen : Prop} {s : State} {f : State → Step}

theorem error (v : Verdict) : Keeps tokens nesting mayOpen (.error v) := nofun

theorem look {f : Option Lexeme × Nat → Step}
    (next : ∀ l, found tokens s.index = l → Keeps tokens nesting mayOpen (f (l, place tokens finish s.index))) :
    Keeps tokens nesting mayOpen (look tokens finish s >>= f) := by
  rw [Machine.look]
  split
  next => exact error _
  next => exact next _ rfl

theorem nest {opener : Nat} (next : s.nesting + 1 ≤ maxDepth →
      Keeps tokens nesting mayOpen (f { s with nesting := s.nesting + 1 })) :
    Keeps tokens nesting mayOpen (s.nest opener >>= f) := by
  rw [State.nest]
  split
  next => exact error _
  next few => exact next (Nat.not_lt.1 few)

theorem build {node : Node} (next : Keeps tokens nesting mayOpen (f { s with nodes := s.nodes + 1 })) :
    Keeps tokens nesting mayOpen (s.build node >>= f) := by
  rw [State.build]
  split
  next => exact error _
  next =>
    split
    next => exact error _
    next => exact next

theorem call {frame : Frame} {rule : Rule} (linked : Linked frame.method s.frames) (calls : rule.method = frame.callee)
    (counted : s.nesting = opened (frame :: s.frames)) (bounded : s.nesting ≤ maxDepth)
    (within : s.index ≤ tokens.length) (behind : frame.callee = .call → s.index < tokens.length)
    (opens : nesting < s.nesting → mayOpen) : Keeps tokens nesting mayOpen (.ok (s.call frame rule)) := by
  rintro _ ⟨⟩
  refine ⟨⟨⟨_, .call frame linked, fun rule' same => ?_⟩, counted, bounded, within, fun rule' same => ?_⟩, opens⟩
  · cases same
    exact calls
  · cases same
    exact fun call => behind (calls ▸ call)

end Keeps

theorem lt_length_of_found {tokens : List Token} {i : Nat} {l : Lexeme} (next : found tokens i = some l) :
    i < tokens.length := by
  obtain ⟨t, at_, -⟩ := Option.map_eq_some_iff.1 next
  exact (List.getElem?_eq_some_iff.1 at_).1

namespace Running
variable {tokens : List Token} {finish nesting : Nat} {mayOpen : Prop} {s : State} {m : Method}

theorem leave (h : Running tokens m nesting s) (node : Node) :
    Keeps tokens nesting mayOpen (.ok (s.leave node)) := by
  rintro _ ⟨⟩
  have valid : Valid tokens (s.leave node) := ⟨⟨m, h.linked, nofun⟩, h.counted, h.bounded, h.within, nofun⟩
  exact ⟨valid, fun more => absurd h.settled (Nat.not_le.2 more)⟩

/-- A call on the same level. -/
theorem call (h : Running tokens m nesting s) {frame : Frame} {rule : Rule} (own : frame.method = m)
    (calls : rule.method = frame.callee) (same : frame.opens = false)
    (behind : frame.callee = .call → s.index < tokens.length) :
    Keeps tokens nesting mayOpen (.ok (s.call frame rule)) := by
  refine .call (own ▸ h.linked) calls ?_ h.bounded h.within behind fun more => absurd h.settled (Nat.not_le.2 more)
  rw [opened_cons, same, h.counted]
  rfl

/-- A call on a level that it opens. -/
theorem nest (h : Running tokens m nesting s) {frame : Frame} {rule : Rule} (opener : Nat) (own : frame.method = m)
    (calls : rule.method = frame.callee) (opens : frame.opens = true) (may : mayOpen) :
    Keeps tokens nesting mayOpen (do return (← s.nest opener).call frame rule) := by
  have behind : frame.callee = .call → s.index < tokens.length := fun call => absurd call (Frame.callee_ne_call opens)
  refine .nest fun few => .call (own ▸ h.linked) calls ?_ few h.within behind fun _ => may
  rw [opened_cons, opens]
  exact congrArg (· + 1) h.counted

theorem advance (h : Running tokens m nesting s) {l : Lexeme} (next : found tokens s.index = some l) :
    Running tokens m nesting s.advance :=
  ⟨h.linked, h.counted, h.bounded, h.settled, lt_length_of_found next⟩

theorem count (h : Running tokens m nesting s) : Running tokens m nesting { s with nodes := s.nodes + 1 } :=
  ⟨h.linked, h.counted, h.bounded, h.settled, h.within⟩

theorem build (h : Running tokens m nesting s) (node : Node) :
    Keeps tokens nesting mayOpen (do return (← s.build node).leave node) := .build (h.count.leave node)

theorem close (h : Running tokens m nesting s) (function : Function) (start : Nat) (arguments : List Node) :
    Keeps tokens nesting mayOpen (close tokens finish function start arguments s) := by
  refine .look fun l next => ?_
  dsimp only
  split
  next =>
    split
    next => exact (h.advance next).build _
    next => exact .error _
  next => exact .error _
  next => exact .error _

theorem number (h : Running tokens m nesting s) (literal : String) (start : Nat) :
    Keeps tokens nesting mayOpen (number literal start s) := by
  rw [Machine.number]
  split
  next => exact .error _
  next =>
    dsimp only
    split
    next => exact h.build _
    next => exact .error _

theorem turns {tier : Tier} (h : Running tokens (chainMethod tier) nesting s) (left : Node) :
    Keeps tokens nesting mayOpen (turns tokens finish tier left s) := by
  refine .look fun l next => ?_
  dsimp only
  split
  next =>
    split
    next => exact (h.advance next).call rfl rfl rfl fun call => absurd call (operand_method_ne_call tier)
    next => exact h.leave left
  next => exact h.leave left

theorem primary (h : Running tokens .primary nesting s) :
    Keeps tokens nesting mayOpen (primary tokens finish s) := by
  refine .look fun l next => ?_
  dsimp only
  split
  next => exact (h.advance next).number _ _
  next =>
    refine .look fun l behind => ?_
    dsimp only
    split
    next paren => exact (h.advance next).call rfl rfl rfl fun _ => lt_length_of_found (behind.trans paren)
    next =>
      split
      next => exact .error _
      next => exact (h.advance next).build _
  next => exact (h.advance next).call rfl rfl rfl nofun
  next => exact .error _

end Running

/-! ## What every step keeps -/

section Step
variable {tokens : List Token} {finish : Nat}

theorem enter_keeps {rule : Rule} {K : List Frame} {i m n : Nat} (valid : Valid tokens ⟨.enter rule, K, i, m, n⟩) :
    Keeps tokens n (∃ p, Opening tokens finish ⟨.enter rule, K, i, m, n⟩ p)
      (enter tokens finish rule ⟨.enter rule, K, i, m, n⟩) := by
  obtain ⟨method, linked, own⟩ := valid.linked
  obtain rfl := own rule rfl
  have running : Running tokens rule.method n ⟨.enter rule, K, i, m, n⟩ :=
    ⟨linked, valid.nesting, valid.bounded, Nat.le_refl n, valid.within⟩
  cases rule with
  | expression => exact .look fun l _ => running.nest _ rfl rfl rfl ⟨_, .expression⟩
  | conditional => exact running.call rfl rfl rfl nofun
  | comparison => exact running.call rfl rfl rfl nofun
  | chain tier => exact running.call rfl rfl rfl fun call => absurd call (operand_method_ne_call tier)
  | unary =>
    refine .look fun l next => ?_
    dsimp only
    split
    next minus => exact (running.advance (next.trans minus)).nest _ rfl rfl rfl ⟨_, .minus (next.trans minus)⟩
    next => exact running.call rfl rfl rfl nofun
  | power => exact running.call rfl rfl rfl nofun
  | primary => exact running.primary
  | call name start =>
    have running : Running tokens .call n (State.advance ⟨.enter (.call name start), K, i, m, n⟩) :=
      ⟨linked, valid.nesting, valid.bounded, Nat.le_refl n, valid.behind _ rfl rfl⟩
    rw [enter]
    dsimp only
    split
    next => exact .error _
    next =>
      refine .look fun l _ => ?_
      dsimp only
      split
      next => exact running.close _ _ _
      next => exact running.call rfl rfl rfl nofun

theorem resume_keeps {frame : Frame} {node : Node} {K : List Frame} {i m n : Nat}
    (valid : Valid tokens ⟨.leave node, frame :: K, i, m, n⟩) :
    Keeps tokens n (∃ p, Opening tokens finish ⟨.leave node, frame :: K, i, m, n⟩ p)
      (resume tokens finish frame node ⟨.leave node, K, i, m, n⟩) := by
  obtain ⟨method, linked, -⟩ := valid.linked
  have linked : Linked frame.method K := by
    cases linked with
    | call _ h => exact h
  have nesting : n = opened K + if frame.opens then 1 else 0 := valid.nesting.trans (opened_cons frame K)
  have bounded : n ≤ maxDepth := valid.bounded
  have within : i ≤ tokens.length := valid.within
  have running (same : frame.opens = false) : Running tokens frame.method n ⟨.leave node, K, i, m, n⟩ := by
    refine ⟨linked, ?_, bounded, Nat.le_refl n, within⟩
    rw [nesting, same]
    rfl
  -- Behind a frame that has opened a level, the level is closed.
  have closed (opens : frame.opens = true) :
      Running tokens frame.method n (State.unnest ⟨.leave node, K, i, m, n⟩) := by
    have open_level : n = opened K + 1 := by rw [nesting, opens]; rfl
    exact ⟨linked, by show n - 1 = opened K; omega, by show n - 1 ≤ maxDepth; omega, Nat.sub_le n 1, within⟩
  cases frame with
  | whole =>
    refine .look fun l _ => ?_
    dsimp only
    split
    next => exact .error _
    next => exact .error _
  | expression => exact (closed rfl).leave node
  | condition =>
    refine .look fun l next => ?_
    dsimp only
    split
    next question =>
      have question := next.trans question
      exact ((running rfl).advance question).nest _ rfl rfl rfl ⟨_, .branches question⟩
    next => exact (running rfl).leave node
  | yes mark condition =>
    refine .look fun l next => ?_
    dsimp only
    split
    next colon =>
      -- The second branch is on the level that was opened for the first one.
      have counted : n = opened (.no mark condition node :: K) := nesting.trans (opened_cons ..).symm
      have passed : i + 1 ≤ tokens.length := lt_length_of_found (next.trans colon)
      exact .call linked rfl counted bounded passed nofun fun more => absurd more (Nat.lt_irrefl n)
    next => exact .error _
  | no mark condition yes => exact (closed rfl).build _
  | left =>
    refine .look fun l next => ?_
    dsimp only
    split
    next => exact ((running rfl).advance next).call rfl rfl rfl nofun
    next => exact (running rfl).leave node
  | right sign op left =>
    refine .look fun l _ => ?_
    dsimp only
    split
    next => exact .error _
    next => exact (running rfl).build _
  | first tier => exact (running rfl).turns node
  | turn tier sign op left => exact .build ((running rfl).count.turns _)
  | unsigned => exact (running rfl).leave node
  | negated sign => exact (closed rfl).build _
  | base =>
    refine .look fun l next => ?_
    dsimp only
    split
    next power =>
      have power := next.trans power
      exact ((running rfl).advance power).nest _ rfl rfl rfl ⟨_, .exponent power⟩
    next => exact (running rfl).leave node
  | exponent sign base => exact (closed rfl).build _
  | called => exact (running rfl).leave node
  | body =>
    refine .look fun l next => ?_
    dsimp only
    split
    next closing => exact ((running rfl).advance (next.trans closing)).leave node
    next => exact .error _
  | argument function start before =>
    refine .look fun l next => ?_
    dsimp only
    split
    next comma => exact ((running rfl).advance (next.trans comma)).call rfl rfl rfl nofun
    next => exact (running rfl).close _ _ _

/-- A step from a valid state ends the run or goes on to a valid state, and opens a level only where one is to be
opened. -/
theorem step_keeps {s : State} (valid : Valid tokens s) :
    Keeps tokens s.nesting (∃ p, Opening tokens finish s p) (step tokens finish s) := by
  obtain ⟨mode, frames, i, m, n⟩ := s
  cases mode with
  | enter rule => exact enter_keeps valid
  | leave node =>
    cases frames with
    | nil => exact .error _
    | cons frame K => exact resume_keeps valid

theorem valid_start : Valid tokens start :=
  ⟨⟨_, .call .whole .parse, by rintro _ ⟨⟩; rfl⟩, rfl, Nat.zero_le _, Nat.zero_le _, by rintro _ ⟨⟩; exact nofun⟩

/-- All states that are reached are valid. -/
theorem Leads.valid {x y : Step} (h : Leads tokens finish x y) (first : ∀ s, x = .ok s → Valid tokens s) :
    ∀ s, y = .ok s → Valid tokens s := by
  induction h with
  | refl => exact first
  | @step s x behind ih => exact ih fun s' next => (step_keeps (first s rfl) s' next).1

/-- The attempt to open one more level than there may be ends the run at once. -/
theorem Opening.rejects {s : State} {p : Nat} (h : Opening tokens finish s p) (within : s.index ≤ tokens.length)
    (full : s.nesting = maxDepth) : step tokens finish s = .error (.rejected ⟨.nestedTooDeep, some p⟩) := by
  have nest (mode : Mode) (K : List Frame) (i m opener : Nat) (f : State → Step) :
      (State.nest opener ⟨mode, K, i, m, s.nesting⟩ >>= f) = .error (.rejected ⟨.nestedTooDeep, some opener⟩) := by
    rw [State.nest, if_pos (by rw [full]; exact Nat.lt_succ_self _)]
    rfl
  cases h with
  | expression => exact (run_look within).trans (nest ..)
  | branches next => exact (run_look within).trans ((if_pos next).trans (nest ..))
  | minus next => exact (run_look within).trans ((if_pos next).trans (nest ..))
  | exponent next => exact (run_look within).trans ((if_pos next).trans (nest ..))

end Step

end GameScoring.Formula.Machine
