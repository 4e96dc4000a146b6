import GameScoring.Proofs.Formula.Phrase

/-!
# The parser as a machine

The rules of the grammar call each other. A machine makes these calls visible: a rule that waits for another
one is a frame on a stack, and a counter says how many levels of nesting are open. The machine takes one
step from call to call, without a bound on the levels or on the repetitions, and it notices when a token
behind the end is read. Whatever it reads, no more than nine rules are at work on a level, and no more than
`maxDepth` levels are open.
-/
namespace GameScoring.Formula.Machine
open Formula.Parser

/-! ## States and steps -/

inductive Rule
  | expression
  | conditional
  | comparison
  | chain (tier : Tier)
  | unary
  | power
  | primary
  | call (name : String) (start : Nat)

/-- A rule that waits for another one, and what it knows by then. -/
inductive Frame
  | whole
  | expression
  | condition
  | yes (mark : Nat) (condition : Node)
  | no (mark : Nat) (condition yes : Node)
  | left
  | right (sign : Nat) (op : Comparison) (left : Node)
  | first (tier : Tier)
  | turn (tier : Tier) (sign : Nat) (op : Arithmetic) (left : Node)
  | unsigned
  | negated (sign : Nat)
  | base
  | exponent (sign : Nat) (base : Node)
  | called
  | body
  | argument (function : Function) (start : Nat) (before : List Node)

/-- A rule begins, or one has ended with a node for the rule that waits for it. -/
inductive Mode
  | enter (rule : Rule)
  | leave (node : Node)

structure State where
  mode : Mode
  frames : List Frame
  index : Nat
  nodes : Nat
  nesting : Nat

/-- How the machine ends. It should neither read behind the end of the tokens nor find a number that cannot
be read. -/
inductive Verdict
  | accepted (root : Node) (nodes : Nat)
  | rejected (rejection : Rejection)
  | overrun (index : Nat)
  | unreadable (literal : String)

/-- The state after a step, or the end. -/
abbrev Step := Except Verdict State

def reject (reason : Reason) (place : Nat) : Step := .error (.rejected ⟨reason, some place⟩)

namespace State

def advance (s : State) : State := { s with index := s.index + 1 }

def call (frame : Frame) (rule : Rule) (s : State) : State :=
  { s with mode := .enter rule, frames := frame :: s.frames }

def leave (node : Node) (s : State) : State := { s with mode := .leave node }

/-- Opens a level of nesting, unless there are too many. -/
def nest (opener : Nat) (s : State) : Step :=
  if maxDepth < s.nesting + 1 then reject .nestedTooDeep opener else .ok { s with nesting := s.nesting + 1 }

def unnest (s : State) : State := { s with nesting := s.nesting - 1 }

def build (node : Node) (s : State) : Step :=
  let nodes := s.nodes + 1
  if maxNodes < nodes then reject .tooManyNodes node.position
  else if maxDepth < node.depth then reject .tooDeep node.position
  else .ok { s with nodes }

end State

/-- The rule for the operands of a tier. -/
def operand : Tier → Rule
  | .additive => .chain .multiplicative
  | .multiplicative => .unary

section Steps
variable (tokens : List Token) (finish : Nat)

def found (index : Nat) : Option Lexeme := tokens[index]?.map Token.lexeme

def place (index : Nat) : Nat := (tokens[index]?.map Token.position).getD finish

/-- The lexeme and the place of the next token. The end stands behind the last token, and nothing behind
the end. -/
def look (s : State) : Except Verdict (Option Lexeme × Nat) :=
  if tokens.length < s.index then .error (.overrun s.index)
  else .ok (found tokens s.index, place tokens finish s.index)

def turns (tier : Tier) (left : Node) (s : State) : Step := do
  let (found, sign) ← look tokens finish s
  match found with
  | some (.arithmetic op) =>
    if tier.joins op then return s.advance.call (.turn tier sign op left) (operand tier)
    else return s.leave left
  | _ => return s.leave left

def close (function : Function) (start : Nat) (arguments : List Node) (s : State) : Step := do
  let (found, place) ← look tokens finish s
  match found with
  | some .rightParen =>
    if function.accepts arguments.length then
      let node := Node.call start function arguments
      return (← s.advance.build node).leave node
    else reject (.argumentCount function arguments.length) start
  | none => reject .unclosed place
  | some _ => reject (.unexpected found (some .argumentEnd)) place

def number (literal : String) (start : Nat) (s : State) : Step := do
  if (Numeral.ofLiteral? literal.toList).isNone then .error (.unreadable literal)
  else
    let value := Level.literalValue literal
    if Binary.isFinite value then
      let node := Node.number start value
      return (← s.build node).leave node
    else reject (.literalOutOfRange literal) start

def primary (s : State) : Step := do
  let (found, start) ← look tokens finish s
  match found with
  | some (.number literal) => number literal start s.advance
  | some (.identifier name) =>
    let s := s.advance
    let (behind, _) ← look tokens finish s
    if behind = some .leftParen then return s.call .called (.call name start)
    else match Function.ofName? name with
      | some function => reject (.bareFunction function) start
      | none =>
        let node := Node.reference start name
        return (← s.build node).leave node
  | some .leftParen => return s.advance.call .body .expression
  | _ => reject (.unexpected found (some .operand)) start

/-- A rule begins. -/
def enter (rule : Rule) (s : State) : Step := do
  match rule with
  | .expression =>
    let (_, opener) ← look tokens finish s
    return (← s.nest opener).call .expression .conditional
  | .conditional => return s.call .condition .comparison
  | .comparison => return s.call .left (.chain .additive)
  | .chain tier => return s.call (.first tier) (operand tier)
  | .unary =>
    let (found, sign) ← look tokens finish s
    if found = some (.arithmetic .subtract) then return (← s.advance.nest sign).call (.negated sign) .unary
    else return s.call .unsigned .power
  | .power => return s.call .base .primary
  | .primary => primary tokens finish s
  | .call name start =>
    match Function.ofName? name with
    | none => reject (.unknownFunction name) start
    | some function =>
      let s := s.advance
      let (found, _) ← look tokens finish s
      if found = some .rightParen then close tokens finish function start [] s
      else return s.call (.argument function start []) .expression

/-- A rule goes on with the node that it has waited for. -/
def resume (frame : Frame) (node : Node) (s : State) : Step := do
  match frame with
  | .whole =>
    let (found, place) ← look tokens finish s
    if found = none then .error (.accepted node s.nodes) else reject (.unexpected found none) place
  | .expression => return s.unnest.leave node
  | .condition =>
    let (found, mark) ← look tokens finish s
    if found = some .question then return (← s.advance.nest mark).call (.yes mark node) .conditional
    else return s.leave node
  | .yes mark condition =>
    let (found, place) ← look tokens finish s
    if found = some .colon then return s.advance.call (.no mark condition node) .conditional
    else reject (.unexpected found (some .colon)) place
  | .no mark condition yes =>
    let node := Node.choose mark condition yes node
    return (← s.unnest.build node).leave node
  | .left =>
    let (found, sign) ← look tokens finish s
    match found with
    | some (.compare op) => return s.advance.call (.right sign op node) (.chain .additive)
    | _ => return s.leave node
  | .right sign op left =>
    let (found, place) ← look tokens finish s
    match found with
    | some (.compare _) => reject .chainedComparison place
    | _ =>
      let node := Node.compare sign op left node
      return (← s.build node).leave node
  | .first tier => turns tokens finish tier node s
  | .turn tier sign op left =>
    let left := Node.arithmetic sign op left node
    turns tokens finish tier left (← s.build left)
  | .unsigned => return s.leave node
  | .negated sign =>
    let node := Node.negate sign node
    return (← s.unnest.build node).leave node
  | .base =>
    let (found, sign) ← look tokens finish s
    if found = some (.arithmetic .power) then return (← s.advance.nest sign).call (.exponent sign node) .unary
    else return s.leave node
  | .exponent sign base =>
    let node := Node.arithmetic sign .power base node
    return (← s.unnest.build node).leave node
  | .called => return s.leave node
  | .body =>
    let (found, place) ← look tokens finish s
    if found = some .rightParen then return s.advance.leave node else reject .unclosed place
  | .argument function start before =>
    let (found, _) ← look tokens finish s
    if found = some .comma then return s.advance.call (.argument function start (before ++ [node])) .expression
    else close tokens finish function start (before ++ [node]) s

def step (s : State) : Step :=
  match s.mode, s.frames with
  | .enter rule, _ => enter tokens finish rule s
  | .leave node, frame :: frames => resume tokens finish frame node { s with frames }
  | .leave node, [] => .error (.accepted node s.nodes)

/-- Steps lead from one outcome of a step to another one. -/
inductive Leads : Step → Step → Prop
  | refl (x : Step) : Leads x x
  | step {s : State} {x : Step} (behind : Leads (step tokens finish s) x) : Leads (.ok s) x

end Steps

theorem run_look {tokens : List Token} {finish : Nat} {s : State} {f : Option Lexeme × Nat → Step}
    (within : s.index ≤ tokens.length) :
    (look tokens finish s >>= f) = f (found tokens s.index, place tokens finish s.index) := by
  rw [look, if_neg (Nat.not_lt.2 within)]
  rfl

/-- An expression is to be read, and nothing after it. -/
def start : State := ⟨.enter .expression, [.whole], 0, 0, 0⟩

namespace Leads
variable {tokens : List Token} {finish : Nat} {x y z : Step} {s : State} {v w : Verdict}

theorem trans (first : Leads tokens finish x y) (second : Leads tokens finish y z) : Leads tokens finish x z := by
  induction first with
  | refl => exact second
  | step _ ih => exact .step (ih second)

/-- All that is reached leads to the one end. -/
theorem toward (first : Leads tokens finish x (.error v)) (second : Leads tokens finish x y) :
    Leads tokens finish y (.error v) := by
  induction second with
  | refl => exact first
  | step _ ih =>
    cases first with
    | step behind => exact ih behind

theorem end_unique (h : Leads tokens finish (.error w) (.error v)) : w = v := by
  cases h
  rfl

end Leads

end GameScoring.Formula.Machine
