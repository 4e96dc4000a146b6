import GameScoring.Formula.Token
import GameScoring.Formula.Tree
import GameScoring.Numeral.Reading

/-! # The parser

One rule for each level of the grammar, lowest precedence first:

    expression  := conditional
    conditional := comparison ( "?" conditional ":" conditional )?
    comparison  := additive ( COMPARISON additive )?
    additive    := term ( ("+" | "-") term )*
    term        := unary ( ("*" | "/") unary )*
    unary       := "-" unary | power
    power       := primary ( "^" unary )?
    primary     := NUMBER | NAME | NAME "(" arguments ")" | "(" expression ")"

A rule that goes one level further in (an expression, a branch of a conditional, the operand of a minus or
an exponent) uses the rules of the next `Level`, and there are `maxDepth` of them. The rules of a level are
not recursive, so the recursion is on the level alone. The two repetitions are bounded by the node limit,
since each turn builds a node: one turn more than there may be nodes is never reached.
-/
namespace GameScoring.Formula

/-- Where a parse stands: the tokens not yet read, the position of the end of the text and the number of
nodes built so far. -/
structure Cursor where
  tokens : List Token
  finish : Nat
  nodes : Nat

abbrev Parser := StateT Cursor (Except Rejection)

namespace Parser

def reject {α : Type} (reason : Reason) (position : Nat) : Parser α :=
  fun _ => .error ⟨reason, some position⟩

/-- The lexeme of the next token, if the text does not end there. -/
def peek : Parser (Option Lexeme) := fun c => .ok (c.tokens.head?.map Token.lexeme, c)

/-- The position of the next token or of the end. -/
def position : Parser Nat := fun c => .ok ((c.tokens.head?.map Token.position).getD c.finish, c)

def advance : Parser Unit := fun c => .ok ((), { c with tokens := c.tokens.tail })

def unexpected {α : Type} (expected : Option Expected) : Parser α := do
  reject (.unexpected (← peek) expected) (← position)

/-- Counts a new node against the limits. -/
def build (node : Node) : Parser Node := fun c =>
  let nodes := c.nodes + 1
  if maxNodes < nodes then .error ⟨.tooManyNodes, some node.position⟩
  else if maxDepth < node.depth then .error ⟨.tooDeep, some node.position⟩
  else .ok (node, { c with nodes })

/-- The rules that lead one level further in. Each is given the position of the token that opens it. -/
structure Level where
  conditional : Nat → Parser Node
  unary : Nat → Parser Node

namespace Level

/-- The level beyond the last one. -/
def beyond : Level := ⟨fun opener => reject .nestedTooDeep opener, fun opener => reject .nestedTooDeep opener⟩

/-- An expression opens at its own first token. -/
def expression (inner : Level) : Parser Node := do inner.conditional (← position)

/-- Expressions separated by commas, at least one. -/
def arguments (inner : Level) : Nat → Parser (List Node)
  | 0 => do reject .tooManyNodes (← position)
  | more + 1 => do
    let first ← inner.expression
    if (← peek) = some .comma then
      advance
      return first :: (← inner.arguments more)
    else return [first]

/-- The end of a call, from its closing parenthesis. -/
def close (function : Function) (start : Nat) (arguments : List Node) : Parser Node := do
  match ← peek with
  | some .rightParen =>
    advance
    if function.accepts arguments.length then build (Node.call start function arguments)
    else reject (.argumentCount function arguments.length) start
  | none => reject .unclosed (← position)
  | some _ => unexpected (some .argumentEnd)

/-- The rest of a call, from its opening parenthesis. -/
def call (inner : Level) (name : String) (start : Nat) : Parser Node := do
  match Function.ofName? name with
  | none => reject (.unknownFunction name) start
  | some function =>
    advance
    let arguments ← if (← peek) = some .rightParen then pure [] else inner.arguments (maxNodes + 1)
    close function start arguments

/-- The number that a literal writes. A literal beyond the range of doubles reads as infinity. -/
def literalValue (literal : String) : Float :=
  ((Numeral.ofLiteral? literal.toList).map Decimal.toFloat).getD (Binary.infinity false)

def number (literal : String) (start : Nat) : Parser Node :=
  let value := literalValue literal
  if Binary.isFinite value then build (Node.number start value) else reject (.literalOutOfRange literal) start

def primary (inner : Level) : Parser Node := do
  let start ← position
  match ← peek with
  | some (.number literal) =>
    advance
    number literal start
  | some (.identifier name) =>
    advance
    if (← peek) = some .leftParen then inner.call name start
    else match Function.ofName? name with
      | some function => reject (.bareFunction function) start
      | none => build (Node.reference start name)
  | some .leftParen =>
    advance
    let expression ← inner.expression
    if (← peek) = some .rightParen then
      advance
      return expression
    else reject .unclosed (← position)
  | _ => unexpected (some .operand)

def power (inner : Level) : Parser Node := do
  let base ← inner.primary
  let sign ← position
  if (← peek) = some (.arithmetic .power) then
    advance
    let exponent ← inner.unary sign
    build (Node.arithmetic sign .power base exponent)
  else return base

def signed (inner : Level) : Parser Node := do
  let sign ← position
  if (← peek) = some (.arithmetic .subtract) then
    advance
    let operand ← inner.unary sign
    build (Node.negate sign operand)
  else inner.power

/-- Operators of a class with an operand after each, grouped to the left. -/
def chain (operand : Parser Node) (accepts : Arithmetic → Bool) : Nat → Node → Parser Node
  | 0, _ => do reject .tooManyNodes (← position)
  | more + 1, left => do
    let sign ← position
    match ← peek with
    | some (.arithmetic op) =>
      if accepts op then
        advance
        let right ← operand
        chain operand accepts more (← build (Node.arithmetic sign op left right))
      else return left
    | _ => return left

def isMultiplicative (op : Arithmetic) : Bool := op == .multiply || op == .divide

def isAdditive (op : Arithmetic) : Bool := op == .add || op == .subtract

def term (inner : Level) : Parser Node := do
  chain inner.signed isMultiplicative (maxNodes + 1) (← inner.signed)

def additive (inner : Level) : Parser Node := do
  chain inner.term isAdditive (maxNodes + 1) (← inner.term)

def comparison (inner : Level) : Parser Node := do
  let left ← inner.additive
  let sign ← position
  match ← peek with
  | some (.compare op) =>
    advance
    let right ← inner.additive
    match ← peek with
    | some (.compare _) => reject .chainedComparison (← position)
    | _ => build (Node.compare sign op left right)
  | _ => return left

def choice (inner : Level) : Parser Node := do
  let condition ← inner.comparison
  let mark ← position
  if (← peek) = some .question then
    advance
    let yes ← inner.conditional mark
    if (← peek) = some .colon then
      advance
      let no ← inner.conditional mark
      build (Node.choose mark condition yes no)
    else unexpected (some .colon)
  else return condition

/-- The level with `allowed` levels in it, itself included. -/
def within : Nat → Level
  | 0 => beyond
  | allowed + 1 => ⟨fun _ => (within allowed).choice, fun _ => (within allowed).signed⟩

end Level

/-- An expression and nothing after it. -/
def whole : Parser Node := do
  let root ← (Level.within maxDepth).expression
  match ← peek with
  | none => return root
  | some _ => unexpected none

end Parser

end GameScoring.Formula
