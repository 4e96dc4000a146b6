import GameScoring.Formula.Basic

/-!
# Phrases of the grammar

A phrase is a derivation of the grammar of formulas. Its type is indexed by the
category it derives, one for each rule, and every token of it has its position.
A phrase has the tokens it is written with, the tree it stands for and a depth of
nesting. The grammar alone restricts neither names nor numbers: what a phrase
stands for is missing if it uses a function wrongly or a literal out of range.
-/
namespace GameScoring.Formula
open Parser.Level

/-- The two repetitions of the grammar, by how tightly their operators bind. -/
inductive Tier
  | additive
  | multiplicative
deriving DecidableEq, Repr

namespace Tier

def joins : Tier → Arithmetic → Bool
  | additive => isAdditive
  | multiplicative => isMultiplicative

end Tier

/-- The categories of phrases. An operand of a tier is a phrase of the next tighter
rule, and the turns of a tier are the operators and operands after the first one. -/
inductive Category
  | conditional
  | comparison
  | chain (tier : Tier)
  | turns (tier : Tier)
  | operand (tier : Tier)
  | signed
  | power
  | primary
  | arguments
  | argumentList
deriving DecidableEq, Repr

inductive Phrase : Category → Type
  | plain (body : Phrase .comparison) : Phrase .conditional
  | choose (condition : Phrase .comparison) (question : Nat) (yes : Phrase .conditional)
      (colon : Nat) (no : Phrase .conditional) : Phrase .conditional
  | single (body : Phrase (.chain .additive)) : Phrase .comparison
  | compare (left : Phrase (.chain .additive)) (op : Comparison) (sign : Nat)
      (right : Phrase (.chain .additive)) : Phrase .comparison
  | chain {tier : Tier} (first : Phrase (.operand tier)) (rest : Phrase (.turns tier)) :
      Phrase (.chain tier)
  | done {tier : Tier} : Phrase (.turns tier)
  | turn {tier : Tier} (op : Arithmetic) (joins : tier.joins op = true) (sign : Nat)
      (right : Phrase (.operand tier)) (rest : Phrase (.turns tier)) : Phrase (.turns tier)
  | summand (body : Phrase (.chain .multiplicative)) : Phrase (.operand .additive)
  | factor (body : Phrase .signed) : Phrase (.operand .multiplicative)
  | unsigned (body : Phrase .power) : Phrase .signed
  | negate (sign : Nat) (operand : Phrase .signed) : Phrase .signed
  | bare (base : Phrase .primary) : Phrase .power
  | power (base : Phrase .primary) (sign : Nat) (exponent : Phrase .signed) : Phrase .power
  | number (literal : String) (start : Nat) : Phrase .primary
  | reference (name : String) (start : Nat) : Phrase .primary
  | parenthesised (opening : Nat) (body : Phrase .conditional) (closing : Nat) : Phrase .primary
  | call (name : String) (start opening : Nat) (arguments : Phrase .arguments)
      (closing : Nat) : Phrase .primary
  | noArguments : Phrase .arguments
  | someArguments (list : Phrase .argumentList) : Phrase .arguments
  | lastArgument (argument : Phrase .conditional) : Phrase .argumentList
  | nextArgument (argument : Phrase .conditional) (comma : Nat) (rest : Phrase .argumentList) :
      Phrase .argumentList

/-- What a phrase of a category stands for. Turns wait for the tree to their left. -/
abbrev Category.Meaning : Category → Type
  | .turns _ => Node → Node
  | .arguments | .argumentList => List Node
  | _ => Node

namespace Phrase

/-- The tokens a phrase is written with. -/
def tokens {c : Category} : Phrase c → List Token
  | plain body => body.tokens
  | choose condition question yes colon no =>
    condition.tokens ++ ⟨.question, question⟩ :: (yes.tokens ++ ⟨.colon, colon⟩ :: no.tokens)
  | single body => body.tokens
  | compare left op sign right => left.tokens ++ ⟨.compare op, sign⟩ :: right.tokens
  | chain first rest => first.tokens ++ rest.tokens
  | done => []
  | turn op _ sign right rest => ⟨.arithmetic op, sign⟩ :: (right.tokens ++ rest.tokens)
  | summand body => body.tokens
  | factor body => body.tokens
  | unsigned body => body.tokens
  | negate sign operand => ⟨.arithmetic .subtract, sign⟩ :: operand.tokens
  | bare base => base.tokens
  | power base sign exponent => base.tokens ++ ⟨.arithmetic .power, sign⟩ :: exponent.tokens
  | number literal start => [⟨.number literal, start⟩]
  | reference name start => [⟨.identifier name, start⟩]
  | parenthesised opening body closing =>
    ⟨.leftParen, opening⟩ :: (body.tokens ++ [⟨.rightParen, closing⟩])
  | call name start opening arguments closing =>
    ⟨.identifier name, start⟩ :: ⟨.leftParen, opening⟩ ::
      (arguments.tokens ++ [⟨.rightParen, closing⟩])
  | noArguments => []
  | someArguments list => list.tokens
  | lastArgument argument => argument.tokens
  | nextArgument argument comma rest => argument.tokens ++ ⟨.comma, comma⟩ :: rest.tokens

/-- What a phrase stands for. Operators of a tier group to the left: each turn makes one
tree of the tree to its left and its own operand. -/
def meaning? {c : Category} : Phrase c → Option c.Meaning
  | plain body => body.meaning?
  | choose condition question yes _ no => do
    let condition ← condition.meaning?
    let yes ← yes.meaning?
    let no ← no.meaning?
    some (Node.choose question condition yes no)
  | single body => body.meaning?
  | compare left op sign right => do
    let left ← left.meaning?
    let right ← right.meaning?
    some (Node.compare sign op left right)
  | chain first rest => do
    let first ← first.meaning?
    let rest ← rest.meaning?
    some (rest first)
  | done => some id
  | turn op _ sign right rest => do
    let right ← right.meaning?
    let rest ← rest.meaning?
    some fun left => rest (Node.arithmetic sign op left right)
  | summand body => body.meaning?
  | factor body => body.meaning?
  | unsigned body => body.meaning?
  | negate sign operand => do
    let operand ← operand.meaning?
    some (Node.negate sign operand)
  | bare base => base.meaning?
  | power base sign exponent => do
    let base ← base.meaning?
    let exponent ← exponent.meaning?
    some (Node.arithmetic sign .power base exponent)
  | number literal start =>
    if Binary.isFinite (literalValue literal) then some (Node.number start (literalValue literal))
    else none
  | reference name start =>
    if (Function.ofName? name).isNone then some (Node.reference start name) else none
  | parenthesised _ body _ => body.meaning?
  | call name start _ arguments _ => do
    let function ← Function.ofName? name
    let arguments ← arguments.meaning?
    if function.accepts arguments.length then some (Node.call start function arguments) else none
  | noArguments => some []
  | someArguments list => list.meaning?
  | lastArgument argument => do
    let argument ← argument.meaning?
    some [argument]
  | nextArgument argument _ rest => do
    let argument ← argument.meaning?
    let rest ← rest.meaning?
    some (argument :: rest)

/-- The levels of nesting below a phrase. A parenthesised expression, an argument, the
operand of a minus and an exponent are one level further in, and so are the two branches
of a conditional together. -/
def nesting {c : Category} : Phrase c → Nat
  | plain body => body.nesting
  | choose condition _ yes _ no => max condition.nesting (max yes.nesting no.nesting + 1)
  | single body => body.nesting
  | compare left _ _ right => max left.nesting right.nesting
  | chain first rest => max first.nesting rest.nesting
  | done => 0
  | turn _ _ _ right rest => max right.nesting rest.nesting
  | summand body => body.nesting
  | factor body => body.nesting
  | unsigned body => body.nesting
  | negate _ operand => operand.nesting + 1
  | bare base => base.nesting
  | power base _ exponent => max base.nesting (exponent.nesting + 1)
  | number .. => 0
  | reference .. => 0
  | parenthesised _ body _ => body.nesting + 1
  | call _ _ _ arguments _ => arguments.nesting
  | noArguments => 0
  | someArguments list => list.nesting
  | lastArgument argument => argument.nesting + 1
  | nextArgument argument _ rest => max (argument.nesting + 1) rest.nesting

/-- The number of nodes that are built for a phrase; turns do not count the tree to their left. -/
def nodeCount {c : Category} : Phrase c → Nat
  | plain body => body.nodeCount
  | choose condition _ yes _ no => condition.nodeCount + yes.nodeCount + no.nodeCount + 1
  | single body => body.nodeCount
  | compare left _ _ right => left.nodeCount + right.nodeCount + 1
  | chain first rest => first.nodeCount + rest.nodeCount
  | done => 0
  | turn _ _ _ right rest => right.nodeCount + 1 + rest.nodeCount
  | summand body => body.nodeCount
  | factor body => body.nodeCount
  | unsigned body => body.nodeCount
  | negate _ operand => operand.nodeCount + 1
  | bare base => base.nodeCount
  | power base _ exponent => base.nodeCount + exponent.nodeCount + 1
  | number .. => 1
  | reference .. => 1
  | parenthesised _ body _ => body.nodeCount
  | call _ _ _ arguments _ => arguments.nodeCount + 1
  | noArguments => 0
  | someArguments list => list.nodeCount
  | lastArgument argument => argument.nodeCount
  | nextArgument argument _ rest => argument.nodeCount + rest.nodeCount

attribute [simp] tokens meaning? nesting nodeCount

section Inversion
variable {α β γ : Type} {question colon sign start opening closing comma : Nat} {t : Node}
  {ts : List Node}

private theorem pair_eq_some {x? : Option α} {y? : Option β} {f : α → β → γ} {c : γ} :
    (x?.bind fun a => y?.bind fun b => some (f a b)) = some c ↔
      ∃ a b, x? = some a ∧ y? = some b ∧ c = f a b := by
  simp only [Option.bind_eq_some_iff, Option.some.injEq]
  constructor
  · rintro ⟨a, ha, b, hb, rfl⟩
    exact ⟨a, b, ha, hb, rfl⟩
  · rintro ⟨a, b, ha, hb, rfl⟩
    exact ⟨a, ha, b, hb, rfl⟩

theorem meaning?_choose {condition : Phrase .comparison} {yes no : Phrase .conditional} :
    (choose condition question yes colon no).meaning? = some t ↔
      ∃ c y n, condition.meaning? = some c ∧ yes.meaning? = some y ∧ no.meaning? = some n ∧
        t = Node.choose question c y n := by
  simp only [meaning?, Option.bind_eq_bind, Option.bind_eq_some_iff, Option.some.injEq]
  constructor
  · rintro ⟨c, hc, y, hy, n, hn, rfl⟩
    exact ⟨c, y, n, hc, hy, hn, rfl⟩
  · rintro ⟨c, y, n, hc, hy, hn, rfl⟩
    exact ⟨c, hc, y, hy, n, hn, rfl⟩

theorem meaning?_compare {left right : Phrase (.chain .additive)} {op : Comparison} :
    (compare left op sign right).meaning? = some t ↔
      ∃ l r, left.meaning? = some l ∧ right.meaning? = some r ∧ t = Node.compare sign op l r :=
  pair_eq_some

theorem meaning?_chain {tier : Tier} {first : Phrase (.operand tier)} {rest : Phrase (.turns tier)} :
    (chain first rest).meaning? = some t ↔
      ∃ u f, first.meaning? = some u ∧ rest.meaning? = some f ∧ t = f u :=
  pair_eq_some

theorem meaning?_turn {tier : Tier} {op : Arithmetic} {joins : tier.joins op = true}
    {right : Phrase (.operand tier)} {rest : Phrase (.turns tier)} {f : Node → Node} :
    (turn op joins sign right rest).meaning? = some f ↔
      ∃ r g, right.meaning? = some r ∧ rest.meaning? = some g ∧
        f = fun left => g (Node.arithmetic sign op left r) :=
  pair_eq_some

theorem meaning?_negate {operand : Phrase .signed} :
    (negate sign operand).meaning? = some t ↔
      ∃ u, operand.meaning? = some u ∧ t = Node.negate sign u := by
  simp only [meaning?, Option.bind_eq_bind, Option.bind_eq_some_iff, Option.some.injEq,
    eq_comm (b := t)]

theorem meaning?_power {base : Phrase .primary} {exponent : Phrase .signed} :
    (power base sign exponent).meaning? = some t ↔
      ∃ b e, base.meaning? = some b ∧ exponent.meaning? = some e ∧
        t = Node.arithmetic sign .power b e :=
  pair_eq_some

theorem meaning?_number {literal : String} :
    (number literal start).meaning? = some t ↔
      Binary.isFinite (literalValue literal) = true ∧ t = Node.number start (literalValue literal) := by
  simp only [meaning?, Option.ite_none_right_eq_some, Option.some.injEq, eq_comm (b := t)]

theorem meaning?_reference {name : String} :
    (reference name start).meaning? = some t ↔
      Function.ofName? name = none ∧ t = Node.reference start name := by
  simp only [meaning?, Option.isNone_iff_eq_none, Option.ite_none_right_eq_some, Option.some.injEq,
    eq_comm (b := t)]

theorem meaning?_call {name : String} {arguments : Phrase .arguments} :
    (call name start opening arguments closing).meaning? = some t ↔
      ∃ f ts, Function.ofName? name = some f ∧ arguments.meaning? = some ts ∧
        f.accepts ts.length = true ∧ t = Node.call start f ts := by
  simp only [meaning?, Option.bind_eq_bind, Option.bind_eq_some_iff, Option.ite_none_right_eq_some,
    Option.some.injEq]
  constructor
  · rintro ⟨f, hf, ts, hts, accepted, rfl⟩
    exact ⟨f, ts, hf, hts, accepted, rfl⟩
  · rintro ⟨f, ts, hf, hts, accepted, rfl⟩
    exact ⟨f, hf, ts, hts, accepted, rfl⟩

theorem meaning?_lastArgument {argument : Phrase .conditional} :
    (lastArgument argument).meaning? = some ts ↔ ∃ u, argument.meaning? = some u ∧ ts = [u] := by
  simp only [meaning?, Option.bind_eq_bind, Option.bind_eq_some_iff, Option.some.injEq,
    eq_comm (b := ts)]

theorem meaning?_nextArgument {argument : Phrase .conditional} {rest : Phrase .argumentList} :
    (nextArgument argument comma rest).meaning? = some ts ↔
      ∃ u us, argument.meaning? = some u ∧ rest.meaning? = some us ∧ ts = u :: us :=
  pair_eq_some

end Inversion

end Phrase

end GameScoring.Formula
