import GameScoring.Proofs.Formula.Phrase

/-!
# The trees of phrases

The trees that phrases stand for are well formed: their literals are finite, no variable
has the name of a function, and every call has a number of arguments that the function
takes. Their marks are the heights of their subtrees, and a phrase builds as many nodes as
its tree has.
-/
namespace GameScoring.Formula

/-- Trees that the parser may build, with the marks it gives them. -/
inductive WellFormed : Node → Prop
  | number {position : Nat} {value : Float} (finite : Binary.isFinite value = true) :
      WellFormed (Node.number position value)
  | reference {position : Nat} {name : String} (free : Function.ofName? name = none) :
      WellFormed (Node.reference position name)
  | negate {position : Nat} {operand : Node} (ho : WellFormed operand) :
      WellFormed (Node.negate position operand)
  | arithmetic {position : Nat} {op : Arithmetic} {left right : Node} (hl : WellFormed left)
      (hr : WellFormed right) : WellFormed (Node.arithmetic position op left right)
  | compare {position : Nat} {op : Comparison} {left right : Node} (hl : WellFormed left)
      (hr : WellFormed right) : WellFormed (Node.compare position op left right)
  | choose {position : Nat} {condition yes no : Node} (hc : WellFormed condition)
      (hy : WellFormed yes) (hn : WellFormed no) :
      WellFormed (Node.choose position condition yes no)
  | call {position : Nat} {function : Function} {arguments : List Node}
      (ha : ∀ t ∈ arguments, WellFormed t)
      (accepted : function.accepts arguments.length = true) :
      WellFormed (Node.call position function arguments)

namespace WellFormed

theorem deepest_eq_tallest {ts : List Node} (h : ∀ t ∈ ts, t.depth = t.height) :
    Node.deepest ts = Tree.tallest ts := by
  induction ts with
  | nil => rfl
  | cons t rest ih =>
    rw [Node.deepest_cons, Tree.tallest, h t (List.mem_cons_self ..),
      ih fun u hu => h u (List.mem_cons_of_mem _ hu)]

/-- The mark of a node is the height of its subtree. -/
theorem depth_eq_height {t : Node} (h : WellFormed t) : t.depth = t.height := by
  induction h with
  | number _ => rfl
  | reference _ => rfl
  | negate _ ih => rw [Node.depth_negate, ih, Node.negate, Tree.height, Nat.add_comm]
  | arithmetic _ _ ihl ihr =>
    rw [Node.depth_arithmetic, ihl, ihr, Node.arithmetic, Tree.height, Nat.add_comm]
  | compare _ _ ihl ihr =>
    rw [Node.depth_compare, ihl, ihr, Node.compare, Tree.height, Nat.add_comm]
  | choose _ _ _ ihc ihy ihn =>
    rw [Node.depth_choose, ihc, ihy, ihn, Node.choose, Tree.height, Nat.add_comm]
  | call _ _ ih =>
    rw [Node.depth_call, deepest_eq_tallest ih, Node.call, Tree.height, Nat.add_comm]

end WellFormed

namespace Category

/-- All trees in a meaning have a property, and turns keep it. -/
def All (P : Node → Prop) : {c : Category} → c.Meaning → Prop
  | .turns _, f => ∀ left, P left → P (f left)
  | .arguments, ts | .argumentList, ts => ∀ t ∈ ts, P t
  | .conditional, t | .comparison, t | .chain _, t | .operand _, t | .signed, t | .power, t
  | .primary, t => P t

/-- The number of nodes in a meaning; turns add to those of the tree to their left. -/
def Totals (n : Nat) : {c : Category} → c.Meaning → Prop
  | .turns _, f => ∀ left : Node, (f left).size = left.size + n
  | .arguments, ts | .argumentList, ts => Tree.totalSize ts = n
  | .conditional, t | .comparison, t | .chain _, t | .operand _, t | .signed, t | .power, t
  | .primary, t => t.size = n

end Category

namespace Phrase

theorem wellFormed {c : Category} (p : Phrase c) {m : c.Meaning} (h : p.meaning? = some m) :
    Category.All WellFormed m := by
  induction p with
  | plain body ih => exact ih h
  | choose condition question yes colon no ihc ihy ihn =>
    obtain ⟨_, _, _, hc, hy, hn, rfl⟩ := meaning?_choose.1 h
    exact .choose (ihc hc) (ihy hy) (ihn hn)
  | single body ih => exact ih h
  | compare left op sign right ihl ihr =>
    obtain ⟨_, _, hl, hr, rfl⟩ := meaning?_compare.1 h
    exact .compare (ihl hl) (ihr hr)
  | @chain tier first rest ihf ihr =>
    obtain ⟨u, f, hu, hf, rfl⟩ := meaning?_chain.1 h
    cases tier with
    | additive => exact ihr hf u (ihf hu)
    | multiplicative => exact ihr hf u (ihf hu)
  | done =>
    cases h
    exact fun _ hl => hl
  | turn op joins sign right rest ihr ihm =>
    obtain ⟨r, g, hr, hg, rfl⟩ := meaning?_turn.1 h
    exact fun left hl => ihm hg _ (.arithmetic hl (ihr hr))
  | summand body ih => exact ih h
  | factor body ih => exact ih h
  | unsigned body ih => exact ih h
  | negate sign operand ih =>
    obtain ⟨_, hu, rfl⟩ := meaning?_negate.1 h
    exact .negate (ih hu)
  | bare base ih => exact ih h
  | power base sign exponent ihb ihe =>
    obtain ⟨_, _, hb, he, rfl⟩ := meaning?_power.1 h
    exact .arithmetic (ihb hb) (ihe he)
  | number literal start =>
    obtain ⟨finite, rfl⟩ := meaning?_number.1 h
    exact .number finite
  | reference name start =>
    obtain ⟨free, rfl⟩ := meaning?_reference.1 h
    exact .reference free
  | parenthesised opening body closing ih => exact ih h
  | call name start opening arguments closing ih =>
    obtain ⟨_, _, -, hts, accepted, rfl⟩ := meaning?_call.1 h
    exact .call (ih hts) accepted
  | noArguments =>
    cases h
    exact fun _ ht => by cases ht
  | someArguments list ih => exact ih h
  | lastArgument argument ih =>
    obtain ⟨u, hu, rfl⟩ := meaning?_lastArgument.1 h
    exact fun t ht => List.mem_singleton.1 ht ▸ ih hu
  | nextArgument argument comma rest iha ihr =>
    obtain ⟨u, us, hu, hus, rfl⟩ := meaning?_nextArgument.1 h
    exact List.forall_mem_cons.2 ⟨iha hu, ihr hus⟩

theorem totals {c : Category} (p : Phrase c) {m : c.Meaning} (h : p.meaning? = some m) :
    Category.Totals p.nodeCount m := by
  induction p with
  | plain body ih => exact ih h
  | choose condition question yes colon no ihc ihy ihn =>
    obtain ⟨c, y, n, hc, hy, hn, rfl⟩ := meaning?_choose.1 h
    have same : c.size = condition.nodeCount := ihc hc
    have same' : y.size = yes.nodeCount := ihy hy
    have same'' : n.size = no.nodeCount := ihn hn
    rw [nodeCount, ← same, ← same', ← same'']
    rfl
  | single body ih => exact ih h
  | compare left op sign right ihl ihr =>
    obtain ⟨l, r, hl, hr, rfl⟩ := meaning?_compare.1 h
    have same : l.size = left.nodeCount := ihl hl
    have same' : r.size = right.nodeCount := ihr hr
    rw [nodeCount, ← same, ← same']
    rfl
  | @chain tier first rest ihf ihr =>
    obtain ⟨u, f, hu, hf, rfl⟩ := meaning?_chain.1 h
    have same : u.size = first.nodeCount := by cases tier <;> exact ihf hu
    rw [nodeCount, ← same]
    cases tier <;> exact ihr hf u
  | done =>
    cases h
    exact fun _ => rfl
  | @turn tier op joins sign right rest ihr ihm =>
    obtain ⟨r, g, hr, hg, rfl⟩ := meaning?_turn.1 h
    have same : r.size = right.nodeCount := by cases tier <;> exact ihr hr
    intro left
    have added : (g (Node.arithmetic sign op left r)).size = left.size + r.size + 1 + rest.nodeCount :=
      ihm hg _
    rw [nodeCount, added, ← same]
    omega
  | summand body ih => exact ih h
  | factor body ih => exact ih h
  | unsigned body ih => exact ih h
  | negate sign operand ih =>
    obtain ⟨u, hu, rfl⟩ := meaning?_negate.1 h
    exact congrArg (· + 1) (ih hu)
  | bare base ih => exact ih h
  | power base sign exponent ihb ihe =>
    obtain ⟨b, e, hb, he, rfl⟩ := meaning?_power.1 h
    have same : b.size = base.nodeCount := ihb hb
    have same' : e.size = exponent.nodeCount := ihe he
    rw [nodeCount, ← same, ← same']
    rfl
  | number literal start =>
    obtain ⟨-, rfl⟩ := meaning?_number.1 h
    rfl
  | reference name start =>
    obtain ⟨-, rfl⟩ := meaning?_reference.1 h
    rfl
  | parenthesised opening body closing ih => exact ih h
  | call name start opening arguments closing ih =>
    obtain ⟨f, ts, -, hts, -, rfl⟩ := meaning?_call.1 h
    exact congrArg (· + 1) (ih hts)
  | noArguments =>
    cases h
    rfl
  | someArguments list ih => exact ih h
  | lastArgument argument ih =>
    obtain ⟨u, hu, rfl⟩ := meaning?_lastArgument.1 h
    exact ih hu
  | nextArgument argument comma rest iha ihr =>
    obtain ⟨u, us, hu, hus, rfl⟩ := meaning?_nextArgument.1 h
    have same : u.size = argument.nodeCount := iha hu
    have same' : Tree.totalSize us = rest.nodeCount := ihr hus
    rw [nodeCount, ← same, ← same']
    rfl

end Phrase

end GameScoring.Formula
