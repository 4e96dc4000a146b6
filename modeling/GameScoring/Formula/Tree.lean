import GameScoring.Formula.Operator

/-! # Formula trees

A tree carries a note at every node. The trees of parsed formulas carry marks: the place of the token that
produced the node, and the depth of the node, stored when it is built. `walk` lists the nodes with an
explicit stack, parents before children.
-/
namespace GameScoring.Formula

inductive Tree (α : Type)
  | number (note : α) (value : Float)
  | reference (note : α) (name : String)
  | negate (note : α) (operand : Tree α)
  | arithmetic (note : α) (op : Arithmetic) (left right : Tree α)
  | compare (note : α) (op : Comparison) (left right : Tree α)
  | choose (note : α) (condition yes no : Tree α)
  | call (note : α) (function : Function) (arguments : List (Tree α))

/-- The mark of a node: where its token stands and how deep its subtree is. -/
structure Mark where
  position : Nat
  depth : Nat
deriving DecidableEq, Repr

abbrev Node := Tree Mark

namespace Tree
variable {α β : Type}

def note : Tree α → α
  | number note _ | reference note _ | negate note _ | arithmetic note .. | compare note .. | choose note ..
  | call note .. => note

def children : Tree α → List (Tree α)
  | number .. | reference .. => []
  | negate _ operand => [operand]
  | arithmetic _ _ left right | compare _ _ left right => [left, right]
  | choose _ condition yes no => [condition, yes, no]
  | call _ _ arguments => arguments

mutual

def size : Tree α → Nat
  | number .. | reference .. => 1
  | negate _ operand => operand.size + 1
  | arithmetic _ _ left right | compare _ _ left right => left.size + right.size + 1
  | choose _ condition yes no => condition.size + yes.size + no.size + 1
  | call _ _ arguments => totalSize arguments + 1

def totalSize : List (Tree α) → Nat
  | [] => 0
  | t :: rest => t.size + totalSize rest

end

mutual

/-- The number of nodes on a longest path down. -/
def height : Tree α → Nat
  | number .. | reference .. => 1
  | negate _ operand => operand.height + 1
  | arithmetic _ _ left right | compare _ _ left right => max left.height right.height + 1
  | choose _ condition yes no => max condition.height (max yes.height no.height) + 1
  | call _ _ arguments => tallest arguments + 1

def tallest : List (Tree α) → Nat
  | [] => 0
  | t :: rest => max t.height (tallest rest)

end

mutual

def map (f : α → β) : Tree α → Tree β
  | number note value => .number (f note) value
  | reference note name => .reference (f note) name
  | negate note operand => .negate (f note) (operand.map f)
  | arithmetic note op left right => .arithmetic (f note) op (left.map f) (right.map f)
  | compare note op left right => .compare (f note) op (left.map f) (right.map f)
  | choose note condition yes no => .choose (f note) (condition.map f) (yes.map f) (no.map f)
  | call note function arguments => .call (f note) function (mapAll f arguments)

def mapAll (f : α → β) : List (Tree α) → List (Tree β)
  | [] => []
  | t :: rest => t.map f :: mapAll f rest

end

mutual

/-- Equality of trees whatever their notes; numbers are compared as numbers. -/
def same : Tree α → Tree β → Bool
  | number _ x, u => match u with
    | number _ y => x == y
    | _ => false
  | reference _ x, u => match u with
    | reference _ y => x == y
    | _ => false
  | negate _ x, u => match u with
    | negate _ y => x.same y
    | _ => false
  | arithmetic _ op a b, u => match u with
    | arithmetic _ op' c d => decide (op = op') && a.same c && b.same d
    | _ => false
  | compare _ op a b, u => match u with
    | compare _ op' c d => decide (op = op') && a.same c && b.same d
    | _ => false
  | choose _ a b c, u => match u with
    | choose _ d e f => a.same d && b.same e && c.same f
    | _ => false
  | call _ f xs, u => match u with
    | call _ g ys => decide (f = g) && sameAll xs ys
    | _ => false

def sameAll : List (Tree α) → List (Tree β) → Bool
  | [], ys => ys.isEmpty
  | x :: xs, ys => match ys with
    | y :: ys => x.same y && sameAll xs ys
    | [] => false

end

theorem totalSize_append (ts us : List (Tree α)) : totalSize (ts ++ us) = totalSize ts + totalSize us := by
  induction ts with
  | nil => simp [totalSize]
  | cons t rest ih => simp [totalSize, ih, Nat.add_assoc]

theorem totalSize_children (t : Tree α) : totalSize t.children + 1 = t.size := by
  cases t <;> simp [children, size, totalSize]
  omega

/-- The nodes below the trees on a stack, the top of the stack first. -/
def walkFrom : List (Tree α) → List (Tree α)
  | [] => []
  | top :: stack => top :: walkFrom (top.children ++ stack)
termination_by stack => totalSize stack
decreasing_by
  have := totalSize_children top
  simp only [totalSize_append, totalSize]
  omega

/-- Every node of a tree, parents before children and children from left to right. -/
def walk (t : Tree α) : List (Tree α) := walkFrom [t]

/-- What goes over from trees to their children holds of all nodes below a stack. -/
theorem forall_mem_walkFrom {P : Tree α → Prop} (down : ∀ t, P t → ∀ u ∈ t.children, P u)
    {stack : List (Tree α)} (h : ∀ t ∈ stack, P t) : ∀ t ∈ walkFrom stack, P t := by
  induction stack using walkFrom.induct with
  | case1 =>
    intro t ht
    rw [walkFrom] at ht
    cases ht
  | case2 top stack ih =>
    obtain ⟨first, others⟩ := List.forall_mem_cons.1 h
    rw [walkFrom]
    exact List.forall_mem_cons.2 ⟨first, ih (List.forall_mem_append.2 ⟨down top first, others⟩)⟩

theorem forall_mem_walk {P : Tree α → Prop} (down : ∀ t, P t → ∀ u ∈ t.children, P u) {t : Tree α}
    (h : P t) : ∀ u ∈ t.walk, P u :=
  forall_mem_walkFrom down fun _ hu => List.mem_singleton.1 hu ▸ h

def referenceName? : Tree α → Option String
  | reference _ name => some name
  | _ => none

/-- The distinct names of variables in a tree, in the order of their characters. -/
def variableNames (t : Tree α) : List String :=
  (t.walk.filterMap referenceName?).eraseDups.mergeSort (fun a b => decide (a ≤ b))

def position (n : Tree Mark) : Nat := n.note.position

def depth (n : Tree Mark) : Nat := n.note.depth

end Tree

namespace Node

def deepest (trees : List Node) : Nat := trees.foldl (fun most tree => max most tree.depth) 0

/-- The mark of a node: it is one deeper than the deepest of its children. -/
def marked (position : Nat) (children : List Node) : Mark := ⟨position, 1 + deepest children⟩

def number (position : Nat) (value : Float) : Node := Tree.number (marked position []) value

def reference (position : Nat) (name : String) : Node := Tree.reference (marked position []) name

def negate (position : Nat) (operand : Node) : Node := Tree.negate (marked position [operand]) operand

def arithmetic (position : Nat) (op : Arithmetic) (left right : Node) : Node :=
  Tree.arithmetic (marked position [left, right]) op left right

def compare (position : Nat) (op : Comparison) (left right : Node) : Node :=
  Tree.compare (marked position [left, right]) op left right

def choose (position : Nat) (condition yes no : Node) : Node :=
  Tree.choose (marked position [condition, yes, no]) condition yes no

def call (position : Nat) (function : Function) (arguments : List Node) : Node :=
  Tree.call (marked position arguments) function arguments

@[simp] theorem deepest_nil : deepest [] = 0 := rfl

@[simp] theorem deepest_cons (t : Node) (rest : List Node) :
    deepest (t :: rest) = max t.depth (deepest rest) := by
  have from_depth (n : Nat) (trees : List Node) :
      trees.foldl (fun most tree => max most tree.depth) n = max n (deepest trees) := by
    induction trees generalizing n with
    | nil => simp
    | cons u more ih => rw [deepest, List.foldl_cons, List.foldl_cons, ih, ih]; omega
  rw [deepest, List.foldl_cons, from_depth]
  omega

theorem depth_negate (position : Nat) (operand : Node) :
    (negate position operand).depth = 1 + operand.depth := by
  simp [negate, Tree.depth, Tree.note, marked]

theorem depth_arithmetic (position : Nat) (op : Arithmetic) (left right : Node) :
    (arithmetic position op left right).depth = 1 + max left.depth right.depth := by
  simp [arithmetic, Tree.depth, Tree.note, marked]

theorem depth_compare (position : Nat) (op : Comparison) (left right : Node) :
    (compare position op left right).depth = 1 + max left.depth right.depth := by
  simp [compare, Tree.depth, Tree.note, marked]

theorem depth_choose (position : Nat) (condition yes no : Node) :
    (choose position condition yes no).depth = 1 + max condition.depth (max yes.depth no.depth) := by
  simp [choose, Tree.depth, Tree.note, marked]

theorem depth_call (position : Nat) (function : Function) (arguments : List Node) :
    (call position function arguments).depth = 1 + deepest arguments := rfl

end Node

end GameScoring.Formula
