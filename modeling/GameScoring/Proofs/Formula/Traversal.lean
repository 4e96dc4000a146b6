import Mathlib.Data.Finset.Dedup
import Mathlib.Data.Finset.Lattice.Basic
import Mathlib.Data.List.Flatten
import GameScoring.Proofs.Formula.Census
import GameScoring.Proofs.Formula.Scope

/-!
# Walks in pre-order

A walk keeps a stack of trees: it takes the last one, visits it and puts its children on the stack, the last child
first. What was visited and the pre-orders of what is on the stack are together the pre-order of the tree at every
turn, and each turn visits one node of it. So a walk ends and visits every place of a tree once, in the order of the
places: a node before its children, and what is below a child before the next child.
-/
namespace GameScoring.Formula
namespace Tree
variable {α : Type}

theorem induction_on_children {P : Tree α → Prop} (parts : ∀ t, (∀ u ∈ t.children, P u) → P t) (t : Tree α) : P t := by
  induction same : t.height using Nat.strong_induction_on generalizing t with
  | _ n ih =>
    subst same
    exact parts t fun u child => ih u.height (height_lt_of_mem_children child) u rfl

/-! ## The pre-order -/

mutual

/-- The node, then the pre-orders of its children from left to right. -/
def preorder : Tree α → List (Tree α)
  | number note value => [number note value]
  | reference note name => [reference note name]
  | negate note operand => negate note operand :: operand.preorder
  | arithmetic note op left right => arithmetic note op left right :: (left.preorder ++ right.preorder)
  | compare note op left right => compare note op left right :: (left.preorder ++ right.preorder)
  | choose note condition yes no =>
    choose note condition yes no :: (condition.preorder ++ (yes.preorder ++ no.preorder))
  | call note function arguments => call note function arguments :: preorderAll arguments

def preorderAll : List (Tree α) → List (Tree α)
  | [] => []
  | t :: rest => t.preorder ++ preorderAll rest

end

theorem preorderAll_eq_flatMap (ts : List (Tree α)) : preorderAll ts = ts.flatMap preorder := by
  induction ts with
  | nil => rfl
  | cons t rest ih => rw [preorderAll, ih, List.flatMap_cons]

theorem preorder_eq (t : Tree α) : t.preorder = t :: t.children.flatMap preorder := by
  cases t <;> simp [preorder, children, preorderAll_eq_flatMap]

/-- A walk of what is on a stack visits the pre-orders from the top of the stack down. -/
theorem walkFrom_eq_preorders (stack : List (Tree α)) : walkFrom stack = stack.flatMap preorder := by
  induction stack using walkFrom.induct with
  | case1 => rw [walkFrom, List.flatMap_nil]
  | case2 top stack ih =>
    rw [walkFrom, ih, List.flatMap_append, List.flatMap_cons, preorder_eq top, List.cons_append]

theorem walk_eq_preorder (t : Tree α) : t.walk = t.preorder := by
  rw [walk, walkFrom_eq_preorders, List.flatMap_singleton]

end Tree

/-! ## The loop -/

/-- A walk under way: the stack, its top at the end, and the nodes that were visited. -/
structure Walker (α : Type) where
  stack : List (Tree α)
  visited : List (Tree α)

namespace Walker
variable {α : Type} {w v : Walker α} {n : Nat}

def start (t : Tree α) : Walker α := ⟨[t], []⟩

/-- A turn of the loop. There is none once the stack is empty. -/
def turn (w : Walker α) : Option (Walker α) :=
  w.stack.getLast?.map fun top => ⟨w.stack.dropLast ++ top.children.reverse, w.visited ++ [top]⟩

/-- What a walk has still to visit. -/
def pending (w : Walker α) : List (Tree α) := w.stack.reverse.flatMap Tree.preorder

/-- So many turns lead from one state of a walk to another. -/
inductive Turns : Nat → Walker α → Walker α → Prop
  | nothing (w : Walker α) : Turns 0 w w
  | more {n : Nat} {w v u : Walker α} (first : w.turn = some v) (others : Turns n v u) : Turns (n + 1) w u

theorem turn_eq_some_iff : w.turn = some v ↔
    ∃ below top, w.stack = below ++ [top] ∧ v = ⟨below ++ top.children.reverse, w.visited ++ [top]⟩ := by
  simp only [turn, Option.map_eq_some_iff, List.getLast?_eq_some_iff]
  constructor
  · rintro ⟨top, ⟨below, stack⟩, rfl⟩
    exact ⟨below, top, stack, by simp [stack]⟩
  · rintro ⟨below, top, stack, rfl⟩
    exact ⟨top, ⟨below, stack⟩, by simp [stack]⟩

theorem turn_eq_none_iff : w.turn = none ↔ w.stack = [] := by
  rw [turn, Option.map_eq_none_iff, List.getLast?_eq_none_iff]

/-- A turn visits the first node that is pending, and nothing else changes in what is pending. -/
theorem pending_of_turn (h : w.turn = some v) :
    ∃ top, w.pending = top :: v.pending ∧ v.visited = w.visited ++ [top] := by
  obtain ⟨below, top, stack, rfl⟩ := turn_eq_some_iff.1 h
  refine ⟨top, ?_, rfl⟩
  simp only [pending, stack, List.reverse_append, List.reverse_reverse, List.reverse_singleton, List.cons_append,
    List.nil_append, List.flatMap_cons, List.flatMap_append, Tree.preorder_eq top]

/-- At every turn, what was visited and what is pending are together the same nodes in the same order. -/
theorem Turns.keeps (h : Turns n w v) :
    v.visited ++ v.pending = w.visited ++ w.pending ∧ n + v.pending.length = w.pending.length := by
  induction h with
  | nothing => exact ⟨rfl, Nat.zero_add _⟩
  | more first _ ih =>
    obtain ⟨top, pending, visited⟩ := pending_of_turn first
    obtain ⟨nodes, count⟩ := ih
    refine ⟨?_, ?_⟩
    · rw [nodes, visited, pending, List.append_assoc, List.singleton_append]
    · rw [pending, List.length_cons]
      omega

/-- A walk ends after as many turns as nodes are pending, and has visited them. -/
theorem turns_to_end (w : Walker α) : Turns w.pending.length w ⟨[], w.visited ++ w.pending⟩ := by
  induction count : w.pending.length generalizing w with
  | zero =>
    have empty : w.stack = [] := by
      by_contra more
      obtain ⟨v, first⟩ := Option.ne_none_iff_exists'.1 fun none => more (turn_eq_none_iff.1 none)
      obtain ⟨top, pending, -⟩ := pending_of_turn first
      rw [pending] at count
      cases count
    have done : (⟨[], w.visited ++ w.pending⟩ : Walker α) = w := by
      rw [List.length_eq_zero_iff.1 count, List.append_nil, ← empty]
    rw [done]
    exact .nothing w
  | succ n ih =>
    cases first : w.turn with
    | none =>
      rw [pending, turn_eq_none_iff.1 first] at count
      cases count
    | some v =>
      obtain ⟨top, pending, visited⟩ := pending_of_turn first
      rw [pending, List.length_cons, Nat.succ_inj] at count
      have rest := ih v count
      rw [visited, List.append_assoc, List.singleton_append, ← pending] at rest
      exact .more first rest

@[simp] theorem pending_start (t : Tree α) : (start t).pending = t.preorder := List.flatMap_singleton ..

end Walker

namespace Tree
variable {α : Type} {t : Tree α} {place : List Nat}

/-! ## Places in a tree -/

/-- The subtree at a place: the numbers of the children on the way to it, from zero. -/
def at? : Tree α → List Nat → Option (Tree α)
  | t, [] => some t
  | t, i :: place => t.children[i]?.bind fun child => child.at? place

mutual

/-- The places in a tree, in the order of a walk. -/
def places : Tree α → List (List Nat)
  | number .. | reference .. => [[]]
  | negate _ operand => [] :: operand.places.map (0 :: ·)
  | arithmetic _ _ left right | compare _ _ left right =>
    [] :: (left.places.map (0 :: ·) ++ right.places.map (1 :: ·))
  | choose _ condition yes no =>
    [] :: (condition.places.map (0 :: ·) ++ (yes.places.map (1 :: ·) ++ no.places.map (2 :: ·)))
  | call _ _ arguments => [] :: placesFrom 0 arguments

/-- The places in trees that are counted from a number. -/
def placesFrom : Nat → List (Tree α) → List (List Nat)
  | _, [] => []
  | i, t :: rest => t.places.map (i :: ·) ++ placesFrom (i + 1) rest

end

theorem places_eq (t : Tree α) : t.places = [] :: placesFrom 0 t.children := by
  cases t <;> simp [places, children, placesFrom]

theorem mem_placesFrom {first : Nat} {ts : List (Tree α)} :
    place ∈ placesFrom first ts ↔ ∃ i u rest, ts[i]? = some u ∧ rest ∈ u.places ∧ place = (first + i) :: rest := by
  induction ts generalizing first with
  | nil => simp [placesFrom]
  | cons t ts ih =>
    rw [placesFrom, List.mem_append, List.mem_map, ih]
    constructor
    · rintro (⟨rest, member, rfl⟩ | ⟨i, u, rest, found, member, rfl⟩)
      · exact ⟨0, t, rest, rfl, member, rfl⟩
      · exact ⟨i + 1, u, rest, found, member, by rw [Nat.add_right_comm, Nat.add_assoc]⟩
    · rintro ⟨i, u, rest, found, member, rfl⟩
      cases i with
      | zero =>
        cases found
        exact .inl ⟨rest, member, rfl⟩
      | succ i => exact .inr ⟨i, u, rest, found, member, by rw [Nat.add_right_comm, Nat.add_assoc]⟩

theorem cons_mem_places {i : Nat} : i :: place ∈ t.places ↔ ∃ u, t.children[i]? = some u ∧ place ∈ u.places := by
  rw [places_eq, List.mem_cons, mem_placesFrom]
  simp only [reduceCtorEq, false_or, Nat.zero_add, List.cons.injEq]
  constructor
  · rintro ⟨_, u, _, found, member, rfl, rfl⟩
    exact ⟨u, found, member⟩
  · rintro ⟨u, found, member⟩
    exact ⟨i, u, place, found, member, rfl, rfl⟩

/-- The places of a tree are those where there is a subtree. -/
theorem mem_places_iff : place ∈ t.places ↔ (t.at? place).isSome = true := by
  induction place generalizing t with
  | nil => simp [places_eq, at?]
  | cons i place ih =>
    rw [cons_mem_places, at?]
    cases t.children[i]? with
    | none => simp
    | some child => simp [ih]

theorem map_at?_placesFrom {first : Nat} {ts : List (Tree α)}
    (numbered : ∀ i u, ts[i]? = some u → t.children[first + i]? = some u)
    (each : ∀ u ∈ ts, u.places.map u.at? = u.preorder.map some) :
    (placesFrom first ts).map t.at? = (ts.flatMap preorder).map some := by
  induction ts generalizing first with
  | nil => rfl
  | cons u ts ih =>
    have below : (u.places.map (first :: ·)).map t.at? = u.preorder.map some := by
      have found : t.children[first]? = some u := numbered 0 u rfl
      rw [List.map_map, ← each u (List.mem_cons_self ..)]
      refine List.map_congr_left fun place _ => ?_
      simp only [Function.comp_apply, at?, found, Option.bind_some]
    have later (i : Nat) (v : Tree α) (stood : ts[i]? = some v) : t.children[first + 1 + i]? = some v := by
      rw [Nat.add_assoc, Nat.add_comm 1]
      exact numbered (i + 1) v stood
    rw [placesFrom, List.map_append, below, ih later fun v member => each v (List.mem_cons_of_mem _ member),
      List.flatMap_cons, List.map_append]

/-- The subtrees at the places of a tree are its pre-order. -/
theorem map_at?_places (t : Tree α) : t.places.map t.at? = t.preorder.map some := by
  induction t using induction_on_children with
  | parts t ih =>
    rw [places_eq, preorder_eq, List.map_cons, List.map_cons, at?, map_at?_placesFrom _ ih]
    intro i u found
    rwa [Nat.zero_add]

theorem pairwise_placesFrom {first : Nat} {ts : List (Tree α)} (each : ∀ u ∈ ts, u.places.Pairwise (· < ·)) :
    (placesFrom first ts).Pairwise (· < ·) := by
  induction ts generalizing first with
  | nil => exact .nil
  | cons u ts ih =>
    rw [List.forall_mem_cons] at each
    rw [placesFrom, List.pairwise_append, List.pairwise_map]
    refine ⟨each.1.imp fun less => List.cons_lt_cons_iff.2 (.inr ⟨rfl, less⟩), ih each.2, ?_⟩
    intro p here q later
    obtain ⟨p, -, rfl⟩ := List.mem_map.1 here
    obtain ⟨i, -, q, -, -, rfl⟩ := mem_placesFrom.1 later
    exact List.cons_lt_cons_iff.2 (.inl (by omega))

/-- The places of a tree are in order. In this order a place comes before the places below it, and those come before
the places to the right of it. -/
theorem pairwise_places (t : Tree α) : t.places.Pairwise (· < ·) := by
  induction t using induction_on_children with
  | parts t ih =>
    rw [places_eq, List.pairwise_cons]
    refine ⟨fun place member => ?_, pairwise_placesFrom ih⟩
    obtain ⟨i, -, rest, -, -, rfl⟩ := mem_placesFrom.1 member
    exact List.nil_lt_cons ..

theorem at?_append (t : Tree α) (place more : List Nat) :
    t.at? (place ++ more) = (t.at? place).bind fun u => u.at? more := by
  induction place generalizing t with
  | nil => rfl
  | cons i place ih =>
    rw [List.cons_append, at?, at?]
    cases t.children[i]? with
    | none => rfl
    | some child => exact ih child

theorem lt_append_singleton (place : List Nat) (i : Nat) : place < place ++ [i] := by
  induction place with
  | nil => exact List.nil_lt_cons ..
  | cons j place ih => exact List.cons_lt_cons_iff.2 (.inr ⟨rfl, ih⟩)

/-- Of two members of a list in order the smaller one comes first. -/
theorem pair_sublist_of_lt {ordered : List (List Nat)} (h : ordered.Pairwise (· < ·)) {p q : List Nat}
    (hp : p ∈ ordered) (hq : q ∈ ordered) (less : p < q) : [p, q].Sublist ordered := by
  obtain ⟨before, after, rfl⟩ := List.append_of_mem hp
  obtain ⟨-, behind, across⟩ := List.pairwise_append.1 h
  have later : q ∈ after := by
    rcases List.mem_append.1 hq with earlier | same
    · exact absurd (across q earlier p (List.mem_cons_self ..)) (List.lt_asymm less)
    · rcases List.mem_cons.1 same with rfl | later
      · exact absurd less (List.lt_irrefl _)
      · exact later
  exact List.sublist_append_of_sublist_right ((List.singleton_sublist.2 later).cons_cons p)

/-- The place of a node comes before the places of its children. -/
theorem parent_before_child {i : Nat} (child : place ++ [i] ∈ t.places) : [place, place ++ [i]].Sublist t.places := by
  have parent : place ∈ t.places := by
    rw [mem_places_iff, at?_append] at child
    rw [mem_places_iff]
    exact Option.isSome_of_isSome_bind child
  exact pair_sublist_of_lt (pairwise_places t) parent child (lt_append_singleton place i)

/-! ## Names of variables -/

mutual

/-- The names of the variables in a tree, put together from its parts. -/
def variableSet : Tree α → Finset String
  | number .. => ∅
  | reference _ name => {name}
  | negate _ operand => operand.variableSet
  | arithmetic _ _ left right | compare _ _ left right => left.variableSet ∪ right.variableSet
  | choose _ condition yes no => condition.variableSet ∪ (yes.variableSet ∪ no.variableSet)
  | call _ _ arguments => variableSetOfAll arguments

def variableSetOfAll : List (Tree α) → Finset String
  | [] => ∅
  | t :: rest => t.variableSet ∪ variableSetOfAll rest

end

theorem mem_variableSetOfAll {ts : List (Tree α)} {name : String} :
    name ∈ variableSetOfAll ts ↔ ∃ u ∈ ts, name ∈ u.variableSet := by
  induction ts with
  | nil => simp [variableSetOfAll]
  | cons t rest ih => simp [variableSetOfAll, ih]

theorem mem_variableSet_iff {name : String} :
    name ∈ t.variableSet ↔ t.referenceName? = some name ∨ ∃ u ∈ t.children, name ∈ u.variableSet := by
  cases t <;> simp [variableSet, children, referenceName?, mem_variableSetOfAll, eq_comm]

theorem mem_variableNames_iff_variableSet {name : String} : name ∈ t.variableNames ↔ name ∈ t.variableSet := by
  induction t using induction_on_children with
  | parts t ih =>
    rw [mem_variableNames_iff, mem_variableSet_iff]
    exact or_congr_right (exists_congr fun u => and_congr_right fun child => ih u child)

theorem nodup_eraseDups {names : List String} : names.eraseDups.Nodup := by
  induction count : names.length using Nat.strong_induction_on generalizing names with
  | _ n ih =>
    cases names with
    | nil => exact .nil
    | cons name rest =>
      rw [List.eraseDups_cons, List.nodup_cons, List.mem_eraseDups]
      have shorter := List.length_filter_le (fun b => !b == name) rest
      rw [List.length_cons] at count
      exact ⟨by simp, ih _ (by omega) rfl⟩

/-- The names that a tree lists are the names of the variables in it, each of them once. -/
theorem variableNames_eq (t : Tree α) : t.variableNames.Nodup ∧ t.variableNames.toFinset = t.variableSet := by
  refine ⟨(List.mergeSort_perm _ _).nodup_iff.2 nodup_eraseDups, ?_⟩
  ext name
  rw [List.mem_toFinset, mem_variableNames_iff_variableSet]

/-- A tree is walked in pre-order, and the walk tells its size and its variables. -/
structure WalkedInOrder (t : Tree α) : Prop where
  /-- The loop ends after a turn for each node, with the nodes that the walk lists. -/
  ends : Walker.Turns t.size (.start t) ⟨[], t.walk⟩
  /-- At every turn, the pre-orders on the stack are what is left of the walk. -/
  during : ∀ n w, Walker.Turns n (.start t) w → w.visited ++ w.pending = t.walk ∧ w.visited.length = n
  preorder : t.walk = t.preorder
  /-- The nodes of the walk are those at the places of the tree, -/
  nodes : t.places.map t.at? = t.walk.map some
  /-- which are all the places that there are, -/
  everywhere : ∀ place, place ∈ t.places ↔ (t.at? place).isSome = true
  /-- each of them once and from left to right, -/
  ordered : t.places.Pairwise (· < ·)
  /-- the place of a node before those of its children. -/
  parents : ∀ place i, place ++ [i] ∈ t.places → [place, place ++ [i]].Sublist t.places
  length : t.walk.length = t.size
  names : t.variableNames.Nodup ∧ t.variableNames.toFinset = t.variableSet

theorem size_eq_length_preorder (t : Tree α) : t.preorder.length = t.size := by
  rw [← walk_eq_preorder, length_walk]

theorem walkedInOrder (t : Tree α) : t.WalkedInOrder where
  ends := by
    have ends := Walker.turns_to_end (.start t)
    rwa [Walker.pending_start, size_eq_length_preorder, ← walk_eq_preorder] at ends
  during n w turns := by
    obtain ⟨nodes, count⟩ := turns.keeps
    rw [Walker.pending_start] at nodes count
    have total := congrArg List.length nodes
    simp only [Walker.start, List.nil_append, List.length_append] at nodes total
    rw [walk_eq_preorder]
    exact ⟨nodes, by omega⟩
  preorder := walk_eq_preorder t
  nodes := by rw [walk_eq_preorder, map_at?_places]
  everywhere _ := mem_places_iff
  ordered := pairwise_places t
  parents _ _ := parent_before_child
  length := length_walk t
  names := variableNames_eq t

end Tree

/-- Every tree is walked in pre-order, once through and to its end. A formula has as many nodes as its walk, and lists
the variables of its tree. -/
theorem walks_are_preorders :
    (∀ (α : Type) (t : Tree α), t.WalkedInOrder) ∧
      ∀ text f, ofText text = .ok f → f.nodeCount = f.root.walk.length ∧
        f.variableNames.Nodup ∧ f.variableNames.toFinset = f.root.variableSet := by
  refine ⟨fun _ t => t.walkedInOrder, fun text f accepted => ⟨?_, ?_⟩⟩
  · obtain ⟨-, -, -, -, made⟩ := ofText_ok_iff.1 accepted
    rw [Tree.length_walk, made]
  · rw [variableNames_of_accepted accepted]
    exact f.root.variableNames_eq

/-- Nine nodes with two variables, one of which is mentioned three times. -/
theorem walks_are_preorders_nested : ∃ f, ofText "if(a < b, min(a, 2), -a)" = .ok f ∧ f.root.WalkedInOrder ∧
    f.nodeCount = f.root.walk.length ∧ f.variableNames.toFinset = f.root.variableSet := by
  cases accepted : ofText "if(a < b, min(a, 2), -a)" with
  | error r =>
    have isOk : (ofText "if(a < b, min(a, 2), -a)").isOk = true := by decide +kernel
    rw [accepted] at isOk
    cases isOk
  | ok f =>
    obtain ⟨nodes, -, names⟩ := walks_are_preorders.2 _ f accepted
    exact ⟨f, rfl, walks_are_preorders.1 _ f.root, nodes, names⟩

end GameScoring.Formula
