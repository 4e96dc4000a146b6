import Mathlib.Data.List.Forall2
import GameScoring.Formula.Parser
import GameScoring.Proofs.Formula.Walk

/-!
# The parser goes by lexemes

Two runs of the parser over the same lexemes in other places go the same way: they build trees that
differ in positions only, or they reject for the same reason at places that correspond. This is shown
for any correspondence of places that relates the positions of the tokens and the ends of the texts.
There is one step for each way of putting parsers together, and then one for each rule.
-/
namespace GameScoring.Formula

/-- A tree with the depths of its nodes, but without their positions. -/
def Tree.unplaced (t : Node) : Tree Nat := t.map Mark.depth

namespace Node
variable {p q : Nat} {t u v t' u' v' : Node} {ts us : List Node}

theorem depth_eq_of_unplaced (h : t.unplaced = u.unplaced) : t.depth = u.depth := by
  have note (t : Node) : t.unplaced.note = t.depth := by cases t <;> rfl
  rw [← note, ← note, h]

theorem deepest_eq_of_unplaced (h : ts.map Tree.unplaced = us.map Tree.unplaced) : deepest ts = deepest us := by
  induction ts generalizing us with
  | nil =>
    rw [List.map_nil, eq_comm, List.map_eq_nil_iff] at h
    rw [h]
  | cons t ts ih =>
    obtain ⟨u, us, rfl, same, rest⟩ := List.map_eq_cons_iff.1 h.symm
    rw [deepest_cons, deepest_cons, depth_eq_of_unplaced same, ih rest.symm]

theorem unplaced_negate (h : t.unplaced = u.unplaced) : (negate p t).unplaced = (negate q u).unplaced := by
  have depth : deepest [t] = deepest [u] := deepest_eq_of_unplaced (by simp [h])
  show Tree.negate _ t.unplaced = Tree.negate _ u.unplaced
  rw [h, marked, marked, depth]

theorem unplaced_arithmetic (op : Arithmetic) (hl : t.unplaced = t'.unplaced) (hr : u.unplaced = u'.unplaced) :
    (arithmetic p op t u).unplaced = (arithmetic q op t' u').unplaced := by
  have depth : deepest [t, u] = deepest [t', u'] := deepest_eq_of_unplaced (by simp [hl, hr])
  show Tree.arithmetic _ op t.unplaced u.unplaced = Tree.arithmetic _ op t'.unplaced u'.unplaced
  rw [hl, hr, marked, marked, depth]

theorem unplaced_compare (op : Comparison) (hl : t.unplaced = t'.unplaced) (hr : u.unplaced = u'.unplaced) :
    (compare p op t u).unplaced = (compare q op t' u').unplaced := by
  have depth : deepest [t, u] = deepest [t', u'] := deepest_eq_of_unplaced (by simp [hl, hr])
  show Tree.compare _ op t.unplaced u.unplaced = Tree.compare _ op t'.unplaced u'.unplaced
  rw [hl, hr, marked, marked, depth]

theorem unplaced_choose (hc : t.unplaced = t'.unplaced) (hy : u.unplaced = u'.unplaced)
    (hn : v.unplaced = v'.unplaced) : (choose p t u v).unplaced = (choose q t' u' v').unplaced := by
  have depth : deepest [t, u, v] = deepest [t', u', v'] := deepest_eq_of_unplaced (by simp [hc, hy, hn])
  show Tree.choose _ t.unplaced u.unplaced v.unplaced = Tree.choose _ t'.unplaced u'.unplaced v'.unplaced
  rw [hc, hy, hn, marked, marked, depth]

theorem unplaced_call (f : Function) (h : ts.map Tree.unplaced = us.map Tree.unplaced) :
    (call p f ts).unplaced = (call q f us).unplaced := by
  show Tree.call _ f (Tree.mapAll _ ts) = Tree.call _ f (Tree.mapAll _ us)
  have same : ts.map (Tree.map Mark.depth) = us.map (Tree.map Mark.depth) := h
  rw [Tree.mapAll_eq_map, Tree.mapAll_eq_map, same, marked, marked, deepest_eq_of_unplaced h]

end Node

namespace Parser

/-- Trees that are the same but for positions. -/
def SameTree (t u : Node) : Prop := t.unplaced = u.unplaced

def SameTrees (ts us : List Node) : Prop := ts.map Tree.unplaced = us.map Tree.unplaced

section Definitions
variable {α β : Type} (R : Nat → Nat → Prop)

/-- Two cursors before the same lexemes in places that correspond. -/
structure Abreast (c d : Cursor) : Prop where
  tokens : List.Forall₂ (fun s t : Token => s.lexeme = t.lexeme ∧ R s.position t.position) c.tokens d.tokens
  finish : R c.finish d.finish
  nodes : c.nodes = d.nodes

/-- Two outcomes with related results, or with errors that differ in their places only. -/
inductive SameOutcome (V : α → β → Prop) : Except Rejection (α × Cursor) → Except Rejection (β × Cursor) → Prop
  | ok {a : α} {b : β} {c d : Cursor} (value : V a b) (cursors : Abreast R c d) :
    SameOutcome V (.ok (a, c)) (.ok (b, d))
  | error {p q : Nat} (reason : Reason) (place : R p q) :
    SameOutcome V (.error ⟨reason, some p⟩) (.error ⟨reason, some q⟩)

/-- From cursors that are abreast, both parsers come to the same outcome. -/
def Parallel (V : α → β → Prop) (x : Parser α) (y : Parser β) : Prop :=
  ∀ ⦃c d⦄, Abreast R c d → SameOutcome R V (x c) (y d)

end Definitions

variable {α α' β β' : Type} {R : Nat → Nat → Prop} {p q : Nat}

namespace Parallel
variable {V : α → α' → Prop} {W : β → β' → Prop}

theorem pure {a : α} {b : α'} (h : V a b) : Parallel R V (pure a) (pure b) := fun _ _ abreast => .ok h abreast

theorem bind {x : Parser α} {y : Parser α'} {f : α → Parser β} {g : α' → Parser β'} (h : Parallel R V x y)
    (next : ∀ a b, V a b → Parallel R W (f a) (g b)) : Parallel R W (x >>= f) (y >>= g) := by
  intro c d abreast
  show SameOutcome R W (Except.bind (x c) fun r => f r.1 r.2) (Except.bind (y d) fun r => g r.1 r.2)
  have outcome := h abreast
  generalize x c = result at outcome
  generalize y d = result' at outcome
  cases outcome with
  | ok value abreast => exact next _ _ value abreast
  | error reason place => exact .error reason place

theorem peek : Parallel R Eq peek peek := by
  rintro ⟨tokens, finish, nodes⟩ ⟨tokens', finish', nodes'⟩ abreast
  refine .ok ?_ abreast
  cases abreast.tokens with
  | nil => rfl
  | cons same => exact congrArg some same.1

theorem position : Parallel R R position position := by
  rintro ⟨tokens, finish, nodes⟩ ⟨tokens', finish', nodes'⟩ abreast
  refine .ok ?_ abreast
  cases abreast.tokens with
  | nil => exact abreast.finish
  | cons same => exact same.2

theorem advance : Parallel R Eq advance advance := by
  rintro ⟨tokens, finish, nodes⟩ ⟨tokens', finish', nodes'⟩ abreast
  refine .ok rfl ⟨?_, abreast.finish, abreast.nodes⟩
  cases abreast.tokens with
  | nil => exact .nil
  | cons _ rest => exact rest

theorem reject (reason : Reason) (place : R p q) :
    Parallel R V (Parser.reject reason p) (Parser.reject reason q) := fun _ _ _ => .error reason place

/-- After the next lexeme has been seen, both go on with it. -/
theorem peeked {f : Option Lexeme → Parser α} {g : Option Lexeme → Parser α'}
    (next : ∀ found, Parallel R V (f found) (g found)) : Parallel R V (Parser.peek >>= f) (Parser.peek >>= g) :=
  peek.bind fun found _ same => same ▸ next found

theorem advanced {f : Unit → Parser α} {g : Unit → Parser α'} (next : Parallel R V (f ()) (g ())) :
    Parallel R V (Parser.advance >>= f) (Parser.advance >>= g) := advance.bind fun _ _ _ => next

theorem rejectHere (reason : Reason) :
    Parallel R V (do Parser.reject reason (← Parser.position)) (do Parser.reject reason (← Parser.position)) :=
  position.bind fun _ _ place => reject reason place

theorem unexpected (expected : Option Expected) :
    Parallel R V (Parser.unexpected expected) (Parser.unexpected expected) := peeked fun _ => rejectHere _

theorem build {t u : Node} (same : t.unplaced = u.unplaced) (place : R t.position u.position) :
    Parallel R SameTree (Parser.build t) (Parser.build u) := by
  intro c d abreast
  have depth := Node.depth_eq_of_unplaced same
  simp only [Parser.build, abreast.nodes, depth]
  split
  next => exact .error .tooManyNodes place
  next =>
    split
    next => exact .error .tooDeep place
    next => exact .ok same ⟨abreast.tokens, abreast.finish, rfl⟩

end Parallel

namespace Level

/-- The rules that lead into a level go by lexemes. -/
structure Uniform (R : Nat → Nat → Prop) (inner : Level) : Prop where
  conditional : ∀ p q, R p q → Parallel R SameTree (inner.conditional p) (inner.conditional q)
  unary : ∀ p q, R p q → Parallel R SameTree (inner.unary p) (inner.unary q)

namespace Uniform
variable {inner : Level}

theorem expression (h : Uniform R inner) : Parallel R SameTree inner.expression inner.expression :=
  .bind .position h.conditional

theorem arguments (h : Uniform R inner) (turns : Nat) :
    Parallel R SameTrees (inner.arguments turns) (inner.arguments turns) := by
  induction turns with
  | zero => exact .rejectHere _
  | succ turns ih =>
    rw [Level.arguments]
    refine .bind h.expression fun t u first => .peeked fun found => ?_
    split
    next => exact .advanced (.bind ih fun ts us rest => .pure (congrArg₂ List.cons first rest))
    next => exact .pure (congrArg (fun t => [t]) first)

theorem close (f : Function) (start : R p q) {ts us : List Node} (same : SameTrees ts us) :
    Parallel R SameTree (Level.close f p ts) (Level.close f q us) := by
  have length : ts.length = us.length := by simpa using congrArg List.length same
  rw [Level.close, Level.close, length]
  refine .peeked fun found => ?_
  split
  next =>
    refine .advanced ?_
    split
    next => exact .build (Node.unplaced_call f same) start
    next => exact .reject _ start
  next => exact .rejectHere _
  next => exact .unexpected _

theorem call (h : Uniform R inner) (name : String) (start : R p q) :
    Parallel R SameTree (inner.call name p) (inner.call name q) := by
  rw [Level.call, Level.call]
  cases Function.ofName? name with
  | none => exact .reject _ start
  | some f =>
    refine .advanced (.peeked fun found => ?_)
    split
    next =>
      have none : Parallel R SameTrees (pure []) (pure []) := .pure rfl
      exact none.bind fun ts us same => close f start same
    next => exact .bind (h.arguments _) fun ts us same => close f start same

theorem number (literal : String) (start : R p q) :
    Parallel R SameTree (Level.number literal p) (Level.number literal q) := by
  rw [Level.number, Level.number]
  split
  next => exact .build rfl start
  next => exact .reject _ start

theorem primary (h : Uniform R inner) : Parallel R SameTree inner.primary inner.primary := by
  rw [Level.primary]
  refine .bind .position fun p q start => .peeked fun found => ?_
  split
  next => exact .advanced (number _ start)
  next name =>
    refine .advanced (.peeked fun found => ?_)
    split
    next => exact h.call name start
    next =>
      split
      next => exact .reject _ start
      next => exact .build rfl start
  next =>
    refine .advanced (.bind h.expression fun t u same => .peeked fun found => ?_)
    split
    next => exact .advanced (.pure same)
    next => exact .rejectHere _
  next => exact .unexpected _

theorem power (h : Uniform R inner) : Parallel R SameTree inner.power inner.power := by
  rw [Level.power]
  refine .bind h.primary fun t u base => .bind .position fun p q sign => .peeked fun found => ?_
  split
  next =>
    refine .advanced (.bind (h.unary p q sign) fun t' u' exponent => ?_)
    exact .build (Node.unplaced_arithmetic .power base exponent) sign
  next => exact .pure base

theorem signed (h : Uniform R inner) : Parallel R SameTree inner.signed inner.signed := by
  rw [Level.signed]
  refine .bind .position fun p q sign => .peeked fun found => ?_
  split
  next => exact .advanced (.bind (h.unary p q sign) fun t u operand => .build (Node.unplaced_negate operand) sign)
  next => exact h.power

theorem chain {operand : Parser Node} (h : Parallel R SameTree operand operand) (accepts : Arithmetic → Bool)
    (turns : Nat) {t u : Node} (left : SameTree t u) :
    Parallel R SameTree (Level.chain operand accepts turns t) (Level.chain operand accepts turns u) := by
  induction turns generalizing t u with
  | zero => exact .rejectHere _
  | succ turns ih =>
    rw [Level.chain, Level.chain]
    refine .bind .position fun p q sign => .peeked fun found => ?_
    split
    next op =>
      split
      next =>
        refine .advanced (.bind h fun t' u' right => ?_)
        exact .bind (.build (Node.unplaced_arithmetic op left right) sign) fun t u left => ih left
      next => exact .pure left
    next => exact .pure left

theorem term (h : Uniform R inner) : Parallel R SameTree inner.term inner.term :=
  .bind h.signed fun _ _ left => chain h.signed _ _ left

theorem additive (h : Uniform R inner) : Parallel R SameTree inner.additive inner.additive :=
  .bind h.term fun _ _ left => chain h.term _ _ left

theorem comparison (h : Uniform R inner) : Parallel R SameTree inner.comparison inner.comparison := by
  rw [Level.comparison]
  refine .bind h.additive fun t u left => .bind .position fun p q sign => .peeked fun found => ?_
  split
  next op =>
    refine .advanced (.bind h.additive fun t' u' right => .peeked fun found => ?_)
    split
    next => exact .rejectHere _
    next => exact .build (Node.unplaced_compare op left right) sign
  next => exact .pure left

theorem choice (h : Uniform R inner) : Parallel R SameTree inner.choice inner.choice := by
  rw [Level.choice]
  refine .bind h.comparison fun t u condition => .bind .position fun p q mark => .peeked fun found => ?_
  split
  next =>
    refine .advanced (.bind (h.conditional p q mark) fun t' u' yes => .peeked fun found => ?_)
    split
    next =>
      refine .advanced (.bind (h.conditional p q mark) fun t'' u'' no => ?_)
      exact .build (Node.unplaced_choose condition yes no) mark
    next => exact .unexpected _
  next => exact .pure condition

end Uniform

theorem uniform_within (allowed : Nat) : Uniform R (within allowed) := by
  induction allowed with
  | zero => exact ⟨fun _ _ place => .reject _ place, fun _ _ place => .reject _ place⟩
  | succ allowed ih => exact ⟨fun _ _ _ => ih.choice, fun _ _ _ => ih.signed⟩

end Level

/-- The parser goes by lexemes. -/
theorem parallel_whole : Parallel R SameTree whole whole := by
  rw [whole]
  refine .bind (Level.uniform_within maxDepth).expression fun t u root => .peeked fun found => ?_
  split
  next => exact .pure root
  next => exact .unexpected _

end Parser

end GameScoring.Formula
