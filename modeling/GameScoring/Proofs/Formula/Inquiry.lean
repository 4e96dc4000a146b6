import GameScoring.Formula.Exact
import GameScoring.Proofs.Formula.Scope
import GameScoring.Proofs.Table

/-!
# What an evaluation asks for

An evaluation is an inquiry: it asks a table for the values of names, one after the other, and which name comes next
depends on the values that it got. The names that a tree mentions are the only ones asked for, so two tables that
agree on them give one value or one error. Both ways of calculating, with doubles only and with whole numbers, are
the same inquiry over different quantities.
-/
namespace GameScoring.Formula

/-- A calculation that may ask for values of names. The answer to a question decides how it goes on. -/
inductive Inquiry (α : Type)
  | done (outcome : Evaluated α)
  | ask (name : String) (next : Option Float → Inquiry α)

namespace Inquiry
variable {α β : Type}

def bind : Inquiry α → (α → Inquiry β) → Inquiry β
  | done (.ok a), f => f a
  | done (.error e), _ => done (.error e)
  | ask name next, f => ask name fun answer => (next answer).bind f

instance : Monad Inquiry where
  pure a := done (.ok a)
  bind := bind

/-- The outcome if the questions are answered from a table. -/
def run (bindings : Bindings) : Inquiry α → Evaluated α
  | done outcome => outcome
  | ask name next => (next (bindings.get? name)).run bindings

/-- The names that a table is asked for, in order. -/
def asked (bindings : Bindings) : Inquiry α → List String
  | done _ => []
  | ask name next => name :: (next (bindings.get? name)).asked bindings

/-- The value of a name, which has to have one. -/
def valueOf (name : String) (use : Float → α) : Inquiry α :=
  ask name fun
    | some x => done (.ok (use x))
    | none => done (refuse (.undefinedVariable name))

@[simp] theorem run_pure (bindings : Bindings) (a : α) : (pure a : Inquiry α).run bindings = .ok a := rfl

@[simp] theorem run_bind (bindings : Bindings) (i : Inquiry α) (f : α → Inquiry β) :
    (i >>= f).run bindings = i.run bindings >>= fun a => (f a).run bindings := by
  induction i with
  | done outcome => cases outcome <;> rfl
  | ask name next ih => exact ih _

@[simp] theorem run_ite (bindings : Bindings) (p : Prop) [Decidable p] (i j : Inquiry α) :
    (if p then i else j).run bindings = if p then i.run bindings else j.run bindings := apply_ite _ p i j

theorem run_valueOf (bindings : Bindings) (name : String) (use : Float → α) :
    (valueOf name use).run bindings =
      match bindings.get? name with
      | some x => .ok (use x)
      | none => refuse (.undefinedVariable name) := by
  rw [valueOf, run]
  cases bindings.get? name <;> rfl

/-- An inquiry asks for names of a list only, goes on whatever number it gets, and ends if it gets none. Nothing but
a question without an answer makes it report a name. -/
inductive Within (names : List String) : Inquiry α → Prop
  | done {outcome} (defined : Defined outcome) : Within names (done outcome)
  | ask {name next} (member : name ∈ names) (missing : next none = .done (refuse (.undefinedVariable name)))
      (found : ∀ x, Within names (next (some x))) : Within names (ask name next)

namespace Within
variable {names : List String} {i : Inquiry α} {bindings : Bindings}

theorem pure (a : α) : (Pure.pure a : Inquiry α).Within names := .done (.ok a)

theorem bind {f : α → Inquiry β} (h : i.Within names) (next : ∀ a, (f a).Within names) : (i >>= f).Within names := by
  induction h with
  | @done outcome defined =>
    cases outcome with
    | ok a => exact next a
    | error e =>
      refine .done fun name same => defined name ?_
      cases same
      rfl
  | ask member missing _ ih =>
    exact .ask member (by rw [missing]; rfl) ih

theorem valueOf {name : String} (member : name ∈ names) (use : Float → α) : (valueOf name use).Within names :=
  .ask member rfl fun _ => .done (.ok _)

theorem ite {j : Inquiry α} (p : Prop) [Decidable p] (hi : i.Within names) (hj : j.Within names) :
    (if p then i else j).Within names := by
  split
  next => exact hi
  next => exact hj

theorem asked_subset (h : i.Within names) (bindings : Bindings) : i.asked bindings ⊆ names := by
  induction h with
  | done => exact List.nil_subset _
  | @ask name next member missing _ ih =>
    refine List.cons_subset.2 ⟨member, ?_⟩
    cases bindings.get? name with
    | some x => exact ih x
    | none =>
      rw [missing]
      exact List.nil_subset _

/-- An inquiry cannot tell tables apart that agree on the names it asks for. -/
theorem run_congr (h : i.Within names) {other : Bindings}
    (agree : ∀ name ∈ names, bindings.get? name = other.get? name) : i.run bindings = i.run other := by
  induction h with
  | done => rfl
  | @ask name next member missing _ ih =>
    rw [run, run, ← agree name member]
    cases bindings.get? name with
    | some x => exact ih x
    | none => rw [missing]; rfl

/-- A name that is reported as undefined is on the list, and the table does not have it. -/
theorem undefined (h : i.Within names) {name : String} (failed : i.run bindings = refuse (.undefinedVariable name)) :
    name ∈ names ∧ bindings.get? name = none := by
  induction h with
  | done defined => exact absurd failed (defined name)
  | @ask own next member missing _ ih =>
    rw [run] at failed
    cases answer : bindings.get? own with
    | some x =>
      rw [answer] at failed
      exact ih x failed
    | none =>
      rw [answer, missing] at failed
      cases failed
      exact ⟨member, answer⟩

theorem defined (h : i.Within names) (known : ∀ name ∈ names, (bindings.get? name).isSome) :
    Defined (i.run bindings) := by
  intro name failed
  obtain ⟨member, none⟩ := h.undefined failed
  exact absurd (known name member) (by simp [none])

end Within

end Inquiry

/-! ## Two ways of calculating -/

/-- A way of calculating. Literals and values of variables become quantities, and none of what is done with
quantities reports a name. -/
structure Calculus (α Q : Type) where
  literal : α → Float → Q
  value : Float → Q
  negate : Q → Q
  arithmetic : Arithmetic → Q → Q → Evaluated Q
  compare : Comparison → Q → Q → Q
  apply : Function → List Q → Evaluated Q
  holds : Q → Bool
  defined_arithmetic : ∀ op l r, Defined (arithmetic op l r)
  defined_apply : ∀ f xs, Defined (apply f xs)

/-- Calculating with doubles, whatever the notes of literals. -/
def doubles (α : Type) : Calculus α Float where
  literal _ x := x
  value := id
  negate x := -x
  arithmetic := Arithmetic.apply
  compare := Comparison.apply
  apply := Function.apply
  holds x := x != 0.0
  defined_arithmetic := Arithmetic.defined_apply
  defined_apply := Function.defined_apply

namespace Quantity

theorem defined_toFloat (a : Quantity) : Defined a.toFloat := by
  cases a with
  | whole i => exact .fault _
  | real x => exact .ok x

theorem defined_finite (operation : Operation) (a : Quantity) : Defined (a.finite operation) := by
  cases a with
  | whole i => exact (defined_toFloat _).bind fun _ => .ok _
  | real x => exact (Formula.defined_finite operation x).bind fun _ => .ok _

theorem defined_combine (exact : Int → Int → Int) (rounded : Float → Float → Float) (a b : Quantity) :
    Defined (combine exact rounded a b) := by
  have mixed : Defined (do return real (rounded (← a.toFloat) (← b.toFloat))) :=
    (defined_toFloat a).bind fun _ => (defined_toFloat b).bind fun _ => .ok _
  cases a <;> cases b <;> first | exact .ok _ | exact mixed

theorem defined_quotient (a b : Quantity) : Defined (quotient a b) := by
  have mixed : Defined (do return real ((← a.toFloat) / (← b.toFloat))) :=
    (defined_toFloat a).bind fun _ => (defined_toFloat b).bind fun _ => .ok _
  cases a <;> cases b <;> first | exact mixed | exact (Defined.fault _).bind fun _ => .ok _

theorem defined_raise (base exponent : Quantity) : Defined (base.raise exponent) := by
  -- The power itself comes last, whether or not the exponent is looked at before it.
  have power (b e : Float) : Defined (do return real (← Formula.raise b e) : Evaluated Quantity) :=
    (Formula.defined_raise b e).bind fun _ => .ok _
  unfold raise
  split
  next => rintro name ⟨⟩
  next =>
    dsimp only
    split
    next =>
      refine (defined_toFloat exponent).bind fun e => ?_
      split
      next => rintro name ⟨⟩
      next =>
        split
        next b e _ _ => exact power b e
        next => rintro name ⟨⟩
    next =>
      split
      next b e _ _ => exact power b e
      next => rintro name ⟨⟩

end Quantity

theorem Arithmetic.defined_applyExact (op : Arithmetic) (left right : Quantity) :
    Defined (op.applyExact left right) := by
  have last (a : Quantity) : Defined (a.finite (.arithmetic op)) := Quantity.defined_finite _ a
  cases op with
  | divide =>
    rw [Arithmetic.applyExact]
    dsimp only
    split
    next => rintro name ⟨⟩
    next => exact (Quantity.defined_quotient left right).bind last
  | power => exact (Quantity.defined_raise left right).bind last
  | _ => exact (Quantity.defined_combine _ _ left right).bind last

theorem defined_rootExact (a : Quantity) : Defined (rootExact a) :=
  (Quantity.defined_toFloat a).bind fun x => (defined_squareRoot x).bind fun _ => .ok _

theorem defined_roundExact (a digits : Quantity) : Defined (roundExact a digits) := by
  refine (Quantity.defined_toFloat digits).bind fun d => (defined_roundPlaces d).bind fun places => ?_
  exact (Quantity.defined_toFloat a).bind fun x => (Defined.fault _).bind fun _ => .ok _

theorem defined_clampExact (a low high : Quantity) : Defined (clampExact a low high) := by
  rw [clampExact]
  split
  next =>
    refine (Quantity.defined_toFloat low).bind fun l => (Quantity.defined_toFloat high).bind fun h => ?_
    rintro name ⟨⟩
  next => exact .ok _

theorem Function.defined_applyExact (f : Function) (xs : List Quantity) : Defined (f.applyExact xs) := by
  have last (a : Quantity) : Defined (a.finite (.function f)) := Quantity.defined_finite _ a
  unfold Function.applyExact
  dsimp only
  split
  next => exact last _
  next => exact last _
  next a => exact (defined_rootExact a).bind last
  next => exact last _
  next a => exact (defined_roundExact a _).bind last
  next a digits _ => exact (defined_roundExact a digits).bind last
  next a low high => exact (defined_clampExact a low high).bind last
  next => rintro name ⟨⟩

/-- Calculating with whole numbers as long as they are whole. -/
def exactly : Calculus (Option Int) Quantity where
  literal
    | none, x => .real x
    | some i, _ => .whole i
  value := .real
  negate := Quantity.negate
  arithmetic := Arithmetic.applyExact
  compare := Comparison.applyExact
  apply := Function.applyExact
  holds a := !a.isZero
  defined_arithmetic := Arithmetic.defined_applyExact
  defined_apply := Function.defined_applyExact

/-! ## The inquiry of a tree -/

namespace Tree
variable {α Q : Type}

mutual

/-- The inquiry that a tree is: a variable is one question, and only the chosen branch of a conditional asks any. -/
def inquire (k : Calculus α Q) : Tree α → Inquiry Q
  | number note value => pure (k.literal note value)
  | reference _ name => .valueOf name k.value
  | negate _ operand => do return k.negate (← operand.inquire k)
  | arithmetic _ op left right => do
    let l ← left.inquire k
    let r ← right.inquire k
    .done (k.arithmetic op l r)
  | compare _ op left right => do
    let l ← left.inquire k
    let r ← right.inquire k
    return k.compare op l r
  | choose _ condition yes no => do
    if k.holds (← condition.inquire k) then yes.inquire k else no.inquire k
  | call _ .choose [condition, yes, no] => do
    if k.holds (← condition.inquire k) then yes.inquire k else no.inquire k
  | call _ .choose arguments => .done (.error (.fault (Function.choose.argumentFault arguments.length)))
  | call _ function arguments => do .done (k.apply function (← inquireAll k arguments))

def inquireAll (k : Calculus α Q) : List (Tree α) → Inquiry (List Q)
  | [] => pure []
  | t :: rest => do
    let value ← t.inquire k
    return value :: (← inquireAll k rest)

end

open Inquiry

variable {bindings : Bindings} {note : α}

theorem inquire_call {k : Calculus α Q} {function : Function} {arguments : List (Tree α)}
    (strict : function ≠ .choose) :
    (call note function arguments).inquire k =
      inquireAll k arguments >>= fun xs => .done (k.apply function xs) := by
  cases function <;> first | exact absurd rfl strict | rfl

theorem quantity_call {note : Option Int} {function : Function} {arguments : List (Tree (Option Int))}
    (strict : function ≠ .choose) :
    (call note function arguments).quantity bindings =
      quantities bindings arguments >>= function.applyExact := by
  cases function <;> first | exact absurd rfl strict | rfl

/-- A tree is evaluated by its inquiry. -/
theorem run_doubles (t : Tree α) : (t.inquire (doubles α)).run bindings = t.evaluate bindings := by
  induction t using evaluate.induct bindings
    (motive_2 := fun ts => (inquireAll (doubles α) ts).run bindings = evaluateAll bindings ts) with
  | case1 => rfl
  | case2 _ _ _ found => simp only [inquire, run_valueOf, evaluate, found]; rfl
  | case3 _ _ missing => simp only [inquire, run_valueOf, evaluate, missing]
  | case4 _ _ ih => simp only [inquire, run_bind, ih]; rfl
  | case5 _ _ _ _ ihl ihr => simp only [inquire, run_bind, ihl, ihr]; rfl
  | case6 _ _ _ _ ihl ihr => simp only [inquire, run_bind, ihl, ihr]; rfl
  | case7 _ _ _ _ ihc ihy ihn => simp only [inquire, run_bind, run_ite, ihc, ihy, ihn]; rfl
  | case8 _ _ _ _ ihc ihy ihn => simp only [inquire, run_bind, run_ite, ihc, ihy, ihn]; rfl
  | case9 _ _ wrong => rw [inquire, evaluate] <;> first | rfl | exact wrong
  | case10 _ _ _ _ strict ih => rw [inquire_call strict, evaluate_call strict, run_bind, ih]; rfl
  | case11 => rfl
  | case12 _ _ first others => simp only [inquireAll, run_bind, first, others]; rfl

section Calls
variable {β : Type} {k : Calculus α Q} {k' : Calculus β Q} {note' : β}

theorem run_inquireAll_congr {ts : List (Tree α)} {us : List (Tree β)}
    (h : List.Forall₂ (fun t u => (t.inquire k).run bindings = (u.inquire k').run bindings) ts us) :
    (inquireAll k ts).run bindings = (inquireAll k' us).run bindings := by
  induction h with
  | nil => rfl
  | cons same _ ih => simp only [inquireAll, Inquiry.run_bind, Inquiry.run_pure, same, ih]

/-- A call has one value for arguments that have the same values, in calculi with the same functions. -/
theorem run_call_congr (applies : k.apply = k'.apply) (holds : k.holds = k'.holds) (f : Function)
    {ts : List (Tree α)} {us : List (Tree β)}
    (h : List.Forall₂ (fun t u => (t.inquire k).run bindings = (u.inquire k').run bindings) ts us) :
    ((call note f ts).inquire k).run bindings = ((call note' f us).inquire k').run bindings := by
  by_cases lazy : f = .choose
  · subst lazy
    match h with
    | .nil => rfl
    | .cons _ .nil => rfl
    | .cons _ (.cons _ .nil) => rfl
    | .cons hc (.cons hy (.cons hn .nil)) =>
      simp only [inquire, Inquiry.run_bind, Inquiry.run_ite, hc, hy, hn, holds]
    | .cons _ (.cons _ (.cons _ (.cons _ rest))) =>
      let failed (n : Nat) : Evaluated Q := .error (.fault (Function.choose.argumentFault (n + 4)))
      exact congrArg failed rest.length_eq
  · simp only [inquire_call lazy, Inquiry.run_bind, run_inquireAll_congr h, applies]

end Calls

theorem run_branch (q : Quantity) (yes no : Inquiry Quantity) :
    (if exactly.holds q then yes else no).run bindings = if q.isZero then no.run bindings else yes.run bindings := by
  have holds : exactly.holds q = !q.isZero := rfl
  rw [run_ite, holds]
  cases q.isZero <;> rfl

/-- A tree with whole numbers is evaluated by its inquiry. -/
theorem run_exactly (t : Tree (Option Int)) : (t.inquire exactly).run bindings = t.quantity bindings := by
  induction t using quantity.induct bindings
    (motive_2 := fun ts => (inquireAll exactly ts).run bindings = quantities bindings ts) with
  | case1 => rfl
  | case2 => rfl
  | case3 _ _ _ found => simp only [inquire, run_valueOf, quantity, found]; rfl
  | case4 _ _ missing => simp only [inquire, run_valueOf, quantity, missing]
  | case5 _ _ ih => simp only [inquire, run_bind, ih]; rfl
  | case6 _ _ _ _ ihl ihr => simp only [inquire, run_bind, ihl, ihr]; rfl
  | case7 _ _ _ _ ihl ihr => simp only [inquire, run_bind, ihl, ihr]; rfl
  | case8 _ _ _ _ ihc ihn ihy => simp only [inquire, quantity, run_bind, run_branch, ihc, ihy, ihn]
  | case9 _ _ _ _ ihc ihn ihy => simp only [inquire, quantity, run_bind, run_branch, ihc, ihy, ihn]
  | case10 _ _ wrong => rw [inquire, quantity] <;> first | rfl | exact wrong
  | case11 _ _ _ _ strict ih => rw [inquire_call strict, quantity_call strict, run_bind, ih]; rfl
  | case12 => rfl
  | case13 _ _ first others => simp only [inquireAll, run_bind, first, others]; rfl

/-- A tree asks for no name but those it mentions. -/
theorem within_inquire (k : Calculus α Q) {t : Tree α} {names : List String} (mentions : t.variableNames ⊆ names) :
    (t.inquire k).Within names := by
  have below {t u : Tree α} (mentions : t.variableNames ⊆ names) (child : u ∈ t.children) : u.variableNames ⊆ names :=
    List.Subset.trans (variableNames_subset child) mentions
  induction t using inquire.induct
    (motive_2 := fun ts => (∀ t ∈ ts, t.variableNames ⊆ names) → (inquireAll k ts).Within names) with
  | case1 => exact .pure _
  | case2 _ name => exact .valueOf (mentions (mem_variableNames_iff.2 (.inl rfl))) _
  | case3 _ operand ih => exact (ih (below mentions (.head _))).bind fun _ => .pure _
  | case4 _ op l r ihl ihr =>
    have left := ihl (below mentions (.head _))
    have right := ihr (below mentions (.tail _ (.head _)))
    exact left.bind fun l => right.bind fun r => .done (k.defined_arithmetic op l r)
  | case5 _ op l r ihl ihr =>
    have left := ihl (below mentions (.head _))
    have right := ihr (below mentions (.tail _ (.head _)))
    exact left.bind fun l => right.bind fun r => .pure _
  | case6 _ c y n ihc ihy ihn =>
    have condition := ihc (below mentions (.head _))
    have yes := ihy (below mentions (.tail _ (.head _)))
    have no := ihn (below mentions (.tail _ (.tail _ (.head _))))
    exact condition.bind fun _ => .ite _ yes no
  | case7 _ c y n ihc ihy ihn =>
    have condition := ihc (below mentions (.head _))
    have yes := ihy (below mentions (.tail _ (.head _)))
    have no := ihn (below mentions (.tail _ (.tail _ (.head _))))
    exact condition.bind fun _ => .ite _ yes no
  | case8 _ _ wrong =>
    rw [inquire]
    · exact .done nofun
    · exact wrong
  | case9 _ f ts _ strict ih =>
    rw [inquire_call strict]
    exact (ih fun t member => below mentions member).bind fun xs => .done (k.defined_apply f xs)
  | case10 => exact .pure _
  | case11 _ _ ih ihs each =>
    obtain ⟨first, others⟩ := List.forall_mem_cons.1 each
    exact (ih first).bind fun _ => (ihs others).bind fun _ => .pure _

/-- Tables that agree on the variables of a tree give it one value or one error. -/
theorem evaluate_of_agree {t : Tree α} {other : Bindings}
    (agree : ∀ name ∈ t.variableNames, bindings.get? name = other.get? name) :
    t.evaluate bindings = t.evaluate other := by
  rw [← run_doubles, ← run_doubles]
  exact (within_inquire _ (List.Subset.refl _)).run_congr agree

end Tree

/-- An accepted formula whose variables have values finds each of them, whichever of its branches are evaluated. -/
theorem defined_of_accepted {text : String} {f : Formula} (accepted : ofText text = .ok f) {bindings : Bindings}
    (within : ∀ name ∈ f.variableNames, name ∈ bindings.names) : Defined (f.evaluate bindings) := by
  rw [variableNames_of_accepted accepted] at within
  have known : ∀ name ∈ f.root.variableNames, (bindings.get? name).isSome := fun name mentioned =>
    Option.isSome_iff_exists.2 (Table.mem_names_iff.1 (within name mentioned))
  have defined := (f.root.within_inquire (doubles Mark) (List.Subset.refl _)).defined known
  rwa [Tree.run_doubles] at defined

/-- The inquiry of a tree that may be of no known kind. -/
def inquireNode : Option (Tree (Option Int)) → Inquiry Float
  | some tree => do .done (← tree.inquire exactly).toFloat
  | none => .done (refuse .unsupportedNode)

theorem run_inquireNode (bindings : Bindings) (node : Option (Tree (Option Int))) :
    (inquireNode node).run bindings = evaluateNode bindings node := by
  cases node with
  | none => rfl
  | some tree =>
    rw [inquireNode, Inquiry.run_bind, Tree.run_exactly]
    rfl

/-- The variables of a tree that may be of no known kind. -/
def mentioned (node : Option (Tree (Option Int))) : List String := (node.map Tree.variableNames).getD []

theorem within_inquireNode (node : Option (Tree (Option Int))) : (inquireNode node).Within (mentioned node) := by
  cases node with
  | none => exact .done nofun
  | some tree => exact (tree.within_inquire exactly (List.Subset.refl _)).bind fun q => .done q.defined_toFloat

/-! ## Evaluations read variables only -/

/-- An evaluation reads the names of a list only: it is the run of an inquiry that asks for no other, so its value or
its error is the same for tables that agree on the list. What it reports as undefined is on the list and not in the
table. -/
structure ReadsOnly (names : List String) (inquiry : Inquiry Float) (evaluation : Bindings → Evaluated Float) :
    Prop where
  runs : ∀ bindings, inquiry.run bindings = evaluation bindings
  asked : ∀ bindings, ∀ name ∈ inquiry.asked bindings, name ∈ names
  agree : ∀ bindings other, (∀ name ∈ names, bindings.get? name = other.get? name) →
    evaluation bindings = evaluation other
  undefined : ∀ bindings name, evaluation bindings = refuse (.undefinedVariable name) →
    name ∈ names ∧ bindings.get? name = none
  defined : ∀ bindings, (∀ name ∈ names, (bindings.get? name).isSome) →
    ∀ name, evaluation bindings ≠ refuse (.undefinedVariable name)

theorem Inquiry.Within.readsOnly {names : List String} {inquiry : Inquiry Float} (h : inquiry.Within names)
    {evaluation : Bindings → Evaluated Float} (runs : ∀ bindings, inquiry.run bindings = evaluation bindings) :
    ReadsOnly names inquiry evaluation := by
  obtain rfl : (fun bindings => inquiry.run bindings) = evaluation := funext runs
  exact ⟨runs, fun bindings _ asked => h.asked_subset bindings asked, fun _ _ agree => h.run_congr agree,
    fun _ _ failed => h.undefined failed, fun _ known => h.defined known⟩

/-- Formulas, trees, and trees with whole numbers are evaluated from the variables that they mention. -/
theorem evaluation_reads_variables :
    (∀ f : Formula, ReadsOnly f.root.variableNames (f.root.inquire (doubles Mark)) f.evaluate) ∧
      (∀ (α : Type) (t : Tree α), ReadsOnly t.variableNames (t.inquire (doubles α)) fun bindings =>
        t.evaluate bindings) ∧
      ∀ node, ReadsOnly (mentioned node) (inquireNode node) fun bindings => evaluateNode bindings node := by
  have tree (α : Type) (t : Tree α) :
      ReadsOnly t.variableNames (t.inquire (doubles α)) fun bindings => t.evaluate bindings :=
    (t.within_inquire (doubles α) (List.Subset.refl _)).readsOnly fun _ => t.run_doubles
  exact ⟨fun f => tree Mark f.root, tree, fun node => (within_inquireNode node).readsOnly fun bindings =>
    run_inquireNode bindings node⟩

end GameScoring.Formula
