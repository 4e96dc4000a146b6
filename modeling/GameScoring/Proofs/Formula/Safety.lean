import GameScoring.Proofs.Formula.Acceptance
import GameScoring.Proofs.Numeral.Margin
import GameScoring.Telemetry.Environment

/-!
# Formulas evaluate safely

In an environment of finite numbers every node of an accepted formula gives a finite
number or is refused for an undefined variable, a division by zero or an argument outside
of a domain. No fault of arithmetic is reached, and no number that is not finite is handed
from a node to its parent.
-/
namespace GameScoring.Formula

/-- The refusals that the evaluation of a formula may end with. -/
def evaluationKinds : List Report.Kind := [.undefinedVariable, .divisionByZero, .domain]

/-- Only a node that is no tree is refused otherwise. -/
theorem kind_mem {e : EvaluationError} (known : e ≠ .unsupportedNode) :
    e.report.kind ∈ evaluationKinds := by
  cases e with
  | unsupportedNode => exact absurd rfl known
  | undefinedVariable _ => exact .head _
  | divisionByZero => exact .tail _ (.head _)
  | zeroToNegativePower => exact .tail _ (.head _)
  | _ => exact .tail _ (.tail _ (.head _))

/-- An evaluation has a result with a property or ends with one of the refusals of evaluation. -/
inductive Safely {α : Type} (P : α → Prop) : Evaluated α → Prop
  | ok {a : α} (h : P a) : Safely P (.ok a)
  | refused {e : EvaluationError} (kind : e.report.kind ∈ evaluationKinds) : Safely P (refuse e)

namespace Safely
variable {α β : Type} {P : α → Prop} {Q : β → Prop}

theorem bind {x : Evaluated α} {f : α → Evaluated β} (h : Safely P x) (next : ∀ a, P a → Safely Q (f a)) :
    Safely Q (x >>= f) := by
  cases h with
  | ok h => exact next _ h
  | refused kind => exact .refused kind

end Safely

/-- An evaluation has a finite result or ends with one of the refusals of evaluation. -/
abbrev Safe : Evaluated Float → Prop := Safely fun x => Binary.isFinite x = true

theorem safe_finite (operation : Operation) (x : Float) : Safe (finite operation x) := by
  rw [finite]
  split
  next finite => exact .ok finite
  next => exact .refused (kind_mem nofun)

theorem safe_raise (base exponent : Float) : Safely (fun _ => True) (raise base exponent) := by
  rw [raise]
  split
  next => exact .refused (kind_mem nofun)
  next =>
    split
    next => exact .refused (kind_mem nofun)
    next =>
      dsimp only
      split
      next => exact .refused (kind_mem nofun)
      next => exact .ok trivial

theorem Arithmetic.safe_apply (op : Arithmetic) (left right : Float) : Safe (op.apply left right) := by
  cases op with
  | divide =>
    rw [Arithmetic.apply]
    dsimp only
    split
    next => exact .refused (kind_mem nofun)
    next => exact safe_finite _ _
  | power => exact (safe_raise left right).bind fun x _ => safe_finite _ x
  | _ => exact safe_finite _ _

theorem Comparison.isFinite_apply (op : Comparison) (left right : Float) :
    Binary.isFinite (op.apply left right) = true := by
  rw [Comparison.apply]
  split <;> decide

theorem safe_squareRoot (x : Float) : Safely (fun _ => True) (squareRoot x) := by
  rw [squareRoot]
  split
  next => exact .refused (kind_mem nofun)
  next => exact .ok trivial

theorem safe_clampBetween (x low high : Float) : Safely (fun _ => True) (clampBetween x low high) := by
  rw [clampBetween]
  split
  next => exact .refused (kind_mem nofun)
  next => exact .ok trivial

theorem safe_roundTo {x : Float} (digits : Float) (h : Binary.isFinite x = true) :
    Safely (fun _ => True) (roundTo x digits) := by
  have places : Safely (fun places : Int => 0 ≤ places ∧ places ≤ maxRoundDigits) (roundPlaces digits) := by
    rw [roundPlaces]
    split
    next places _ =>
      split
      next inside => exact .ok inside
      next => exact .refused (kind_mem nofun)
    next => exact .refused (kind_mem nofun)
  refine places.bind fun places inside => ?_
  obtain ⟨y, rounded⟩ := Numeral.exists_roundHalfUp h inside.1 inside.2
  rw [rounded]
  exact .ok trivial

theorem Function.three_of_choose {α : Type} {xs : List α}
    (accepted : Function.choose.accepts xs.length = true) : ∃ a b c, xs = [a, b, c] := by
  rcases xs with _ | ⟨a, _ | ⟨b, _ | ⟨c, _ | ⟨d, more⟩⟩⟩⟩
  · cases accepted
  · cases accepted
  · cases accepted
  · exact ⟨a, b, c, rfl⟩
  · exact absurd (le_of_accepts accepted rfl) (by simp only [List.length_cons]; omega)

/-- A function that gets finite arguments, as many as it takes. -/
theorem Function.safe_apply {f : Function} {xs : List Float} (eager : f ≠ .choose)
    (accepted : f.accepts xs.length = true) (h : ∀ x ∈ xs, Binary.isFinite x = true) :
    Safe (f.apply xs) := by
  rcases xs with _ | ⟨x, rest⟩
  · cases f <;> cases accepted
  have first : Binary.isFinite x = true := h x (List.mem_cons_self ..)
  have rounded (digits : Float) : Safe (roundTo x digits >>= finite (.function .round)) :=
    (safe_roundTo digits first).bind fun y _ => safe_finite _ y
  cases f with
  | choose => exact absurd rfl eager
  | minimum => exact safe_finite _ _
  | maximum => exact safe_finite _ _
  | absolute => exact safe_finite _ _
  | root =>
    rcases rest with _ | ⟨y, more⟩
    · exact (safe_squareRoot x).bind fun y _ => safe_finite _ y
    · exact absurd (le_of_accepts accepted rfl) (by simp only [List.length_cons]; omega)
  | round =>
    rcases rest with _ | ⟨digits, more⟩
    · exact rounded 0.0
    · exact rounded digits
  | clamp =>
    rcases rest with _ | ⟨low, _ | ⟨high, _ | ⟨y, more⟩⟩⟩
    · cases accepted
    · cases accepted
    · exact (safe_clampBetween x low high).bind fun y _ => safe_finite _ y
    · exact absurd (le_of_accepts accepted rfl) (by simp only [List.length_cons]; omega)

namespace WellFormed

/-- The children of a well-formed node are well formed. -/
theorem children {t : Node} (h : WellFormed t) : ∀ u ∈ t.children, WellFormed u := by
  cases h with
  | number _ => exact fun _ hu => by cases hu
  | reference _ => exact fun _ hu => by cases hu
  | negate ho => exact List.forall_mem_singleton.2 ho
  | arithmetic hl hr => exact List.forall_mem_cons.2 ⟨hl, List.forall_mem_singleton.2 hr⟩
  | compare hl hr => exact List.forall_mem_cons.2 ⟨hl, List.forall_mem_singleton.2 hr⟩
  | choose hc hy hn =>
    exact List.forall_mem_cons.2 ⟨hc, List.forall_mem_cons.2 ⟨hy, List.forall_mem_singleton.2 hn⟩⟩
  | call ha _ => exact ha

/-- The environment of a formula is a table of finite numbers. -/
theorem safe_reference {env : Environment} {position : Nat} {name : String} :
    Safe ((Node.reference position name).evaluate env.bindings) := by
  rw [Node.reference, Tree.evaluate]
  split
  next value found => exact .ok (env.finite _ (Table.mem_of_get? found))
  next => exact .refused (kind_mem nofun)

theorem safe_evaluateAll {env : Environment} {ts : List Node}
    (h : ∀ t ∈ ts, Safe (t.evaluate env.bindings)) :
    Safely (fun xs => xs.length = ts.length ∧ ∀ x ∈ xs, Binary.isFinite x = true)
      (Tree.evaluateAll env.bindings ts) := by
  induction ts with
  | nil => exact .ok ⟨rfl, fun _ hx => by cases hx⟩
  | cons t rest ih =>
    obtain ⟨first, others⟩ := List.forall_mem_cons.1 h
    refine first.bind fun x hx => (ih others).bind fun xs hxs => ?_
    exact .ok ⟨congrArg (· + 1) hxs.1, List.forall_mem_cons.2 ⟨hx, hxs.2⟩⟩

private theorem safe_branch {env : Environment} {condition yes no : Node}
    (hc : Safe (condition.evaluate env.bindings)) (hy : Safe (yes.evaluate env.bindings))
    (hn : Safe (no.evaluate env.bindings)) :
    Safe (condition.evaluate env.bindings >>= fun c =>
      if c != 0.0 then yes.evaluate env.bindings else no.evaluate env.bindings) := by
  refine hc.bind fun c _ => ?_
  split
  next => exact hy
  next => exact hn

/-- A well-formed tree evaluates safely. -/
theorem safe {t : Node} (h : WellFormed t) (env : Environment) : Safe (t.evaluate env.bindings) := by
  induction h with
  | number finite => exact .ok finite
  | reference _ => exact safe_reference
  | negate _ ih => exact ih.bind fun x hx => .ok (Binary.isFinite_neg hx)
  | arithmetic _ _ ihl ihr => exact ihl.bind fun l _ => ihr.bind fun r _ => Arithmetic.safe_apply _ l r
  | compare _ _ ihl ihr =>
    exact ihl.bind fun l _ => ihr.bind fun r _ => .ok (Comparison.isFinite_apply _ l r)
  | choose _ _ _ ihc ihy ihn => exact safe_branch ihc ihy ihn
  | @call position function arguments _ accepted ih =>
    by_cases lazy : function = .choose
    · subst lazy
      obtain ⟨c, y, n, rfl⟩ := Function.three_of_choose accepted
      exact safe_branch (ih c (by simp)) (ih y (by simp)) (ih n (by simp))
    · rw [Node.call, Tree.evaluate_call lazy]
      refine (safe_evaluateAll ih).bind fun xs hxs => ?_
      exact Function.safe_apply lazy (by rw [hxs.1]; exact accepted) hxs.2

end WellFormed

theorem wellFormed_of_accepted {text : String} {f : Formula} (accepted : ofText text = .ok f) :
    WellFormed f.root := by
  obtain ⟨p, writes, -⟩ := ofText_ok_iff.1 accepted
  exact p.wellFormed writes.means

/-- In an environment of finite numbers, the evaluation of an accepted formula and of each of its
nodes gives a finite number or is refused for an undefined variable, a division by zero or an
argument outside of a domain. -/
theorem accepted_formula_evaluates_safely {text : String} {f : Formula}
    (accepted : ofText text = .ok f) (env : Environment) :
    Safe (f.evaluate env.bindings) ∧ ∀ n ∈ f.root.walk, Safe (n.evaluate env.bindings) := by
  have root : WellFormed f.root := wellFormed_of_accepted accepted
  exact ⟨root.safe env, fun n hn => (Tree.forall_mem_walk (fun _ h => h.children) root n hn).safe env⟩

/-- A quotient of two variables, one of which is zero. -/
theorem quotient_evaluates_safely :
    let env := (Environment.empty.insert "a" 1.0 (by decide)).insert "b" 0.0 (by decide)
    ∃ f, ofText "a/b" = .ok f ∧ Safe (f.evaluate env.bindings) ∧
      ∀ n ∈ f.root.walk, Safe (n.evaluate env.bindings) := by
  intro env
  cases accepted : ofText "a/b" with
  | error r =>
    have isOk : (ofText "a/b").isOk = true := by decide +kernel
    rw [accepted] at isOk
    cases isOk
  | ok f => exact ⟨f, rfl, accepted_formula_evaluates_safely accepted env⟩

end GameScoring.Formula
