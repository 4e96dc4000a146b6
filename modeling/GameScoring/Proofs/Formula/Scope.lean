import GameScoring.Proofs.Formula.Safety
import GameScoring.Proofs.Formula.Walk

/-!
# Undefined variables

Only variables are refused for being undefined: operators and functions do not look at names, and no other refusal is
reported like this one.
-/
namespace GameScoring.Formula

/-- An evaluation is not refused for an undefined variable. -/
def Defined {α : Type} (x : Evaluated α) : Prop := ∀ name, x ≠ refuse (.undefinedVariable name)

namespace Defined
variable {α β : Type}

theorem ok (a : α) : Defined (.ok a : Evaluated α) := by
  rintro name ⟨⟩

theorem bind {x : Evaluated α} {f : α → Evaluated β} (h : Defined x) (next : ∀ a, Defined (f a)) :
    Defined (x >>= f) := by
  cases x with
  | ok a => exact next a
  | error e =>
    intro name same
    cases same
    exact h name rfl

end Defined

theorem defined_finite (operation : Operation) (x : Float) : Defined (finite operation x) := by
  rw [finite]
  split <;> rintro name ⟨⟩

theorem defined_raise (base exponent : Float) : Defined (raise base exponent) := by
  rw [raise]
  split
  next => rintro name ⟨⟩
  next =>
    split
    next => rintro name ⟨⟩
    next =>
      dsimp only
      split <;> rintro name ⟨⟩

theorem Arithmetic.defined_apply (op : Arithmetic) (left right : Float) : Defined (op.apply left right) := by
  cases op with
  | divide =>
    rw [Arithmetic.apply]
    dsimp only
    split
    next => rintro name ⟨⟩
    next => exact defined_finite _ _
  | power => exact (defined_raise left right).bind fun x => defined_finite _ x
  | _ => exact defined_finite _ _

theorem Defined.fault {α : Type} (x : Except Fault α) : Defined (x.mapError Failure.fault : Evaluated α) := by
  cases x <;> rintro name ⟨⟩

theorem defined_roundPlaces (digits : Float) : Defined (roundPlaces digits) := by
  rw [roundPlaces]
  split
  next => split <;> rintro name ⟨⟩
  next => rintro name ⟨⟩

theorem defined_roundTo (x digits : Float) : Defined (roundTo x digits) :=
  (defined_roundPlaces digits).bind fun _ => .fault _

theorem defined_squareRoot (x : Float) : Defined (squareRoot x) := by
  rw [squareRoot]
  split <;> rintro name ⟨⟩

theorem defined_clampBetween (x low high : Float) : Defined (clampBetween x low high) := by
  rw [clampBetween]
  split <;> rintro name ⟨⟩

theorem Function.defined_apply (f : Function) (xs : List Float) : Defined (f.apply xs) := by
  have last (x : Float) : Defined (finite (.function f) x) := defined_finite _ x
  unfold Function.apply
  dsimp only
  split
  next => exact last _
  next => exact last _
  next x => exact (defined_squareRoot x).bind last
  next => exact last _
  next x => exact (defined_roundTo x 0.0).bind last
  next x digits _ => exact (defined_roundTo x digits).bind last
  next x low high => exact (defined_clampBetween x low high).bind last
  next => rintro name ⟨⟩

theorem variableNames_of_accepted {text : String} {f : Formula} (accepted : ofText text = .ok f) :
    f.variableNames = f.root.variableNames := by
  obtain ⟨p, -, -, -, whole⟩ := ofText_ok_iff.1 accepted
  rw [whole]

/-- Nothing but an undefined variable is reported as one. -/
theorem EvaluationError.code_eq_iff {e : EvaluationError} :
    e.report.code = "UNDEFINED_VARIABLE" ↔ ∃ name, e = .undefinedVariable name := by
  constructor
  · intro code
    cases e with
    | undefinedVariable name => exact ⟨name, rfl⟩
    | divisionByZero => exact absurd code (by decide)
    | zeroToNegativePower => exact absurd code (by decide)
    | unsupportedNode => exact absurd code (by decide)
    | _ => exact absurd (show "DOMAIN_ERROR" = "UNDEFINED_VARIABLE" from code) (by decide)
  · rintro ⟨name, rfl⟩
    rfl

end GameScoring.Formula
