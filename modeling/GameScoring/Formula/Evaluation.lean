import GameScoring.Formula.Basic
import GameScoring.Numeral.Rounding
import GameScoring.Table

/-! # Evaluation

A tree is evaluated against a table of named numbers. Every operator and function that could leave the
finite numbers is checked where it is applied; a comparison is 1 or 0, and only the chosen branch of a
conditional is evaluated.
-/
namespace GameScoring.Formula
open Numeral

abbrev Bindings := Table Float

inductive Operation
  | arithmetic (op : Arithmetic)
  | function (f : Function)
deriving DecidableEq, Repr

inductive EvaluationError
  | undefinedVariable (name : String)
  | divisionByZero
  | zeroToNegativePower
  | fractionalPowerOfNegative
  | powerOverflow
  | notFinite (operation : Operation)
  | negativeRoot (value : Float)
  | roundDigits
  | clampBounds (low high : Float)
  | unsupportedNode
deriving Repr

def maxRoundDigits : Nat := 10

def Operation.text : Operation → String
  | arithmetic op => "'" ++ op.symbol ++ "'"
  | function f => f.name ++ "()"

namespace EvaluationError

def message : EvaluationError → String
  | undefinedVariable name => "Undefined variable '" ++ name ++ "'"
  | divisionByZero => "Division by zero"
  | zeroToNegativePower => "Zero raised to a negative power"
  | fractionalPowerOfNegative => "Negative base raised to a fractional power has no real result"
  | powerOverflow => "Exponentiation overflowed"
  | notFinite operation => operation.text ++ " does not produce a finite real number"
  | negativeRoot value => "sqrt of negative number " ++ general value
  | roundDigits => "round digits must be a whole number from 0 to " ++ Text.natText maxRoundDigits
  | clampBounds low high =>
    "clamp lower bound " ++ general low ++ " is greater than upper bound " ++ general high
  | unsupportedNode => "Unsupported node type Node"

def function? : EvaluationError → Option Function
  | negativeRoot _ => some .root
  | roundDigits => some .round
  | clampBounds .. => some .clamp
  | _ => none

def report (e : EvaluationError) : Report :=
  match e with
  | undefinedVariable name => .undefinedVariable (.text name)
  | divisionByZero | zeroToNegativePower => .divisionByZero e.message
  | unsupportedNode => .evaluation e.message "FORMULA_EVALUATION_ERROR" []
  | _ => .domain e.message (Value.optional (fun f : Function => .text f.name) e.function?)

end EvaluationError

abbrev Evaluated := Except (Failure EvaluationError)

def finite (operation : Operation) (x : Float) : Evaluated Float :=
  if Binary.isFinite x then .ok x else refuse (.notFinite operation)

/-- A quotient, defined where the denominator is not zero. -/
def quotientOf (numerator denominator : Float) (_ : ¬ (denominator == 0.0) = true) : Float :=
  numerator / denominator

/-- A root, defined where the number is not negative. -/
def rootOf (x : Float) (_ : ¬ x < 0.0) : Float := x.sqrt

/-- A power, defined unless zero is raised to a negative power or a negative number to a fractional one. -/
def powerOf (base exponent : Float) (_ : ¬ (base == 0.0 && exponent < 0.0) = true)
    (_ : ¬ (base < 0.0 && !Binary.isInteger exponent) = true) : Float :=
  Float.pow base exponent

/-- Powers of numbers. An infinite power of finite numbers is an overflow. -/
def raise (base exponent : Float) : Evaluated Float :=
  if pole : base == 0.0 && exponent < 0.0 then refuse .zeroToNegativePower
  else if fractional : base < 0.0 && !Binary.isInteger exponent then refuse .fractionalPowerOfNegative
  else
    let result := powerOf base exponent pole fractional
    if Binary.isFinite base && Binary.isFinite exponent && result.isInf then refuse .powerOverflow
    else .ok result

def Arithmetic.apply (op : Arithmetic) (left right : Float) : Evaluated Float := do
  let result ← match op with
    | add => .ok (left + right)
    | subtract => .ok (left - right)
    | multiply => .ok (left * right)
    | divide => if zero : right == 0.0 then refuse .divisionByZero else .ok (quotientOf left right zero)
    | power => raise left right
  finite (.arithmetic op) result

def Comparison.holds (op : Comparison) (left right : Float) : Bool :=
  match op with
  | less => left < right
  | lessEqual => left ≤ right
  | greater => right < left
  | greaterEqual => right ≤ left
  | equal => left == right
  | notEqual => left != right

def Comparison.apply (op : Comparison) (left right : Float) : Float :=
  if op.holds left right then 1.0 else 0.0

def squareRoot (x : Float) : Evaluated Float :=
  if negative : x < 0.0 then refuse (.negativeRoot x) else .ok (rootOf x negative)

/-- The whole number of digits to round to, which is not too large. -/
def roundPlaces (digits : Float) : Evaluated Int :=
  match Binary.toInt? digits with
  | some places => if 0 ≤ places ∧ places ≤ maxRoundDigits then .ok places else refuse .roundDigits
  | none => refuse .roundDigits

def roundTo (x digits : Float) : Evaluated Float := do
  let places ← roundPlaces digits
  (roundHalfUp x places).mapError Failure.fault

def clampBetween (x low high : Float) : Evaluated Float :=
  if high < low then refuse (.clampBounds low high) else .ok (clamp low high x)

/-- The fault of a function that takes a fixed number of arguments and gets another one. -/
def countFault (expected actual : Nat) : Fault :=
  if actual < expected then .tooFewArguments expected actual else .tooManyArguments expected

/-- The fault of a function that gets a number of arguments it cannot take. -/
def Function.argumentFault (f : Function) (count : Nat) : Fault :=
  match f with
  | minimum | maximum => .noChoice f.name
  | absolute | round => .noArgument
  | root => countFault 1 count
  | clamp | choose => countFault 3 count

/-- Applies a function to its arguments. The branches of `choose` are not arguments in this sense. -/
def Function.apply (f : Function) (arguments : List Float) : Evaluated Float := do
  let result ← match f, arguments with
    | minimum, first :: rest => .ok (least first rest)
    | maximum, first :: rest => .ok (greatest first rest)
    | root, [x] => squareRoot x
    | absolute, x :: _ => .ok x.abs
    | round, [x] => roundTo x 0.0
    | round, x :: digits :: _ => roundTo x digits
    | clamp, [x, low, high] => clampBetween x low high
    | _, _ => .error (.fault (f.argumentFault arguments.length))
  finite (.function f) result

namespace Tree
variable {α : Type}

mutual

def evaluate (bindings : Bindings) : Tree α → Evaluated Float
  | number _ value => .ok value
  | reference _ name =>
    match bindings.get? name with
    | some value => .ok value
    | none => refuse (.undefinedVariable name)
  | negate _ operand => do return -(← operand.evaluate bindings)
  | arithmetic _ op left right => do
    let l ← left.evaluate bindings
    let r ← right.evaluate bindings
    op.apply l r
  | compare _ op left right => do
    let l ← left.evaluate bindings
    let r ← right.evaluate bindings
    return op.apply l r
  | choose _ condition yes no => do
    if (← condition.evaluate bindings) != 0.0 then yes.evaluate bindings else no.evaluate bindings
  | call _ .choose [condition, yes, no] => do
    if (← condition.evaluate bindings) != 0.0 then yes.evaluate bindings else no.evaluate bindings
  | call _ .choose arguments => .error (.fault (Function.choose.argumentFault arguments.length))
  | call _ function arguments => do function.apply (← evaluateAll bindings arguments)

def evaluateAll (bindings : Bindings) : List (Tree α) → Evaluated (List Float)
  | [] => .ok []
  | t :: rest => do
    let value ← t.evaluate bindings
    return value :: (← evaluateAll bindings rest)

end

variable {bindings : Bindings} {note : α}

theorem evaluate_call {function : Function} {arguments : List (Tree α)} (h : function ≠ .choose) :
    (call note function arguments).evaluate bindings =
      evaluateAll bindings arguments >>= function.apply := by
  cases function <;> first | exact absurd rfl h | rfl

end Tree

def evaluate (f : Formula) (bindings : Bindings) : Evaluated Float := f.root.evaluate bindings

end GameScoring.Formula
