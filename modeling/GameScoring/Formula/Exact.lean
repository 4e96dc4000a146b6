import GameScoring.Formula.Evaluation

/-! # Trees with whole numbers

A tree that is not parsed may hold whole numbers, of any size. They are calculated with exactly, as long as
an operation takes whole numbers only and gives one. Other operations take the doubles nearest to them, and
a whole number that is too large for one is a fault there. The note of a literal is the whole number that it
stands for, if it stands for one.
-/
namespace GameScoring.Formula
open Numeral

/-- A number that is known to be whole, or a double. -/
inductive Quantity
  | whole (i : Int)
  | real (x : Float)

namespace Quantity

def toFloat : Quantity → Evaluated Float
  | whole i => (ofInt i).mapError Failure.fault
  | real x => .ok x

/-- The order of a double and a whole number, taken exactly. Not-a-number has none. -/
def orderWhole (x : Float) (i : Int) : Option Ordering :=
  match Binary.shape x with
  | .finite negative mantissa exponent =>
    let (n, d) := Binary.scale 2 mantissa 1 exponent
    some (Ord.compare (if negative then -(n : Int) else n) (i * d))
  | .infinite negative => some (if negative then .lt else .gt)
  | .notANumber => none

def orderReal (x y : Float) : Option Ordering :=
  if x < y then some .lt else if y < x then some .gt else if x == y then some .eq else none

/-- The order of two numbers. Nothing has an order with not-a-number. -/
def order : Quantity → Quantity → Option Ordering
  | whole i, whole j => some (Ord.compare i j)
  | real x, whole j => orderWhole x j
  | whole i, real y => (orderWhole y i).map Ordering.swap
  | real x, real y => orderReal x y

def isLess (a b : Quantity) : Bool := a.order b == some .lt

def isZero (a : Quantity) : Bool := a.order (whole 0) == some .eq

def isNegative (a : Quantity) : Bool := a.isLess (whole 0)

def negate : Quantity → Quantity
  | whole i => whole (-i)
  | real x => real (-x)

def magnitude : Quantity → Quantity
  | whole i => whole i.natAbs
  | real x => real x.abs

/-- The first of the smallest numbers. -/
def least (first : Quantity) (rest : List Quantity) : Quantity :=
  rest.foldl (fun best a => if a.isLess best then a else best) first

def greatest (first : Quantity) (rest : List Quantity) : Quantity :=
  rest.foldl (fun best a => if best.isLess a then a else best) first

/-- A number that an operation gave. A whole number has to have a double, a double has to be finite. -/
def finite (operation : Operation) : Quantity → Evaluated Quantity
  | whole i => do
    let _ ← (whole i).toFloat
    return whole i
  | real x => do return real (← Formula.finite operation x)

/-- Combines two numbers exactly if both are whole, and as doubles otherwise. -/
def combine (exact : Int → Int → Int) (rounded : Float → Float → Float) : Quantity → Quantity → Evaluated Quantity
  | whole i, whole j => .ok (whole (exact i j))
  | a, b => do return real (rounded (← a.toFloat) (← b.toFloat))

/-- The quotient of two whole numbers is rounded once. -/
def quotient : Quantity → Quantity → Evaluated Quantity
  | whole i, whole j => do return real (← (wholeQuotient i j).mapError Failure.fault)
  | a, b => do return real ((← a.toFloat) / (← b.toFloat))

/-- Powers are powers of doubles. A base or an exponent without a double is an overflow, except that the
exponent of a negative base has to have one. -/
def raise (base exponent : Quantity) : Evaluated Quantity :=
  if base.isZero && exponent.isNegative then refuse .zeroToNegativePower
  else do
    if base.isNegative then
      let e ← exponent.toFloat
      if !Binary.isInteger e then refuse .fractionalPowerOfNegative
    match base.toFloat, exponent.toFloat with
    | .ok b, .ok e => return real (← Formula.raise b e)
    | _, _ => refuse .powerOverflow

end Quantity

open Quantity

def Arithmetic.applyExact (op : Arithmetic) (left right : Quantity) : Evaluated Quantity := do
  let result ← match op with
    | add => combine (· + ·) (· + ·) left right
    | subtract => combine (· - ·) (· - ·) left right
    | multiply => combine (· * ·) (· * ·) left right
    | divide => if right.isZero then refuse .divisionByZero else quotient left right
    | power => left.raise right
  result.finite (.arithmetic op)

/-- Whether a comparison holds between numbers in an order. -/
def Comparison.holdsFor (op : Comparison) (order : Option Ordering) : Bool :=
  match op with
  | less => order == some .lt
  | lessEqual => order == some .lt || order == some .eq
  | greater => order == some .gt
  | greaterEqual => order == some .gt || order == some .eq
  | equal => order == some .eq
  | notEqual => order != some .eq

def Comparison.applyExact (op : Comparison) (left right : Quantity) : Quantity :=
  real (if op.holdsFor (left.order right) then 1.0 else 0.0)

def rootExact (a : Quantity) : Evaluated Quantity := do
  let x ← a.toFloat
  return real (← squareRoot x)

/-- The digits are looked at before the number. -/
def roundExact (a digits : Quantity) : Evaluated Quantity := do
  let places ← roundPlaces (← digits.toFloat)
  return real (← (roundHalfUp (← a.toFloat) places).mapError Failure.fault)

def clampExact (a low high : Quantity) : Evaluated Quantity :=
  if high.isLess low then do refuse (.clampBounds (← low.toFloat) (← high.toFloat))
  else .ok (Quantity.greatest low [Quantity.least high [a]])

def Function.applyExact (f : Function) (arguments : List Quantity) : Evaluated Quantity := do
  let result ← match f, arguments with
    | minimum, first :: rest => .ok (Quantity.least first rest)
    | maximum, first :: rest => .ok (Quantity.greatest first rest)
    | root, [a] => rootExact a
    | absolute, a :: _ => .ok a.magnitude
    | round, [a] => roundExact a (real 0.0)
    | round, a :: digits :: _ => roundExact a digits
    | clamp, [a, low, high] => clampExact a low high
    | _, _ => .error (.fault (f.argumentFault arguments.length))
  result.finite (.function f)

namespace Tree

mutual

def quantity (bindings : Bindings) : Tree (Option Int) → Evaluated Quantity
  | number none value => .ok (real value)
  | number (some i) _ => .ok (whole i)
  | reference _ name =>
    match bindings.get? name with
    | some value => .ok (real value)
    | none => refuse (.undefinedVariable name)
  | negate _ operand => do return (← operand.quantity bindings).negate
  | arithmetic _ op left right => do
    let l ← left.quantity bindings
    let r ← right.quantity bindings
    op.applyExact l r
  | compare _ op left right => do
    let l ← left.quantity bindings
    let r ← right.quantity bindings
    return op.applyExact l r
  | choose _ condition yes no => do
    if (← condition.quantity bindings).isZero then no.quantity bindings else yes.quantity bindings
  | call _ .choose [condition, yes, no] => do
    if (← condition.quantity bindings).isZero then no.quantity bindings else yes.quantity bindings
  | call _ .choose arguments => .error (.fault (Function.choose.argumentFault arguments.length))
  | call _ function arguments => do function.applyExact (← quantities bindings arguments)

def quantities (bindings : Bindings) : List (Tree (Option Int)) → Evaluated (List Quantity)
  | [] => .ok []
  | t :: rest => do
    let value ← t.quantity bindings
    return value :: (← quantities bindings rest)

end

/-- The value of a tree with whole numbers, as a double. -/
def evaluateExact (bindings : Bindings) (t : Tree (Option Int)) : Evaluated Float := do
  (← t.quantity bindings).toFloat

end Tree

/-- Evaluates the tree under a node that may be of no known kind. -/
def evaluateNode (bindings : Bindings) : Option (Tree (Option Int)) → Evaluated Float
  | some tree => tree.evaluateExact bindings
  | none => refuse .unsupportedNode

end GameScoring.Formula
