/-! # Doubles as scaled integers

A finite double is `± mantissa * 2 ^ exponent`. `shape` takes a double apart and `nearest` makes the
double nearest to a quotient of natural numbers. Both work on the 64 bits in exact integer arithmetic,
so every conversion between doubles, integers and decimals in this library is built from these two.
-/
namespace GameScoring.Binary

inductive Shape
  | finite (negative : Bool) (mantissa : Nat) (exponent : Int)
  | infinite (negative : Bool)
  | notANumber
deriving DecidableEq, Repr

/-- The bit of a double that is its sign. -/
def signBit : Nat := Nat.pow 2 63

/-- The unit in front of the fraction, which normal doubles do not write. -/
def leadingUnit : Nat := Nat.pow 2 52

def shape (x : Float) : Shape :=
  let bits : Nat := x.toBits.toNat
  let negative := decide (signBit ≤ bits)
  let field : Nat := bits / leadingUnit % 2048
  let fraction : Nat := bits % leadingUnit
  if field = 2047 then
    if fraction = 0 then .infinite negative else .notANumber
  else if field = 0 then .finite negative fraction (-1074)
  else .finite negative (fraction + leadingUnit) ((field : Int) - 1075)

def isFinite (x : Float) : Bool :=
  match shape x with
  | .finite .. => true
  | _ => false

inductive Tie
  | even
  | away
deriving DecidableEq, Repr

/-- `num / den` rounded to a whole number. -/
def roundQuotient (tie : Tie) (num den : Nat) : Nat :=
  let whole := num / den
  let rest := 2 * (num % den)
  if rest < den then whole
  else if den < rest then whole + 1
  else match tie with
    | .even => whole + whole % 2
    | .away => whole + 1

/-- `num / den * base ^ shift` as a quotient of natural numbers. -/
def scale (base num den : Nat) (shift : Int) : Nat × Nat :=
  if 0 ≤ shift then (num * Nat.pow base shift.toNat, den)
  else (num, den * Nat.pow base (-shift).toNat)

/-- The exponent of the leading bit of `num / den`, both positive. -/
def leadingBit (num den : Nat) : Int :=
  let guess := (num.log2 : Int) - den.log2
  let (n, d) := scale 2 num den (-guess)
  if d ≤ n then guess else guess - 1

/-- A double from its sign and its magnitude, the position among the non-negative doubles. -/
def ofMagnitude (negative : Bool) (magnitude : Nat) : Float :=
  Float.ofBits (UInt64.ofNat (magnitude + if negative then signBit else 0))

/-- The magnitude of infinity, one past the largest finite one. -/
def infinityMagnitude : Nat := 2047 * leadingUnit

def infinity (negative : Bool) : Float := ofMagnitude negative infinityMagnitude

/-- The double nearest to `± num / den`, of two nearest ones the even one. The mantissa keeps 53 bits,
fewer below `2 ^ -1022`, and what rounds to `2 ^ 1024` or more is infinite. A mantissa that rounds up to
the next power of two moves to the next exponent by the addition alone. -/
def nearest (negative : Bool) (num den : Nat) : Float :=
  if num = 0 then ofMagnitude negative 0
  else
    let exponent := max (-1074) (leadingBit num den - 52)
    let (n, d) := scale 2 num den (-exponent)
    let magnitude := (exponent + 1074).toNat * leadingUnit + roundQuotient .even n d
    ofMagnitude negative (min magnitude infinityMagnitude)

/-- The double nearest to an integer, unless it would be infinite. -/
def ofInt? (i : Int) : Option Float :=
  let x := nearest (decide (i < 0)) i.natAbs 1
  if isFinite x then some x else none

/-- The integer a double is equal to, if it is one. -/
def toInt? (x : Float) : Option Int :=
  match shape x with
  | .finite negative mantissa exponent =>
    let (n, d) := scale 2 mantissa 1 exponent
    if n % d = 0 then
      let whole : Int := (n / d : Nat)
      some (if negative then -whole else whole)
    else none
  | _ => none

def isInteger (x : Float) : Bool := (toInt? x).isSome

/-- Whether the sign bit is set, also on a zero. -/
def isNegative (x : Float) : Bool := decide (signBit ≤ x.toBits.toNat)

end GameScoring.Binary
