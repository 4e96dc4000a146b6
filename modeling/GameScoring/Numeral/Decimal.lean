import GameScoring.Numeral.Binary

/-! # Decimals

`± coefficient * 10 ^ exponent`, with rounding at a decimal place and subtraction at a given number of
digits. `toFloat` is correctly rounded, and `ofFloat` is the shortest decimal that reads back as the same
double, the nearest one to it of that length.
-/
namespace GameScoring
open Binary

structure Decimal where
  negative : Bool
  coefficient : Nat
  exponent : Int
deriving DecidableEq, Repr

namespace Decimal

/-- The number of decimal digits, one for zero. -/
def digitCount (n : Nat) : Nat :=
  if n < 10 then 1 else digitCount (n / 10) + 1

/-- The double nearest to a decimal. Nothing with a leading digit above `10 ^ 400` is finite and nothing
below `10 ^ -400` is different from zero. -/
def toFloat (d : Decimal) : Float :=
  let lead := (digitCount d.coefficient : Int) + d.exponent
  if d.coefficient = 0 ∨ lead < -400 then nearest d.negative 0 1
  else if 400 < lead then infinity d.negative
  else
    let (n, m) := scale 10 d.coefficient 1 d.exponent
    nearest d.negative n m

/-- The exponent of the leading decimal digit of `num / den`, both positive. -/
def leadingDigit (num den : Nat) : Int :=
  if den ≤ num then (digitCount (num / den) : Int) - 1 else -(digitCount ((den - 1) / num))

/-- A neighbour of `± num / den` on the grid of `10 ^ exponent` that reads back as `x`, the nearer one if
both do. -/
def onGrid? (x : Float) (negative : Bool) (num den : Nat) (exponent : Int) : Option Decimal :=
  let (n, d) := scale 10 num den (-exponent)
  let low := n / d
  let neighbours := if roundQuotient .even n d = low then [low, low + 1] else [low + 1, low]
  (neighbours.map (Decimal.mk negative · exponent)).find? (·.toFloat == x)

/-- A decimal that is equal to `± mantissa * 2 ^ exponent`. -/
def exact (negative : Bool) (mantissa : Nat) (exponent : Int) : Decimal :=
  if 0 ≤ exponent then ⟨negative, mantissa * Nat.pow 2 exponent.toNat, 0⟩
  else ⟨negative, mantissa * Nat.pow 5 (-exponent).toNat, exponent⟩

/-- The shortest decimal that reads back as a finite double: seventeen digits are always enough. -/
def ofFloat? (x : Float) : Option Decimal :=
  match shape x with
  | .finite negative mantissa exponent =>
    if mantissa = 0 then some ⟨negative, 0, 0⟩
    else
      let (num, den) := scale 2 mantissa 1 exponent
      let lead := leadingDigit num den
      let grids := (List.range 17).map fun (below : Nat) => lead - below
      some ((grids.findSome? (onGrid? x negative num den)).getD (exact negative mantissa exponent))
  | _ => none

/-- Keeps `places` digits after the point, with a half going away from zero. There is no answer if that
needs more than `precision` digits. -/
def quantize? (precision : Nat) (places : Int) (d : Decimal) : Option Decimal :=
  let drop := -places - d.exponent
  let digits := digitCount d.coefficient
  if d.coefficient = 0 ∨ (digits : Int) < drop then some ⟨d.negative, 0, -places⟩
  else if (precision : Int) < digits - drop then none
  else
    let (n, m) := scale 10 d.coefficient 1 (-drop)
    some ⟨d.negative, roundQuotient .away n m, -places⟩

/-- Keeps the `precision` leading digits, with a half going to the even digit. -/
def limit (precision : Nat) (d : Decimal) : Decimal :=
  let drop := digitCount d.coefficient - precision
  if drop = 0 then d else ⟨d.negative, roundQuotient .even d.coefficient (Nat.pow 10 drop), d.exponent + drop⟩

/-- The signed coefficient on the grid of `10 ^ grid`, where `grid` is at most the exponent. -/
def units (grid : Int) (d : Decimal) : Int :=
  let magnitude : Int := (d.coefficient * Nat.pow 10 (d.exponent - grid).toNat : Nat)
  if d.negative then -magnitude else magnitude

/-- The exact difference. A zero difference is negative only as `-0 - 0`. -/
def difference (a b : Decimal) : Decimal :=
  let grid := min a.exponent b.exponent
  let units := a.units grid - b.units grid
  ⟨if units = 0 then a.negative && !b.negative else decide (units < 0), units.natAbs, grid⟩

instance : Sub Decimal := ⟨difference⟩

end Decimal

end GameScoring
