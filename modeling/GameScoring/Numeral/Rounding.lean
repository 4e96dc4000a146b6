import GameScoring.Numeral.Written
import GameScoring.Report

/-! # Rounding and differences in decimal

Scores are rounded and subtracted on the decimals that are shown for them, so `2.675` rounds to `2.68` and
`0.3 - 0.1` is `0.2`.
-/
namespace GameScoring.Numeral
open Binary

/-- The number of digits that a rounded number may have. -/
def roundingPrecision : Nat := 400

/-- The number of digits that a difference keeps. -/
def differencePrecision : Nat := 28

/-- The most places before the point that a number can be rounded at. -/
def mostPlacesBefore : Int := 999999

/-- The most places on either side of the point that can be named. -/
def mostPlaces : Nat := 2000054

/-- Why there is no grid of decimals with so many places after the point. -/
def gridFault? (places : Int) : Option Fault :=
  if mostPlaces < places.natAbs then some .undefinedDecimal
  else if mostPlacesBefore < -places then some .decimalOverflow
  else none

/-- Rounds to `places` places after the point, a half away from zero. Not-a-number stays as it is. An
infinity cannot be rounded, nor a number with too many digits. -/
def roundHalfUp (x : Float) (places : Int) : Except Fault Float :=
  match gridFault? places, Decimal.ofFloat? x with
  | some fault, _ => .error fault
  | none, some d =>
    match d.quantize? roundingPrecision places with
    | some rounded => .ok rounded.toFloat
    | none => .error .undefinedDecimal
  | none, none => if x.isNaN then .ok x else .error .undefinedDecimal

/-- The decimal difference of two finite doubles. With an infinity or not-a-number it is the difference of
doubles, except that the difference of two infinities of one sign is undefined. -/
def difference (new old : Float) : Except Fault Float :=
  match Decimal.ofFloat? new, Decimal.ofFloat? old with
  | some a, some b => .ok (Decimal.limit differencePrecision (a - b)).toFloat
  | _, _ => if !new.isNaN && !old.isNaN && (new - old).isNaN then .error .undefinedDecimal else .ok (new - old)

/-- The decimal difference where a missing side is zero. -/
def optionalDifference (new old : Option Float) : Except Fault Float :=
  difference (new.getD 0.0) (old.getD 0.0)

/-- A quotient, or a default where the denominator is zero. -/
def divideOr (default : Float) (numerator denominator : Float) : Float :=
  if denominator == 0.0 then default else numerator / denominator

/-- The double nearest to an integer; too large an integer is a fault. -/
def ofInt (i : Int) : Except Fault Float :=
  match Binary.ofInt? i with
  | some x => .ok x
  | none => .error .integerTooLarge

def wholeQuotient (n d : Int) : Except Fault Float :=
  let x := Binary.nearest (decide (n < 0) != decide (d < 0)) n.natAbs d.natAbs
  if Binary.isFinite x then .ok x else .error .quotientTooLarge

/-- The first of the smallest numbers: a later one replaces it only if it is less. -/
def least (first : Float) (rest : List Float) : Float :=
  rest.foldl (fun best x => if x < best then x else best) first

def greatest (first : Float) (rest : List Float) : Float :=
  rest.foldl (fun best x => if best < x then x else best) first

def clamp (low high x : Float) : Float := greatest low [least high [x]]

def sum (xs : List Float) : Float := xs.foldl (· + ·) 0.0

end GameScoring.Numeral
