import GameScoring.Numeral.Decimal
import GameScoring.Text.Digit

/-! # How doubles are written

`text` writes the shortest decimal that reads back, `general` six significant digits for messages,
`stored?` the fifteen digits that a column of text keeps and `fixed` a given number of places. They differ
in which digits they take and share one layout.
-/
namespace GameScoring.Numeral
open Binary Text

/-- A layout is positional for leading exponents from -4 up to below `limit` and scientific elsewhere. A
whole number in positional layout is followed by `wholeMark`, a single digit before an exponent by
`singleMark`. -/
structure Layout where
  limit : Int
  wholeMark : String
  singleMark : String

def shortestLayout : Layout := ⟨16, ".0", ""⟩

def generalLayout : Layout := ⟨6, "", ""⟩

def storedLayout : Layout := ⟨15, ".0", ".0"⟩

def zeros (n : Nat) : String := String.ofList (List.replicate n '0')

/-- An exponent has a sign and at least two digits. -/
def exponentText (e : Int) : String :=
  (if e < 0 then "e-" else "e+") ++ (if e.natAbs < 10 then "0" else "") ++ natText e.natAbs

/-- Digits without trailing zeros, at least one. -/
def trimmedDigits (coefficient : Nat) : List Char :=
  match ((Nat.toDigits 10 coefficient).reverse.dropWhile (· == '0')).reverse with
  | [] => ['0']
  | digits => digits

/-- Writes the digits of a decimal; zero is written positionally. -/
def Layout.write (layout : Layout) (d : Decimal) : String :=
  let digits := trimmedDigits d.coefficient
  let lead : Int := if d.coefficient = 0 then 0 else (Decimal.digitCount d.coefficient : Int) + d.exponent - 1
  let body :=
    if lead < -4 ∨ layout.limit ≤ lead then
      let fraction := digits.drop 1
      String.ofList (digits.take 1) ++ (if fraction.isEmpty then layout.singleMark else "." ++ String.ofList fraction) ++
        exponentText lead
    else if lead < 0 then "0." ++ zeros (-lead - 1).toNat ++ String.ofList digits
    else
      let width := lead.toNat + 1
      let fraction := digits.drop width
      String.ofList (digits.take width) ++ zeros (width - digits.length) ++
        (if fraction.isEmpty then layout.wholeMark else "." ++ String.ofList fraction)
  (if d.negative then "-" else "") ++ body

/-- Writes a double that is not finite, and the digits that `decimal` gives for a finite one. -/
def writeWith (decimal : Bool → Nat → Int → String) (x : Float) : String :=
  match shape x with
  | .finite negative mantissa exponent => decimal negative mantissa exponent
  | .infinite negative => if negative then "-inf" else "inf"
  | .notANumber => "nan"

/-- The shortest digits that read back as the same double. -/
def text (x : Float) : String :=
  writeWith (fun negative mantissa exponent =>
    shortestLayout.write ((Decimal.ofFloat? x).getD (Decimal.exact negative mantissa exponent))) x

/-- `num / den` to `count` significant digits. -/
def significant (tie : Tie) (count : Nat) (negative : Bool) (num den : Nat) : Decimal :=
  let grid := Decimal.leadingDigit num den - count + 1
  let (n, d) := scale 10 num den (-grid)
  ⟨negative, roundQuotient tie n d, grid⟩

/-- Six significant digits without trailing zeros, a half going to the even digit. -/
def general (x : Float) : String :=
  writeWith (fun negative mantissa exponent =>
    let (num, den) := scale 2 mantissa 1 exponent
    generalLayout.write (if mantissa = 0 then ⟨negative, 0, 0⟩ else significant .even 6 negative num den)) x

/-- Fifteen significant digits without trailing zeros, a half going away from zero. Zero has no sign, and
nothing is kept of not-a-number. -/
def stored? (x : Float) : Option String :=
  match shape x with
  | .finite negative mantissa exponent =>
    let (num, den) := scale 2 mantissa 1 exponent
    some (storedLayout.write (if mantissa = 0 then ⟨false, 0, 0⟩ else significant .away 15 negative num den))
  | .infinite negative => some (if negative then "-Inf" else "Inf")
  | .notANumber => none

/-- The exact value to `places` places after the point, a half going to the even digit. -/
def fixed (places : Nat) (x : Float) : String :=
  writeWith (fun negative mantissa exponent =>
    let (num, den) := scale 2 mantissa 1 exponent
    let unit := Nat.pow 10 places
    let units := roundQuotient .even (num * unit) den
    let fraction := natText (units % unit)
    (if negative then "-" else "") ++ natText (units / unit) ++
      (if places = 0 then "" else "." ++ zeros (places - fraction.length) ++ fraction)) x

end GameScoring.Numeral
