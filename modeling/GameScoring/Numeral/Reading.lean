import GameScoring.Numeral.Decimal
import GameScoring.Text.Blank
import GameScoring.Text.Digit

/-! # Reading numbers

`ofLiteral?` reads an unsigned literal, as it stands in a formula. `ofText?` reads a number as a person
types it: with blanks around it, a sign, underscores between digits and the words for infinity and
not-a-number. `wholeOfText?` reads a whole number that is typed in this way.
-/
namespace GameScoring.Numeral
open Text

/-- The exponent part of a literal, zero if there is none. -/
def exponentOf? : List Char → Option Int
  | [] => some 0
  | mark :: rest =>
    if mark != 'e' && mark != 'E' then none
    else
      let (negative, digits) := match rest with
        | '-' :: digits => (true, digits)
        | '+' :: digits => (false, digits)
        | digits => (false, digits)
      if digits.isEmpty || !digits.all isDigit then none
      else
        let value : Int := digitsValue digits
        some (if negative then -value else value)

/-- The decimal that a literal writes: digits of any script, at most one point among or around them, and
an optional exponent. -/
def ofLiteral? (literal : List Char) : Option Decimal :=
  let whole := literal.takeWhile isDigit
  let (fraction, rest) := match literal.dropWhile isDigit with
    | '.' :: rest => (rest.takeWhile isDigit, rest.dropWhile isDigit)
    | rest => ([], rest)
  if whole.isEmpty && fraction.isEmpty then none
  else (exponentOf? rest).map fun exponent =>
    ⟨false, digitsValue (whole ++ fraction), exponent - fraction.length⟩

/-- Drops underscores, each of which has to stand between two digits. -/
def dropUnderscores? (afterDigit : Bool) : List Char → Option (List Char)
  | [] => some []
  | '_' :: c :: rest =>
    if afterDigit && isDigit c then (dropUnderscores? true rest).map (c :: ·) else none
  | c :: rest => if c == '_' then none else (dropUnderscores? (isDigit c) rest).map (c :: ·)

def signed (negative : Bool) (x : Float) : Float := if negative then -x else x

/-- Reads an unsigned number or one of the words `inf`, `infinity` and `nan` in any case. -/
def unsigned? (body : List Char) : Option Float :=
  let word := body.map Char.toLower
  if word = "inf".toList ∨ word = "infinity".toList then some (Binary.infinity false)
  else if word = "nan".toList then some (0.0 / 0.0)
  else ((dropUnderscores? false body).bind ofLiteral?).map Decimal.toFloat

/-- Blanks that may surround a typed number; the information separators may not. -/
def isPadding (c : Char) : Bool := isBlank c && !(28 ≤ c.toNat && c.toNat ≤ 31)

def ofText? (typed : String) : Option Float :=
  match stripWhere isPadding typed.toList with
  | '-' :: body => (unsigned? body).map (signed true)
  | '+' :: body => unsigned? body
  | body => unsigned? body

/-- Digits of a typed whole number that are still read. -/
def mostDigits : Nat := 4300

def wholeUnsigned? (body : List Char) : Option Nat :=
  (dropUnderscores? false body).bind fun digits =>
    if digits.isEmpty || !digits.all isDigit || mostDigits < digits.length then none else some (digitsValue digits)

def wholeOfText? (typed : String) : Option Int :=
  match stripWhere isPadding typed.toList with
  | '-' :: body => (wholeUnsigned? body).map fun n => -(n : Int)
  | '+' :: body => (wholeUnsigned? body).map fun n => (n : Int)
  | body => (wholeUnsigned? body).map fun n => (n : Int)

end GameScoring.Numeral
