import GameScoring.Calendar
import GameScoring.Numeral.Word
import GameScoring.Report

/-! # Timestamps

A time in seconds since the start of 1970 as a date and a time of day, both in universal time.
-/
namespace GameScoring.Journal
open Binary

def microsPerSecond : Nat := 1000000

/-- Microseconds since the start of 1970. The fraction of a second is rounded to the nearest one. -/
def micros? (seconds : Float) : Option Int :=
  match shape seconds with
  | .finite negative mantissa exponent =>
    let (n, d) := scale 2 mantissa 1 exponent
    match shape (nearest false (n % d) d * 1000000.0) with
    | .finite _ m e =>
      let (p, q) := scale 2 m 1 e
      let magnitude : Int := (n / d * microsPerSecond + roundQuotient .even p q : Nat)
      some (if negative then -magnitude else magnitude)
    | _ => none
  | _ => none

def padded (width : Nat) (i : Int) : String :=
  let digits := Text.natText i.natAbs
  String.ofList (List.replicate (width - digits.length) '0') ++ digits

/-- Date, time and offset; a fraction is written only if there is one. -/
def timestamp (micros : Int) : String :=
  let seconds := micros / microsPerSecond
  let fraction := micros % microsPerSecond
  let date := Date.ofDays (seconds / 86400)
  let ofDay := seconds % 86400
  padded 4 date.year ++ "-" ++ padded 2 date.month ++ "-" ++ padded 2 date.day ++ "T" ++
    padded 2 (ofDay / 3600) ++ ":" ++ padded 2 (ofDay / 60 % 60) ++ ":" ++ padded 2 (ofDay % 60) ++
    (if fraction = 0 then "" else "." ++ padded 6 fraction) ++ "+00:00"

/-- Why a time cannot be written: it has more seconds than a word of 64 bits, its year (counted from 1900)
does not fit into one of 32 bits, or the year does not have one to four digits. -/
def timeFault? (micros : Int) : Option Fault :=
  let seconds := micros / microsPerSecond
  let year := (Date.ofDays (seconds / 86400)).year
  if !Numeral.isWordSized 64 seconds then some .secondsOutOfRange
  else if !Numeral.isWordSized 32 (year - 1900) then some .timeOutOfRange
  else if 1 ≤ year ∧ year ≤ 9999 then none
  else some (.yearOutOfRange (Int.bmod year (Nat.pow 2 32)))

end GameScoring.Journal
