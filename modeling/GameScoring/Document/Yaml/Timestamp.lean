import GameScoring.Calendar
import GameScoring.Text.Digit

/-! # Timestamps

A date, or a date with a time of day and maybe an offset from universal time, as it is written.
-/
namespace GameScoring.Yaml
open Text

structure Clock where
  hour : Nat
  minute : Nat
  second : Nat
  micro : Nat
  offset : Option Int
deriving DecidableEq, Repr

structure Timestamp where
  date : Date
  /-- Month and day have two digits each. -/
  isPadded : Bool
  clock : Option Clock
deriving DecidableEq, Repr

namespace Timestamp

/-- Digits, at least and at most so many, and what stands behind them. -/
def digits? (least most : Nat) (text : List Char) : Option (List Char × List Char) :=
  let read := (text.take most).takeWhile isAsciiDigit
  if read.length < least then none else some (read, text.drop read.length)

def after? (mark : Char) : List Char → Option (List Char)
  | c :: rest => if c == mark then some rest else none
  | [] => none

/-- A fraction of a second in microseconds; further digits are dropped. -/
def micros (digits : List Char) : Nat :=
  let shown := digits.take 6
  digitsValue (shown ++ List.replicate (6 - shown.length) '0')

def fraction : List Char → Nat × List Char
  | '.' :: rest => (micros (rest.takeWhile isAsciiDigit), rest.dropWhile isAsciiDigit)
  | text => (0, text)

def isBlankChar (c : Char) : Bool := c == ' ' || c == '\t'

/-- Hours and maybe minutes in seconds, up to the end of the text. -/
def offsetSeconds? (text : List Char) : Option Nat := do
  let (hours, rest) ← digits? 1 2 text
  match rest with
  | [] => return 3600 * digitsValue hours
  | _ =>
    let (minutes, rest) ← digits? 2 2 (← after? ':' rest)
    if rest.isEmpty then return 3600 * digitsValue hours + 60 * digitsValue minutes else none

/-- The offset at the end of a time: none, universal time, or a signed one. -/
def zone? (text : List Char) : Option (Option Int) :=
  if text.isEmpty then some none
  else match text.dropWhile isBlankChar with
    | ['Z'] => some (some 0)
    | '+' :: rest => (offsetSeconds? rest).map fun seconds => some (seconds : Int)
    | '-' :: rest => (offsetSeconds? rest).map fun seconds => some (-(seconds : Int))
    | _ => none

/-- A time of day, up to the end of the text. -/
def clock? (text : List Char) : Option Clock := do
  let (hour, rest) ← digits? 1 2 text
  let (minute, rest) ← digits? 2 2 (← after? ':' rest)
  let (second, rest) ← digits? 2 2 (← after? ':' rest)
  let (micro, rest) := fraction rest
  return ⟨digitsValue hour, digitsValue minute, digitsValue second, micro, ← zone? rest⟩

def timeOf? : List Char → Option (List Char)
  | c :: rest =>
    if c == 'T' || c == 't' then some rest
    else if isBlankChar c then some (rest.dropWhile isBlankChar)
    else none
  | [] => none

def read? (text : List Char) : Option Timestamp := do
  let (year, rest) ← digits? 4 4 text
  let (month, rest) ← digits? 1 2 (← after? '-' rest)
  let (day, rest) ← digits? 1 2 (← after? '-' rest)
  let date : Date := ⟨digitsValue year, digitsValue month, digitsValue day⟩
  let isPadded := month.length == 2 && day.length == 2
  match rest with
  | [] => return ⟨date, isPadded, none⟩
  | _ => return ⟨date, isPadded, some (← clock? (← timeOf? rest))⟩

/-- Whether text that could be something else is a timestamp. -/
def isPlain (t : Timestamp) : Bool := t.isPadded || t.clock.isSome

end Timestamp

end GameScoring.Yaml
