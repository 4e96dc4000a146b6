import GameScoring.Text.Digit

/-! # Dates and times of day

A date of the Gregorian calendar, and a moment: a date with a time of day. A moment says how far its clock is
ahead of universal time only if that is known.
-/
namespace GameScoring

structure Date where
  year : Int
  month : Int
  day : Int
deriving DecidableEq, Repr

namespace Date

/-- The date a number of days after the start of 1970. Years are counted from March, in cycles of four
hundred, so that a leap day is the last day of its year. -/
def ofDays (days : Int) : Date :=
  let fromMarch := days + 719468
  let cycle := fromMarch / 146097
  let dayOfCycle := fromMarch % 146097
  let yearOfCycle := (dayOfCycle - dayOfCycle / 1460 + dayOfCycle / 36524 - dayOfCycle / 146096) / 365
  let dayOfYear := dayOfCycle - (365 * yearOfCycle + yearOfCycle / 4 - yearOfCycle / 100)
  let monthOfYear := (5 * dayOfYear + 2) / 153
  let month := if monthOfYear < 10 then monthOfYear + 3 else monthOfYear - 9
  { year := yearOfCycle + 400 * cycle + (if month ≤ 2 then 1 else 0)
    month
    day := dayOfYear - (153 * monthOfYear + 2) / 5 + 1 }

def isLeap (year : Int) : Bool := year % 4 == 0 && (year % 100 != 0 || year % 400 == 0)

def daysIn (year month : Int) : Int :=
  if month = 2 then if isLeap year then 29 else 28
  else if month = 4 ∨ month = 6 ∨ month = 9 ∨ month = 11 then 30
  else 31

/-- A day that there is, in a year of one to four digits. -/
def isValid (d : Date) : Bool :=
  decide (1 ≤ d.year ∧ d.year ≤ 9999 ∧ 1 ≤ d.month ∧ d.month ≤ 12 ∧ 1 ≤ d.day ∧ d.day ≤ daysIn d.year d.month)

def parts (d : Date) : List Int := [d.year, d.month, d.day]

end Date

structure Moment where
  date : Date
  hour : Nat
  minute : Nat
  second : Nat
  micro : Nat
  /-- Seconds by which the clock is ahead of universal time. -/
  offset : Option Int
deriving DecidableEq, Repr

def secondsPerDay : Int := 86400

namespace Moment

/-- A time that a clock shows, less than a day away from universal time. -/
def isValid (m : Moment) : Bool :=
  m.date.isValid && m.hour < 24 && m.minute < 60 && m.second < 60 &&
    m.offset.all fun seconds => decide (-secondsPerDay < seconds ∧ seconds < secondsPerDay)

/-- The parts of a moment. Seconds and their fraction are left out if nothing follows but zeros. -/
def parts (m : Moment) : List Int :=
  let clock : List Int := [m.hour, m.minute]
  let fine : List Int :=
    if m.micro ≠ 0 then [m.second, m.micro] else if m.second ≠ 0 then [m.second] else []
  m.date.parts ++ clock ++ fine

end Moment

def partsText (parts : List Int) : String := ", ".intercalate (parts.map Text.intText)

def Date.literal (d : Date) : String := "datetime.date(" ++ partsText d.parts ++ ")"

/-- A span of time as whole days, down to the earlier one, and the seconds above them. -/
def spanLiteral (seconds : Int) : String :=
  let days := seconds / secondsPerDay
  let rest := seconds % secondsPerDay
  let shown := (if days = 0 then [] else ["days=" ++ Text.intText days]) ++
    (if rest = 0 then [] else ["seconds=" ++ Text.intText rest])
  "datetime.timedelta(" ++ (if shown.isEmpty then "0" else ", ".intercalate shown) ++ ")"

def zoneLiteral (offset : Int) : String :=
  if offset = 0 then "datetime.timezone.utc" else "datetime.timezone(" ++ spanLiteral offset ++ ")"

def Moment.literal (m : Moment) : String :=
  let zone := match m.offset with
    | none => ""
    | some offset => ", tzinfo=" ++ zoneLiteral offset
  "datetime.datetime(" ++ partsText m.parts ++ zone ++ ")"

end GameScoring
