import GameScoring.Document.Yaml.Tag
import GameScoring.Document.Yaml.Cell
import GameScoring.Numeral.Reading
import GameScoring.Numeral.Rounding
import GameScoring.Text.Base64

/-! # Scalars

What the text of a scalar stands for. A tag that is written may be given to any text, so the text has to be
checked once more.
-/
namespace GameScoring.Yaml
open Text

/-- Whether a number is negative, and its text without the sign and without underscores. -/
def splitSign (text : List Char) : Bool × List Char :=
  match text.filter (· != '_') with
  | '-' :: rest => (true, rest)
  | '+' :: rest => (false, rest)
  | text => (false, text)

/-- The number that digits of a base write, behind the mark of the base if there is one. -/
def digitsIn? (base : Nat) (mark : Char) (text : List Char) : Option Nat :=
  let digits := match text with
    | '0' :: c :: rest => if c.toLower == mark then rest else text
    | _ => text
  if digits.isEmpty then none
  else digits.foldl (fun value c => do
    let digit ← (digitValue? c).or (hexValue? c)
    if digit < base then some (base * (← value) + digit) else none) (some 0)

/-- A whole number to a base that is a power of two, with a sign and blanks around it. -/
def wholeIn? (base : Nat) (mark : Char) (text : List Char) : Option Int :=
  match stripWhere Numeral.isPadding text with
  | '-' :: rest => (digitsIn? base mark rest).map fun n => -(n : Int)
  | '+' :: rest => (digitsIn? base mark rest).map fun n => (n : Int)
  | rest => (digitsIn? base mark rest).map fun n => (n : Int)

def sixties (parts : List Int) : Int := parts.foldl (fun sum part => 60 * sum + part) 0

def orNoNumber {α : Type} : Option α → Read α
  | some a => .ok a
  | none => .error (.fault .noNumber)

def magnitude? (text : List Char) : Option Int :=
  match text with
  | ['0'] => some 0
  | '0' :: 'b' :: rest => wholeIn? 2 'b' rest
  | '0' :: 'x' :: rest => wholeIn? 16 'x' rest
  | '0' :: _ => wholeIn? 8 'o' text
  | _ => ((text.splitOn ':').mapM fun part => Numeral.wholeOfText? (String.ofList part)).map sixties

/-- A whole number: decimal, to a base of two, eight or sixteen, or with colons to the base of sixty. -/
def int (text : String) : Read Int :=
  let (negative, body) := splitSign text.toList
  if body.isEmpty then .error (.fault .emptyNumber)
  else (orNoNumber (magnitude? body)).map fun n => if negative then -n else n

/-- Adds parts to the base of sixty, the last one first. -/
def sumSixties (base : Nat) (sum : Float) : List Float → Except Fault Float
  | [] => .ok sum
  | part :: rest => do sumSixties (60 * base) (sum + part * (← Numeral.ofInt base)) rest

def unsignedFloat (text : List Char) : Read Float :=
  let word := String.ofList text
  if word = ".inf" then .ok (Binary.infinity false)
  else if word = ".nan" then .ok (0.0 / 0.0)
  else do
    match ← orNoNumber ((text.splitOn ':').mapM fun part => Numeral.ofText? (String.ofList part)) with
    | [x] => .ok x
    | parts => (sumSixties 1 0.0 parts.reverse).mapError .fault

def float (text : String) : Read Float :=
  let lower := text.toList.map Char.toLower
  if lower.all (· == '_') then .error (.fault .emptyNumber)
  else
    let (negative, body) := splitSign lower
    (unsignedFloat body).map (Numeral.signed negative)

def truthValue (text : String) : Read Bool :=
  let word := String.ofList (text.toList.map Char.toLower)
  if ["yes", "true", "on"].contains word then .ok true
  else if ["no", "false", "off"].contains word then .ok false
  else .error (.fault (.noTruthValue word))

/-- A date or a moment, which has to be one that there is. -/
def time (text : String) : Read Datum :=
  match Timestamp.read? (Tag.withoutLineEnd text.toList) with
  | none => .error (.fault .notTime)
  | some ⟨date, _, none⟩ => if date.isValid then .ok (.date date) else .error (.fault .noTime)
  | some ⟨date, _, some clock⟩ =>
    let moment : Moment := ⟨date, clock.hour, clock.minute, clock.second, clock.micro, clock.offset⟩
    if moment.isValid then .ok (.moment moment) else .error (.fault .noTime)

def bytes (text : String) : Read Datum :=
  match if text.toList.all (·.toNat < 128) then bytesOfLetters? text.toList else none with
  | some data => .ok (.bytes data)
  | none => malformed

def scalarValue (tag : Tag) (text : String) : Read Value :=
  match tag with
  | .null => .ok .null
  | .bool => (truthValue text).map .bool
  | .int => (int text).map .int
  | .float => (float text).map .float
  | .bytes => (bytes text).map .datum
  | .timestamp => (time text).map .datum
  | .text => .ok (.text text)
  | _ => malformed

end GameScoring.Yaml
