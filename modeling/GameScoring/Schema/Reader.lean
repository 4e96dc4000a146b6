import GameScoring.Numeral.Reading
import GameScoring.Numeral.Word
import GameScoring.Schema.Checked

/-! # Readers

A reader reads the value at a place. Numbers and truth values may also be written as text.
-/
namespace GameScoring.Schema

abbrev Reader (α : Type) := List String → Value → Checked α

namespace Reader
open Checked

/-- Text of at least and, if there is a bound, at most so many characters. -/
def text (least : Nat) (most : Option Nat) : Reader String
  | place, .text s =>
    if s.length < least then fault place (.tooFewCharacters least)
    else match most with
      | some bound => if bound < s.length then fault place (.tooManyCharacters bound) else read s
      | none => read s
  | place, _ => fault place .notText

def object : Reader Value
  | _, .object entries => read (.object entries)
  | place, _ => fault place .notObject

/-- Underscores can stand between the other characters of a number, one at a time. -/
def hasLooseUnderscores (chars : List Char) : Bool :=
  chars.head? != some '_' && chars.getLast? != some '_' &&
    (chars.zip chars.tail).all fun (a, b) => !(a == '_' && b == '_')

/-- A number without underscores and in ASCII digits. -/
def plainNumber? (chars : List Char) : Option Float :=
  if chars.contains '_' || !(chars.all fun c => c.toNat < 128) then none
  else Numeral.ofText? (String.ofList chars)

def looseNumber? (chars : List Char) : Option Float :=
  if chars.head?.any Numeral.isPadding || chars.getLast?.any Numeral.isPadding then none else plainNumber? chars

/-- A number in text. There may be blanks around it or underscores in it, but not both. -/
def writtenNumber? (s : String) : Option Float :=
  let chars := s.toList
  match plainNumber? (Text.stripWhere Numeral.isPadding chars) with
  | some x => some x
  | none =>
    if chars.contains '_' && hasLooseUnderscores chars then looseNumber? (chars.filter (· != '_')) else none

/-- A number, a truth value as a number, or a number in text. -/
def number : Reader Float
  | _, .float x => read x
  | _, .bool b => read (if b then 1.0 else 0.0)
  | place, .int i => match Binary.ofInt? i with
    | some x => read x
    | none => fault place .notNumber
  | place, .text s => match writtenNumber? s with
    | some x => read x
    | none => fault place .unreadableNumber
  | place, _ => fault place .notNumber

/-- The number that digits write without a needless zero in front. -/
def plainNatural? (digits : List Char) : Option Nat :=
  if digits.isEmpty || !digits.all Text.isAsciiDigit || (digits.head? == some '0' && digits.length != 1) then none
  else some (Text.digitsValue digits)

/-- A whole number in its plain form, of which a minus sign may be a part. -/
def plainInteger? : List Char → Option Int
  | '-' :: digits => (plainNatural? digits).map fun n => -(n : Int)
  | digits => (plainNatural? digits).map fun n => (n : Int)

/-- How many characters belong to the digits at the start of a number, with its sign. -/
def leadingRun : List Char → Nat
  | '-' :: digits => (digits.takeWhile Text.isAsciiDigit).length + 1
  | digits => (digits.takeWhile Text.isAsciiDigit).length

/-- Numbers are read up to this many characters. -/
def longestInteger : Nat := 4300

/-- A number that is not read because of its length. A zero in front makes it another defect. -/
def isOversized (chars : List Char) : Bool :=
  longestInteger < leadingRun chars && (chars.find? (· != '-')) != some '0'

/-- Drops zeros, among which there may be underscores. `last` is the character before the rest: it is kept
before a point and at the end. -/
def dropZeros? (last : Char) : List Char → Option (List Char)
  | [] => some [last]
  | c :: rest =>
    if c == '0' || c == '_' then dropZeros? c rest
    else if c == '.' then some (last :: c :: rest)
    else if c == '-' || Text.isAsciiDigit c then some (c :: rest)
    else none

/-- A number without the zeros in front of its other digits. -/
def withoutZeros? : List Char → Option (List Char)
  | '0' :: rest => dropZeros? '0' rest
  | c :: rest => if c == '-' || Text.isAsciiDigit c then some (c :: rest) else none
  | [] => none

/-- Drops a fraction, which has to consist of zeros. -/
def withoutFraction? (chars : List Char) : Option (List Char) :=
  match chars.dropWhile (· != '.') with
  | [] => some chars
  | _ :: fraction =>
    if fraction.isEmpty || !fraction.all (· == '0') then none else some (chars.takeWhile (· != '.'))

def withoutUnderscores? (chars : List Char) : Option (List Char) :=
  if !chars.contains '_' then some chars
  else if hasLooseUnderscores chars then some (chars.filter (· != '_'))
  else none

/-- Drops a plus sign, which may not stand before a minus sign. -/
def withoutPlus? : List Char → Option (List Char)
  | '+' :: '-' :: _ => none
  | '+' :: rest => some rest
  | chars => some chars

/-- A whole number in text: in its plain form, or with blanks around it, a plus sign, zeros in front,
underscores between digits or a fraction of zeros. -/
def wholeNumber? (chars : List Char) : Option Int :=
  plainInteger? chars <|> do
    let unsigned ← withoutPlus? (Text.stripWhere Numeral.isPadding chars)
    let plain ← withoutUnderscores? (← withoutFraction? (← withoutZeros? unsigned))
    if isOversized plain then none else plainInteger? plain

def trueWords : List String := ["1", "t", "true", "on", "y", "yes"]

def falseWords : List String := ["0", "f", "false", "off", "n", "no"]

def truthWord? (word : String) : Option Bool :=
  let lower := String.ofList (word.toList.map Char.toLower)
  if trueWords.contains lower then some true
  else if falseWords.contains lower then some false
  else none

def truthNumber? (i : Int) : Option Bool :=
  if i = 1 then some true else if i = 0 then some false else none

def clear (place : List String) : Option Bool → Checked Bool
  | some b => read b
  | none => fault place .unclearTruthValue

def writtenInteger (place : List String) (written : String) : Checked Int :=
  if isOversized written.toList then fault place .oversizedInteger
  else match wholeNumber? written.toList with
    | some i => read i
    | none => fault place .unreadableInteger

def writtenTruth (place : List String) (written : String) : Checked Bool := clear place (truthWord? written)

/-- The numbers that may be meant as a truth value at all. -/
def mayBeTruth (i : Int) : Bool := Numeral.isWordSized 64 i

/-- A truth value, a word for one, or one of the numbers 0 and 1. -/
def truth : Reader Bool
  | _, .bool b => read b
  | place, .text s => writtenTruth place s
  | place, .int i => if mayBeTruth i then clear place (truthNumber? i) else fault place .notTruthValue
  | place, .float x => match Binary.toInt? x with
    | some i => if mayBeTruth i && mayBeTruth (i - 1) then clear place (truthNumber? i) else fault place .notTruthValue
    | none => fault place .notTruthValue
  | place, _ => fault place .notTruthValue

/-- Reads items one by one; the place of an item is its index. -/
def itemsFrom {α : Type} (item : Reader α) (place : List String) (index : Nat) : List Value → Checked (List α)
  | [] => read []
  | value :: rest =>
    List.cons <$> item (place ++ [Text.natText index]) value <*> itemsFrom item place (index + 1) rest

def list {α : Type} (item : Reader α) (least : Nat) : Reader (List α)
  | place, .list values => (itemsFrom item place 0 values).andThen fun items =>
    if items.length < least then fault place (.tooFewItems least items.length) else read items
  | place, _ => fault place .notList

/-- Reads entries one by one; the place of an entry is its name. -/
def entries {α : Type} (item : Reader α) (place : List String) :
    List (Value × Value) → Checked (List (Value × α))
  | [] => read []
  | (name, value) :: rest =>
    (fun a later => (name, a) :: later) <$> item (place ++ [name.display]) value <*> entries item place rest

/-- An object whose entries are all of one sort. -/
def record {α : Type} (item : Reader α) : Reader (List (Value × α))
  | place, .object values => entries item place values
  | place, _ => fault place .notObject

def nullable {α : Type} (reader : Reader α) : Reader (Option α)
  | _, .null => read none
  | place, value => some <$> reader place value

end Reader

/-- The entries of an object and the place of the object. -/
structure Fields where
  place : List String
  entries : List (Value × Value)

namespace Fields
open Checked

def required {α : Type} (fields : Fields) (name : String) (reader : Reader α) : Checked α :=
  match Value.lookup? name fields.entries with
  | some value => reader (fields.place ++ [name]) value
  | none => fault (fields.place ++ [name]) .missing

def withDefault {α : Type} (fields : Fields) (name : String) (default : α) (reader : Reader α) : Checked α :=
  match Value.lookup? name fields.entries with
  | some value => reader (fields.place ++ [name]) value
  | none => read default

end Fields

end GameScoring.Schema
