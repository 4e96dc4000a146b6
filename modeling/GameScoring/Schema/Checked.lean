import GameScoring.Value

/-! # Checked input

Input that has several parts is read part by part, and every part that cannot be read gives a complaint
with its place. Input is refused with all its complaints, in the order of its parts.
-/
namespace GameScoring.Schema

inductive Defect
  | missing
  | notBody
  | notText
  | notObject
  | notList
  | notNumber
  | unreadableNumber
  | notTruthValue
  | unclearTruthValue
  | unreadableInteger
  | oversizedInteger
  | tooFewCharacters (least : Nat)
  | tooManyCharacters (most : Nat)
  | tooFewItems (least actual : Nat)
  | lessThan (least : Int)
  | greaterThan (most : Int)
  | refused (reason : String)
deriving DecidableEq, Repr

namespace Defect

def characters (count : Nat) : String :=
  Text.natText count ++ (if count = 1 then " character" else " characters")

def items (count : Nat) : String := Text.natText count ++ (if count = 1 then " item" else " items")

def message : Defect → String
  | missing => "Field required"
  | notBody => "Input should be a valid dictionary or object to extract fields from"
  | notText => "Input should be a valid string"
  | notObject => "Input should be a valid dictionary"
  | notList => "Input should be a valid list"
  | notNumber => "Input should be a valid number"
  | unreadableNumber => "Input should be a valid number, unable to parse string as a number"
  | notTruthValue => "Input should be a valid boolean"
  | unclearTruthValue => "Input should be a valid boolean, unable to interpret input"
  | unreadableInteger => "Input should be a valid integer, unable to parse string as an integer"
  | oversizedInteger => "Unable to parse input string as an integer, exceeded maximum size"
  | tooFewCharacters least => "String should have at least " ++ characters least
  | tooManyCharacters most => "String should have at most " ++ characters most
  | tooFewItems least actual =>
    "List should have at least " ++ items least ++ " after validation, not " ++ Text.natText actual
  | lessThan least => "Input should be greater than or equal to " ++ Text.intText least
  | greaterThan most => "Input should be less than or equal to " ++ Text.intText most
  | refused reason => "Value error, " ++ reason

end Defect

structure Complaint where
  place : List String
  defect : Defect

def Complaint.field (c : Complaint) : String := ".".intercalate c.place

/-- A part that was read, or the complaints about it. -/
inductive Checked (α : Type)
  | read (a : α)
  | faulty (complaints : List Complaint)

namespace Checked

/-- Reads two parts, with the complaints about both. -/
def join {α β : Type} (f : Checked (α → β)) (x : Checked α) : Checked β :=
  match f, x with
  | read f, read a => read (f a)
  | read _, faulty later => faulty later
  | faulty first, read _ => faulty first
  | faulty first, faulty later => faulty (first ++ later)

def andThen {α β : Type} (x : Checked α) (f : α → Checked β) : Checked β :=
  match x with
  | read a => f a
  | faulty complaints => faulty complaints

instance : Applicative Checked where
  pure := read
  seq f x := join f (x ())

def fault {α : Type} (place : List String) (defect : Defect) : Checked α := faulty [⟨place, defect⟩]

end Checked

end GameScoring.Schema
