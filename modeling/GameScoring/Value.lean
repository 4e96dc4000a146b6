import GameScoring.Calendar
import GameScoring.Numeral.Written
import GameScoring.Text.Hex
import GameScoring.Text.Printable

/-! # Values

The data that configurations and telemetry are made of: numbers that remember whether they are whole,
text, lists and objects with ordered entries. A key of an object is nearly always text. A document can also
hold data of other kinds, which nothing here reckons with.
-/
namespace GameScoring
open Text

/-- Data that is neither a number nor text. Of a set only the size is kept. -/
inductive Datum
  | date (d : Date)
  | moment (m : Moment)
  | bytes (data : List UInt8)
  | set (size : Nat)
deriving DecidableEq, Repr

namespace Datum

def typeName : Datum → String
  | date _ => "date"
  | moment _ => "datetime"
  | bytes _ => "bytes"
  | set _ => "set"

def isEmpty : Datum → Bool
  | bytes data => data.isEmpty
  | set size => size == 0
  | _ => false

end Datum

inductive Value
  | null
  | bool (b : Bool)
  | int (i : Int)
  | float (x : Float)
  | text (s : String)
  | list (items : List Value)
  | object (entries : List (Value × Value))
  | datum (d : Datum)

namespace Value

instance : Inhabited Value := ⟨null⟩

def record (entries : List (String × Value)) : Value := object (entries.map fun e => (text e.1, e.2))

def optional (wrap : α → Value) : Option α → Value
  | none => null
  | some a => wrap a

def typeName : Value → String
  | null => "NoneType"
  | bool _ => "bool"
  | int _ => "int"
  | float _ => "float"
  | text _ => "str"
  | list _ => "list"
  | object _ => "dict"
  | datum d => d.typeName

/-- Empty values and zeros stand for nothing where a value may be left out. -/
def isNothing : Value → Bool
  | null => true
  | bool b => !b
  | int i => i == 0
  | float x => x == 0.0
  | text s => s.isEmpty
  | list items => items.isEmpty
  | object entries => entries.isEmpty
  | datum d => d.isEmpty

def isText : Value → Bool
  | text _ => true
  | _ => false

def lookup? (name : String) : List (Value × Value) → Option Value
  | [] => none
  | (text key, value) :: rest => if key = name then some value else lookup? name rest
  | _ :: rest => lookup? name rest

/-- An integer and a double are the same number only if they are exactly equal. -/
def sameNumber (i : Int) (x : Float) : Bool := Binary.toInt? x == some i

def ofBool (b : Bool) : Int := if b then 1 else 0

/-- Equality of values that have no parts. Truth values and whole numbers are compared as numbers. -/
def sameAtom : Value → Value → Bool
  | null, null => true
  | text s, text t => s == t
  | float x, float y => x == y
  | float x, int i => sameNumber i x
  | int i, float x => sameNumber i x
  | float x, bool b => sameNumber (ofBool b) x
  | bool b, float x => sameNumber (ofBool b) x
  | int i, int j => i == j
  | int i, bool b => i == ofBool b
  | bool b, int i => ofBool b == i
  | bool a, bool b => a == b
  | datum d, datum e => d == e
  | _, _ => false

/-- The entry under a key that is equal to the given one. -/
def find? (key : Value) : List (Value × Value) → Option Value
  | [] => none
  | (other, value) :: rest => if sameAtom key other then some value else find? key rest

mutual

/-- Equality of values. The order of entries does not matter. -/
def same : Value → Value → Bool
  | list xs, b => match b with
    | list ys => sameItems xs ys
    | _ => false
  | object xs, b => match b with
    | object ys => xs.length == ys.length && sameEntries xs ys
    | _ => false
  | a, b => sameAtom a b

def sameItems : List Value → List Value → Bool
  | [], ys => ys.isEmpty
  | x :: xs, ys => match ys with
    | y :: ys => same x y && sameItems xs ys
    | [] => false

def sameEntries : List (Value × Value) → List (Value × Value) → Bool
  | [], _ => true
  | (key, value) :: rest, other =>
    (match find? key other with
      | some found => same value found
      | none => false) && sameEntries rest other

end

/-- A character that cannot be shown is written by its number, as short as the number allows. -/
def numbered (c : Char) : List Char :=
  let code := c.toNat
  if code < 0x100 then ['\\', 'x'] ++ hexDigits 2 code
  else if code < 0x10000 then ['\\', 'u'] ++ hexDigits 4 code
  else ['\\', 'U'] ++ hexDigits 8 code

def escaped (quote c : Char) : List Char :=
  if c == quote || c == '\\' then ['\\', c]
  else if c == '\n' then ['\\', 'n']
  else if c == '\r' then ['\\', 'r']
  else if c == '\t' then ['\\', 't']
  else if isPrintable c then [c]
  else numbered c

/-- Text in quotes, with the single quote preferred. -/
def quoted (s : String) : String :=
  let chars := s.toList
  let quote := if chars.contains '\'' && !chars.contains '"' then '"' else '\''
  String.ofList (quote :: chars.flatMap (escaped quote) ++ [quote])

/-- A byte between quotes, by its number if it is not a character of ASCII that can be shown. -/
def escapedByte (quote : Char) (b : UInt8) : List Char :=
  let c := Char.ofNat b.toNat
  if b < 0x7F then escaped quote c else numbered c

/-- Bytes in quotes that are chosen as those of text. -/
def bytesLiteral (data : List UInt8) : String :=
  let quote := if data.contains 39 && !data.contains 34 then '"' else '\''
  String.ofList ('b' :: quote :: data.flatMap (escapedByte quote) ++ [quote])

/-- How data of another kind is written inside a message; the members of a set are not shown. -/
def datumLiteral : Datum → String
  | .date d => d.literal
  | .moment m => m.literal
  | .bytes data => bytesLiteral data
  | .set size => if size = 0 then "set()" else "\x7b...\x7d"

mutual

/-- How a value is written inside a message: text in quotes. -/
def literal : Value → String
  | null => "None"
  | bool b => if b then "True" else "False"
  | int i => intText i
  | float x => Numeral.text x
  | text s => quoted s
  | list items => "[" ++ ", ".intercalate (literals items) ++ "]"
  | object entries => "\x7b" ++ ", ".intercalate (entryLiterals entries) ++ "\x7d"
  | datum d => datumLiteral d

def literals : List Value → List String
  | [] => []
  | x :: xs => literal x :: literals xs

def entryLiterals : List (Value × Value) → List String
  | [] => []
  | (key, value) :: rest => (literal key ++ ": " ++ literal value) :: entryLiterals rest

end

/-- How a value is written on its own: text as it is. -/
def display : Value → String
  | text s => s
  | v => literal v

end Value

end GameScoring
