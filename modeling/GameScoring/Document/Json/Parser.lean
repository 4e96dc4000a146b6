import GameScoring.Numeral.Reading
import GameScoring.Text.Hex
import GameScoring.Value

/-! # Reading JSON

Every reader gives what it read and the text behind it. Whole numbers and others are told apart, and the words for infinity and
not-a-number are read too.
-/
namespace GameScoring.Json

def isSpace (c : Char) : Bool := c == ' ' || c == '\t' || c == '\n' || c == '\r'

def skip (text : List Char) : List Char := text.dropWhile isSpace

def shortEscaped? : Char → Option Char
  | '"' => some '"'
  | '\\' => some '\\'
  | '/' => some '/'
  | 'n' => some '\n'
  | 'r' => some '\r'
  | 't' => some '\t'
  | 'b' => some '\x08'
  | 'f' => some '\x0c'
  | _ => none

/-- The four digits behind the mark of an escape, as a number. -/
def unit? : List Char → Option (Nat × List Char)
  | '\\' :: 'u' :: a :: b :: c :: d :: rest => (Text.hexNumber? [a, b, c, d]).map (·, rest)
  | _ => none

/-- The character of two halves, if the second one completes the first. -/
def joined? (high low : Nat) : Option Char :=
  if 0xD800 ≤ high && high < 0xDC00 && 0xDC00 ≤ low && low < 0xE000 then
    some (Char.ofNat (0x10000 + (high - 0xD800) * 0x400 + (low - 0xDC00)))
  else none

/-- The character of a half that stands alone is the replacement character. -/
def single (unit : Nat) : Char := if 0xD800 ≤ unit && unit < 0xE000 then Char.ofNat 0xFFFD else Char.ofNat unit

def quotedChar? : List Char → Option (Char × List Char)
  | [] => none
  | '\\' :: c :: rest =>
    if c == 'u' then do
      let (high, rest) ← unit? ('\\' :: c :: rest)
      match unit? rest with
      | some (low, later) =>
        match joined? high low with
        | some whole => some (whole, later)
        | none => some (single high, rest)
      | none => some (single high, rest)
    else (shortEscaped? c).map (·, rest)
  | c :: rest => if c.toNat < 32 || c == '\\' then none else some (c, rest)

def quotedRest : Nat → List Char → Option (List Char × List Char)
  | 0, _ => none
  | fuel + 1, text =>
    match text with
    | '"' :: rest => some ([], rest)
    | _ => do
      let (c, rest) ← quotedChar? text
      let (cs, rest) ← quotedRest fuel rest
      return (c :: cs, rest)

/-- Where a number ends: digits, a fraction and an exponent, of which the last two need a digit. -/
def numberParts (text : List Char) : List Char × List Char × List Char :=
  let whole := text.takeWhile Text.isAsciiDigit
  let rest := text.dropWhile Text.isAsciiDigit
  let fraction := match rest with
    | '.' :: digits =>
      let digits := digits.takeWhile Text.isAsciiDigit
      if digits.isEmpty then [] else '.' :: digits
    | _ => []
  let rest := rest.drop fraction.length
  let exponent := match rest with
    | mark :: body =>
      if mark == 'e' || mark == 'E' then
        let sign := body.takeWhile (fun c => c == '+' || c == '-')
        let digits := (body.drop sign.length).takeWhile Text.isAsciiDigit
        if sign.length ≤ 1 && !digits.isEmpty then mark :: sign ++ digits else []
      else []
    | [] => []
  (whole, fraction, exponent)

def unsignedNumber? (negative : Bool) (text : List Char) : Option (Value × List Char) := do
  let (whole, fraction, exponent) := numberParts text
  let zeroFirst := whole.head? == some '0' && whole.length != 1
  if whole.isEmpty || zeroFirst then none
  else
    let rest := text.drop (whole.length + fraction.length + exponent.length)
    if fraction.isEmpty && exponent.isEmpty then
      let n : Int := Text.digitsValue whole
      return (.int (if negative then -n else n), rest)
    else
      let d ← Numeral.ofLiteral? (whole ++ fraction ++ exponent)
      return (.float (Numeral.signed negative d.toFloat), rest)

def words : List (String × Value) :=
  [("null", .null), ("true", .bool true), ("false", .bool false), ("NaN", .float (0.0 / 0.0)),
    ("Infinity", .float (Binary.infinity false)), ("-Infinity", .float (Binary.infinity true))]

def word? (text : List Char) : Option (Value × List Char) :=
  words.findSome? fun (word, value) =>
    if word.toList.isPrefixOf text then some (value, text.drop word.length) else none

def number? : List Char → Option (Value × List Char)
  | '-' :: rest => unsignedNumber? true rest
  | text => unsignedNumber? false text

/-- Adds an entry to an object; a key that is given twice keeps its first place and its last value. -/
def insertEntry (key : String) (value : Value) (entries : List (Value × Value)) : List (Value × Value) :=
  if entries.any fun e => Value.sameAtom e.1 (.text key) then
    entries.map fun e => if Value.sameAtom e.1 (.text key) then (e.1, value) else e
  else entries ++ [(.text key, value)]

mutual

/-- Reads a value that starts with the first character. -/
def value? : Nat → List Char → Option (Value × List Char)
  | 0, _ => none
  | fuel + 1, text =>
    match text with
    | '"' :: rest => (quotedRest (rest.length + 1) rest).map fun (cs, rest) => (.text (String.ofList cs), rest)
    | '[' :: rest =>
      match skip rest with
      | ']' :: rest => some (.list [], rest)
      | rest => items? fuel [] rest
    | c :: rest =>
      if c == '\x7b' then
        match skip rest with
        | [] => none
        | d :: later => if d == '\x7d' then some (.object [], later) else entries? fuel [] (d :: later)
      else (word? (c :: rest)).orElse fun _ => number? (c :: rest)
    | [] => none

/-- Reads the items of a list behind those already read. -/
def items? : Nat → List Value → List Char → Option (Value × List Char)
  | 0, _, _ => none
  | fuel + 1, items, text => do
    let (item, rest) ← value? fuel (skip text)
    match skip rest with
    | ',' :: rest => items? fuel (items ++ [item]) rest
    | ']' :: rest => some (.list (items ++ [item]), rest)
    | _ => none

/-- Reads the entries of an object behind those already read. -/
def entries? : Nat → List (Value × Value) → List Char → Option (Value × List Char)
  | 0, _, _ => none
  | fuel + 1, entries, text =>
    match skip text with
    | '"' :: rest => do
      let (key, rest) ← quotedRest (rest.length + 1) rest
      match skip rest with
      | ':' :: rest =>
        let (item, rest) ← value? fuel (skip rest)
        let entries := insertEntry (String.ofList key) item entries
        match skip rest with
        | ',' :: rest => entries? fuel entries rest
        | c :: rest => if c == '\x7d' then some (.object entries, rest) else none
        | [] => none
      | _ => none
    | _ => none

end

/-- The value that a text writes, with nothing but space around it. -/
def read? (text : String) : Option Value := do
  let chars := text.toList
  let (value, rest) ← value? (chars.length + 1) (skip chars)
  if (skip rest).isEmpty then some value else none

end GameScoring.Json
