import GameScoring.Document.Yaml.Timestamp

/-! # Tags

What kind of data a node is. A scalar without quotes and without a tag shows its kind: text that reads as a
truth value, a number, a date or nothing is not text. A number with an exponent needs a point, and a sign in
the exponent; one to the base of sixty has colons.
-/
namespace GameScoring.Yaml
open Text

inductive Tag
  | null
  | bool
  | int
  | float
  | bytes
  | timestamp
  | text
  | list
  | mapping
  | set
  | pairs
  /-- A key, the value of which is merged into its mapping. -/
  | merge
  /-- A key, the value of which can stand for its mapping. -/
  | default
  | unknown
deriving DecidableEq, Repr

namespace Tag

def standard : String := "tag:yaml.org,2002:"

def names : List (String × Tag) :=
  [("null", null), ("bool", bool), ("int", int), ("float", float), ("binary", bytes), ("timestamp", timestamp),
    ("str", text), ("seq", list), ("map", mapping), ("set", set), ("pairs", pairs), ("omap", pairs),
    ("merge", merge), ("value", default)]

def ofName (name : String) : Tag :=
  ((names.find? fun e => standard ++ e.1 = name).map (·.2)).getD unknown

/-! ## Plain scalars -/

def nullWords : List String := ["", "~", "null", "Null", "NULL"]

def truthWords : List String :=
  ["yes", "Yes", "YES", "true", "True", "TRUE", "on", "On", "ON",
    "no", "No", "NO", "false", "False", "FALSE", "off", "Off", "OFF"]

def isSign (c : Char) : Bool := c == '-' || c == '+'

def unsigned : List Char → List Char
  | c :: rest => if isSign c then rest else c :: rest
  | [] => []

def isDigitOrUnderscore (c : Char) : Bool := isAsciiDigit c || c == '_'

/-- Digits and underscores that start with a digit of a class. -/
def isDigits (first : Char → Bool) (text : List Char) : Bool :=
  text.head?.any first && text.all isDigitOrUnderscore

def isNonZero (c : Char) : Bool := isAsciiDigit c && c != '0'

/-- Minutes or seconds: one digit, or two up to 59. -/
def isSixtieth : List Char → Bool
  | [a] => isAsciiDigit a
  | [a, b] => isAsciiDigit a && a ≤ '5' && isAsciiDigit b
  | _ => false

/-- Text behind a mark of a base: digits of the base and underscores. -/
def isBased (isDigit : Char → Bool) (text : List Char) : Bool :=
  !text.isEmpty && text.all fun c => isDigit c || c == '_'

def isInteger (text : List Char) : Bool :=
  match unsigned text with
  | ['0'] => true
  | '0' :: 'b' :: rest => isBased (fun c => c == '0' || c == '1') rest
  | '0' :: 'x' :: rest => isBased (fun c => isAsciiDigit c || ('a' ≤ c && c ≤ 'f') || ('A' ≤ c && c ≤ 'F')) rest
  | '0' :: rest => isBased (fun c => '0' ≤ c && c ≤ '7') rest
  | text =>
    match text.splitOn ':' with
    | first :: rest => isDigits isNonZero first && rest.all isSixtieth
    | [] => false

/-- The exponent behind the digits of a number: none, or a mark, a sign and digits. -/
def isExponent : List Char → Bool
  | [] => true
  | mark :: sign :: digits =>
    (mark == 'e' || mark == 'E') && isSign sign && !digits.isEmpty && digits.all isAsciiDigit
  | _ => false

/-- Digits, a point, digits and an exponent. The digits in front of the point may be left out, but then not
those behind it, and there is no sign. -/
def isPointed (isSigned : Bool) (text : List Char) : Bool :=
  match text.dropWhile isDigitOrUnderscore with
  | '.' :: rest =>
    let whole := text.takeWhile isDigitOrUnderscore
    let start := if whole.isEmpty then !isSigned && rest.head?.any isAsciiDigit else isDigits isAsciiDigit whole
    start && isExponent (rest.dropWhile isDigitOrUnderscore)
  | _ => false

/-- Parts to the base of sixty, the last one with a point. -/
def isPointedSixties (text : List Char) : Bool :=
  let parts := (text.takeWhile (· != '.')).splitOn ':'
  match parts, text.dropWhile (· != '.') with
  | first :: second :: rest, _ :: fraction =>
    isDigits isAsciiDigit first && (second :: rest).all isSixtieth && fraction.all isDigitOrUnderscore
  | _, _ => false

def infinityWords : List String := [".inf", ".Inf", ".INF"]

def nanWords : List String := [".nan", ".NaN", ".NAN"]

def isFloat (text : List Char) : Bool :=
  let body := unsigned text
  isPointed (body != text) body || isPointedSixties body || infinityWords.contains (String.ofList body) ||
    nanWords.contains (String.ofList text)

/-- A line end at the end of text, which does not count. -/
def withoutLineEnd (text : List Char) : List Char :=
  if text.getLast? = some '\n' then text.dropLast else text

def ofPlain (scalar : String) : Tag :=
  let chars := withoutLineEnd scalar.toList
  let word := String.ofList chars
  if scalar.isEmpty || (nullWords.contains word && !word.isEmpty) then null
  else if truthWords.contains word then bool
  else if isFloat chars then float
  else if isInteger chars then int
  else if word = "<<" then merge
  else if (Timestamp.read? chars).any (·.isPlain) then timestamp
  else if word = "=" then default
  else if word = "!" || word = "&" || word = "*" then unknown
  else text

end Tag

end GameScoring.Yaml
