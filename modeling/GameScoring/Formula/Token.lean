import GameScoring.Formula.Rejection
import GameScoring.Text.Blank
import GameScoring.Text.Digit

/-! # Tokens

`Token.scan` cuts the text of a formula into lexemes, each as long as possible, and drops the blanks
between them. A lexeme is found from its first character and the number of characters that belong to it
after that one, so it is always a slice of the text.
-/
namespace GameScoring.Formula
open Text

namespace Lexeme

def isNameStart (c : Char) : Bool := c.isAlpha || c == '_'

def isNameChar (c : Char) : Bool := c.isAlphanum || c == '_'

/-- The number of leading characters of a class. -/
def span (p : Char → Bool) (cs : List Char) : Nat := (cs.takeWhile p).length

/-- The length of an exponent: a mark, perhaps a sign, and at least one digit. -/
def exponentLength : List Char → Nat
  | mark :: rest =>
    if mark != 'e' && mark != 'E' then 0
    else match rest with
      | sign :: digits =>
        if sign == '+' || sign == '-' then
          let n := span isDigit digits
          if n = 0 then 0 else n + 2
        else
          let n := span isDigit rest
          if n = 0 then 0 else n + 1
      | [] => 0
  | [] => 0

/-- The length of the digits, the point and the digits after it that go on a number. -/
def wholeLength (cs : List Char) : Nat :=
  let n := span isDigit cs
  match cs.drop n with
  | '.' :: rest => n + 1 + span isDigit rest
  | _ => n

/-- How many more characters belong to a number that starts with `first`. -/
def numberTail? (first : Char) (rest : List Char) : Option Nat :=
  if isDigit first then
    let n := wholeLength rest
    some (n + exponentLength (rest.drop n))
  else if first == '.' then
    let n := span isDigit rest
    if n = 0 then none else some (n + exponentLength (rest.drop n))
  else none

/-- The operator of one or two characters at the start of a text, and how many follow the first. -/
def operator? (first : Char) (rest : List Char) : Option (Lexeme × Nat) :=
  match first, rest with
  | '<', '=' :: _ => some (.compare .lessEqual, 1)
  | '>', '=' :: _ => some (.compare .greaterEqual, 1)
  | '=', '=' :: _ => some (.compare .equal, 1)
  | '!', '=' :: _ => some (.compare .notEqual, 1)
  | '<', _ => some (.compare .less, 0)
  | '>', _ => some (.compare .greater, 0)
  | '+', _ => some (.arithmetic .add, 0)
  | '-', _ => some (.arithmetic .subtract, 0)
  | '*', _ => some (.arithmetic .multiply, 0)
  | '/', _ => some (.arithmetic .divide, 0)
  | '^', _ => some (.arithmetic .power, 0)
  | '(', _ => some (.leftParen, 0)
  | ')', _ => some (.rightParen, 0)
  | ',', _ => some (.comma, 0)
  | '?', _ => some (.question, 0)
  | ':', _ => some (.colon, 0)
  | _, _ => none

/-- The longest lexeme at the start of a text, and how many characters follow its first one. -/
def leading? (first : Char) (rest : List Char) : Option (Lexeme × Nat) :=
  match numberTail? first rest with
  | some n => some (.number (String.ofList (first :: rest.take n)), n)
  | none =>
    if isNameStart first then
      let n := span isNameChar rest
      some (.identifier (String.ofList (first :: rest.take n)), n)
    else operator? first rest

end Lexeme

def Reason.ofCharacter (c : Char) : Reason :=
  if c == '"' || c == '\'' then .stringLiteral
  else if c == '=' then .assignment
  else .unexpectedCharacter c

namespace Token

/-- Scans a text whose first character stands at `position`. -/
def scanFrom (position : Nat) : List Char → Except Rejection (List Token)
  | [] => .ok []
  | c :: rest =>
    if isBlank c then scanFrom (position + 1) rest
    else match Lexeme.leading? c rest with
      | none => .error ⟨.ofCharacter c, some position⟩
      | some (lexeme, more) => do
        let tokens ← scanFrom (position + 1 + more) (rest.drop more)
        .ok (⟨lexeme, position⟩ :: tokens)
termination_by cs => cs.length
decreasing_by all_goals simp only [List.length_cons, List.length_drop]; omega

def scan (text : String) : Except Rejection (List Token) := scanFrom 0 text.toList

end Token

/-- A token as it is shown: its kind, its text and its place. -/
structure Piece where
  kind : String
  value : String
  position : Nat
deriving DecidableEq, Repr

namespace Piece

def ofToken (t : Token) : Piece := ⟨t.lexeme.kind, t.lexeme.text, t.position⟩

def finish (text : String) : Piece := ⟨"end", "", text.length⟩

end Piece

/-- The tokens of a text as they are shown, and the end of the text behind them. -/
def pieces (text : String) : Except Rejection (List Piece) :=
  (Token.scan text).map fun tokens => tokens.map Piece.ofToken ++ [Piece.finish text]

end GameScoring.Formula
