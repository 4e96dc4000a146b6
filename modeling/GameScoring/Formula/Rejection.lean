import GameScoring.Formula.Operator
import GameScoring.Report

/-! # Rejected formulas

The lexemes of formulas, the limits on formulas, and every reason for which a formula is rejected, with
its wording.
-/
namespace GameScoring.Formula

inductive Lexeme
  | number (literal : String)
  | identifier (name : String)
  | arithmetic (op : Arithmetic)
  | compare (op : Comparison)
  | leftParen
  | rightParen
  | comma
  | question
  | colon
deriving DecidableEq, Repr

namespace Lexeme

def text : Lexeme → String
  | number literal => literal
  | identifier name => name
  | arithmetic op => op.symbol
  | compare op => op.symbol
  | leftParen => "("
  | rightParen => ")"
  | comma => ","
  | question => "?"
  | colon => ":"

def kind : Lexeme → String
  | number _ => "number"
  | identifier _ => "ident"
  | arithmetic _ | compare _ => "op"
  | leftParen => "lparen"
  | rightParen => "rparen"
  | comma => "comma"
  | question => "question"
  | colon => "colon"

end Lexeme

/-- A lexeme and the number of characters before it. -/
structure Token where
  lexeme : Lexeme
  position : Nat
deriving DecidableEq, Repr

def maxLength : Nat := 2000

def maxDepth : Nat := 32

def maxNodes : Nat := 500

/-- What could have stood in the place of an unexpected token. -/
inductive Expected
  | operand
  | colon
  | argumentEnd
deriving DecidableEq, Repr

inductive Reason
  | notText
  | empty
  | tooLong
  | stringLiteral
  | assignment
  | unexpectedCharacter (c : Char)
  | unexpected (found : Option Lexeme) (expected : Option Expected)
  | unclosed
  | chainedComparison
  | literalOutOfRange (literal : String)
  | unknownFunction (name : String)
  | bareFunction (function : Function)
  | argumentCount (function : Function) (count : Nat)
  | tooManyNodes
  | tooDeep
  | nestedTooDeep
deriving DecidableEq, Repr

/-- A reason and the position of the token or character it is about. -/
structure Rejection where
  reason : Reason
  position : Option Nat
deriving DecidableEq, Repr

open Text

def Expected.text : Expected → String
  | operand => "a number, variable, function call or '('"
  | colon => "':' in conditional"
  | argumentEnd => "',' or ')'"

/-- The numbers of arguments a function takes, in words. -/
def Function.argumentText (f : Function) : String :=
  match f.mostArguments? with
  | none => "at least " ++ natText f.fewestArguments
  | some most =>
    if most = f.fewestArguments then natText most
    else natText f.fewestArguments ++ " to " ++ natText most

namespace Reason

def text : Reason → String
  | notText => "Formula must be a string"
  | empty => "Formula cannot be empty"
  | tooLong => "Formula is longer than " ++ natText maxLength ++ " characters"
  | stringLiteral => "String literals are not allowed"
  | assignment => "Assignment is not allowed"
  | unexpectedCharacter c => "Unexpected character '" ++ String.singleton c ++ "'"
  | unexpected found expected =>
    (match found with
      | none => "Unexpected end of formula"
      | some .rightParen => "Unbalanced parentheses: unexpected ')'"
      | some lexeme => "Unexpected token '" ++ lexeme.text ++ "'") ++
    (match expected with
      | none => ""
      | some expected => ", expected " ++ expected.text)
  | unclosed => "Unbalanced parentheses: missing ')'"
  | chainedComparison => "Chained comparisons are not allowed"
  | literalOutOfRange literal => "Numeric literal '" ++ literal ++ "' is out of range"
  | unknownFunction name => "Unknown function '" ++ name ++ "'"
  | bareFunction f => "Function '" ++ f.name ++ "' must be called with arguments"
  | argumentCount f count =>
    "Function '" ++ f.name ++ "' takes " ++ f.argumentText ++ " argument(s), got " ++ natText count
  | tooManyNodes => "Formula has more than " ++ natText maxNodes ++ " nodes"
  | tooDeep =>
    "Formula is more than " ++ natText maxDepth ++ " levels deep (each chained operator adds a level)"
  | nestedTooDeep => "Formula is nested deeper than " ++ natText maxDepth ++ " levels"

/-- Whether the formula breaks a limit on its length, depth or number of nodes. -/
def isComplexity : Reason → Bool
  | tooLong | tooManyNodes | tooDeep | nestedTooDeep => true
  | _ => false

end Reason

def Rejection.report (r : Rejection) : Report :=
  let position := Value.optional (fun p : Nat => .int p) r.position
  if r.reason.isComplexity then .complexity (.text r.reason.text) position
  else .validation (.text r.reason.text) position "FORMULA_VALIDATION_ERROR"

end GameScoring.Formula
