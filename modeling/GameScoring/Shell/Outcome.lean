import GameScoring.Report
import GameScoring.Shell.Usage

/-! # Outcomes

What a command prints and the status it ends with: 0 for success, 1 for a refusal or a fault, and 2 for a
command line that cannot be used.
-/
namespace GameScoring.Shell

structure Outcome where
  status : Nat
  output : String
  errors : String
  fault : Option Fault

namespace Outcome

def succeeded (lines : List String) : Outcome := ⟨0, textOf lines, "", none⟩

/-- A refusal, after lines that were printed before it. -/
def refused (lines : List String) (reason : String) : Outcome := ⟨1, textOf lines, "✗ " ++ reason ++ "\n", none⟩

def reported (lines : List String) (report : Report) : Outcome :=
  refused lines (report.code ++ ": " ++ report.message)

def faulted (lines : List String) (fault : Fault) : Outcome := ⟨1, textOf lines, "", some fault⟩

def failed {ε : Type} (lines : List String) (report : ε → Report) : Failure ε → Outcome
  | .refused cause => reported lines (report cause)
  | .fault fault => faulted lines fault

/-- The length of the colour escape that text starts with: the escape character, a bracket, parameters and
a letter. -/
def escapeLength? : List Char → Option Nat
  | '\x1b' :: '[' :: rest =>
    let parameters := rest.takeWhile fun c => c == ';' || c == '?' || Text.isAsciiDigit c
    if (rest.drop parameters.length).head?.any Char.isAlpha then some (parameters.length + 3) else none
  | _ => none

/-- Drops colour escapes, behind characters that still belong to one. -/
def withoutEscapes : Nat → List Char → List Char
  | _, [] => []
  | skipped + 1, _ :: rest => withoutEscapes skipped rest
  | 0, c :: rest =>
    match escapeLength? (c :: rest) with
    | some length => withoutEscapes (length - 1) rest
    | none => c :: withoutEscapes 0 rest

def plainText (text : String) : String := String.ofList (withoutEscapes 0 text.toList)

/-- The outcome as it is printed where no colours can be shown. -/
def plain (o : Outcome) : Outcome := { o with output := plainText o.output, errors := plainText o.errors }

def unusable (errors : String) : Outcome := ⟨2, "", errors, none⟩

end Outcome

end GameScoring.Shell
