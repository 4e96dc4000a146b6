/-! # Operators and functions of formulas

The arithmetic operators, the comparisons and the functions a formula may call, with their spelling and
the numbers of arguments they take.
-/
namespace GameScoring.Formula

inductive Arithmetic
  | add
  | subtract
  | multiply
  | divide
  | power
deriving DecidableEq, Repr

inductive Comparison
  | less
  | lessEqual
  | greater
  | greaterEqual
  | equal
  | notEqual
deriving DecidableEq, Repr

inductive Function
  | minimum
  | maximum
  | root
  | absolute
  | round
  | clamp
  | choose
deriving DecidableEq, Repr

namespace Arithmetic

def symbol : Arithmetic → String
  | add => "+"
  | subtract => "-"
  | multiply => "*"
  | divide => "/"
  | power => "^"

def all : List Arithmetic := [add, subtract, multiply, divide, power]

def ofSymbol? (symbol : String) : Option Arithmetic := all.find? (·.symbol == symbol)

theorem ofSymbol?_symbol (op : Arithmetic) : ofSymbol? op.symbol = some op := by cases op <;> rfl

end Arithmetic

namespace Comparison

def symbol : Comparison → String
  | less => "<"
  | lessEqual => "<="
  | greater => ">"
  | greaterEqual => ">="
  | equal => "=="
  | notEqual => "!="

def all : List Comparison := [less, lessEqual, greater, greaterEqual, equal, notEqual]

def ofSymbol? (symbol : String) : Option Comparison := all.find? (·.symbol == symbol)

theorem ofSymbol?_symbol (op : Comparison) : ofSymbol? op.symbol = some op := by cases op <;> rfl

end Comparison

namespace Function

def name : Function → String
  | minimum => "min"
  | maximum => "max"
  | root => "sqrt"
  | absolute => "abs"
  | round => "round"
  | clamp => "clamp"
  | choose => "if"

def all : List Function := [minimum, maximum, root, absolute, round, clamp, choose]

def ofName? (name : String) : Option Function := all.find? (·.name == name)

def fewestArguments : Function → Nat
  | clamp | choose => 3
  | _ => 1

def mostArguments? : Function → Option Nat
  | minimum | maximum => none
  | root | absolute => some 1
  | round => some 2
  | clamp | choose => some 3

def accepts (f : Function) (count : Nat) : Bool :=
  f.fewestArguments ≤ count && f.mostArguments?.all (count ≤ ·)

theorem le_of_accepts {f : Function} {count most : Nat} (h : f.accepts count = true)
    (bounded : f.mostArguments? = some most) : count ≤ most := by
  rw [accepts, bounded, Bool.and_eq_true] at h
  exact of_decide_eq_true h.2

theorem ofName?_name (f : Function) : ofName? f.name = some f := by cases f <;> rfl

end Function

end GameScoring.Formula
