/-! # Levels

How serious a journal entry is.
-/
namespace GameScoring.Journal

inductive Level
  | unset
  | debug
  | info
  | warning
  | error
  | critical
deriving DecidableEq, Repr

namespace Level

/-- The levels that can be chosen, from the least serious one. -/
def all : List Level := [debug, info, warning, error, critical]

def name : Level → String
  | unset => "NOTSET"
  | debug => "DEBUG"
  | info => "INFO"
  | warning => "WARNING"
  | error => "ERROR"
  | critical => "CRITICAL"

/-- The level that a name means. Two of the levels have a second name. -/
def ofName? (name : String) : Option Level :=
  if name = "WARN" then some warning
  else if name = "FATAL" then some critical
  else (unset :: all).find? (·.name == name)

/-- More serious levels have a greater rank. -/
def rank : Level → Nat
  | unset => 0
  | debug => 1
  | info => 2
  | warning => 3
  | error => 4
  | critical => 5

end Level

end GameScoring.Journal
