/-! # Similarity

How much two words have in common: the longest run of characters that stands in both, and what the parts
on each side of it have in common in turn.
-/
namespace GameScoring.Text

def commonStart : List Char → List Char → Nat
  | a :: as, b :: bs => if a = b then commonStart as bs + 1 else 0
  | _, _ => 0

/-- A run of characters that stands in both words, from a place in each. -/
structure CommonRun where
  left : Nat
  right : Nat
  length : Nat
deriving DecidableEq, Repr

def longestRun (a b : List Char) : CommonRun :=
  let starts := (List.range a.length).flatMap fun i => (List.range b.length).map fun j => (i, j)
  starts.foldl (fun best (i, j) =>
    let length := commonStart (a.drop i) (b.drop j)
    if best.length < length then ⟨i, j, length⟩ else best) ⟨0, 0, 0⟩

/-- How many characters two words have in common, run by run. -/
def commonLength : Nat → List Char → List Char → Nat
  | 0, _, _ => 0
  | fuel + 1, a, b =>
    let run := longestRun a b
    if run.length = 0 then 0
    else
      commonLength fuel (a.take run.left) (b.take run.right) + run.length +
        commonLength fuel (a.drop (run.left + run.length)) (b.drop (run.right + run.length))

def shared (a b : String) : Nat := commonLength (a.length + 1) a.toList b.toList

/-- Two words are similar if they have at least six tenths of their characters in common. -/
def similar (a b : String) : Bool := 6 * (a.length + b.length) ≤ 20 * shared a b

/-- Whether the first of two candidates is at least as close to a word as the second: by the part of the
characters that is shared, and between equals by the later name. -/
def atLeastAsClose (word a b : String) : Bool :=
  let left := shared a word * (b.length + word.length)
  let right := shared b word * (a.length + word.length)
  right < left || (left == right && decide (b ≤ a))

/-- The candidates that are similar to a word, the closest ones up to a limit, in the order of their names. -/
def closest (limit : Nat) (candidates : List String) (word : String) : List String :=
  let near := (candidates.filter fun other => similar other word).mergeSort (atLeastAsClose word)
  (near.take limit).mergeSort fun a b => decide (a ≤ b)

end GameScoring.Text
