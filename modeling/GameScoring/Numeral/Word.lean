/-! # Words

Whole numbers that fit into a number of bits, one of which is the sign.
-/
namespace GameScoring.Numeral

/-- One more than the largest number of so many bits. -/
def wordBound (bits : Nat) : Int := (Nat.pow 2 (bits - 1) : Nat)

def isWordSized (bits : Nat) (i : Int) : Bool := decide (-wordBound bits ≤ i ∧ i < wordBound bits)

end GameScoring.Numeral
