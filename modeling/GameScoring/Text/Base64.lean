/-! # Bytes as letters

Bytes written in groups of four characters, six bits to a character. Characters outside the alphabet are
passed over, and the padding that completes a group ends the data.
-/
namespace GameScoring.Text

def sixBits? (c : Char) : Option Nat :=
  if 'A' ≤ c && c ≤ 'Z' then some (c.toNat - 'A'.toNat)
  else if 'a' ≤ c && c ≤ 'z' then some (c.toNat - 'a'.toNat + 26)
  else if '0' ≤ c && c ≤ '9' then some (c.toNat - '0'.toNat + 52)
  else if c == '+' then some 62
  else if c == '/' then some 63
  else none

/-- A group that is not complete: how many characters it has, the bits of the last one that no byte has yet,
and the padding behind it. -/
structure Group where
  size : Nat
  bits : Nat
  padding : Nat
deriving DecidableEq, Repr

def Group.empty : Group := ⟨0, 0, 0⟩

/-- A group with one more character: the byte that is complete, and what is left. -/
def Group.add (g : Group) (six : Nat) : Option UInt8 × Group :=
  match g.size with
  | 0 => (none, ⟨1, six, 0⟩)
  | 1 => (some (UInt8.ofNat (g.bits * 4 + six / 16)), ⟨2, six % 16, 0⟩)
  | 2 => (some (UInt8.ofNat (g.bits * 16 + six / 4)), ⟨3, six % 4, 0⟩)
  | _ => (some (UInt8.ofNat (g.bits * 64 + six)), empty)

/-- The bytes that characters write behind a group. -/
def bytesAfter (g : Group) : List Char → Option (List UInt8)
  | [] => if g.size = 0 then some [] else none
  | c :: rest =>
    if c == '=' then
      if 2 ≤ g.size then
        if 4 ≤ g.size + (g.padding + 1) then some [] else bytesAfter { g with padding := g.padding + 1 } rest
      else bytesAfter g rest
    else match sixBits? c with
      | none => bytesAfter g rest
      | some six =>
        let (byte, g) := g.add six
        (bytesAfter g rest).map (byte.toList ++ ·)

/-- The bytes that letters write; there are none if a group is not complete. -/
def bytesOfLetters? (letters : List Char) : Option (List UInt8) := bytesAfter .empty letters

end GameScoring.Text
