/-! # Encoded text

Text as a row of bytes, of one to four bytes a character. Bytes that encode no text are read as well: where
a character ends too early or cannot begin, the bytes that were read of it become one replacement character.
-/
namespace GameScoring.Text

def replacement : Char := Char.ofNat 0xFFFD

/-- A character of which bytes are missing: the bits that were read, the number of missing bytes and the
bounds of the next byte. -/
structure Unfinished where
  bits : Nat
  missing : Nat
  low : Nat
  high : Nat
deriving DecidableEq, Repr

/-- What a first byte gives: characters that are complete, and maybe one that is not. -/
def firstByte (b : Nat) : List Char × Option Unfinished :=
  if b < 0x80 then ([Char.ofNat b], none)
  else if b < 0xC2 then ([replacement], none)
  else if b < 0xE0 then ([], some ⟨b - 0xC0, 1, 0x80, 0xBF⟩)
  else if b < 0xF0 then
    ([], some ⟨b - 0xE0, 2, if b = 0xE0 then 0xA0 else 0x80, if b = 0xED then 0x9F else 0xBF⟩)
  else if b < 0xF5 then
    ([], some ⟨b - 0xF0, 3, if b = 0xF0 then 0x90 else 0x80, if b = 0xF4 then 0x8F else 0xBF⟩)
  else ([replacement], none)

/-- What a further byte gives. A byte that does not go on with the character is a first byte. -/
def furtherByte (u : Unfinished) (b : Nat) : List Char × Option Unfinished :=
  if u.low ≤ b ∧ b ≤ u.high then
    let bits := 64 * u.bits + (b - 0x80)
    if u.missing = 1 then ([Char.ofNat bits], none) else ([], some ⟨bits, u.missing - 1, 0x80, 0xBF⟩)
  else
    let (chars, next) := firstByte b
    (replacement :: chars, next)

/-- The text of a row of bytes, after those of an unfinished character. -/
def decodeAfter : Option Unfinished → List UInt8 → List Char
  | none, [] => []
  | some _, [] => [replacement]
  | unfinished, b :: rest =>
    let (chars, next) := match unfinished with
      | none => firstByte b.toNat
      | some u => furtherByte u b.toNat
    chars ++ decodeAfter next rest

def decodeBytes (bytes : List UInt8) : List Char := decodeAfter none bytes

end GameScoring.Text
