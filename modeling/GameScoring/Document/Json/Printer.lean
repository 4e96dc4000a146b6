import GameScoring.Text.Hex
import GameScoring.Value

/-! # Printing JSON

Values as indented JSON in ASCII: every other character is written as one escape, or as two for a
character outside the basic plane.
-/
namespace GameScoring.Json

def unitEscape (unit : Nat) : List Char := '\\' :: 'u' :: Text.hexDigits 4 unit

def shortEscape? (c : Char) : Option Char :=
  match c with
  | '"' => some '"'
  | '\\' => some '\\'
  | '\n' => some 'n'
  | '\r' => some 'r'
  | '\t' => some 't'
  | '\x08' => some 'b'
  | '\x0c' => some 'f'
  | _ => none

def escape (c : Char) : List Char :=
  match shortEscape? c with
  | some letter => ['\\', letter]
  | none =>
    let code := c.toNat
    if 32 ≤ code && code < 127 then [c]
    else if code < 0x10000 then unitEscape code
    else unitEscape (0xD800 + (code - 0x10000) / 0x400) ++ unitEscape (0xDC00 + (code - 0x10000) % 0x400)

def quoted (s : String) : String := String.ofList ('"' :: s.toList.flatMap escape ++ ['"'])

def floatText (x : Float) : String :=
  if x.isNaN then "NaN"
  else if Binary.isFinite x then Numeral.text x
  else if x < 0.0 then "-Infinity" else "Infinity"

def margin (depth : Nat) : String := String.ofList (List.replicate (2 * depth) ' ')

/-- Parts one to a line between two brackets, or nothing between them. -/
def enclosed (opening closing : String) (depth : Nat) (parts : List String) : String :=
  if parts.isEmpty then opening ++ closing
  else
    let line (part : String) : String := margin (depth + 1) ++ part
    opening ++ "\n" ++ ",\n".intercalate (parts.map line) ++ "\n" ++ margin depth ++ closing

/-- The text of a key; what is not text is written as its own JSON. -/
def keyText : Value → String
  | .text s => s
  | .null => "null"
  | .bool b => if b then "true" else "false"
  | .int i => Text.intText i
  | .float x => floatText x
  | other => other.display

mutual

def prettyAt (depth : Nat) : Value → String
  | .null => "null"
  | .bool b => if b then "true" else "false"
  | .int i => Text.intText i
  | .float x => floatText x
  | .text s => quoted s
  | .list items => enclosed "[" "]" depth (prettyItems (depth + 1) items)
  | .object entries => enclosed "\x7b" "\x7d" depth (prettyEntries (depth + 1) entries)
  | .datum d => quoted (Value.datumLiteral d)

def prettyItems (depth : Nat) : List Value → List String
  | [] => []
  | x :: xs => prettyAt depth x :: prettyItems depth xs

def prettyEntries (depth : Nat) : List (Value × Value) → List String
  | [] => []
  | (key, x) :: rest => (quoted (keyText key) ++ ": " ++ prettyAt depth x) :: prettyEntries depth rest

end

/-- Indented JSON, two spaces a level. -/
def pretty (v : Value) : String := prettyAt 0 v

end GameScoring.Json
