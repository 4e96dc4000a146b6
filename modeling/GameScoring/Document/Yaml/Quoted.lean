import GameScoring.Document.Yaml.Cell
import GameScoring.Text.Encoding
import GameScoring.Text.Hex

/-! # Scalars in quotes

Lines are folded: white space around a line end is dropped. Between single quotes only the quote itself is
escaped, by a second one; between double quotes there are escapes of one letter, escapes by number, and
escaped line ends, which read as nothing. Every reader gives what it read and the cells behind it.
-/
namespace GameScoring.Yaml

/-- White space that was passed inside quotes: blanks, or line ends without the blanks around them. -/
inductive Space
  | blanks (chars : List Char)
  | lines (first : Char) (further : List Char)
  /-- A line end that was escaped, and those after it. -/
  | joined (further : List Char)

namespace Space

def none : Space := blanks []

def text : Space → List Char
  | blanks chars => chars
  | lines first further => folded first further
  | joined further => further

def addBlank (c : Char) : Space → Space
  | blanks chars => blanks (chars ++ [c])
  | space => space

def addBreak (c : Char) : Space → Space
  | blanks _ => lines (breakText c) []
  | lines first further => lines first (further ++ [breakText c])
  | joined further => joined (further ++ [breakText c])

end Space

abbrev Scalar := Read (List Char × List Cell)

/-- Puts text in front of what a reader read. -/
def before (text : List Char) (scalar : Scalar) : Scalar :=
  scalar.map fun (read, rest) => (text ++ read, rest)

/-- Reads up to a single quote. No document ends inside a scalar. -/
def singleQuoted (space : Space) : List Cell → Scalar
  | [] => malformed
  | c :: rest =>
    if isSpace c.char then singleQuoted (space.addBlank c.char) rest
    else if isBreak c.char then
      if atMarker rest then malformed else singleQuoted (space.addBreak c.char) rest
    else if c.char == '\'' then
      match rest with
      | d :: later =>
        if d.char == '\'' then before (space.text ++ ['\'']) (singleQuoted .none later)
        else .ok (space.text, rest)
      | [] => .ok (space.text, [])
    else before (space.text ++ [c.char]) (singleQuoted .none rest)

def escaped? : Char → Option Char
  | '0' => some '\x00'
  | 'a' => some '\x07'
  | 'b' => some '\x08'
  | 't' | '\t' => some '\t'
  | 'n' => some '\n'
  | 'v' => some '\x0b'
  | 'f' => some '\x0c'
  | 'r' => some '\r'
  | 'e' => some '\x1b'
  | ' ' => some ' '
  | '"' => some '"'
  | '\\' => some '\\'
  | '/' => some '/'
  | 'N' => some (Char.ofNat 0x85)
  | '_' => some (Char.ofNat 0xA0)
  | 'L' => some (Char.ofNat 0x2028)
  | 'P' => some (Char.ofNat 0x2029)
  | _ => none

def hexLength? : Char → Option Nat
  | 'x' => some 2
  | 'u' => some 4
  | 'U' => some 8
  | _ => none

/-- The character of a number. Half of a surrogate pair is no character. -/
def charOf (code : Nat) : Read Char :=
  if 0x110000 ≤ code then .error (.fault .noCharacter)
  else .ok (if code.isValidChar then Char.ofNat code else Text.replacement)

def hexChar (count : Nat) (cells : List Cell) : Read Char :=
  match Text.hexNumber? ((cells.take count).map (·.char)) with
  | some code => if (cells.take count).length = count then charOf code else malformed
  | none => malformed

/-- Reads up to a double quote. No document ends inside a scalar. -/
def doubleQuoted (space : Space) (cells : List Cell) : Scalar :=
  match cells with
  | [] => malformed
  | c :: rest =>
    if isSpace c.char then doubleQuoted (space.addBlank c.char) rest
    else if isBreak c.char then
      if atMarker rest then malformed else doubleQuoted (space.addBreak c.char) rest
    else if c.char == '"' then .ok (space.text, rest)
    else if c.char == '\\' then
      match rest with
      | [] => malformed
      | d :: later =>
        if isBreak d.char then
          if atMarker later then malformed else before space.text (doubleQuoted (.joined []) later)
        else match hexLength? d.char with
          | some count => do
            let read ← hexChar count later
            before (space.text ++ [read]) (doubleQuoted .none (later.drop count))
          | none =>
            match escaped? d.char with
            | some read => before (space.text ++ [read]) (doubleQuoted .none later)
            | none => malformed
    else before (space.text ++ [c.char]) (doubleQuoted .none rest)
termination_by cells.length
decreasing_by all_goals simp; try omega

end GameScoring.Yaml
