import GameScoring.Document.Yaml.Cell

/-! # Scalars without quotes

Words with white space between them. Inside brackets a word also ends at a bracket, a comma or a question
mark; outside of them the scalar ends where a line starts too far left. Lines are folded.
-/
namespace GameScoring.Yaml

/-- Characters that no plain scalar starts with, unless it is one of the first three and a word goes on. -/
def indicators : List Char :=
  ['-', '?', ':', ',', '[', ']', '\x7b', '\x7d', '#', '&', '*', '!', '|', '>', '\'', '"', '%', '@', '\x60']

def brackets : List Char := ['[', ']', '\x7b', '\x7d']

def startsPlain (inFlow : Bool) : List Cell → Bool
  | [] => false
  | c :: rest =>
    if isSpace c.char || isBreak c.char then false
    else if indicators.contains c.char then
      (c.char == '-' || (!inFlow && (c.char == '?' || c.char == ':'))) && !endsWord rest
    else true

/-- Whether a colon in front of these cells is the mark behind a key. -/
def endsKey (inFlow : Bool) (cells : List Cell) : Bool :=
  endsWord cells || (inFlow && startsWhere (fun c => c == ',' || brackets.contains c) cells)

def wordLength (inFlow : Bool) : List Cell → Nat
  | [] => 0
  | c :: rest =>
    if isSpace c.char || isBreak c.char || (c.char == ':' && endsKey inFlow rest) ||
        (inFlow && (c.char == ',' || c.char == '?' || brackets.contains c.char)) then 0
    else wordLength inFlow rest + 1

/-- The line ends from here on, without the spaces around them, and the cells behind them. There are none
if a mark between documents follows one of them. -/
def furtherLines (atStart : Bool) : List Cell → Option (List Char) × List Cell
  | [] => (some [], [])
  | c :: rest =>
    if atStart && atMarker (c :: rest) then (none, c :: rest)
    else if c.char == ' ' then furtherLines false rest
    else if isBreak c.char then
      let (further, rest) := furtherLines true rest
      (further.map (breakText c.char :: ·), rest)
    else (some [], c :: rest)

/-- What stands between two words. -/
structure Between where
  /-- As it reads; empty if no word can follow. -/
  text : List Char
  hasBreak : Bool
  rest : List Cell

def between (cells : List Cell) : Between :=
  let blanks := (cells.takeWhile (·.char == ' ')).map (·.char)
  match skipSpaces cells with
  | [] => ⟨blanks, false, []⟩
  | c :: rest =>
    if isBreak c.char then
      let (further, rest) := furtherLines true rest
      ⟨(further.map (folded (breakText c.char))).getD [], true, rest⟩
    else ⟨blanks, false, c :: rest⟩

/-- Whether a scalar may go on behind white space, where its lines start at a column or right of it. -/
def Between.goesOn (inFlow : Bool) (least : Nat) (space : Between) : Bool :=
  !space.text.isEmpty && !startsWith '#' space.rest &&
    (inFlow || space.rest.head?.all fun c => least ≤ c.column)

structure Plain where
  text : List Char
  hasBreak : Bool
  rest : List Cell

/-- Reads the words behind white space, at most as many as the fuel. -/
def plainWords (inFlow : Bool) (least : Nat) : Nat → Between → Plain
  | 0, space => ⟨[], space.hasBreak, space.rest⟩
  | fuel + 1, space =>
    let length := wordLength inFlow space.rest
    if length = 0 then ⟨[], space.hasBreak, space.rest⟩
    else
      let word := (space.rest.take length).map (·.char)
      let next := between (space.rest.drop length)
      if next.goesOn inFlow least then
        let read := plainWords inFlow least fuel next
        { read with text := space.text ++ word ++ read.text }
      else ⟨space.text ++ word, next.hasBreak, next.rest⟩

def plain (inFlow : Bool) (least : Nat) (cells : List Cell) : Plain :=
  plainWords inFlow least (cells.length + 1) ⟨[], false, cells⟩

end GameScoring.Yaml
