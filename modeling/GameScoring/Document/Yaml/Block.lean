import GameScoring.Document.Yaml.Cell
import GameScoring.Text.Digit

/-! # Scalars in block form

Lines that start at one column, behind a line with marks: how line ends read, whether those at the end are
kept, and by how much the lines are indented. Without that number the first line shows the column.
-/
namespace GameScoring.Yaml

/-- What becomes of the line ends behind the last line: one of them is kept, none or all. -/
inductive Chomping
  | clip
  | strip
  | keep
deriving DecidableEq, Repr

/-- The marks behind the sign of a block. -/
structure BlockMarks where
  chomping : Chomping
  indent : Option Nat
deriving DecidableEq, Repr

def chompingOf? : Char → Option Chomping
  | '+' => some .keep
  | '-' => some .strip
  | _ => none

def chompingMark (cells : List Cell) : Chomping × List Cell :=
  match cells.head?.bind fun c => chompingOf? c.char with
  | some chomping => (chomping, cells.drop 1)
  | none => (.clip, cells)

def indentMark (cells : List Cell) : Option Nat × List Cell :=
  if startsWhere Text.isAsciiDigit cells then
    (some (Text.digitsValue ((cells.take 1).map (·.char))), cells.drop 1)
  else (none, cells)

/-- The marks, in either order. Lines cannot be indented by zero. -/
def blockMarks (cells : List Cell) : Read (BlockMarks × List Cell) :=
  let (chomping, rest) := chompingMark cells
  let (indent, rest) := indentMark rest
  let (chomping, rest) := if chomping = .clip then chompingMark rest else (chomping, rest)
  if indent = some 0 || !endsPart rest then malformed else .ok (⟨chomping, indent⟩, rest)

/-- Empty lines with at most so many spaces on them: how their ends read, and the cells behind them and
behind the spaces of the next line. -/
def emptyLines (column : Nat) : List Cell → List Char × List Cell
  | [] => ([], [])
  | c :: rest =>
    if c.char == ' ' && c.column < column then emptyLines column rest
    else if isBreak c.char then
      let (ends, rest) := emptyLines column rest
      (breakText c.char :: ends, rest)
    else ([], c :: rest)

/-- The column that the first lines show: the largest one that only spaces lead to. -/
def shownColumn (column : Nat) : List Cell → Nat
  | [] => column
  | c :: rest =>
    if c.char == ' ' then shownColumn (max column (c.column + 1)) rest
    else if isBreak c.char then shownColumn column rest
    else column

/-- Whether a line of a block starts here. -/
def startsLine (column : Nat) (cells : List Cell) : Bool := cells.head?.any (·.column == column)

/-- How the end of a line reads in front of another line of the block. -/
def lineJoint (isFolded : Bool) (line : List Cell) (ending : List Char) (ends : List Char) (next : List Cell) :
    List Char :=
  if isFolded && ending == ['\n'] && !startsWhere isSpace line && !startsWhere isSpace next then
    if ends.isEmpty then [' '] else []
  else ending

/-- Reads the lines of a block from the start of one of them, at most as many as the fuel: their text, the
end of the last one, the empty lines behind it and the cells behind those. -/
def blockLines (isFolded : Bool) (column : Nat) : Nat → List Cell → List Char × List Char × List Char × List Cell
  | 0, cells => ([], [], [], cells)
  | fuel + 1, cells =>
    let line := cells.takeWhile fun c => !isBreak c.char
    let rest := cells.dropWhile fun c => !isBreak c.char
    let ending := (rest.take 1).map fun c => breakText c.char
    let (ends, rest) := emptyLines column (rest.drop 1)
    if startsLine column rest then
      let (text, last) := blockLines isFolded column fuel rest
      (line.map (·.char) ++ lineJoint isFolded line ending ends rest ++ ends ++ text, last)
    else (line.map (·.char), ending, ends, rest)

/-- The text of a block behind its sign, where lines start at a column or right of it. -/
def block (isFolded : Bool) (least : Nat) (cells : List Cell) : Read (List Char × List Cell) := do
  let (marks, rest) ← blockMarks cells
  let rest ← lineRest rest
  let least := max 1 least
  let column := match marks.indent with
    | some indent => least + indent - 1
    | none => max least (shownColumn 0 rest)
  let (start, rest) := emptyLines column rest
  if startsLine column rest then
    let (text, ending, ends, rest) := blockLines isFolded column (rest.length + 1) rest
    let kept := match marks.chomping with
      | .strip => []
      | .clip => ending
      | .keep => ending ++ ends
    .ok (start ++ text ++ kept, rest)
  else .ok (if marks.chomping = .keep then start else [], rest)

end GameScoring.Yaml
