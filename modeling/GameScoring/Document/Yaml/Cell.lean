import GameScoring.Report

/-! # Cells

The characters of a document with their places: a number, a line and a column. A carriage return ends a line
as a line feed does; three more characters end lines, two of which are kept where line ends are kept. What
separates two parts of a document is a gap: spaces, line ends and comments, but no tabs.
-/
namespace GameScoring.Yaml

/-- Text that is not a document. -/
inductive Defect
  | malformed
deriving DecidableEq, Repr

abbrev Read := Except (Failure Defect)

def malformed {α : Type} : Read α := refuse .malformed

structure Cell where
  char : Char
  index : Nat
  line : Nat
  column : Nat
deriving DecidableEq, Repr

/-! ## Characters -/

def byteOrderMark : Char := Char.ofNat 0xFEFF

def isBreak (c : Char) : Bool := c == '\n' || c.toNat == 0x85 || c.toNat == 0x2028 || c.toNat == 0x2029

def isSpace (c : Char) : Bool := c == ' ' || c == '\t'

/-- How a line end reads where it is kept. -/
def breakText (c : Char) : Char := if c.toNat == 0x85 then '\n' else c

def isAllowed (c : Char) : Bool :=
  let code := c.toNat
  code == 9 || code == 10 || (0x20 ≤ code && code ≤ 0x7E) || code == 0x85 ||
    (0xA0 ≤ code && code ≤ 0xD7FF) || (0xE000 ≤ code && code ≤ 0xFFFD) || 0x10000 ≤ code

/-- Letters and digits of names, with the two marks that names may hold. -/
def isNameChar (c : Char) : Bool := c.isAlphanum || c == '-' || c == '_'

/-! ## Places -/

def withLineFeeds : List Char → List Char
  | [] => []
  | '\r' :: '\n' :: rest => '\n' :: withLineFeeds rest
  | c :: rest => (if c == '\r' then '\n' else c) :: withLineFeeds rest

/-- Puts characters in their places, from the place of the first one. A byte order mark has no width. -/
def cellsFrom (index line column : Nat) : List Char → List Cell
  | [] => []
  | c :: rest =>
    ⟨c, index, line, column⟩ ::
      if isBreak c then cellsFrom (index + 1) (line + 1) 0 rest
      else cellsFrom (index + 1) line (if c == byteOrderMark then column else column + 1) rest

/-- The cells of a text, without a byte order mark in front. -/
def cellsOf (text : String) : Read (List Cell) :=
  let chars := withLineFeeds text.toList
  if !chars.all isAllowed then malformed
  else match cellsFrom 0 0 0 chars with
    | [] => .ok []
    | c :: rest => .ok (if c.char == byteOrderMark then rest else c :: rest)

/-! ## What stands next -/

/-- Whether the next character is one of a class; the end of the text is none. -/
def startsWhere (p : Char → Bool) (cells : List Cell) : Bool := cells.head?.any fun c => p c.char

def startsWith (c : Char) (cells : List Cell) : Bool := startsWhere (· == c) cells

/-- Whether a class of characters or the end of the text follows. -/
def endsWhere (p : Char → Bool) (cells : List Cell) : Bool := cells.isEmpty || startsWhere p cells

def endsLine (cells : List Cell) : Bool := endsWhere isBreak cells

/-- Whether a space, a line end or the end of the text follows. -/
def endsPart (cells : List Cell) : Bool := endsWhere (fun c => c == ' ' || isBreak c) cells

/-- Whether white space or the end of the text follows. -/
def endsWord (cells : List Cell) : Bool := endsWhere (fun c => isSpace c || isBreak c) cells

/-- Whether three characters stand here on their own. -/
def atTriple (mark : Char) (cells : List Cell) : Bool :=
  (cells.take 3).map (·.char) == [mark, mark, mark] && endsWord (cells.drop 3)

/-- Whether one of the marks between documents stands here. -/
def atMarker (cells : List Cell) : Bool := atTriple '-' cells || atTriple '.' cells

/-! ## Gaps -/

def skipSpaces (cells : List Cell) : List Cell := cells.dropWhile (·.char == ' ')

/-- Whether a gap holds a line end, and the cells behind it. -/
def gap (inComment hasBreak : Bool) : List Cell → Bool × List Cell
  | [] => (hasBreak, [])
  | c :: rest =>
    if isBreak c.char then gap false true rest
    else if inComment || c.char == '#' then gap true hasBreak rest
    else if c.char == ' ' then gap false hasBreak rest
    else (hasBreak, c :: rest)

/-- The cells behind the rest of a line that may hold nothing but a comment. -/
def lineRest (cells : List Cell) : Read (List Cell) :=
  let rest := skipSpaces cells
  let rest := if startsWith '#' rest then rest.dropWhile fun c => !isBreak c.char else rest
  if endsLine rest then .ok (rest.drop 1) else malformed

/-- How line ends inside a scalar read when lines are folded: a single one as a space, and further ones as
they are. -/
def folded (first : Char) (further : List Char) : List Char :=
  if first ≠ '\n' then first :: further
  else if further.isEmpty then [' '] else further

end GameScoring.Yaml
