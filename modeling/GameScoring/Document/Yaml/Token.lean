import GameScoring.Document.Yaml.Block
import GameScoring.Document.Yaml.Plain
import GameScoring.Document.Yaml.Property
import GameScoring.Document.Yaml.Quoted

/-! # Tokens

A document as a row of tokens. Block form is told by columns: a part that stands right of the innermost open
block opens another one, and one that stands left of it closes it. A key is known only by the colon behind
it, so the place where a key may have started is remembered, and the tokens that open the key are put there
later. Reading ends at the first thing that is no token; what is wrong with it is then the last token.
-/
namespace GameScoring.Yaml

inductive Token
  | directive (directive : Directive)
  | documentStart
  | documentEnd
  | blockList
  | blockMapping
  | blockEnd
  | openList
  | closeList
  | openMapping
  | closeMapping
  | dash
  | comma
  | key
  | value
  | alias (name : String)
  | anchor (name : String)
  | tag (tag : WrittenTag)
  | scalar (isPlain : Bool) (text : String)
  | broken (cause : Failure Defect)
deriving DecidableEq

structure KeyPlace where
  depth : Nat
  position : Nat
  /-- Whether only a key can stand there. -/
  isRequired : Bool
  start : Cell
deriving DecidableEq, Repr

def longestKey : Nat := 1024

/-- Whether a place has been left behind by what stands here. -/
def KeyPlace.isStale (place : KeyPlace) (here : Cell) : Bool :=
  place.start.line != here.line || longestKey < here.index - place.start.index

/-- The tokens that were read and what the next ones depend on. -/
structure Progress where
  /-- The last one first. -/
  tokens : List Token
  /-- The columns of the open blocks, the innermost first. -/
  columns : List Nat
  depth : Nat
  keyAllowed : Bool
  keys : List KeyPlace

namespace Progress

def start : Progress := ⟨[], [], 0, true, []⟩

def inFlow (p : Progress) : Bool := p.depth != 0

def push (p : Progress) (token : Token) : Progress := { p with tokens := token :: p.tokens }

def allowingKey (p : Progress) (allowed : Bool) : Progress := { p with keyAllowed := allowed }

/-! ## Blocks -/

/-- The leftmost column of the lines of a scalar. -/
def least (p : Progress) : Nat :=
  match p.columns with
  | [] => 0
  | column :: _ => column + 1

/-- Whether a part at a column stands right of the innermost block. -/
def opens (p : Progress) (column : Nat) : Bool := p.columns.head?.all (· < column)

/-- Opens a block at a column, if its column asks for one. -/
def openBlock (p : Progress) (column : Nat) (token : Token) : Progress :=
  if p.opens column then { p.push token with columns := column :: p.columns } else p

/-- Closes the blocks that the columns from the innermost one on belong to. -/
def closeBlocks (p : Progress) (isClosed : Nat → Bool) : Progress :=
  if p.inFlow then p
  else
    let closed := p.columns.takeWhile isClosed
    { p with
      tokens := closed.map (fun _ => Token.blockEnd) ++ p.tokens
      columns := p.columns.dropWhile isClosed }

/-! ## Keys -/

/-- Forgets places of keys; one that has to be a key cannot be forgotten. -/
def forgetKeys (p : Progress) (isForgotten : KeyPlace → Bool) : Read Progress :=
  if p.keys.any fun place => isForgotten place && place.isRequired then malformed
  else .ok { p with keys := p.keys.filter fun place => !isForgotten place }

def forgetStaleKeys (p : Progress) (here : Cell) : Read Progress := p.forgetKeys (·.isStale here)

/-- Forgets the place inside the innermost brackets. -/
def forgetKey (p : Progress) : Read Progress := p.forgetKeys (·.depth == p.depth)

/-- Remembers that a key may start here. In block form it has to, where entries of the block start. -/
def rememberKey (p : Progress) (here : Cell) : Read Progress :=
  if p.keyAllowed then do
    let p ← p.forgetKey
    let isRequired := !p.inFlow && p.columns.head? == some here.column
    .ok { p with keys := ⟨p.depth, p.tokens.length, isRequired, here⟩ :: p.keys }
  else .ok p

def insertAt (p : Progress) (position : Nat) (token : Token) : Progress :=
  { p with tokens := p.tokens.insertIdx (p.tokens.length - position) token }

/-! ## Tokens of one character -/

/-- A dash, a question mark or a colon that starts an entry of a block. -/
def entry (p : Progress) (here : Cell) (block : Token) : Read Progress :=
  if p.inFlow then .ok p
  else if p.keyAllowed then .ok (p.openBlock here.column block)
  else malformed

def dash (p : Progress) (here : Cell) : Read Progress := do
  let p ← p.entry here .blockList
  return ((← p.forgetKey).allowingKey true).push .dash

def questionMark (p : Progress) (here : Cell) : Read Progress := do
  let p ← p.entry here .blockMapping
  return ((← p.forgetKey).allowingKey !p.inFlow).push .key

/-- A colon behind a key, or one on its own. -/
def colon (p : Progress) (here : Cell) : Read Progress :=
  match p.keys.find? (·.depth == p.depth) with
  | some place =>
    let opened := !p.inFlow && p.opens place.start.column
    let p := { p with keys := p.keys.filter (·.depth != p.depth) }
    let p := p.insertAt place.position .key
    let p := if opened then
        { p.insertAt place.position .blockMapping with columns := place.start.column :: p.columns }
      else p
    .ok ((p.allowingKey false).push .value)
  | none => do
    let p ← p.entry here .blockMapping
    return ((← p.forgetKey).allowingKey !p.inFlow).push .value

def openBracket (p : Progress) (here : Cell) (token : Token) : Read Progress := do
  let p ← p.rememberKey here
  return ({ p with depth := p.depth + 1 }.allowingKey true).push token

def closeBracket (p : Progress) (token : Token) : Read Progress := do
  let p ← p.forgetKey
  if p.depth = 0 then malformed
  else return ({ p with depth := p.depth - 1 }.allowingKey false).push token

def comma (p : Progress) : Read Progress := do return ((← p.forgetKey).allowingKey true).push .comma

/-- Marks between documents and directives end all blocks. -/
def between (p : Progress) : Read Progress := do
  return (← (p.closeBlocks fun _ => true).forgetKey).allowingKey false

/-! ## Tokens of more characters -/

def part (p : Progress) (here : Cell) (token : Token) : Read Progress := do
  return ((← p.rememberKey here).allowingKey false).push token

def quoted (p : Progress) (here : Cell) (scalar : Scalar) : Read (Progress × List Cell) := do
  let p ← p.rememberKey here
  let (text, rest) ← scalar
  return ((p.allowingKey false).push (.scalar false (String.ofList text)), rest)

def plain (p : Progress) (here : Cell) (cells : List Cell) : Read (Progress × List Cell) := do
  let p ← p.rememberKey here
  let read := Yaml.plain p.inFlow p.least cells
  return ((p.allowingKey read.hasBreak).push (.scalar true (String.ofList read.text)), read.rest)

def block (p : Progress) (isFolded : Bool) (rest : List Cell) : Read (Progress × List Cell) := do
  let p ← p.forgetKey
  let (text, rest) ← Yaml.block isFolded p.least rest
  return ((p.allowingKey true).push (.scalar false (String.ofList text)), rest)

/-- Whether a mark stands here on its own. Inside brackets it always does. -/
def atMark (p : Progress) (rest : List Cell) : Bool := p.inFlow || endsWord rest

def next (p : Progress) (here : Cell) (rest : List Cell) : Read (Progress × List Cell) :=
  let cells := here :: rest
  let single (next : Read Progress) : Read (Progress × List Cell) := next.map (·, rest)
  if here.column = 0 && here.char == '%' then do
    let p ← p.between
    let (read, rest) ← directive rest
    return (p.push (.directive read), rest)
  else if here.column = 0 && atTriple '-' cells then do return ((← p.between).push .documentStart, rest.drop 2)
  else if here.column = 0 && atTriple '.' cells then do return ((← p.between).push .documentEnd, rest.drop 2)
  else match here.char with
    | '[' => single (p.openBracket here .openList)
    | '\x7b' => single (p.openBracket here .openMapping)
    | ']' => single (p.closeBracket .closeList)
    | '\x7d' => single (p.closeBracket .closeMapping)
    | ',' => single p.comma
    | '*' => do
      let (name, rest) ← anchorName rest
      return (← p.part here (.alias name), rest)
    | '&' => do
      let (name, rest) ← anchorName rest
      return (← p.part here (.anchor name), rest)
    | '!' => do
      let (tag, rest) ← writtenTag cells
      return (← p.part here (.tag tag), rest)
    | '\'' => p.quoted here (singleQuoted .none rest)
    | '"' => p.quoted here (doubleQuoted .none rest)
    | c =>
      if c == '-' && endsWord rest then single (p.dash here)
      else if c == '?' && p.atMark rest then single (p.questionMark here)
      else if c == ':' && p.atMark rest then single (p.colon here)
      else if (c == '|' || c == '>') && !p.inFlow then p.block (c == '>') rest
      else if startsPlain p.inFlow cells then p.plain here cells
      else malformed

def finish (p : Progress) : Read Progress := do
  let p ← p.forgetKeys fun _ => true
  p.between

/-- Passes the gap in front of a token: blocks that start right of the token end. -/
def pass (p : Progress) (hasBreak : Bool) (here : Cell) : Read Progress := do
  let p := if hasBreak && !p.inFlow then p.allowingKey true else p
  let p ← p.forgetStaleKeys here
  return p.closeBlocks (here.column < ·)

/-- The tokens in front of the first place where a key may have started. Those behind it are not known. -/
def known (p : Progress) (cells : List Cell) : List Token :=
  let places := p.keys.filter fun place => cells.head?.any fun here => !place.isStale here
  let position := places.foldl (fun position place => min position place.position) p.tokens.length
  p.tokens.drop (p.tokens.length - position)

/-- Reads the tokens from here on, at most as many as the fuel. -/
def run : Nat → Progress → List Cell → List Token
  | 0, p, _ => p.tokens.reverse
  | fuel + 1, p, cells =>
    match gap false false cells with
    | (_, []) =>
      match p.finish with
      | .ok p => p.tokens.reverse
      | .error cause => (Token.broken cause :: p.known cells).reverse
    | (hasBreak, here :: rest) =>
      match (p.pass hasBreak here).bind (·.next here rest) with
      | .ok (p, rest) => run fuel p rest
      | .error cause => (Token.broken cause :: p.known cells).reverse

end Progress

def tokensOf (cells : List Cell) : List Token := Progress.run (cells.length + 1) Progress.start cells

end GameScoring.Yaml
