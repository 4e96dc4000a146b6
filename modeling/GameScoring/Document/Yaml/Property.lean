import GameScoring.Document.Yaml.Cell
import GameScoring.Text.Encoding
import GameScoring.Text.Hex

/-! # Names, tags and directives

A name belongs to an anchor or an alias. A tag is written with a handle, which stands for the beginning of
the tag, or without one. A directive in front of a document gives the version or a handle.
-/
namespace GameScoring.Yaml

/-! ## Names -/

def name (cells : List Cell) : Read (String × List Cell) :=
  let read := (cells.takeWhile fun c => isNameChar c.char).map (·.char)
  if read.isEmpty then malformed
  else .ok (String.ofList read, cells.dropWhile fun c => isNameChar c.char)

/-- Marks that may follow the name of an anchor. -/
def nameEnds : List Char := ['?', ':', ',', ']', '\x7d', '%', '@', '\x60']

def anchorName (cells : List Cell) : Read (String × List Cell) := do
  let (read, rest) ← name cells
  if endsWhere (fun c => isSpace c || isBreak c || nameEnds.contains c) rest then .ok (read, rest) else malformed

/-! ## Tags -/

/-- Marks that a tag may hold besides letters and digits. -/
def tagMarks : List Char :=
  ['-', ';', '/', '?', ':', '@', '&', '=', '+', '$', ',', '_', '.', '!', '~', '*', '\'', '(', ')', '[', ']']

/-- The characters of a row of bytes, which has to encode text. -/
def escapedText (bytes : List UInt8) : Read (List Char) :=
  let chars := Text.decodeBytes bytes
  if (String.ofList chars).toUTF8.toList = bytes then .ok chars else malformed

/-- Reads the characters of a tag; bytes that are written by number encode characters. -/
def tagChars (pending : List UInt8) (cells : List Cell) : Read (List Char × List Cell) :=
  match cells with
  | [] => do return (← escapedText pending, [])
  | c :: rest =>
    if c.char == '%' then
      match rest with
      | high :: low :: later =>
        match Text.hexNumber? [high.char, low.char] with
        | some byte => tagChars (pending ++ [UInt8.ofNat byte]) later
        | none => malformed
      | _ => malformed
    else do
      let text ← escapedText pending
      if c.char.isAlphanum || tagMarks.contains c.char then
        let (read, rest) ← tagChars [] rest
        .ok (text ++ c.char :: read, rest)
      else .ok (text, c :: rest)

/-- A part of a tag, which is not empty. -/
def tagText (cells : List Cell) : Read (String × List Cell) := do
  let (read, rest) ← tagChars [] cells
  if read.isEmpty then malformed else .ok (String.ofList read, rest)

/-- A handle: an exclamation mark, or a name between two of them. -/
def handle (cells : List Cell) : Read (String × List Cell) :=
  match cells with
  | [] => malformed
  | c :: rest =>
    if c.char != '!' then malformed
    else
      let inner := (rest.takeWhile fun c => isNameChar c.char).map (·.char)
      match rest.dropWhile fun c => isNameChar c.char with
      | [] => malformed
      | d :: later =>
        if d.char == '!' then .ok (String.ofList ('!' :: inner ++ ['!']), later)
        else if startsWith ' ' rest then .ok ("!", rest)
        else malformed

structure WrittenTag where
  /-- What the tag starts with; none if it is complete. -/
  handle : Option String
  suffix : String
deriving DecidableEq, Repr

/-- Whether a second exclamation mark follows in the same word. -/
def hasHandle (cells : List Cell) : Bool :=
  (cells.takeWhile fun c => c.char != ' ' && !isBreak c.char).any (·.char == '!')

/-- The tag behind an exclamation mark. -/
def tagBody (cells : List Cell) (rest : List Cell) : Read (WrittenTag × List Cell) :=
  if startsWith '<' rest then do
    let (suffix, rest) ← tagText (rest.drop 1)
    if startsWith '>' rest then .ok (⟨none, suffix⟩, rest.drop 1) else malformed
  else if endsWord rest then .ok (⟨none, "!"⟩, rest)
  else if hasHandle rest then do
    let (handle, rest) ← handle cells
    let (suffix, rest) ← tagText rest
    .ok (⟨some handle, suffix⟩, rest)
  else do
    let (suffix, rest) ← tagText rest
    .ok (⟨some "!", suffix⟩, rest)

def writtenTag (cells : List Cell) : Read (WrittenTag × List Cell) := do
  let (tag, rest) ← tagBody cells (cells.drop 1)
  if endsPart rest then .ok (tag, rest) else malformed

/-! ## Directives -/

inductive Directive
  | version (major : Nat)
  | handle (handle tagStart : String)
  /-- Any other directive, which says nothing. -/
  | other
deriving DecidableEq, Repr

def number (cells : List Cell) : Read (Nat × List Cell) :=
  let digits := (cells.takeWhile fun c => Text.isAsciiDigit c.char).map (·.char)
  if digits.isEmpty then malformed
  else .ok (Text.digitsValue digits, cells.dropWhile fun c => Text.isAsciiDigit c.char)

def version (cells : List Cell) : Read (Directive × List Cell) := do
  let (major, rest) ← number (skipSpaces cells)
  if !startsWith '.' rest then malformed
  else
    let (_, rest) ← number (rest.drop 1)
    if endsPart rest then .ok (.version major, rest) else malformed

def handleDirective (cells : List Cell) : Read (Directive × List Cell) := do
  let (handle, rest) ← handle (skipSpaces cells)
  if !startsWith ' ' rest then malformed
  else
    let (start, rest) ← tagText (skipSpaces rest)
    if endsPart rest then .ok (.handle handle start, rest) else malformed

/-- The directive behind a percent sign, up to the end of its line. -/
def directive (cells : List Cell) : Read (Directive × List Cell) := do
  let (name, rest) ← name cells
  if !endsPart rest then malformed
  else
    let (read, rest) ←
      if name = "YAML" then version rest
      else if name = "TAG" then handleDirective rest
      else .ok (.other, rest.dropWhile fun c => !isBreak c.char)
    .ok (read, ← lineRest rest)

end GameScoring.Yaml
