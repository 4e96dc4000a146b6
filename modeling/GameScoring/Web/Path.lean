import GameScoring.Text.Encoding
import GameScoring.Text.Hex

/-! # Paths

A path is written with percent signs and two hexadecimal digits for bytes of its text. Its parts stand
between slashes; a part that is one dot stands for nothing, and two dots take back the part before.
-/
namespace GameScoring.Web
open Text

/-- The bytes of text with percent signs. A percent sign without two hexadecimal digits stands for itself. -/
def unescapedBytes : List Char → List UInt8
  | '%' :: high :: low :: rest =>
    match hexValue? high, hexValue? low with
    | some h, some l => UInt8.ofNat (16 * h + l) :: unescapedBytes rest
    | _, _ => '%'.toUInt8 :: unescapedBytes (high :: low :: rest)
  | c :: rest => String.utf8EncodeChar c ++ unescapedBytes rest
  | [] => []

/-- The text that percent signs and other characters write together. -/
def unescape (text : List Char) : List Char := decodeBytes (unescapedBytes text)

/-- Reads percent signs a second time, after the ASCII characters of a run in reverse: now a character that
is not ASCII stands for itself and is no part of an encoding. -/
def unescapeRuns (run : List Char) : List Char → List Char
  | [] => unescape run.reverse
  | c :: rest =>
    if c.toNat < 128 then unescapeRuns (c :: run) rest else unescape run.reverse ++ c :: unescapeRuns [] rest

def segments (path : String) : List String :=
  (path.toList.splitOn '/').map String.ofList

def addSegment (kept : List String) (segment : String) : List String :=
  if segment = "." then kept
  else if segment = ".." then (if kept = [""] then kept else kept.dropLast)
  else kept ++ [segment]

def withoutDots (path : String) : String := "/".intercalate ((segments path).foldl addSegment [])

def withoutTrailingSlashes (path : String) : String :=
  String.ofList (path.toList.reverse.dropWhile (· == '/')).reverse

/-- What is written behind a host, if a host is named in front of the path. -/
def withoutHost : List Char → List Char
  | '/' :: '/' :: rest => rest.dropWhile (· != '/')
  | path => path

/-- The text of a path as it is written in an address. It starts with exactly one slash, and its percent
signs are read twice. -/
def readPath (written : List Char) : String :=
  let path := withoutDots (String.ofList ('/' :: (withoutHost written).dropWhile (· == '/')))
  String.ofList (unescapeRuns [] (unescape (if path.isEmpty then ['/'] else path.toList)))

end GameScoring.Web
