import GameScoring.Web.Path

/-! # Addresses

An address is a path, a query behind a question mark and a fragment behind a hash. A query is a row of
names with values.
-/
namespace GameScoring.Web
open Text

structure Address where
  path : String
  query : String
deriving DecidableEq, Repr

namespace Address

/-- Reads an address. The fragment is passed over. -/
def ofText (written : String) : Address :=
  let chars := written.toList.takeWhile (· != '#')
  ⟨readPath (chars.takeWhile (· != '?')), String.ofList ((chars.dropWhile (· != '?')).drop 1)⟩

def redirected (a : Address) (path : String) : Address :=
  ofText (if a.query.isEmpty then path else path ++ "?" ++ a.query)

/-- What a path is called where requests are counted: line ends and tabs are left out, and a question mark
or a hash ends it. -/
def label (a : Address) : String :=
  let shown := a.path.toList.filter fun c => c != '\t' && c != '\r' && c != '\n'
  String.ofList (shown.takeWhile fun c => c != '?' && c != '#')

end Address

/-! ## Queries -/

/-- A name or a value of a query, in which a plus sign is a blank. -/
def queryText (written : List Char) : String :=
  String.ofList (unescape (written.map fun c => if c == '+' then ' ' else c))

def readPair (written : List Char) : String × String :=
  (queryText (written.takeWhile (· != '=')), queryText ((written.dropWhile (· != '=')).drop 1))

def readQuery (written : String) : List (String × String) :=
  ((written.toList.splitOn '&').filter (!·.isEmpty)).map readPair

/-- The value of a name, of which the last one counts. -/
def queryValue? (query : List (String × String)) (name : String) : Option String := query.reverse.lookup name

def escapeAll (text : String) : List Char :=
  (text.toList.flatMap String.utf8EncodeChar).flatMap fun b => '%' :: hexDigits 2 b.toNat

def writeQuery (pairs : List (String × String)) : String :=
  String.ofList ((pairs.map fun e => escapeAll e.1 ++ '=' :: escapeAll e.2).intersperse ['&']).flatten

end GameScoring.Web
