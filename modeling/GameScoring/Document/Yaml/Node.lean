import GameScoring.Document.Yaml.Tag
import GameScoring.Document.Yaml.Token

/-! # Nodes

The parts of a document: scalars, lists and mappings, each with its tag. An alias is the node of its anchor;
inside that node itself, which has no end then, only the tag of the node is known. A part that is left out is
an empty scalar. Every reader has fuel, which bounds how deep and how long a part is.
-/
namespace GameScoring.Yaml

inductive Node
  | scalar (tag : Tag) (text : String)
  | list (tag : Tag) (items : List Node)
  | mapping (tag : Tag) (entries : List (Node × Node))
  /-- The list or mapping that this node is a part of. -/
  | enclosing (isMapping : Bool) (tag : Tag)

namespace Node

instance : Inhabited Node := ⟨scalar .null ""⟩

def tag : Node → Tag
  | scalar tag _ => tag
  | list tag _ => tag
  | mapping tag _ => tag
  | enclosing _ tag => tag

def empty : Node := scalar .null ""

end Node

/-! ## Reading tokens -/

/-- The tokens that are left, and the nodes of the anchors so far. -/
structure Source where
  tokens : List Token
  anchors : List (String × Node)

namespace Source

def next? (source : Source) : Option Token := source.tokens.head?

def skip (source : Source) : Source := { source with tokens := source.tokens.drop 1 }

def isAt (source : Source) (tokens : List Token) : Bool := source.next?.any fun token => tokens.contains token

def define (source : Source) (anchor : Option String) (node : Node) : Source :=
  match anchor with
  | some name => { source with anchors := (name, node) :: source.anchors }
  | none => source

def node? (source : Source) (name : String) : Option Node :=
  (source.anchors.find? fun e => e.1 == name).map (·.2)

end Source

abbrev NodeRead := Read (Node × Source)

/-- A token that cannot stand where it does. -/
def unexpected {α : Type} (source : Source) : Read α :=
  match source.next? with
  | some (.broken cause) => .error cause
  | _ => malformed

def expect (token : Token) (source : Source) : Read Source :=
  if source.next? = some token then .ok source.skip else unexpected source

/-! ## Anchors and tags -/

/-- What the handles of tags stand for. -/
abbrev Handles := List (String × String)

/-- The anchor and the tag in front of a node. -/
structure Properties where
  anchor : Option String
  tag : Option String
deriving DecidableEq, Repr

namespace Properties

/-- A tag that leaves the kind of a node open. -/
def isOpen (properties : Properties) : Bool := properties.tag.all (· == "!")

/-- The tag of a node, or the one of its kind. -/
def tagOr (properties : Properties) (kind : Tag) : Tag :=
  if properties.isOpen then kind else (properties.tag.map Tag.ofName).getD kind

/-- The tag of a scalar: without quotes, or with an open tag, its text shows its kind. -/
def scalarTag (properties : Properties) (isPlain : Bool) (text : String) : Tag :=
  let showsKind := properties.tag = some "!" ∨ (isPlain ∧ properties.tag = none)
  properties.tagOr (if showsKind then Tag.ofPlain text else .text)

end Properties

def tagName (handles : Handles) (tag : WrittenTag) : Read String :=
  match tag.handle with
  | none => .ok tag.suffix
  | some handle =>
    match handles.find? fun e => e.1 == handle with
    | some (_, start) => .ok (start ++ tag.suffix)
    | none => malformed

/-- Reads an anchor and a tag, in either order. No two nodes have the same anchor. -/
def properties (handles : Handles) (source : Source) : Read (Properties × Source) := do
  let (anchor, tag, source) := match source.tokens with
    | .anchor name :: .tag tag :: rest => (some name, some tag, { source with tokens := rest })
    | .tag tag :: .anchor name :: rest => (some name, some tag, { source with tokens := rest })
    | .anchor name :: rest => (some name, none, { source with tokens := rest })
    | .tag tag :: rest => (none, some tag, { source with tokens := rest })
    | _ => (none, none, source)
  let tag ← tag.mapM (tagName handles)
  if anchor.any fun name => (source.node? name).isSome then malformed else return (⟨anchor, tag⟩, source)

/-! ## Parts -/

inductive Position
  | flow
  | block
  /-- In an entry of a block mapping, where the dashes of a list may stand at the column of the keys. -/
  | entry
deriving DecidableEq, Repr

/-- How a list or a mapping goes on behind what was read of it. -/
inductive Style
  | flow
  | block
  | dashes
deriving DecidableEq, Repr

mutual

def node (handles : Handles) (position : Position) : Nat → Source → NodeRead
  | 0, source => unexpected source
  | fuel + 1, source =>
    match source.next? with
    | some (.alias name) =>
      match source.node? name with
      | some node => .ok (node, source.skip)
      | none => malformed
    | _ => do
      let (properties, source) ← properties handles source
      content handles position properties fuel source

/-- A node behind its anchor and its tag. -/
def content (handles : Handles) (position : Position) (properties : Properties) : Nat → Source → NodeRead
  | 0, source => unexpected source
  | fuel + 1, source =>
    let list (style : Style) (source : Source) : NodeRead := do
      let tag := properties.tagOr .list
      let (items, source) ← items handles style fuel (source.define properties.anchor (.enclosing false tag))
      let node := Node.list tag items
      return (node, source.define properties.anchor node)
    let mapping (style : Style) (source : Source) : NodeRead := do
      let tag := properties.tagOr .mapping
      let (entries, source) ← entries handles style fuel (source.define properties.anchor (.enclosing true tag))
      let node := Node.mapping tag entries
      return (node, source.define properties.anchor node)
    match source.next? with
    | some (.scalar isPlain text) =>
      let node := Node.scalar (properties.scalarTag isPlain text) text
      .ok (node, source.skip.define properties.anchor node)
    | some .openList => list .flow source.skip
    | some .openMapping => mapping .flow source.skip
    | token =>
      if position = .entry ∧ token = some .dash then list .dashes source
      else if position ≠ .flow ∧ token = some .blockList then list .block source.skip
      else if position ≠ .flow ∧ token = some .blockMapping then mapping .block source.skip
      else if properties = ⟨none, none⟩ then unexpected source
      else
        let node := Node.scalar (properties.scalarTag properties.isOpen "") ""
        .ok (node, source.define properties.anchor node)

/-- A node that is left out if one of these tokens follows. -/
def part (handles : Handles) (position : Position) (ends : List Token) : Nat → Source → NodeRead
  | 0, source => unexpected source
  | fuel + 1, source =>
    if source.isAt ends then .ok (.empty, source) else node handles position fuel source

/-- A value behind its mark; both may be left out. -/
def valuePart (handles : Handles) (position : Position) (ends : List Token) : Nat → Source → NodeRead
  | 0, source => unexpected source
  | fuel + 1, source =>
    if source.isAt [.value] then part handles position ends fuel source.skip else .ok (.empty, source)

/-- The items of a list, up to its end. A pair inside brackets is a mapping of its own. -/
def items (handles : Handles) (style : Style) : Nat → Source → Read (List Node × Source)
  | 0, source => unexpected source
  | fuel + 1, source =>
    let further (item : Node) (source : Source) : Read (List Node × Source) := do
      let (rest, source) ← items handles style fuel source
      return (item :: rest, source)
    let afterItem (item : Node) (source : Source) : Read (List Node × Source) :=
      if source.isAt [.comma] then further item source.skip
      else do return ([item], ← expect .closeList source)
    match style with
    | .flow =>
      if source.isAt [.closeList] then .ok ([], source.skip)
      else if source.isAt [.key] then do
        let (key, source) ← part handles .flow [.value, .comma, .closeList] fuel source.skip
        let (value, source) ← valuePart handles .flow [.comma, .closeList] fuel source
        afterItem (.mapping .mapping [(key, value)]) source
      else do
        let (item, source) ← node handles .flow fuel source
        afterItem item source
    | .block =>
      if source.isAt [.dash] then do
        let (item, source) ← part handles .block [.dash, .blockEnd] fuel source.skip
        further item source
      else do return ([], ← expect .blockEnd source)
    | .dashes =>
      if source.isAt [.dash] then do
        let (item, source) ← part handles .block [.dash, .key, .value, .blockEnd] fuel source.skip
        further item source
      else .ok ([], source)

/-- The entries of a mapping, up to its end. A key on its own has no value. -/
def entries (handles : Handles) (style : Style) : Nat → Source → Read (List (Node × Node) × Source)
  | 0, source => unexpected source
  | fuel + 1, source =>
    let further (entry : Node × Node) (source : Source) : Read (List (Node × Node) × Source) := do
      let (rest, source) ← entries handles style fuel source
      return (entry :: rest, source)
    let afterEntry (entry : Node × Node) (source : Source) : Read (List (Node × Node) × Source) :=
      if source.isAt [.comma] then further entry source.skip
      else do return ([entry], ← expect .closeMapping source)
    match style with
    | .flow =>
      if source.isAt [.closeMapping] then .ok ([], source.skip)
      else if source.isAt [.key] then do
        let (key, source) ← part handles .flow [.value, .comma, .closeMapping] fuel source.skip
        let (value, source) ← valuePart handles .flow [.comma, .closeMapping] fuel source
        afterEntry (key, value) source
      else do
        let (key, source) ← node handles .flow fuel source
        afterEntry (key, .empty) source
    | _ =>
      if source.isAt [.key] then do
        let (key, source) ← part handles .entry [.key, .value, .blockEnd] fuel source.skip
        let (value, source) ← valuePart handles .entry [.key, .value, .blockEnd] fuel source
        further (key, value) source
      else do return ([], ← expect .blockEnd source)

end

/-! ## Documents -/

def defaultHandles : Handles := [("!", "!"), ("!!", Tag.standard)]

/-- Directives in front of a document: at most one version, which has to be the first one, and handles. -/
def directives (hasVersion : Bool) (handles : Handles) : List Token → Read (Handles × List Token)
  | .directive (.version major) :: rest =>
    if hasVersion || major ≠ 1 then malformed else directives true handles rest
  | .directive (.handle handle start) :: rest =>
    if handles.any (·.1 == handle) then malformed else directives hasVersion ((handle, start) :: handles) rest
  | .directive .other :: rest => directives hasVersion handles rest
  | tokens => .ok (handles ++ defaultHandles, tokens)

def endsDocument : List Token → Bool
  | [] => true
  | .directive _ :: _ => true
  | token :: _ => token == .documentStart || token == .documentEnd

/-- How deep and how long a part of so many tokens can be. -/
def fuelFor (tokens : List Token) : Nat := 4 * tokens.length + 4

/-- The document in front of the tokens, of which there may be none. -/
def document (tokens : List Token) : Read (Option Node × List Token) :=
  let block (handles : Handles) (tokens : List Token) : Read (Option Node × List Token) := do
    let (node, source) ← node handles .block (fuelFor tokens) ⟨tokens, []⟩
    return (some node, source.tokens)
  match tokens with
  | [] => .ok (none, [])
  | _ =>
    if endsDocument tokens && tokens.head? != some .documentEnd then do
      let (handles, rest) ← directives false [] tokens
      let rest ← expect .documentStart ⟨rest, []⟩
      if endsDocument rest.tokens then return (some .empty, rest.tokens) else block handles rest.tokens
    else block defaultHandles tokens

def Node.ofTokens (tokens : List Token) : Read (Option Node) := do
  let (node, rest) ← document tokens
  let rest := rest.dropWhile (· == .documentEnd)
  if rest.isEmpty then return node else unexpected ⟨rest, []⟩

end GameScoring.Yaml
