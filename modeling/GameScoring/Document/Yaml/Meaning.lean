import GameScoring.Document.Yaml.Node
import GameScoring.Document.Yaml.Scalar

/-! # Values of nodes

What the nodes of a document stand for. Values are made level by level: what is wrong nearer to the top is
found first, and on one level what stands first.
-/
namespace GameScoring.Yaml

/-! ## Levels -/

/-- A result, or what is wrong and how far from the top. -/
abbrev Leveled (α : Type) := Except (Nat × Failure Defect) α

def atLevel {α : Type} (level : Nat) (result : Read α) : Leveled α := result.mapError (level, ·)

/-- Combines two results. Of two failures the one nearer to the top counts, or else the first. -/
def combine {α β γ : Type} (f : α → β → γ) (a : Leveled α) (b : Leveled β) : Leveled γ :=
  match a, b with
  | .ok a, .ok b => .ok (f a b)
  | .ok _, .error e => .error e
  | .error e, .ok _ => .error e
  | .error e, .error d => .error (if d.1 < e.1 then d else e)

/-- A result that needs a condition on its level. -/
def needing {α : Type} (level : Nat) (condition : Bool) (result : Leveled α) : Leveled α :=
  combine (fun _ a => a) (atLevel level (if condition then .ok () else malformed)) result

/-! ## Mappings -/

mutual

/-- The text of a scalar, or of the value that stands for a mapping. -/
def scalarText? : Node → Option String
  | .scalar _ text => some text
  | .mapping _ entries => standInText? entries
  | _ => none

def standInText? : List (Node × Node) → Option String
  | [] => none
  | (key, value) :: rest => if key.tag = .default then scalarText? value else standInText? rest

end

/-- Adds an entry; a key that is given twice keeps its first place and its last value. -/
def insertEntry (entries : List (Value × Value)) (entry : Value × Value) : List (Value × Value) :=
  if entries.any fun e => Value.sameAtom e.1 entry.1 then
    entries.map fun e => if Value.sameAtom e.1 entry.1 then (e.1, entry.2) else e
  else entries ++ [entry]

mutual

/-- Whether everything that is merged into a mapping is a mapping, or a list of mappings. -/
def canMerge : List (Node × Node) → Bool
  | [] => true
  | (key, value) :: rest => (key.tag != .merge || isMergeable value) && canMerge rest

def isMergeable : Node → Bool
  | .mapping _ entries => canMerge entries
  | .list _ items => areMergeable items
  | .enclosing isMapping _ => isMapping
  | .scalar _ _ => false

def areMergeable : List Node → Bool
  | [] => true
  | .mapping _ entries :: rest => canMerge entries && areMergeable rest
  | .enclosing isMapping _ :: rest => isMapping && areMergeable rest
  | _ :: _ => false

end

/-- Tags of values that have parts, which cannot be keys. -/
def hasParts (tag : Tag) : Bool := tag = .list || tag = .mapping || tag = .set || tag = .pairs

/-- A value without its parts, for a node that is a part of itself. -/
def standInFor : Tag → Value
  | .mapping => .object [(.null, .null)]
  | .set => .datum (.set 1)
  | _ => .list [.null]

/-- The entries of a mapping from those that are merged into it and those of its own. -/
def objectOf (level : Nat) (entries : List (Node × Node)) (merged own : Leveled (List (Value × Value))) :
    Leveled (List (Value × Value)) :=
  needing level (canMerge entries) (combine (fun merged own => (merged ++ own).foldl insertEntry []) merged own)

/-- A key, which has no parts. The one whose value can stand for its mapping is text here. -/
def keyOf (level : Nat) (key : Node) (value : Leveled Value) : Leveled Value :=
  match key with
  | .scalar .default text => .ok (.text text)
  | _ => needing level (!hasParts key.tag) value

mutual

/-- The value of a node on a level; its parts are one level deeper. -/
def valueAt (level : Nat) : Node → Leveled Value
  | .scalar tag text => if hasParts tag then atLevel (level + 1) malformed else atLevel level (scalarValue tag text)
  | .list tag items =>
    if tag = .list then (itemsAt (level + 1) items).map .list
    else if tag = .pairs then (pairsAt (level + 1) items).map .list
    else atLevel (if hasParts tag then level + 1 else level) malformed
  | .mapping tag entries =>
    let object := objectOf (level + 1) entries (mergedAt (level + 1) entries) (ownAt (level + 1) entries)
    if tag = .mapping then object.map .object
    else if tag = .set then object.map fun entries => .datum (.set entries.length)
    else if hasParts tag then atLevel (level + 1) malformed
    else match standInText? entries with
      | some text => atLevel level (scalarValue tag text)
      | none => atLevel level malformed
  | .enclosing _ tag => .ok (standInFor tag)

def itemsAt (level : Nat) : List Node → Leveled (List Value)
  | [] => .ok []
  | item :: rest => combine (· :: ·) (valueAt level item) (itemsAt level rest)

/-- The only entries of mappings, as pairs. -/
def pairsAt (level : Nat) : List Node → Leveled (List Value)
  | [] => .ok []
  | .mapping _ [(key, value)] :: rest =>
    combine (· :: ·) (combine (fun k v => .list [k, v]) (valueAt level key) (valueAt level value))
      (pairsAt level rest)
  | _ :: _ => atLevel level malformed

/-- The entries that are merged into a mapping. -/
def mergedAt (level : Nat) : List (Node × Node) → Leveled (List (Value × Value))
  | [] => .ok []
  | (key, value) :: rest =>
    combine (· ++ ·) (if key.tag = .merge then mergedFrom level value else .ok []) (mergedAt level rest)

/-- The entries of a mapping or of a list of mappings, of which the last one comes first. -/
def mergedFrom (level : Nat) : Node → Leveled (List (Value × Value))
  | .mapping _ entries => combine (· ++ ·) (mergedAt level entries) (ownAt level entries)
  | .list _ items => mergedFromAll level items
  | _ => .ok []

def mergedFromAll (level : Nat) : List Node → Leveled (List (Value × Value))
  | [] => .ok []
  | item :: rest => combine (· ++ ·) (mergedFromAll level rest) (mergedFrom level item)

/-- The entries that a mapping has of its own. -/
def ownAt (level : Nat) : List (Node × Node) → Leveled (List (Value × Value))
  | [] => .ok []
  | (key, value) :: rest =>
    if key.tag = .merge then ownAt level rest
    else
      let entry := combine Prod.mk (keyOf level key (valueAt level key)) (valueAt level value)
      combine (· :: ·) entry (ownAt level rest)

end

/-! ## Documents -/

/-- The value of the only document of a text; a text without a document is null. -/
def read (text : String) : Read Value := do
  match ← Node.ofTokens (tokensOf (← cellsOf text)) with
  | none => .ok .null
  | some node => (valueAt 0 node).mapError (·.2)

end GameScoring.Yaml
