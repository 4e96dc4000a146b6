import GameScoring.Formula.Parser

/-! # Formulas

A formula is text that has been parsed, with its tree and a census of it. `Formula.ofText` checks blank
and overlong text first, then the characters, then the grammar.
-/
namespace GameScoring

structure Formula where
  text : String
  root : Formula.Node
  nodeCount : Nat
  variableNames : List String

namespace Formula

def depth (f : Formula) : Nat := f.root.depth

def ofText (text : String) : Except Rejection Formula := do
  if Text.isBlankText text then throw ⟨.empty, none⟩
  if maxLength < text.length then throw ⟨.tooLong, none⟩
  let tokens ← Token.scan text
  let (root, finish) ← Parser.whole ⟨tokens, text.length, 0⟩
  return ⟨text, root, finish.nodes, root.variableNames⟩

/-- Only text can be a formula. -/
def ofValue : Value → Except Rejection Formula
  | .text text => ofText text
  | _ => throw ⟨.notText, none⟩

end Formula

end GameScoring
