import GameScoring.Proofs.Formula.Spelling

/-!
# Formulas are put together

The parts of a formula in parentheses keep their trees, whatever operator, conditional or call
they are put into. A part is cut into the same lexemes as on its own, since what stands before
and behind it is separated from it, and the phrase of its tokens goes into the phrase of the
whole. So only the limits can keep a combination of formulas from being a formula.
-/
namespace GameScoring.Formula

/-- The ways to put formulas together to one. -/
inductive Combination
  | parenthesised (body : Formula)
  | negated (operand : Formula)
  | arithmetic (op : Arithmetic) (left right : Formula)
  | compare (op : Comparison) (left right : Formula)
  | choose (condition yes no : Formula)
  | call (function : Function) (arguments : List Formula)
      (accepted : function.accepts arguments.length = true)

namespace Combination

/-- The formulas that are put together. -/
def parts : Combination → List Formula
  | parenthesised body => [body]
  | negated operand => [operand]
  | arithmetic _ left right | compare _ left right => [left, right]
  | choose condition yes no => [condition, yes, no]
  | call _ arguments _ => arguments

/-- The text of a combination. The branches of a conditional and the arguments of a call stand
as they are, all other parts in parentheses. -/
def text : Combination → String
  | parenthesised body => "(" ++ body.text ++ ")"
  | negated operand => "-(" ++ operand.text ++ ")"
  | arithmetic op left right => "(" ++ left.text ++ ") " ++ op.symbol ++ " (" ++ right.text ++ ")"
  | compare op left right => "(" ++ left.text ++ ") " ++ op.symbol ++ " (" ++ right.text ++ ")"
  | choose condition yes no => "(" ++ condition.text ++ ") ? " ++ yes.text ++ " : " ++ no.text
  | call function arguments _ =>
    function.name ++ "(" ++ ", ".intercalate (arguments.map Formula.text) ++ ")"

/-- The tree of a combination, without positions. -/
def tree : Combination → Tree Unit
  | parenthesised body => body.root.bare
  | negated operand => .negate () operand.root.bare
  | arithmetic op left right => .arithmetic () op left.root.bare right.root.bare
  | compare op left right => .compare () op left.root.bare right.root.bare
  | choose condition yes no => .choose () condition.root.bare yes.root.bare no.root.bare
  | call function arguments _ => .call () function (arguments.map fun f => f.root.bare)

/-- The nodes that a combination adds to those of its parts. -/
def ownNodes : Combination → Nat
  | parenthesised _ => 0
  | _ => 1

/-- The nodes of the parts together. -/
def partNodes (k : Combination) : Nat := k.parts.foldr (fun f total => f.nodeCount + total) 0

theorem size_tree (k : Combination) (h : ∀ f ∈ k.parts, f.nodeCount = f.root.size) :
    k.tree.size = k.partNodes + k.ownNodes := by
  have total (fs : List Formula) (h : ∀ f ∈ fs, f.nodeCount = f.root.size) :
      Tree.totalSize (fs.map fun f => f.root.bare) = fs.foldr (fun f total => f.nodeCount + total) 0 := by
    induction fs with
    | nil => rfl
    | cons f fs ih =>
      obtain ⟨here, there⟩ := List.forall_mem_cons.1 h
      rw [List.map_cons, Tree.totalSize, ih there, Tree.size_bare, List.foldr_cons, here]
  cases k with
  | call function arguments accepted =>
    simp only [tree, Tree.size, partNodes, parts, ownNodes, total arguments h]
  | _ =>
    simp only [parts, List.forall_mem_cons] at h
    simp [tree, partNodes, parts, ownNodes, Tree.size, Tree.size_bare, h, Nat.add_assoc]

theorem mem_variableNames_tree (k : Combination) (name : String) :
    name ∈ k.tree.variableNames ↔ ∃ f ∈ k.parts, name ∈ f.root.variableNames := by
  cases k with
  | parenthesised body => simp [tree, parts, Tree.variableNames_bare]
  | call function arguments accepted =>
    rw [Tree.mem_variableNames_iff]
    simp only [tree, parts, Tree.referenceName?, Tree.children, reduceCtorEq, false_or]
    constructor
    · rintro ⟨u, member, named⟩
      obtain ⟨f, hf, rfl⟩ := List.mem_map.1 member
      exact ⟨f, hf, Tree.variableNames_bare f.root ▸ named⟩
    · rintro ⟨f, hf, named⟩
      exact ⟨f.root.bare, List.mem_map_of_mem hf, (Tree.variableNames_bare f.root).symm ▸ named⟩
  | _ =>
    rw [Tree.mem_variableNames_iff]
    simp [tree, parts, Tree.referenceName?, Tree.children, Tree.variableNames_bare]

/-- The text of a combination is that of a phrase for its tree. -/
theorem spells (k : Combination) (h : ∀ f ∈ k.parts, Spells .conditional f.text.toList f.root) :
    ∃ t : Node, Spells .conditional k.text.toList t ∧ t.bare = k.tree := by
  cases k with
  | parenthesised body =>
    have enclosed := (h body (by simp [parts])).parenthesised
    refine ⟨body.root, ?_, rfl⟩
    simpa [text] using enclosed.bare.unsigned.expression.single.plain
  | negated operand =>
    have enclosed := (h operand (by simp [parts])).parenthesised
    refine ⟨Node.negate 0 operand.root, ?_, Formula.bare_negate ..⟩
    simpa [text] using enclosed.bare.unsigned.negated.expression.single.plain
  | arithmetic op left right =>
    have hl := (h left (by simp [parts])).parenthesised
    have hr := (h right (by simp [parts])).parenthesised
    refine ⟨Node.arithmetic 0 op left.root right.root, ?_, Formula.bare_arithmetic ..⟩
    simpa [text] using (hl.arithmetic op hr).single.plain
  | compare op left right =>
    have hl := (h left (by simp [parts])).parenthesised.bare.unsigned.expression
    have hr := (h right (by simp [parts])).parenthesised.bare.unsigned.expression
    refine ⟨Node.compare 0 op left.root right.root, ?_, Formula.bare_compare ..⟩
    simpa [text] using (hl.compare op hr).plain
  | choose condition yes no =>
    have hc := (h condition (by simp [parts])).parenthesised.bare.unsigned.expression.single
    have hy := h yes (by simp [parts])
    have hn := h no (by simp [parts])
    refine ⟨Node.choose 0 condition.root yes.root no.root, ?_, Formula.bare_choose ..⟩
    simpa [text] using hc.choose hy hn
  | call function arguments accepted =>
    cases arguments with
    | nil => cases function <;> cases accepted
    | cons first others =>
      have list := Spells.argumentList h
      have accepted' : function.accepts ((first :: others).map root).length = true := by
        rwa [List.length_map]
      refine ⟨Node.call 0 function ((first :: others).map root), ?_, ?_⟩
      · simpa [text] using (Spells.call accepted' list).bare.unsigned.expression.single.plain
      · rw [Formula.bare_call, List.map_map]
        rfl

end Combination

/-- A combination of accepted formulas is accepted with the tree that is made of their trees, with
all their variables and with their nodes and at most one more, or it is rejected as too complex. -/
theorem combination_keeps_parts (k : Combination) (accepted : ∀ f ∈ k.parts, ofText f.text = .ok f) :
    (∃ f, ofText k.text = .ok f ∧ f.root.bare = k.tree ∧
      (∀ name, name ∈ f.variableNames ↔ ∃ part ∈ k.parts, name ∈ part.variableNames) ∧
      f.nodeCount = k.partNodes + k.ownNodes) ∨
    ∃ r, ofText k.text = .error r ∧ r.report.kind = .complexity := by
  have census {text : String} {f : Formula} (h : ofText text = .ok f) :
      f.nodeCount = f.root.size ∧ f.variableNames = f.root.variableNames := by
    obtain ⟨_, -, -, -, made⟩ := ofText_ok_iff.1 h
    exact ⟨congrArg nodeCount made, congrArg variableNames made⟩
  obtain ⟨t, spells, tree⟩ := k.spells fun f hf => .of_ofText (accepted f hf)
  refine spells.ofText.imp_left ?_
  rintro ⟨f, ok, same⟩
  have same : f.root.bare = k.tree := same.trans tree
  refine ⟨f, ok, same, fun name => ?_, ?_⟩
  · rw [(census ok).2, ← Tree.variableNames_bare, same, k.mem_variableNames_tree]
    exact exists_congr fun part => and_congr_right fun member => by rw [(census (accepted part member)).2]
  · rw [(census ok).1, ← Tree.size_bare, same]
    exact k.size_tree fun part member => (census (accepted part member)).1

/-- A sum in parentheses stays a factor. -/
theorem product_keeps_sum : ∃ sum factor product : Formula, ofText "a + b" = .ok sum ∧
    ofText "c" = .ok factor ∧ ofText "(a + b) * (c)" = .ok product ∧
    product.root.bare = .arithmetic () .multiply sum.root.bare factor.root.bare ∧
    product.nodeCount = sum.nodeCount + factor.nodeCount + 1 := by
  have accepted (text : String) (h : (ofText text).toOption.isSome = true) :
      ∃ f, ofText text = .ok f ∧ f.text = text := by
    obtain ⟨f, hf⟩ := Option.isSome_iff_exists.1 h
    obtain ⟨_, -, -, -, made⟩ := ofText_ok_iff.1 (ok_of_toOption hf)
    exact ⟨f, ok_of_toOption hf, congrArg Formula.text made⟩
  obtain ⟨sum, hs, sumText⟩ := accepted "a + b" (by decide +kernel)
  obtain ⟨factor, hf, factorText⟩ := accepted "c" (by decide +kernel)
  obtain ⟨product, hp, -⟩ := accepted "(a + b) * (c)" (by decide +kernel)
  let k : Combination := .arithmetic .multiply sum factor
  have text : k.text = "(a + b) * (c)" := by
    simp only [k, Combination.text, sumText, factorText]
    decide
  have parts : ∀ f ∈ k.parts, ofText f.text = .ok f := by
    simp [k, Combination.parts, sumText, factorText, hs, hf]
  obtain ⟨f, ok, tree, -, count⟩ | ⟨r, rejected, -⟩ := combination_keeps_parts k parts
  · rw [text, hp] at ok
    cases ok
    exact ⟨sum, factor, product, hs, hf, hp, tree, by simpa [k, Combination.partNodes, Combination.parts, Combination.ownNodes] using count⟩
  · rw [text, hp] at rejected
    cases rejected

end GameScoring.Formula
