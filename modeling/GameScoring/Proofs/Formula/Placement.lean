import GameScoring.Proofs.Formula.Phrase
import GameScoring.Proofs.Formula.Walk

/-!
# Phrases in other places

A phrase can be written with the same lexemes in other places, and then it stands for the same
tree but for the positions in it.
-/
namespace GameScoring.Formula
open GameScoring.Formula.Tree

/-- The lexemes of tokens, whatever their positions. -/
abbrev lexemes (ts : List Token) : List Lexeme := ts.map Token.lexeme

section Bare
variable (position : Nat)

theorem bare_number (value : Float) : (Node.number position value).bare = .number () value := rfl

theorem bare_reference (name : String) : (Node.reference position name).bare = .reference () name := rfl

theorem bare_negate (operand : Node) : (Node.negate position operand).bare = .negate () operand.bare := rfl

theorem bare_arithmetic (op : Arithmetic) (left right : Node) :
    (Node.arithmetic position op left right).bare = .arithmetic () op left.bare right.bare := rfl

theorem bare_compare (op : Comparison) (left right : Node) :
    (Node.compare position op left right).bare = .compare () op left.bare right.bare := rfl

theorem bare_choose (condition yes no : Node) :
    (Node.choose position condition yes no).bare = .choose () condition.bare yes.bare no.bare := rfl

theorem bare_call (function : Function) (arguments : List Node) :
    (Node.call position function arguments).bare = .call () function (arguments.map bare) :=
  congrArg (Tree.call () function) (mapAll_eq_map _ _)

end Bare

/-- Two meanings that differ in positions only. -/
def Category.Alike : {c : Category} → c.Meaning → c.Meaning → Prop
  | .turns _, f, g => ∀ left left' : Node, left.bare = left'.bare → (f left).bare = (g left').bare
  | .arguments, ts, us | .argumentList, ts, us => ts.map bare = us.map bare
  | .conditional, t, u | .comparison, t, u | .chain _, t, u | .operand _, t, u | .signed, t, u
  | .power, t, u | .primary, t, u => t.bare = u.bare

namespace Phrase
open Category

/-- The phrase can be written with these tokens. -/
def PlacedAs {c : Category} (p : Phrase c) (ts : List Token) : Prop :=
  ∃ q : Phrase c, q.tokens = ts ∧ ∀ m, p.meaning? = some m → ∃ m', q.meaning? = some m' ∧ Alike m m'

section Split
variable {ts : List Token} {ls ms : List Lexeme} {l : Lexeme}

theorem split_append (h : lexemes ts = ls ++ ms) :
    ∃ us vs, ts = us ++ vs ∧ lexemes us = ls ∧ lexemes vs = ms := List.map_eq_append_iff.1 h

theorem split_cons (h : lexemes ts = l :: ls) :
    ∃ position us, ts = ⟨l, position⟩ :: us ∧ lexemes us = ls := by
  obtain ⟨⟨_, position⟩, us, rfl, same, rest⟩ := List.map_eq_cons_iff.1 h
  cases same
  exact ⟨position, us, rfl, rest⟩

theorem split_single (h : lexemes ts = [l]) : ∃ position, ts = [⟨l, position⟩] := by
  obtain ⟨position, us, rfl, rest⟩ := split_cons h
  cases List.map_eq_nil_iff.1 rest
  exact ⟨position, rfl⟩

end Split

/-- The phrase can be written with all tokens that have its lexemes. -/
def Movable {c : Category} (p : Phrase c) : Prop := ∀ ts, lexemes ts = lexemes p.tokens → p.PlacedAs ts

namespace Movable

theorem choose {condition : Phrase .comparison} {yes no : Phrase .conditional} (hc : condition.Movable)
    (hy : yes.Movable) (hn : no.Movable) (question colon : Nat) :
    (choose condition question yes colon no).Movable := by
  intro ts h
  simp only [tokens, lexemes, List.map_append, List.map_cons] at h
  obtain ⟨us, vs, rfl, h₁, h₂⟩ := split_append h
  obtain ⟨question', vs, rfl, h₃⟩ := split_cons h₂
  obtain ⟨ws, vs, rfl, h₄, h₅⟩ := split_append h₃
  obtain ⟨colon', xs, rfl, h₆⟩ := split_cons h₅
  obtain ⟨condition', rfl, alike⟩ := hc us h₁
  obtain ⟨yes', rfl, alike'⟩ := hy ws h₄
  obtain ⟨no', rfl, alike''⟩ := hn xs h₆
  refine ⟨.choose condition' question' yes' colon' no', rfl, fun m means => ?_⟩
  obtain ⟨c, y, n, hc, hy, hn, rfl⟩ := meaning?_choose.1 means
  obtain ⟨c', hc', same⟩ := alike c hc
  obtain ⟨y', hy', same'⟩ := alike' y hy
  obtain ⟨n', hn', same''⟩ := alike'' n hn
  refine ⟨_, meaning?_choose.2 ⟨c', y', n', hc', hy', hn', rfl⟩, ?_⟩
  show Tree.bare _ = Tree.bare _
  rw [bare_choose, bare_choose, same, same', same'']

theorem compare {left right : Phrase (.chain .additive)} (hl : left.Movable) (hr : right.Movable)
    (op : Comparison) (sign : Nat) : (compare left op sign right).Movable := by
  intro ts h
  simp only [tokens, lexemes, List.map_append, List.map_cons] at h
  obtain ⟨us, vs, rfl, h₁, h₂⟩ := split_append h
  obtain ⟨sign', vs, rfl, h₃⟩ := split_cons h₂
  obtain ⟨left', rfl, alike⟩ := hl us h₁
  obtain ⟨right', rfl, alike'⟩ := hr vs h₃
  refine ⟨.compare left' op sign' right', rfl, fun m means => ?_⟩
  obtain ⟨l, r, hl, hr, rfl⟩ := meaning?_compare.1 means
  obtain ⟨l', hl', same⟩ := alike l hl
  obtain ⟨r', hr', same'⟩ := alike' r hr
  refine ⟨_, meaning?_compare.2 ⟨l', r', hl', hr', rfl⟩, ?_⟩
  show Tree.bare _ = Tree.bare _
  rw [bare_compare, bare_compare, same, same']

theorem chain {tier : Tier} {first : Phrase (.operand tier)} {rest : Phrase (.turns tier)}
    (hf : first.Movable) (hr : rest.Movable) : (chain first rest).Movable := by
  intro ts h
  simp only [tokens, lexemes, List.map_append] at h
  obtain ⟨us, vs, rfl, h₁, h₂⟩ := split_append h
  obtain ⟨first', rfl, alike⟩ := hf us h₁
  obtain ⟨rest', rfl, alike'⟩ := hr vs h₂
  refine ⟨.chain first' rest', rfl, fun m means => ?_⟩
  obtain ⟨u, f, hu, hf, rfl⟩ := meaning?_chain.1 means
  obtain ⟨u', hu', same⟩ := alike u hu
  obtain ⟨f', hf', same'⟩ := alike' f hf
  exact ⟨_, meaning?_chain.2 ⟨u', f', hu', hf', rfl⟩, same' u u' same⟩

theorem done {tier : Tier} : (@done tier).Movable := by
  intro ts h
  cases List.map_eq_nil_iff.1 h
  refine ⟨.done, rfl, fun m means => ⟨m, means, ?_⟩⟩
  cases means
  exact fun _ _ same => same

theorem turn {tier : Tier} {right : Phrase (.operand tier)} {rest : Phrase (.turns tier)}
    (hr : right.Movable) (hm : rest.Movable) (op : Arithmetic) (joins : tier.joins op = true) (sign : Nat) :
    (turn op joins sign right rest).Movable := by
  intro ts h
  simp only [tokens, lexemes, List.map_append, List.map_cons] at h
  obtain ⟨sign', vs, rfl, h₁⟩ := split_cons h
  obtain ⟨us, vs, rfl, h₂, h₃⟩ := split_append h₁
  obtain ⟨right', rfl, alike⟩ := hr us h₂
  obtain ⟨rest', rfl, alike'⟩ := hm vs h₃
  refine ⟨.turn op joins sign' right' rest', rfl, fun m means => ?_⟩
  obtain ⟨r, g, hr, hg, rfl⟩ := meaning?_turn.1 means
  obtain ⟨r', hr', same⟩ := alike r hr
  obtain ⟨g', hg', same'⟩ := alike' g hg
  refine ⟨_, meaning?_turn.2 ⟨r', g', hr', hg', rfl⟩, fun left left' equal => same' _ _ ?_⟩
  rw [bare_arithmetic, bare_arithmetic, equal, same]

theorem negate {operand : Phrase .signed} (h : operand.Movable) (sign : Nat) : (negate sign operand).Movable := by
  intro ts lexemes
  obtain ⟨sign', vs, rfl, rest⟩ := split_cons lexemes
  obtain ⟨operand', rfl, alike⟩ := h vs rest
  refine ⟨.negate sign' operand', rfl, fun m means => ?_⟩
  obtain ⟨u, hu, rfl⟩ := meaning?_negate.1 means
  obtain ⟨u', hu', same⟩ := alike u hu
  exact ⟨_, meaning?_negate.2 ⟨u', hu', rfl⟩, congrArg (Tree.negate ()) same⟩

theorem power {base : Phrase .primary} {exponent : Phrase .signed} (hb : base.Movable) (he : exponent.Movable)
    (sign : Nat) : (power base sign exponent).Movable := by
  intro ts h
  simp only [tokens, lexemes, List.map_append, List.map_cons] at h
  obtain ⟨us, vs, rfl, h₁, h₂⟩ := split_append h
  obtain ⟨sign', vs, rfl, h₃⟩ := split_cons h₂
  obtain ⟨base', rfl, alike⟩ := hb us h₁
  obtain ⟨exponent', rfl, alike'⟩ := he vs h₃
  refine ⟨.power base' sign' exponent', rfl, fun m means => ?_⟩
  obtain ⟨b, e, hb, he, rfl⟩ := meaning?_power.1 means
  obtain ⟨b', hb', same⟩ := alike b hb
  obtain ⟨e', he', same'⟩ := alike' e he
  refine ⟨_, meaning?_power.2 ⟨b', e', hb', he', rfl⟩, ?_⟩
  show Tree.bare _ = Tree.bare _
  rw [bare_arithmetic, bare_arithmetic, same, same']

theorem number (literal : String) (start : Nat) : (number literal start).Movable := by
  intro ts h
  obtain ⟨start', rfl⟩ := split_single h
  refine ⟨.number literal start', rfl, fun m means => ?_⟩
  obtain ⟨finite, rfl⟩ := meaning?_number.1 means
  refine ⟨_, meaning?_number.2 ⟨finite, rfl⟩, ?_⟩
  show Tree.bare _ = Tree.bare _
  rw [bare_number, bare_number]

theorem reference (name : String) (start : Nat) : (reference name start).Movable := by
  intro ts h
  obtain ⟨start', rfl⟩ := split_single h
  refine ⟨.reference name start', rfl, fun m means => ?_⟩
  obtain ⟨free, rfl⟩ := meaning?_reference.1 means
  refine ⟨_, meaning?_reference.2 ⟨free, rfl⟩, ?_⟩
  show Tree.bare _ = Tree.bare _
  rw [bare_reference, bare_reference]

theorem parenthesised {body : Phrase .conditional} (h : body.Movable) (opening closing : Nat) :
    (parenthesised opening body closing).Movable := by
  intro ts lexemes_eq
  simp only [tokens, lexemes, List.map_append, List.map_cons] at lexemes_eq
  obtain ⟨opening', vs, rfl, h₁⟩ := split_cons lexemes_eq
  obtain ⟨us, vs, rfl, h₂, h₃⟩ := split_append h₁
  obtain ⟨closing', rfl⟩ := split_single h₃
  obtain ⟨body', rfl, alike⟩ := h us h₂
  exact ⟨.parenthesised opening' body' closing', rfl, alike⟩

theorem call {arguments : Phrase .arguments} (h : arguments.Movable) (name : String)
    (start opening closing : Nat) : (call name start opening arguments closing).Movable := by
  intro ts lexemes_eq
  simp only [tokens, lexemes, List.map_append, List.map_cons] at lexemes_eq
  obtain ⟨start', vs, rfl, h₁⟩ := split_cons lexemes_eq
  obtain ⟨opening', vs, rfl, h₂⟩ := split_cons h₁
  obtain ⟨us, vs, rfl, h₃, h₄⟩ := split_append h₂
  obtain ⟨closing', rfl⟩ := split_single h₄
  obtain ⟨arguments', rfl, alike⟩ := h us h₃
  refine ⟨.call name start' opening' arguments' closing', rfl, fun m means => ?_⟩
  obtain ⟨f, ts, known, hts, accepted, rfl⟩ := meaning?_call.1 means
  obtain ⟨us, hus, same⟩ := alike ts hts
  have length : ts.length = us.length := by simpa using congrArg List.length same
  refine ⟨_, meaning?_call.2 ⟨f, us, known, hus, length ▸ accepted, rfl⟩, ?_⟩
  show Tree.bare _ = Tree.bare _
  rw [bare_call, bare_call, same]

theorem noArguments : noArguments.Movable := by
  intro ts h
  cases List.map_eq_nil_iff.1 h
  refine ⟨.noArguments, rfl, fun m means => ⟨m, means, ?_⟩⟩
  cases means
  rfl

theorem lastArgument {argument : Phrase .conditional} (h : argument.Movable) :
    (lastArgument argument).Movable := by
  intro ts lexemes
  obtain ⟨q, placed, alike⟩ := h ts lexemes
  refine ⟨.lastArgument q, placed, fun m means => ?_⟩
  obtain ⟨u, hu, rfl⟩ := meaning?_lastArgument.1 means
  obtain ⟨u', hu', same⟩ := alike u hu
  exact ⟨_, meaning?_lastArgument.2 ⟨u', hu', rfl⟩, congrArg (fun t => [t]) same⟩

theorem nextArgument {argument : Phrase .conditional} {rest : Phrase .argumentList} (ha : argument.Movable)
    (hr : rest.Movable) (comma : Nat) : (nextArgument argument comma rest).Movable := by
  intro ts h
  simp only [tokens, lexemes, List.map_append, List.map_cons] at h
  obtain ⟨us, vs, rfl, h₁, h₂⟩ := split_append h
  obtain ⟨comma', vs, rfl, h₃⟩ := split_cons h₂
  obtain ⟨argument', rfl, alike⟩ := ha us h₁
  obtain ⟨rest', rfl, alike'⟩ := hr vs h₃
  refine ⟨.nextArgument argument' comma' rest', rfl, fun m means => ?_⟩
  obtain ⟨u, us, hu, hus, rfl⟩ := meaning?_nextArgument.1 means
  obtain ⟨u', hu', same⟩ := alike u hu
  obtain ⟨us', hus', same'⟩ := alike' us hus
  refine ⟨_, meaning?_nextArgument.2 ⟨u', us', hu', hus', rfl⟩, ?_⟩
  show List.map _ _ = List.map _ _
  rw [List.map_cons, List.map_cons, same, same']

end Movable

/-- Every phrase can be written with all tokens that have its lexemes. -/
theorem movable {c : Category} (p : Phrase c) : p.Movable := by
  induction p with
  | choose _ question _ colon _ hc hy hn => exact hc.choose hy hn question colon
  | compare _ op sign _ hl hr => exact hl.compare hr op sign
  | chain _ _ hf hr => exact hf.chain hr
  | done => exact .done
  | turn op joins sign _ _ hr hm => exact hr.turn hm op joins sign
  | negate sign _ h => exact h.negate sign
  | power _ sign _ hb he => exact hb.power he sign
  | number literal start => exact .number literal start
  | reference name start => exact .reference name start
  | parenthesised opening _ closing h => exact h.parenthesised opening closing
  | call name start opening _ closing h => exact h.call name start opening closing
  | noArguments => exact .noArguments
  | lastArgument _ h => exact h.lastArgument
  | nextArgument _ comma _ ha hr => exact ha.nextArgument hr comma
  -- The other rules have the tokens and the meaning of the one phrase they are about.
  | plain _ h =>
    intro ts lexemes
    obtain ⟨q, placed, alike⟩ := h ts lexemes
    exact ⟨.plain q, placed, alike⟩
  | single _ h =>
    intro ts lexemes
    obtain ⟨q, placed, alike⟩ := h ts lexemes
    exact ⟨.single q, placed, alike⟩
  | summand _ h =>
    intro ts lexemes
    obtain ⟨q, placed, alike⟩ := h ts lexemes
    exact ⟨.summand q, placed, alike⟩
  | factor _ h =>
    intro ts lexemes
    obtain ⟨q, placed, alike⟩ := h ts lexemes
    exact ⟨.factor q, placed, alike⟩
  | unsigned _ h =>
    intro ts lexemes
    obtain ⟨q, placed, alike⟩ := h ts lexemes
    exact ⟨.unsigned q, placed, alike⟩
  | bare _ h =>
    intro ts lexemes
    obtain ⟨q, placed, alike⟩ := h ts lexemes
    exact ⟨.bare q, placed, alike⟩
  | someArguments _ h =>
    intro ts lexemes
    obtain ⟨q, placed, alike⟩ := h ts lexemes
    exact ⟨.someArguments q, placed, alike⟩

end Phrase

end GameScoring.Formula
