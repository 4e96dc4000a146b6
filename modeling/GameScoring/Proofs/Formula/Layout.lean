import GameScoring.Proofs.Formula.Correspondence
import GameScoring.Proofs.Formula.Inquiry
import GameScoring.Proofs.Formula.Lossless
import GameScoring.Proofs.Formula.Safety
import GameScoring.Proofs.Formula.Spelling
import GameScoring.Proofs.Numeral.Equality

/-!
# Layout does not matter

Texts with the same tokens are the same formula: both are accepted with one tree, or both are rejected
for one reason at tokens that correspond. Blanks between tokens can be changed, put in and taken out
without a change of the tokens.
-/
namespace GameScoring.Formula
open Text

/-! ## Trees that differ in notes only -/

namespace Tree
variable {α β γ : Type}

theorem map_map (f : α → β) (g : β → γ) (t : Tree α) : (t.map f).map g = t.map (g ∘ f) := by
  induction t using size.induct (motive_2 := fun ts => mapAll g (mapAll f ts) = mapAll (g ∘ f) ts) <;>
    simp [map, mapAll, *]

/-- A call has one value for arguments that have the same values. -/
theorem evaluate_call_congr {bindings : Bindings} {note : α} {note' : β} (f : Function) {ts : List (Tree α)}
    {us : List (Tree β)} (h : List.Forall₂ (fun t u => t.evaluate bindings = u.evaluate bindings) ts us) :
    (call note f ts).evaluate bindings = (call note' f us).evaluate bindings := by
  simp only [← run_doubles] at h ⊢
  exact @run_call_congr α Float bindings note β (doubles α) (doubles β) note' rfl rfl f ts us h

/-- A tree is evaluated whatever its notes. -/
theorem evaluate_map (f : α → β) (bindings : Bindings) (t : Tree α) :
    (t.map f).evaluate bindings = t.evaluate bindings := by
  induction t using size.induct (motive_2 := fun ts =>
    List.Forall₂ (fun t u => t.evaluate bindings = u.evaluate bindings) (mapAll f ts) ts) with
  | case1 => rfl
  | case2 => rfl
  | case3 _ _ ih => rw [map, evaluate, evaluate, ih]
  | case4 _ _ _ _ ihl ihr => rw [map, evaluate, evaluate, ihl, ihr]
  | case5 _ _ _ _ ihl ihr => rw [map, evaluate, evaluate, ihl, ihr]
  | case6 _ _ _ _ ihc ihy ihn => rw [map, evaluate, evaluate, ihc, ihy, ihn]
  | case7 _ _ _ ih => exact evaluate_call_congr _ ih
  | case8 => exact .nil
  | case9 _ _ first rest => exact .cons first rest

theorem evaluate_congr {t : Tree α} {u : Tree β} (h : t.bare = u.bare) (bindings : Bindings) :
    t.evaluate bindings = u.evaluate bindings := by
  rw [← evaluate_map (fun _ => ()) bindings t, ← evaluate_map (fun _ => ()) bindings u]
  exact congrArg (evaluate bindings) h

theorem sameAll_of_forall₂ {ts : List (Tree α)} {us : List (Tree β)}
    (h : List.Forall₂ (fun t u => t.same u = true) ts us) : sameAll ts us = true := by
  induction h with
  | nil => rfl
  | cons same _ ih => rw [sameAll, same, ih]; rfl

end Tree

/-- Trees that the parser builds are the same if they differ in notes only, since their numbers are finite. -/
theorem WellFormed.same_of_bare {t u : Node} (h : WellFormed t) (bare : t.bare = u.bare) : t.same u = true := by
  induction h generalizing u with
  | number finite =>
    cases u <;> cases bare
    exact Binary.beq_self_of_finite finite
  | reference free =>
    cases u <;> cases bare
    exact beq_self_eq_true _
  | negate _ ih =>
    cases u with
    | negate note operand => exact ih (Tree.negate.inj bare).2
    | _ => cases bare
  | arithmetic _ _ ihl ihr =>
    cases u with
    | arithmetic note op left right =>
      obtain ⟨-, rfl, hl, hr⟩ := Tree.arithmetic.inj bare
      rw [Node.arithmetic, Tree.same, ihl hl, ihr hr, decide_eq_true rfl]
      rfl
    | _ => cases bare
  | compare _ _ ihl ihr =>
    cases u with
    | compare note op left right =>
      obtain ⟨-, rfl, hl, hr⟩ := Tree.compare.inj bare
      rw [Node.compare, Tree.same, ihl hl, ihr hr, decide_eq_true rfl]
      rfl
    | _ => cases bare
  | choose _ _ _ ihc ihy ihn =>
    cases u with
    | choose note condition yes no =>
      obtain ⟨-, hc, hy, hn⟩ := Tree.choose.inj bare
      rw [Node.choose, Tree.same, ihc hc, ihy hy, ihn hn]
      rfl
    | _ => cases bare
  | @call position f ts ha accepted ih =>
    cases u with
    | call note g us =>
      obtain ⟨-, rfl, same⟩ := Tree.call.inj bare
      rw [Tree.mapAll_eq_map, Tree.mapAll_eq_map, ← List.forall₂_eq_eq_eq, List.forall₂_map_left_iff,
        List.forall₂_map_right_iff] at same
      rw [Node.call, Tree.same, decide_eq_true rfl, Bool.true_and]
      refine Tree.sameAll_of_forall₂ (List.forall₂_iff_zip.2 ⟨same.length_eq, fun {t u} member => ?_⟩)
      exact ih t (List.of_mem_zip member).1 ((List.forall₂_iff_zip.1 same).2 member)
    | _ => cases bare

/-! ## Texts with the same tokens -/

theorem Lexeme.eq_of_shown {l m : Lexeme} (kind : l.kind = m.kind) (text : l.text = m.text) : l = m := by
  cases l <;> cases m <;> simp [Lexeme.kind] at kind
  case number.number => exact congrArg Lexeme.number text
  case identifier.identifier => exact congrArg Lexeme.identifier text
  case arithmetic.arithmetic op op' => cases op <;> cases op' <;> first | rfl | exact absurd text (by decide)
  case compare.compare op op' => cases op <;> cases op' <;> first | rfl | exact absurd text (by decide)
  case arithmetic.compare op op' => cases op <;> cases op' <;> exact absurd text (by decide)
  case compare.arithmetic op op' => cases op <;> cases op' <;> exact absurd text (by decide)
  all_goals rfl

/-- What is shown of a token but for its place. -/
def Piece.spelling (p : Piece) : String × String := (p.kind, p.value)

/-- The places of pieces that have the same number in both lists. -/
def Corresponding (ps qs : List Piece) (a b : Nat) : Prop :=
  ∃ (i : Nat) (p q : Piece), ps[i]? = some p ∧ qs[i]? = some q ∧ p.position = a ∧ q.position = b

/-- Two outcomes for texts with these pieces that differ in places only: formulas that are equal, have the
same census and the same value everywhere, or errors of one class for one reason at corresponding pieces. -/
inductive SameButPlaces (ps qs : List Piece) : Except Rejection Formula → Except Rejection Formula → Prop
  | accepted {f g : Formula} (root : f.root.bare = g.root.bare) (equal : f.root.same g.root = true)
    (nodes : f.nodeCount = g.nodeCount) (depth : f.depth = g.depth) (names : f.variableNames = g.variableNames)
    (values : ∀ bindings, f.evaluate bindings = g.evaluate bindings) : SameButPlaces ps qs (.ok f) (.ok g)
  | rejected {r s : Rejection} (kind : r.report.kind = s.report.kind) (reason : r.reason = s.reason)
    (place : ∃ a b, r.position = some a ∧ s.position = some b ∧ Corresponding ps qs a b) :
    SameButPlaces ps qs (.error r) (.error s)

section Same
variable {text text' : String} {ts us : List Token} {ps qs : List Piece}

theorem pieces_ok_iff : pieces text = .ok ps ↔
    ∃ ts, Token.scan text = .ok ts ∧ ps = ts.map Piece.ofToken ++ [Piece.finish text] := by
  rw [pieces]
  cases Token.scan text with
  | ok ts => simp [Except.map, eq_comm]
  | error r => simp [Except.map]

theorem lexemes_eq_of_spelling
    (same : (ts.map Piece.ofToken).map Piece.spelling = (us.map Piece.ofToken).map Piece.spelling) :
    lexemes ts = lexemes us := by
  have shown (ts : List Token) : (ts.map Piece.ofToken).map Piece.spelling =
      (lexemes ts).map fun l => (l.kind, l.text) := by
    rw [lexemes, List.map_map, List.map_map]
    rfl
  rw [shown, shown] at same
  exact List.map_injective_iff.2 (fun _ _ h => Lexeme.eq_of_shown (Prod.mk.inj h).1 (Prod.mk.inj h).2) same

theorem spelling_eq_of_lexemes (same : lexemes ts = lexemes us) (text text' : String) :
    (ts.map Piece.ofToken ++ [Piece.finish text]).map Piece.spelling =
      (us.map Piece.ofToken ++ [Piece.finish text']).map Piece.spelling := by
  have spelled := congrArg (List.map fun l : Lexeme => (l.kind, l.text)) same
  rw [List.map_append, List.map_append]
  refine congrArg (· ++ [("end", "")]) ?_
  simpa [lexemes, Piece.spelling, Piece.ofToken, Function.comp_def] using spelled

/-- The places of tokens with the same lexemes correspond, and so do the ends of the texts. -/
theorem abreast_of_lexemes (same : lexemes ts = lexemes us) (text text' : String) :
    Parser.Abreast (Corresponding (ts.map Piece.ofToken ++ [Piece.finish text])
      (us.map Piece.ofToken ++ [Piece.finish text'])) ⟨ts, text.length, 0⟩ ⟨us, text'.length, 0⟩ := by
  have length : ts.length = us.length := by simpa using congrArg List.length same
  refine ⟨List.forall₂_iff_get.2 ⟨length, fun i h h' => ⟨?_, i, .ofToken ts[i], .ofToken us[i], ?_, ?_, rfl, rfl⟩⟩,
    ⟨ts.length, .finish text, .finish text', ?_, ?_, rfl, rfl⟩, rfl⟩
  · have at_ := congrArg (·[i]?) same
    simpa [h, h'] using at_
  · rw [List.getElem?_append_left (by simpa using h)]
    simp [h]
  · rw [List.getElem?_append_left (by simpa using h')]
    simp [h']
  · simp
  · simp [length]

theorem ofText_sameButPlaces (notBlank : isBlankText text = false) (notBlank' : isBlankText text' = false)
    (short : text.length ≤ maxLength) (short' : text'.length ≤ maxLength) (found : pieces text = .ok ps)
    (found' : pieces text' = .ok qs) (same : ps.map Piece.spelling = qs.map Piece.spelling) :
    SameButPlaces ps qs (ofText text) (ofText text') := by
  obtain ⟨ts, scans, rfl⟩ := pieces_ok_iff.1 found
  obtain ⟨us, scans', rfl⟩ := pieces_ok_iff.1 found'
  rw [List.map_append, List.map_append] at same
  have lexemes := lexemes_eq_of_spelling (List.append_inj_left' same rfl)
  have outcome := Parser.parallel_whole (abreast_of_lexemes lexemes text text')
  have made := ofText_eq notBlank short scans
  have made' := ofText_eq notBlank' short' scans'
  generalize Parser.whole ⟨ts, text.length, 0⟩ = result at outcome made
  generalize Parser.whole ⟨us, text'.length, 0⟩ = result' at outcome made'
  cases outcome with
  | @ok t u c d tree cursors =>
    have bare : t.bare = u.bare := by
      have forget (t : Node) : t.bare = t.unplaced.map fun _ => () := (Tree.map_map Mark.depth (fun _ => ()) t).symm
      rw [forget, forget, tree]
    have wellFormed : WellFormed t := wellFormed_of_accepted made
    rw [made, made']
    refine .accepted bare (wellFormed.same_of_bare bare) cursors.nodes (Node.depth_eq_of_unplaced tree) ?_ ?_
    · show t.variableNames = u.variableNames
      rw [← Tree.variableNames_bare, bare, Tree.variableNames_bare]
    · exact Tree.evaluate_congr bare
  | @error a b reason place =>
    rw [made, made']
    refine .rejected ?_ rfl ⟨a, b, rfl, rfl, place⟩
    simp only [Rejection.report]
    split <;> rfl

end Same

/-! ## Texts with other blanks -/

/-- A row of blanks with at least one in it. -/
structure IsGap (gap : List Char) : Prop where
  nonempty : gap ≠ []
  blank : ∀ c ∈ gap, isBlank c = true

/-- A text with other blanks in it: a gap is exchanged for another one, or one is put in or taken out where
without it the scan comes to the end of a token or a blank. -/
inductive Respaced : List Char → List Char → Prop
  | exchange (before behind : List Char) {gap gap' : List Char} (old : IsGap gap) (new : IsGap gap') :
    Respaced (before ++ gap ++ behind) (before ++ gap' ++ behind)
  | insert {before behind gap : List Char} {ps : List Piece} (new : IsGap gap)
    (seam : Reaches 0 (before ++ behind) ps before.length behind) :
    Respaced (before ++ behind) (before ++ gap ++ behind)
  | remove {before behind gap : List Char} {ps : List Piece} (old : IsGap gap)
    (seam : Reaches 0 (before ++ behind) ps before.length behind) :
    Respaced (before ++ gap ++ behind) (before ++ behind)

/-- Two scans with the same lexemes, or with errors for the same reason. -/
inductive ScansAlike : Except Rejection (List Token) → Except Rejection (List Token) → Prop
  | ok {ts us : List Token} (same : lexemes ts = lexemes us) : ScansAlike (.ok ts) (.ok us)
  | error {r s : Rejection} (reason : r.reason = s.reason) : ScansAlike (.error r) (.error s)

namespace ScansAlike
variable {x y z : Except Rejection (List Token)} {ts us : List Token}

theorem refl (x : Except Rejection (List Token)) : ScansAlike x x := by
  cases x with
  | ok ts => exact .ok rfl
  | error r => exact .error rfl

theorem symm (h : ScansAlike x y) : ScansAlike y x := by
  cases h with
  | ok same => exact .ok same.symm
  | error reason => exact .error reason.symm

theorem trans (first : ScansAlike x y) (second : ScansAlike y z) : ScansAlike x z := by
  cases first with
  | ok same => cases second with | ok same' => exact .ok (same.trans same')
  | error reason => cases second with | error reason' => exact .error (reason.trans reason')

theorem append (same : lexemes ts = lexemes us) (h : ScansAlike x y) :
    ScansAlike (x.map (ts ++ ·)) (y.map (us ++ ·)) := by
  cases h with
  | @ok later later' rest =>
    have appended : lexemes (ts ++ later) = lexemes (us ++ later') := by
      rw [lexemes, lexemes, List.map_append, List.map_append]
      exact congrArg₂ _ same rest
    exact .ok appended
  | error reason => exact .error reason

/-- A text is scanned in the same way wherever it stands. -/
theorem moved (m n : Nat) (cs : List Char) : ScansAlike (Token.scanFrom m cs) (Token.scanFrom n cs) := by
  induction m, cs using Token.scanFrom.induct generalizing n with
  | case1 m =>
    rw [Token.scanFrom, Token.scanFrom]
    exact .ok rfl
  | case2 m c rest blank ih =>
    rw [Token.scanFrom, Token.scanFrom, if_pos blank, if_pos blank]
    exact ih (n + 1)
  | case3 m c rest visible unknown =>
    rw [Token.scanFrom, Token.scanFrom, if_neg visible, if_neg visible, unknown]
    exact .error rfl
  | case4 m c rest visible l length found ih =>
    rw [Token.scanFrom, Token.scanFrom, if_neg visible, if_neg visible, found]
    have rest := ih (n + 1 + length)
    dsimp only
    generalize Token.scanFrom (m + 1 + length) _ = x at rest
    generalize Token.scanFrom (n + 1 + length) _ = y at rest
    cases rest with
    | ok same => exact .ok (congrArg (l :: ·) same)
    | error reason => exact .error reason

end ScansAlike

theorem scanFrom_blanks {gap : List Char} (blank : ∀ c ∈ gap, isBlank c = true) (n : Nat) (behind : List Char) :
    Token.scanFrom n (gap ++ behind) = Token.scanFrom (n + gap.length) behind := by
  induction gap generalizing n with
  | nil => rfl
  | cons c gap ih =>
    obtain ⟨first, others⟩ := List.forall_mem_cons.1 blank
    rw [List.cons_append, Token.scanFrom, if_pos first, ih others, List.length_cons, Nat.add_assoc, Nat.add_comm 1]

/-- The tokens before a gap and those behind it are scanned on their own. -/
theorem scanFrom_gap {gap : List Char} (h : IsGap gap) (n : Nat) (before behind : List Char) :
    Token.scanFrom n (before ++ gap ++ behind) = (Token.scanFrom n before).bind fun ts =>
      (Token.scanFrom (n + before.length + gap.length) behind).map (ts ++ ·) := by
  obtain ⟨c, rest, rfl⟩ := List.exists_cons_of_ne_nil h.nonempty
  have separates := separates_of_isBlank (h.blank c (.head _))
  have skipped := scanFrom_blanks h.blank (n + before.length) behind
  rw [List.append_assoc, List.cons_append] at *
  cases scans : Token.scanFrom n before with
  | ok ts =>
    rw [Token.scanFrom_append separates scans, skipped]
    rfl
  | error r =>
    rw [Token.scanFrom_append_error separates scans]
    rfl

/-- Without a gap, the tokens on both sides of a seam are scanned on their own as well. -/
theorem scanFrom_seam {before behind : List Char} {ps : List Piece}
    (seam : Reaches 0 (before ++ behind) ps before.length behind) :
    ScansAlike (Token.scanFrom 0 (before ++ behind)) ((Token.scanFrom 0 before).bind fun ts =>
      (Token.scanFrom before.length behind).map (ts ++ ·)) := by
  obtain ⟨front, same, -, alone⟩ := seam.front
  obtain rfl := List.append_cancel_right same
  obtain ⟨ts, rfl, scans⟩ := seam.scanFrom
  obtain ⟨us, shown, scans'⟩ := alone.scanFrom
  have own : Token.scanFrom 0 before = .ok us := by
    rw [scans', Token.scanFrom, Except.map, List.append_nil]
  rw [scans, own]
  exact .append (lexemes_eq_of_spelling (by rw [shown])) (.refl _)

theorem Respaced.scansAlike {cs ds : List Char} (h : Respaced cs ds) :
    ScansAlike (Token.scanFrom 0 cs) (Token.scanFrom 0 ds) := by
  have gap {gap : List Char} (h : IsGap gap) (before behind : List Char) (n : Nat) :
      ScansAlike (Token.scanFrom 0 (before ++ gap ++ behind)) ((Token.scanFrom 0 before).bind fun ts =>
        (Token.scanFrom n behind).map (ts ++ ·)) := by
    rw [scanFrom_gap h]
    cases Token.scanFrom 0 before with
    | ok ts => exact .append rfl (.moved _ n behind)
    | error r => exact .refl _
  cases h with
  | exchange before behind old new => exact (gap old before behind 0).trans (gap new before behind 0).symm
  | insert new seam => exact (scanFrom_seam seam).trans (gap new _ _ _).symm
  | remove old seam => exact (gap old _ _ _).trans (scanFrom_seam seam).symm

/-- Texts with other blanks have the same tokens, or cannot be scanned for the same reason. -/
theorem scansAlike_of_respaced {cs ds : List Char} (h : Relation.ReflTransGen Respaced cs ds) :
    ScansAlike (Token.scanFrom 0 cs) (Token.scanFrom 0 ds) := by
  induction h with
  | refl => exact .refl _
  | tail _ step ih => exact ih.trans step.scansAlike

/-- Two texts whose tokens differ in their places only are accepted as one formula or rejected for one
reason at tokens that correspond. Texts that differ in the blanks between tokens have such tokens, or none
at all and the same reason for it. -/
theorem layout_does_not_matter {text text' : String} (notBlank : isBlankText text = false)
    (notBlank' : isBlankText text' = false) (short : text.length ≤ maxLength) (short' : text'.length ≤ maxLength) :
    (∀ ps qs, pieces text = .ok ps → pieces text' = .ok qs → ps.map Piece.spelling = qs.map Piece.spelling →
      SameButPlaces ps qs (ofText text) (ofText text')) ∧
    (Relation.ReflTransGen Respaced text.toList text'.toList →
      (∃ ps qs, pieces text = .ok ps ∧ pieces text' = .ok qs ∧ ps.map Piece.spelling = qs.map Piece.spelling ∧
        SameButPlaces ps qs (ofText text) (ofText text')) ∨
      ∃ r s, r.reason = s.reason ∧ pieces text = .error r ∧ pieces text' = .error s ∧
        ofText text = .error r ∧ ofText text' = .error s) := by
  have same (ps qs) (found : pieces text = .ok ps) (found' : pieces text' = .ok qs) :=
    ofText_sameButPlaces notBlank notBlank' short short' found found'
  refine ⟨same, fun respaced => ?_⟩
  have alike : ScansAlike (Token.scan text) (Token.scan text') := scansAlike_of_respaced respaced
  generalize scans : Token.scan text = x at alike
  generalize scans' : Token.scan text' = y at alike
  cases alike with
  | @ok ts us lexemes =>
    have found := pieces_ok_iff.2 ⟨ts, scans, rfl⟩
    have found' := pieces_ok_iff.2 ⟨us, scans', rfl⟩
    have spelling := spelling_eq_of_lexemes lexemes text text'
    exact .inl ⟨_, _, found, found', spelling, same _ _ found found' spelling⟩
  | @error r s reason =>
    exact .inr ⟨r, s, reason, pieces_of_scan_error scans, pieces_of_scan_error scans',
      ofText_of_scan_error notBlank short scans, ofText_of_scan_error notBlank' short' scans'⟩

/-- A product without blanks and one with blanks in front of both factors are one formula, and a tab is as
good as a space. -/
theorem spaced_product_is_one_formula :
    SameButPlaces [⟨"number", "2", 0⟩, ⟨"op", "*", 1⟩, ⟨"ident", "x", 2⟩, ⟨"end", "", 3⟩]
      [⟨"number", "2", 1⟩, ⟨"op", "*", 2⟩, ⟨"ident", "x", 4⟩, ⟨"end", "", 5⟩] (ofText "2*x") (ofText " 2* x") ∧
    ∃ ps qs, SameButPlaces ps qs (ofText "2* x") (ofText "2*\tx") := by
  have space : IsGap [' '] := ⟨by simp, by simp [isBlank]⟩
  have tab : IsGap ['\t'] := ⟨by simp, by simp [isBlank]⟩
  have layout : Relation.ReflTransGen Respaced "2* x".toList "2*\tx".toList :=
    .single (.exchange ['2', '*'] ['x'] space tab)
  refine ⟨(layout_does_not_matter (by decide) (by decide) (by decide) (by decide)).1 _ _ ?_ ?_ ?_, ?_⟩
  · decide +kernel
  · decide +kernel
  · decide
  · have found : (pieces "2* x").toBool = true := by decide +kernel
    obtain ⟨ps, qs, -, -, -, same⟩ | ⟨r, s, -, failed, -⟩ :=
      (layout_does_not_matter (by decide) (by decide) (by decide) (by decide)).2 layout
    · exact ⟨ps, qs, same⟩
    · rw [failed] at found
      cases found

end GameScoring.Formula
