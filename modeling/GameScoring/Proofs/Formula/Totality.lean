import GameScoring.Proofs.Formula.Simulation
import GameScoring.Proofs.Formula.Lossless

/-!
# The parser is total

All numbers of a scanned text can be read. So from the tokens of a text, the machine comes to the outcome of
the parser, whatever these tokens are, and on the way the levels and the rules at work are bounded.
-/
namespace GameScoring.Formula
open Text Numeral

/-! ## Numbers can be read -/

section Literals
variable {ds fraction e w : List Char}

/-- Digits end where an exponent begins. -/
theorem span_digits (hds : ds ∈ many isDigit) (he : e ∈ optional exponent) :
    (ds ++ e).takeWhile isDigit = ds ∧ (ds ++ e).dropWhile isDigit = e := by
  rw [List.takeWhile_append_of_pos hds, List.dropWhile_append_of_pos hds]
  obtain he | rfl := he
  · obtain ⟨mark, sign, more, marked, -, -, rfl⟩ := Lexeme.mem_exponent.1 he
    have other := Lexeme.isDigit_of_isMark marked
    simp [other]
  · simp

theorem exponentOf?_isSome (he : e ∈ optional exponent) : (exponentOf? e).isSome := by
  obtain he | rfl := he
  · obtain ⟨mark, sign, ds, marked, hs, hds, rfl⟩ := Lexeme.mem_exponent.1 he
    obtain ⟨some, all⟩ := Lexeme.mem_digits.1 hds
    have marked := Lexeme.not_unmarked marked
    have reads : ¬ (ds.isEmpty || !ds.all isDigit) = true := by simpa [some] using all
    obtain ⟨c, signed, rfl⟩ | rfl := hs
    · obtain same | same := Bool.or_eq_true_iff.1 signed
      · rw [beq_iff_eq.1 same, List.singleton_append, exponentOf?, if_neg marked, if_neg reads]
        rfl
      · rw [beq_iff_eq.1 same, List.singleton_append, exponentOf?, if_neg marked, if_neg reads]
        rfl
    · have unsigned (c : Char) (signed : isSign c = true) (more : List Char) : [] ++ ds ≠ c :: more := by
        rintro rfl
        rw [Lexeme.isSign_of_isDigit (all c (.head _))] at signed
        cases signed
      rw [exponentOf?, if_neg marked]
      · exact (congrArg Option.isSome (if_neg reads)).trans rfl
      · exact unsigned '-' rfl
      · exact unsigned '+' rfl
  · rfl

theorem ofLiteral?_of_whole (hds : ds ∈ digits) (he : e ∈ optional exponent) : (ofLiteral? (ds ++ e)).isSome := by
  obtain ⟨some, all⟩ := Lexeme.mem_digits.1 hds
  obtain ⟨taken, dropped⟩ := span_digits all he
  -- What follows the digits is no point, so nothing is read as a fraction.
  have noPoint (rest : List Char) : e ≠ '.' :: rest := by
    rintro rfl
    obtain he | none := he
    · obtain ⟨mark, sign, more, marked, -, -, same⟩ := Lexeme.mem_exponent.1 he
      cases same
      cases marked
    · cases none
  simp only [ofLiteral?, taken, dropped]
  rw [if_neg (by simp [some]), Option.isSome_map]
  exact exponentOf?_isSome he

theorem ofLiteral?_of_point (hds : ds ∈ many isDigit) (hf : fraction ∈ many isDigit) (some : ds ≠ [] ∨ fraction ≠ [])
    (he : e ∈ optional exponent) : (ofLiteral? (ds ++ '.' :: (fraction ++ e))).isSome := by
  obtain ⟨taken, dropped⟩ := span_digits hf he
  have point : isDigit '.' = false := rfl
  rw [ofLiteral?, List.takeWhile_append_of_pos hds, List.dropWhile_append_of_pos hds,
    List.takeWhile_cons_of_neg (by simp [point]), List.dropWhile_cons_of_neg (by simp [point])]
  have any : ¬ ((ds ++ []).isEmpty && fraction.isEmpty) = true := by simpa [Classical.or_iff_not_imp_left] using some
  simp only [taken, dropped, if_neg any, Option.isSome_map]
  exact exponentOf?_isSome he

/-- A number is read as it is spelled. -/
theorem ofLiteral?_isSome (h : w ∈ mantissa * optional exponent) : (ofLiteral? w).isSome := by
  obtain ⟨m, hm, e, he, rfl⟩ := Language.mem_mul.1 h
  obtain ⟨ds, hds, dot, hdot, fraction, hf, rfl⟩ | ⟨ds, hds, rfl⟩ := Lexeme.mem_mantissa.1 hm
  · obtain ⟨some, all⟩ := Lexeme.mem_digits.1 hds
    obtain hdot | rfl := hdot
    · rw [Lexeme.mem_point.1 hdot]
      have reads := ofLiteral?_of_point all hf (.inl some) he
      simpa using reads
    · have whole : ds ++ fraction ∈ digits :=
        Lexeme.mem_digits.2 ⟨by simp [some], List.forall_mem_append.2 ⟨all, hf⟩⟩
      exact ofLiteral?_of_whole whole he
  · obtain ⟨some, all⟩ := Lexeme.mem_digits.1 hds
    have none : [] ∈ many isDigit := fun c hc => nomatch hc
    exact ofLiteral?_of_point none all (.inr some) he

/-- The numbers among the words. -/
theorem Word.mem_of_number {kind : String} (word : Word kind w) (number : kind = "number") :
    w ∈ mantissa * optional exponent := by
  cases word with
  | number h => exact h
  | _ => exact absurd number (by decide)

end Literals

namespace Machine
open Formula.Parser

theorem readable_of_scan {text : String} {tokens : List Token} (scans : Token.scan text = .ok tokens) :
    Readable tokens := by
  rintro literal ⟨t, member, number⟩
  have lossless := ((Reaches.of_scanFrom 0 text.toList).1 _ scans).lossless rfl
  have word : Word t.lexeme.kind t.lexeme.text.toList := (lossless.longest _ (List.mem_map_of_mem member)).mem
  rw [number] at word
  exact ofLiteral?_isSome (word.mem_of_number rfl)

/-! ## Runs over the tokens of a text -/

/-- The parser accepts with a tree, or it rejects the formula as not valid or as too complex. The machine ends
in the same way. -/
inductive Ending : Except Rejection (Node × Cursor) → Verdict → Prop
  | accepted {root : Node} {c : Cursor} : Ending (.ok (root, c)) (.accepted root c.nodes)
  | rejected {r : Rejection} (kind : r.report.kind = .validation ∨ r.report.kind = .complexity) :
    Ending (.error r) (.rejected r)

/-- What holds at every moment of a run that ends with a verdict. -/
structure Bounded (tokens : List Token) (finish : Nat) (v : Verdict) (s : State) : Prop where
  /-- The end is not passed. -/
  within : s.index ≤ tokens.length
  /-- Nothing else ends the run. -/
  ends : ∀ w, step tokens finish s = .error w → w = v
  counted : s.nesting = opened s.frames
  levels : s.nesting ≤ 32
  /-- On each level there are at most nine methods at work. -/
  methods : ∀ level, s.active.countP (·.1 == level) ≤ 9
  active : ∀ e ∈ s.active, e.1 ≤ 32
  depth : s.active.length ≤ 297
  /-- No other state opens a level. -/
  opens : ∀ s', step tokens finish s = .ok s' → s.nesting < s'.nesting → ∃ p, Opening tokens finish s p
  /-- One level more is too complex, and it is refused before anything else is done. -/
  refuses : ∀ p, Opening tokens finish s p → s.nesting = 32 → ∃ r : Rejection,
    r = ⟨.nestedTooDeep, some p⟩ ∧ r.report.kind = .complexity ∧ step tokens finish s = .error (.rejected r)

theorem ending_verdict (out : Except Rejection (Node × Cursor)) : Ending out (verdict out) := by
  cases out with
  | ok result => exact .accepted
  | error r =>
    refine .rejected ?_
    rw [Rejection.report]
    split
    next => exact .inr rfl
    next => exact .inl rfl

theorem Valid.bounded_active {tokens : List Token} {s : State} (valid : Valid tokens s) :
    (∀ level, s.active.countP (·.1 == level) ≤ 9) ∧ (∀ e ∈ s.active, e.1 ≤ 32) ∧ s.active.length ≤ 297 := by
  obtain ⟨m, linked, own⟩ := valid.linked
  have few : opened s.frames ≤ 32 := valid.nesting ▸ valid.bounded
  -- A method that has ended no longer counts.
  have part : s.active.Sublist ((opened s.frames, m) :: waiting s.frames) := by
    cases mode : s.mode with
    | enter rule =>
      rw [State.active, mode, ← own rule mode]
    | leave node =>
      rw [State.active, mode]
      exact List.sublist_cons_self ..
  refine ⟨fun level => ?_, fun e he => ?_, ?_⟩
  · exact Nat.le_trans (part.countP_le) (linked.count_le level)
  · obtain rfl | he := List.mem_cons.1 (part.subset he)
    · exact few
    · exact Nat.le_trans (linked.level_le e he) few
  · have length := linked.length_le
    have most := m.rank_le
    refine Nat.le_trans part.length_le ?_
    rw [List.length_cons, Linked.length_waiting]
    omega

/-- The parser comes to an end from the tokens of any text, and it accepts the formula or rejects it. At every
moment at most 32 levels are open and at most nine methods are at work on each of them. -/
theorem parser_recursion_is_bounded {text : String} {tokens : List Token} (scans : Token.scan text = .ok tokens) :
    ∃ v, Leads tokens text.length (.ok start) (.error v) ∧ Ending (whole ⟨tokens, text.length, 0⟩) v ∧
      ∀ s, Leads tokens text.length (.ok start) (.ok s) → Bounded tokens text.length v s := by
  have leads : Leads tokens text.length (.ok start) _ := leads_to_verdict (readable_of_scan scans)
  refine ⟨_, leads, ending_verdict _, fun s reached => ?_⟩
  have valid : Valid tokens s := reached.valid (by rintro _ ⟨⟩; exact valid_start) s rfl
  obtain ⟨methods, active, depth⟩ := valid.bounded_active
  refine ⟨valid.within, fun w ends => ?_, valid.nesting, valid.bounded, methods, active, depth,
    fun s' next => (step_keeps valid s' next).2, fun p opening full => ⟨_, rfl, rfl, opening.rejects valid.within full⟩⟩
  have toward := leads.toward (reached.trans (.step (.refl _)))
  rw [ends] at toward
  exact toward.end_unique

/-- After thirty-two parentheses, one more level is refused. -/
theorem parentheses_are_bounded : ∃ tokens, Token.scan "((((((((((((((((((((((((((((((((x" = .ok tokens ∧
    Leads tokens 33 (.ok start) (.error (.rejected ⟨.nestedTooDeep, some 32⟩)) ∧
    ∀ s, Leads tokens 33 (.ok start) (.ok s) → Bounded tokens 33 (.rejected ⟨.nestedTooDeep, some 32⟩) s := by
  have scans : Token.scan "((((((((((((((((((((((((((((((((x" =
      .ok (((List.range 32).map fun i => ⟨.leftParen, i⟩) ++ [⟨.identifier "x", 32⟩]) := by decide +kernel
  have length : "((((((((((((((((((((((((((((((((x".length = 33 := by decide
  obtain ⟨v, leads, ending, moments⟩ := parser_recursion_is_bounded scans
  rw [length] at leads ending moments
  have outcome : (whole ⟨((List.range 32).map fun i => ⟨.leftParen, i⟩) ++ [⟨.identifier "x", 32⟩], 33, 0⟩).map
      (fun _ => ()) = .error ⟨.nestedTooDeep, some 32⟩ := by decide +kernel
  generalize whole _ = out at ending outcome
  cases ending with
  | accepted => cases outcome
  | rejected =>
    cases outcome
    exact ⟨_, scans, leads, moments⟩

end Machine

end GameScoring.Formula
