import GameScoring.Proofs.Formula.Acceptance
import GameScoring.Proofs.Formula.Vocabulary

/-!
# Scanning loses nothing

A text is cut from left to right into the longest words that it starts with, and what is left between
them is blank. So the text can be put together again from its tokens and the blanks around them. The
text is rejected at the first place that the cutting reaches where neither a word nor a blank stands.
-/
namespace GameScoring.Formula
open Text

/-- Cutting longest words and blanks from the start of a text at a position, the pieces are found and
the rest of the text at another position is reached. -/
inductive Reaches : Nat → List Char → List Piece → Nat → List Char → Prop
  | here (n : Nat) (cs : List Char) : Reaches n cs [] n cs
  | blank {n m : Nat} {c : Char} {cs rest : List Char} {ps : List Piece} (isBlank : isBlank c = true)
    (behind : Reaches (n + 1) cs ps m rest) : Reaches n (c :: cs) ps m rest
  | token {n m : Nat} {kind : String} {word cs rest : List Char} {ps : List Piece}
    (longest : Longest (vocabulary kind) word (word ++ cs))
    (behind : Reaches (n + word.length) cs ps m rest) :
    Reaches n (word ++ cs) (⟨kind, String.ofList word, n⟩ :: ps) m rest

/-- Neither a blank nor a token can start at the character. -/
structure Unscannable (c : Char) (rest : List Char) : Prop where
  visible : isBlank c = false
  closed : ¬ Opens (c :: rest)

/-- The text with gaps before the pieces and one behind them. -/
def weave : List (List Char) → List Piece → List Char → List Char
  | gap :: gaps, p :: ps, last => gap ++ p.value.toList ++ weave gaps ps last
  | _, _, last => last

/-- The piece has a part of the text at the position. -/
def Piece.Covers (p : Piece) (position : Nat) : Prop :=
  p.position ≤ position ∧ position < p.position + p.value.length

/-- The pieces of a text that starts at a position are all there is in it except for blanks. -/
structure Lossless (start : Nat) (text : List Char) (ps : List Piece) : Prop where
  nonempty : ∀ p ∈ ps, p.value ≠ ""
  increasing : ps.Pairwise fun p q => p.position < q.position
  apart : ps.Pairwise fun p q => p.position + p.value.length ≤ q.position
  inside : ∀ p ∈ ps, start ≤ p.position ∧ p.position + p.value.length ≤ start + text.length
  slice : ∀ p ∈ ps, p.value.toList = (text.drop (p.position - start)).take p.value.length
  longest : ∀ p ∈ ps, Longest (vocabulary p.kind) p.value.toList (text.drop (p.position - start))
  blank : ∀ i c, text[i]? = some c → (∀ p ∈ ps, ¬ p.Covers (start + i)) → isBlank c = true
  rebuilt : ∃ gaps last, gaps.length = ps.length ∧ (∀ gap ∈ last :: gaps, ∀ c ∈ gap, isBlank c = true) ∧
    text = weave gaps ps last

namespace Lossless
variable {n : Nat} {c : Char} {word cs : List Char} {ps : List Piece} {kind : String}

theorem nil (n : Nat) : Lossless n [] [] where
  nonempty := nofun
  increasing := .nil
  apart := .nil
  inside := nofun
  slice := nofun
  longest := nofun
  blank := nofun
  rebuilt := ⟨[], [], rfl, by simp, rfl⟩

theorem drop_of_inside (word : List Char) (h : Lossless (n + word.length) cs ps) {p : Piece} (hp : p ∈ ps) :
    (word ++ cs).drop (p.position - n) = cs.drop (p.position - (n + word.length)) := by
  have bound := (h.inside p hp).1
  rw [show p.position - n = word.length + (p.position - (n + word.length)) by omega, List.drop_length_add_append]

theorem cons_blank (h : Lossless (n + 1) cs ps) (isBlank : isBlank c = true) : Lossless n (c :: cs) ps where
  nonempty := h.nonempty
  increasing := h.increasing
  apart := h.apart
  inside p hp := by
    have bounds := h.inside p hp
    rw [List.length_cons]
    omega
  slice p hp := by rw [← List.singleton_append, drop_of_inside [c] h hp]; exact h.slice p hp
  longest p hp := by rw [← List.singleton_append, drop_of_inside [c] h hp]; exact h.longest p hp
  blank i d at_ free := by
    cases i with
    | zero =>
      cases at_
      exact isBlank
    | succ i =>
      rw [List.getElem?_cons_succ] at at_
      refine h.blank i d at_ fun p hp => ?_
      rw [Nat.add_assoc, Nat.add_comm 1]
      exact free p hp
  rebuilt := by
    obtain ⟨gaps, last, lengths, blank, rfl⟩ := h.rebuilt
    match gaps, ps, lengths with
    | [], [], _ =>
      refine ⟨[], c :: last, rfl, ?_, rfl⟩
      simpa [isBlank] using blank
    | gap :: gaps, p :: ps, lengths =>
      refine ⟨(c :: gap) :: gaps, last, lengths, ?_, rfl⟩
      simpa [isBlank] using blank

theorem cons_token (h : Lossless (n + word.length) cs ps) (some : word ≠ [])
    (longest : Longest (vocabulary kind) word (word ++ cs)) :
    Lossless n (word ++ cs) (⟨kind, String.ofList word, n⟩ :: ps) := by
  have positive := List.length_pos_iff.2 some
  have length : (String.ofList word).length = word.length := by rw [← String.length_toList, String.toList_ofList]
  exact {
    nonempty := by
      refine List.forall_mem_cons.2 ⟨?_, h.nonempty⟩
      rwa [ne_eq, String.ofList_eq_empty_iff]
    increasing := by
      refine .cons (fun q hq => ?_) h.increasing
      have bound := (h.inside q hq).1
      dsimp only
      omega
    apart := by
      refine .cons (fun q hq => ?_) h.apart
      dsimp only
      rw [length]
      exact (h.inside q hq).1
    inside := by
      refine List.forall_mem_cons.2 ⟨?_, fun p hp => ?_⟩
      · dsimp only
        rw [length, List.length_append]
        omega
      · have bounds := h.inside p hp
        rw [List.length_append]
        omega
    slice := by
      refine List.forall_mem_cons.2 ⟨?_, fun p hp => ?_⟩
      · dsimp only
        rw [length, Nat.sub_self, List.drop_zero, List.take_left, String.toList_ofList]
      · rw [drop_of_inside word h hp]
        exact h.slice p hp
    longest := by
      refine List.forall_mem_cons.2 ⟨?_, fun p hp => ?_⟩
      · dsimp only
        rwa [Nat.sub_self, List.drop_zero, String.toList_ofList]
      · rw [drop_of_inside word h hp]
        exact h.longest p hp
    blank := by
      intro i d at_ free
      obtain ⟨own, others⟩ := List.forall_mem_cons.1 free
      have behind : word.length ≤ i := by
        simp only [Piece.Covers, length] at own
        omega
      rw [List.getElem?_append_right behind] at at_
      refine h.blank _ d at_ fun p hp => ?_
      rw [Nat.add_assoc, Nat.add_sub_cancel' behind]
      exact others p hp
    rebuilt := by
      obtain ⟨gaps, last, lengths, blank, rfl⟩ := h.rebuilt
      refine ⟨[] :: gaps, last, congrArg (· + 1) lengths, ?_, ?_⟩
      · simpa using blank
      · rw [weave, String.toList_ofList, List.nil_append] }

end Lossless

namespace Reaches
variable {n m : Nat} {cs rest : List Char} {ps : List Piece}

theorem lossless (h : Reaches n cs ps m rest) (whole : rest = []) : Lossless n cs ps := by
  induction h with
  | here n cs => exact whole ▸ .nil n
  | blank isBlank behind ih => exact (ih whole).cons_blank isBlank
  | token longest behind ih => exact (ih whole).cons_token (longest.ne_nil) longest

theorem rest_eq (h : Reaches n cs ps m rest) : n ≤ m ∧ cs.drop (m - n) = rest := by
  induction h with
  | here n cs => simp
  | @blank n m c cs rest ps isBlank behind ih =>
    obtain ⟨le, same⟩ := ih
    exact ⟨by omega, by rw [← same, show m - n = m - (n + 1) + 1 by omega, List.drop_succ_cons]⟩
  | @token n m kind word cs rest ps longest behind ih =>
    obtain ⟨le, same⟩ := ih
    refine ⟨by omega, ?_⟩
    rw [← same, show m - n = word.length + (m - (n + word.length)) by omega, List.drop_length_add_append]

/-- The text before the place that is reached can be cut on its own. -/
theorem front (h : Reaches n cs ps m rest) :
    ∃ before, cs = before ++ rest ∧ m = n + before.length ∧ Reaches n before ps m [] := by
  induction h with
  | here n cs => exact ⟨[], rfl, rfl, .here n []⟩
  | @blank n m c cs rest ps isBlank behind ih =>
    obtain ⟨before, rfl, same, reaches⟩ := ih
    refine ⟨c :: before, rfl, ?_, .blank isBlank reaches⟩
    rw [same, List.length_cons]
    omega
  | @token n m kind word cs rest ps longest behind ih =>
    obtain ⟨before, rfl, same, reaches⟩ := ih
    refine ⟨word ++ before, (List.append_assoc ..).symm, ?_, .token longest.shorten reaches⟩
    rw [same, List.length_append, Nat.add_assoc]

/-- What is reached is scanned on. -/
theorem scanFrom (h : Reaches n cs ps m rest) : ∃ ts : List Token, ts.map Piece.ofToken = ps ∧
    Token.scanFrom n cs = (Token.scanFrom m rest).map (ts ++ ·) := by
  induction h with
  | here n cs =>
    refine ⟨[], rfl, ?_⟩
    cases Token.scanFrom n cs <;> rfl
  | blank isBlank behind ih =>
    obtain ⟨ts, same, scans⟩ := ih
    exact ⟨ts, same, by rw [Token.scanFrom, if_pos isBlank, scans]⟩
  | @token n m kind word cs rest ps longest behind ih =>
    obtain ⟨ts, rfl, scans⟩ := ih
    obtain ⟨c, more, rfl⟩ := List.exists_cons_of_ne_nil longest.ne_nil
    rw [List.cons_append] at longest ⊢
    obtain ⟨l, k, found, rfl, spelled⟩ := Lexeme.leading?_of_longest longest
    have visible : isBlank c = false := (Opens.of_word longest.mem longest.starts).not_blank
    have length : more.length = k := by
      have whole := (Lexeme.leading?_word found).2
      have fits := Lexeme.leading?_le found
      rw [spelled] at whole
      have same := congrArg List.length (List.cons.inj whole).2
      rw [List.length_take] at same
      omega
    refine ⟨⟨l, n⟩ :: ts, ?_, ?_⟩
    · rw [List.map_cons, Piece.ofToken, ← spelled, String.ofList_toList]
    · rw [Token.scanFrom, visible, found, ← length]
      dsimp only [Bool.false_eq_true, if_false]
      rw [List.drop_left, Nat.add_assoc, Nat.add_comm 1, ← List.length_cons, scans]
      cases Token.scanFrom m rest <;> rfl

/-- What is scanned is reached. -/
theorem of_scanFrom (n : Nat) (cs : List Char) : (∀ ts, Token.scanFrom n cs = .ok ts →
      Reaches n cs (ts.map Piece.ofToken) (n + cs.length) []) ∧
    ∀ r, Token.scanFrom n cs = .error r → ∃ ps p c rest, Reaches n cs ps p (c :: rest) ∧ Unscannable c rest ∧
      r = ⟨.ofCharacter c, some p⟩ := by
  induction n, cs using Token.scanFrom.induct with
  | case1 n =>
    rw [Token.scanFrom]
    refine ⟨fun ts same => ?_, fun r same => ?_⟩
    · cases same
      exact .here n []
    · cases same
  | case2 n c cs isBlank ih =>
    rw [Token.scanFrom, if_pos isBlank, List.length_cons, Nat.add_comm cs.length, ← Nat.add_assoc]
    refine ⟨fun ts scans => .blank isBlank (ih.1 ts scans), fun r scans => ?_⟩
    obtain ⟨ps, p, d, rest, reaches, unscannable⟩ := ih.2 r scans
    exact ⟨ps, p, d, rest, .blank isBlank reaches, unscannable⟩
  | case3 n c cs visible unknown =>
    rw [Token.scanFrom, if_neg visible, unknown]
    refine ⟨fun ts same => ?_, fun r same => ?_⟩
    · cases same
    · cases same
      refine ⟨[], n, c, cs, .here n (c :: cs), ⟨Bool.eq_false_iff.2 visible, fun opens => ?_⟩, rfl⟩
      obtain ⟨l, k, found⟩ := Opens.iff_leading?.1 opens
      rw [unknown] at found
      cases found
  | case4 n c cs visible l k found ih =>
    have longest := Lexeme.leading?_longest found
    have spelled := (Lexeme.leading?_word found).2
    have fits := Lexeme.leading?_le found
    have text : c :: cs = l.text.toList ++ cs.drop k := by
      rw [spelled, List.cons_append, List.take_append_drop]
    have length : n + 1 + k = n + l.text.toList.length := by
      rw [spelled, List.length_cons, List.length_take]
      omega
    have token {ps : List Piece} {m : Nat} {rest : List Char} (behind : Reaches (n + 1 + k) (cs.drop k) ps m rest) :
        Reaches n (c :: cs) (⟨l.kind, l.text, n⟩ :: ps) m rest := by
      rw [text] at longest ⊢
      rw [length] at behind
      have step := Reaches.token longest behind
      rwa [String.ofList_toList] at step
    rw [Token.scanFrom, if_neg visible, found]
    constructor
    · intro ts scans
      obtain ⟨later, scanned, same⟩ := ok_of_bind scans
      cases same
      have reaches := token (ih.1 later scanned)
      rw [List.length_drop] at reaches
      rw [List.length_cons, show n + (cs.length + 1) = n + 1 + k + (cs.length - k) by omega]
      exact reaches
    · intro r scans
      cases behind : Token.scanFrom (n + 1 + k) (cs.drop k) with
      | ok later =>
        simp only [behind] at scans
        cases scans
      | error e =>
        simp only [behind] at scans
        cases scans
        obtain ⟨ps, p, d, rest, reaches, unscannable⟩ := ih.2 r behind
        exact ⟨_, p, d, rest, token reaches, unscannable⟩

/-- The scan fails where it cannot go on. -/
theorem fails {c : Char} (h : Reaches n cs ps m (c :: rest)) (unscannable : Unscannable c rest) :
    Token.scanFrom n cs = .error ⟨.ofCharacter c, some m⟩ := by
  have unknown : Lexeme.leading? c rest = none := by
    refine Option.eq_none_iff_forall_ne_some.2 fun ⟨l, k⟩ found => ?_
    exact unscannable.closed (Opens.iff_leading?.2 ⟨l, k, found⟩)
  obtain ⟨ts, -, scans⟩ := h.scanFrom
  rw [scans, Token.scanFrom, unscannable.visible, unknown]
  rfl

end Reaches

theorem pieces_of_scan_error {text : String} {r : Rejection} (scans : Token.scan text = .error r) :
    pieces text = .error r := by
  rw [pieces, scans]
  rfl

theorem ofText_of_scan_error {text : String} {r : Rejection} (notBlank : isBlankText text = false)
    (short : text.length ≤ maxLength) (scans : Token.scan text = .error r) : ofText text = .error r := by
  rw [ofText, notBlank, if_neg (by simp), if_neg (Nat.not_lt.2 short), scans]
  rfl

/-- A text that is scanned is its tokens with blanks between them, each as long as can be for its kind.
A text that cannot be scanned is refused for the character in the first place that the scan reaches where
neither a token nor a blank starts, before anything else is wrong with it. -/
theorem pieces_lossless (text : String) :
    (∀ ps, pieces text = .ok ps → ∃ qs, ps = qs ++ [⟨"end", "", text.length⟩] ∧
      (∀ q ∈ qs, q.kind ≠ "end") ∧ Lossless 0 text.toList qs) ∧
    (∀ r, pieces text = .error r → ∃ qs p c rest, Reaches 0 text.toList qs p (c :: rest) ∧
      text.toList.drop p = c :: rest ∧ Unscannable c rest ∧ (∀ kind w, Word kind w → ¬ w <+: c :: rest) ∧
      (∀ qs' p' d rest', Reaches 0 text.toList qs' p' (d :: rest') → Unscannable d rest' → p' = p) ∧
      r = ⟨.ofCharacter c, some p⟩) ∧
    ∀ qs p c rest, Reaches 0 text.toList qs p (c :: rest) → Unscannable c rest →
      pieces text = .error ⟨.ofCharacter c, some p⟩ ∧
      (isBlankText text = false → text.length ≤ maxLength → ofText text = .error ⟨.ofCharacter c, some p⟩) := by
  obtain ⟨succeeds, fails⟩ := Reaches.of_scanFrom 0 text.toList
  refine ⟨fun ps found => ?_, fun r failed => ?_, ?_⟩
  · cases scans : Token.scan text with
    | error r =>
      rw [pieces, scans] at found
      cases found
    | ok ts =>
      rw [pieces, scans] at found
      cases found
      refine ⟨_, rfl, fun q hq => ?_, (succeeds ts scans).lossless rfl⟩
      obtain ⟨t, -, rfl⟩ := List.mem_map.1 hq
      rw [Piece.ofToken]
      cases t.lexeme <;> simp [Lexeme.kind]
  · cases scans : Token.scan text with
    | ok ts =>
      rw [pieces, scans] at failed
      cases failed
    | error e =>
      rw [pieces, scans] at failed
      cases failed
      obtain ⟨qs, p, c, rest, reaches, unscannable, rfl⟩ := fails r scans
      refine ⟨qs, p, c, rest, reaches, reaches.rest_eq.2, unscannable, fun kind w word starts => ?_, ?_, rfl⟩
      · exact unscannable.closed (.of_word word starts)
      · intro qs' p' d rest' reaches' unscannable'
        have same := Except.error.inj ((reaches'.fails unscannable').symm.trans scans)
        exact Option.some.inj (congrArg Rejection.position same)
  · intro qs p c rest reaches unscannable
    have scans : Token.scan text = .error ⟨.ofCharacter c, some p⟩ := reaches.fails unscannable
    exact ⟨pieces_of_scan_error scans, fun notBlank short => ofText_of_scan_error notBlank short scans⟩

/-- A comparison without a space in it is cut into three tokens, and a lone sign of equality is where a text
is refused. -/
theorem pieces_of_comparison :
    Lossless 0 "a <=2.".toList [⟨"ident", "a", 0⟩, ⟨"op", "<=", 2⟩, ⟨"number", "2.", 4⟩] ∧
    ofText "a =2." = .error ⟨.assignment, some 2⟩ := by
  have found : pieces "a <=2." =
      .ok [⟨"ident", "a", 0⟩, ⟨"op", "<=", 2⟩, ⟨"number", "2.", 4⟩, ⟨"end", "", 6⟩] := by decide +kernel
  have failed : pieces "a =2." = .error ⟨.assignment, some 2⟩ := by decide +kernel
  obtain ⟨qs, same, -, lossless⟩ := (pieces_lossless "a <=2.").1 _ found
  obtain ⟨qs', p, c, rest, reaches, -, unscannable, -, -, rejection⟩ := (pieces_lossless "a =2.").2.1 _ failed
  have own : [⟨"ident", "a", 0⟩, ⟨"op", "<=", 2⟩, ⟨"number", "2.", 4⟩] = qs := List.append_inj_left' same rfl
  refine ⟨own ▸ lossless, ?_⟩
  rw [rejection]
  exact ((pieces_lossless "a =2.").2.2 qs' p c rest reaches unscannable).2 (by decide) (by decide)

end GameScoring.Formula
