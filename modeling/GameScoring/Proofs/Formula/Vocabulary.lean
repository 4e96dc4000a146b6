import Mathlib.Computability.Language
import Mathlib.Data.List.TakeWhile
import Mathlib.Tactic.FinCases
import GameScoring.Proofs.Formula.Scanning

/-!
# The languages of tokens

The tokens of a kind are spelled with the words of a regular language. What is found at the start of
a text is the longest word of the language of its kind that the text starts with, and nothing is
found only if the text starts with no word of any of the languages.
-/
namespace GameScoring.Formula
open Text

/-! ## The languages -/

/-- The words of one character of a class. -/
def one (p : Char → Bool) : Language Char := {w | ∃ c, p c = true ∧ w = [c]}

/-- The words with characters of a class only. -/
def many (p : Char → Bool) : Language Char := {w | ∀ c ∈ w, p c = true}

def optional (l : Language Char) : Language Char := l + 1

def digits : Language Char := one isDigit * many isDigit

def point : Language Char := one (· == '.')

def mantissa : Language Char := digits * optional point * many isDigit + point * digits

def isMark (c : Char) : Bool := c == 'e' || c == 'E'

def isSign (c : Char) : Bool := c == '+' || c == '-'

def exponent : Language Char := one isMark * (optional (one isSign) * digits)

def isLetter (c : Char) : Bool := ('a' ≤ c && c ≤ 'z') || ('A' ≤ c && c ≤ 'Z')

def startsName (c : Char) : Bool := isLetter c || c == '_'

def name : Language Char := one startsName * many fun c => startsName c || isAsciiDigit c

def operators : List String := ["<=", ">=", "==", "!=", "-", "+", "*", "/", "^", "<", ">"]

/-- The words that a token of a kind can be spelled with. -/
inductive Word : String → List Char → Prop
  | number {w : List Char} : w ∈ mantissa * optional exponent → Word "number" w
  | ident {w : List Char} : w ∈ name → Word "ident" w
  | op {symbol : String} : symbol ∈ operators → Word "op" symbol.toList
  | lparen : Word "lparen" ['(']
  | rparen : Word "rparen" [')']
  | comma : Word "comma" [',']
  | question : Word "question" ['?']
  | colon : Word "colon" [':']

def vocabulary (kind : String) : Language Char := {w | Word kind w}

/-- The longest word of a language that a text starts with. -/
structure Longest (l : Language Char) (word text : List Char) : Prop where
  mem : word ∈ l
  starts : word <+: text
  longest : ∀ w ∈ l, w <+: text → w.length ≤ word.length

/-- The texts that start with a token: with a digit, a point and a digit, a letter or an underscore, an
operator, a parenthesis, a comma, a question mark or a colon. -/
inductive Opens : List Char → Prop
  | digit {c : Char} {rest : List Char} : isDigit c = true → Opens (c :: rest)
  | point {c : Char} {rest : List Char} : isDigit c = true → Opens ('.' :: c :: rest)
  | letter {c : Char} {rest : List Char} : isLetter c = true → Opens (c :: rest)
  | underscore {rest : List Char} : Opens ('_' :: rest)
  | operator {symbol : String} {text : List Char} : symbol ∈ operators → symbol.toList <+: text → Opens text
  | mark {c : Char} {rest : List Char} : c ∈ ['(', ')', ',', '?', ':'] → Opens (c :: rest)

namespace Lexeme
variable {c first : Char} {cs rest w : List Char} {p : Char → Bool} {l : Lexeme} {n : Nat}

/-! ## Rows of characters -/

theorem take_span (p : Char → Bool) (cs : List Char) : cs.take (span p cs) = cs.takeWhile p :=
  (List.prefix_iff_eq_take.1 (List.takeWhile_prefix p)).symm

theorem take_span_mem (p : Char → Bool) (cs : List Char) : cs.take (span p cs) ∈ many p := by
  rw [take_span]
  exact fun c hc => List.mem_takeWhile_imp hc

theorem le_span (h : w ∈ many p) (starts : w <+: cs) : w.length ≤ span p cs := by
  obtain ⟨rest, rfl⟩ := starts
  rw [span, List.takeWhile_append_of_pos h, List.length_append]
  exact Nat.le_add_right ..

theorem span_of_mem (h : w ∈ many p) : span p w = w.length := by
  rw [span, List.takeWhile_eq_self_iff.2 h]

theorem mem_digits : w ∈ digits ↔ w ≠ [] ∧ ∀ c ∈ w, isDigit c = true := by
  rw [digits, Language.mem_mul]
  constructor
  · rintro ⟨_, ⟨d, hd, rfl⟩, ds, hds, rfl⟩
    exact ⟨by simp, List.forall_mem_cons.2 ⟨hd, hds⟩⟩
  · rintro ⟨some, all⟩
    obtain ⟨d, ds, rfl⟩ := List.exists_cons_of_ne_nil some
    obtain ⟨hd, hds⟩ := List.forall_mem_cons.1 all
    exact ⟨[d], ⟨d, hd, rfl⟩, ds, hds, rfl⟩

theorem take_span_digits (h : span isDigit cs ≠ 0) : cs.take (span isDigit cs) ∈ digits := by
  refine mem_digits.2 ⟨?_, take_span_mem isDigit cs⟩
  rw [ne_eq, List.take_eq_nil_iff]
  rintro (none | rfl)
  · exact h none
  · exact h rfl

/-! ## Exponents -/

theorem mem_exponent : w ∈ exponent ↔ ∃ mark sign ds, isMark mark = true ∧
    sign ∈ optional (one isSign) ∧ ds ∈ digits ∧ w = mark :: (sign ++ ds) := by
  simp only [exponent, Language.mem_mul]
  constructor
  · rintro ⟨_, ⟨mark, hm, rfl⟩, _, ⟨sign, hs, ds, hds, rfl⟩, rfl⟩
    exact ⟨mark, sign, ds, hm, hs, hds, rfl⟩
  · rintro ⟨mark, sign, ds, hm, hs, hds, rfl⟩
    exact ⟨[mark], ⟨mark, hm, rfl⟩, _, ⟨sign, hs, ds, hds, rfl⟩, rfl⟩

theorem not_unmarked (h : isMark c = true) : ¬ (c != 'e' && c != 'E') = true := by
  simpa [isMark, Classical.or_iff_not_imp_left] using h

theorem exponentLength_of_signed {mark sign : Char} (marked : isMark mark = true) (signed : isSign sign = true)
    (cs : List Char) : exponentLength (mark :: sign :: cs) =
      if span isDigit cs = 0 then 0 else span isDigit cs + 2 := by
  have marked := not_unmarked marked
  have signed : (sign == '+' || sign == '-') = true := signed
  simp only [exponentLength, if_neg marked, if_pos signed]

theorem exponentLength_of_unsigned {mark c : Char} (marked : isMark mark = true) (unsigned : isSign c = false)
    (cs : List Char) : exponentLength (mark :: c :: cs) =
      if span isDigit (c :: cs) = 0 then 0 else span isDigit (c :: cs) + 1 := by
  have marked := not_unmarked marked
  have unsigned : ¬ (c == '+' || c == '-') = true := Bool.eq_false_iff.1 unsigned
  simp only [exponentLength, if_neg marked, if_neg unsigned]

theorem exponentLength_of_unmarked {c : Char} (unmarked : isMark c = false) (cs : List Char) :
    exponentLength (c :: cs) = 0 := by
  have unmarked : (c != 'e' && c != 'E') = true := by simpa [isMark] using unmarked
  simp only [exponentLength, if_pos unmarked]

theorem take_exponentLength (cs : List Char) : cs.take (exponentLength cs) ∈ optional exponent := by
  have nothing : [] ∈ optional exponent := .inr rfl
  rcases cs with _ | ⟨mark, _ | ⟨sign, more⟩⟩
  · exact nothing
  · rw [exponentLength]
    split <;> exact nothing
  · cases marked : isMark mark with
    | false => rwa [exponentLength_of_unmarked marked]
    | true =>
      cases signed : isSign sign with
      | true =>
        rw [exponentLength_of_signed marked signed]
        split
        next => exact nothing
        next some =>
          refine .inl (mem_exponent.2 ⟨mark, [sign], _, marked, ?_, take_span_digits some, by simp⟩)
          exact .inl ⟨sign, signed, rfl⟩
      | false =>
        rw [exponentLength_of_unsigned marked signed]
        split
        next => exact nothing
        next some => exact .inl (mem_exponent.2 ⟨mark, [], _, marked, .inr rfl, take_span_digits some, by simp⟩)

theorem isSign_of_isDigit (h : isDigit c = true) : isSign c = false := by
  refine Bool.eq_false_iff.2 fun signed => ?_
  obtain same | same := Bool.or_eq_true_iff.1 signed <;> rw [beq_iff_eq.1 same] at h <;> cases h

theorem le_exponentLength (h : w ∈ exponent) (starts : w <+: cs) : w.length ≤ exponentLength cs := by
  obtain ⟨mark, sign, ds, marked, hs, hds, rfl⟩ := mem_exponent.1 h
  obtain ⟨rest, rfl⟩ := starts
  obtain ⟨some, all⟩ := mem_digits.1 hds
  have read : ds.length ≤ span isDigit (ds ++ rest) := le_span all (List.prefix_append ds rest)
  have positive : 0 < ds.length := List.length_pos_iff.2 some
  obtain ⟨s, signed, rfl⟩ | rfl := hs
  · have length := exponentLength_of_signed marked signed (ds ++ rest)
    rw [if_neg (by omega)] at length
    simp only [List.cons_append, List.nil_append, length, List.length_cons]
    omega
  · obtain ⟨d, more, rfl⟩ := List.exists_cons_of_ne_nil some
    have length := exponentLength_of_unsigned marked (isSign_of_isDigit (all d (.head _))) (more ++ rest)
    rw [if_neg (by rw [List.cons_append] at read; omega)] at length
    simp only [List.cons_append, List.nil_append, length, List.length_cons] at read ⊢
    omega

/-! ## Mantissas -/

theorem mem_mantissa : w ∈ mantissa ↔
    (∃ ds ∈ digits, ∃ dot ∈ optional point, ∃ fraction ∈ many isDigit, w = ds ++ (dot ++ fraction)) ∨
      ∃ ds ∈ digits, w = '.' :: ds := by
  simp only [mantissa, point, Language.mem_add, Language.mem_mul, one]
  constructor
  · rintro (⟨_, ⟨ds, hds, dot, hdot, rfl⟩, fraction, hf, rfl⟩ | ⟨_, ⟨c, hc, rfl⟩, ds, hds, rfl⟩)
    · exact .inl ⟨ds, hds, dot, hdot, fraction, hf, List.append_assoc ..⟩
    · exact .inr ⟨ds, hds, by rw [beq_iff_eq.1 hc]; rfl⟩
  · rintro (⟨ds, hds, dot, hdot, fraction, hf, rfl⟩ | ⟨ds, hds, rfl⟩)
    · exact .inl ⟨_, ⟨ds, hds, dot, hdot, rfl⟩, fraction, hf, List.append_assoc ..⟩
    · exact .inr ⟨['.'], ⟨'.', by decide, rfl⟩, ds, hds, rfl⟩

theorem mem_point : w ∈ point ↔ w = ['.'] := by
  constructor
  · rintro ⟨c, hc, rfl⟩
    rw [beq_iff_eq.1 hc]
  · rintro rfl
    exact ⟨'.', by decide, rfl⟩

/-- The digits, the point and the digits behind it at the start of a text. -/
theorem take_wholeLength (cs : List Char) : ∃ dot ∈ optional point, ∃ fraction ∈ many isDigit,
    cs.take (wholeLength cs) = cs.take (span isDigit cs) ++ (dot ++ fraction) := by
  rw [wholeLength]
  split
  next fraction behind =>
    refine ⟨['.'], .inl (mem_point.2 rfl), _, take_span_mem isDigit fraction, ?_⟩
    rw [Nat.add_assoc, List.take_add, behind, Nat.add_comm 1, List.take_succ_cons, List.singleton_append]
  next => exact ⟨[], .inr rfl, [], List.forall_mem_nil _, by simp⟩

theorem le_wholeLength {ds dot fraction : List Char} (hds : ds ∈ many isDigit) (hdot : dot ∈ optional point)
    (hf : fraction ∈ many isDigit) (starts : ds ++ (dot ++ fraction) <+: cs) :
    (ds ++ (dot ++ fraction)).length ≤ wholeLength cs := by
  obtain hdot | rfl := hdot
  · rw [mem_point.1 hdot] at starts ⊢
    obtain ⟨rest, rfl⟩ := starts
    have whole : span isDigit (ds ++ '.' :: (fraction ++ rest)) = ds.length := by
      rw [span_append (by decide), span_of_mem hds]
    have read : fraction.length ≤ span isDigit (fraction ++ rest) := le_span hf (List.prefix_append ..)
    have text : ds ++ (['.'] ++ fraction) ++ rest = ds ++ '.' :: (fraction ++ rest) := by simp
    rw [text, wholeLength, whole, List.drop_left]
    simp only [List.length_append, List.length_cons, List.length_nil]
    omega
  · have all : ds ++ ([] ++ fraction) ∈ many isDigit := List.forall_mem_append.2 ⟨hds, hf⟩
    refine Nat.le_trans (le_span all starts) ?_
    rw [wholeLength]
    split <;> omega

/-- How many more characters belong to the mantissa of a number that starts with `first`. -/
def mantissaTail? (first : Char) (rest : List Char) : Option Nat :=
  if isDigit first then some (wholeLength rest)
  else if first == '.' then
    if span isDigit rest = 0 then none else some (span isDigit rest)
  else none

theorem numberTail?_eq (first : Char) (rest : List Char) : numberTail? first rest =
    (mantissaTail? first rest).map fun n => n + exponentLength (rest.drop n) := by
  rw [numberTail?, mantissaTail?]
  split
  next => rfl
  next =>
    split
    next =>
      dsimp only
      split <;> rfl
    next => rfl

theorem mantissaTail?_le (h : mantissaTail? first rest = some n) : n ≤ rest.length := by
  have whole : ∃ m, numberTail? first rest = some m ∧ n ≤ m :=
    ⟨_, by rw [numberTail?_eq, h]; rfl, Nat.le_add_right ..⟩
  obtain ⟨m, found, le⟩ := whole
  exact Nat.le_trans le (numberTail?_le found)

theorem take_mantissaTail (h : mantissaTail? first rest = some n) : first :: rest.take n ∈ mantissa := by
  rw [mantissaTail?] at h
  refine mem_mantissa.2 ?_
  split at h
  next digit =>
    cases h
    obtain ⟨dot, hdot, fraction, hf, taken⟩ := take_wholeLength rest
    refine .inl ⟨first :: rest.take (span isDigit rest), mem_digits.2 ⟨by simp, ?_⟩, dot, hdot, fraction, hf, ?_⟩
    · exact List.forall_mem_cons.2 ⟨digit, take_span_mem isDigit rest⟩
    · rw [taken, List.cons_append]
  next =>
    split at h
    next dot =>
      split at h
      next => cases h
      next some =>
        cases h
        exact .inr ⟨_, take_span_digits some, by rw [beq_iff_eq.1 dot]⟩
    next => cases h

theorem le_mantissaTail (h : w ∈ mantissa) (starts : w <+: first :: rest) :
    ∃ n, mantissaTail? first rest = some n ∧ w.length ≤ n + 1 := by
  obtain ⟨ds, hds, dot, hdot, fraction, hf, rfl⟩ | ⟨ds, hds, rfl⟩ := mem_mantissa.1 h
  · obtain ⟨some, all⟩ := mem_digits.1 hds
    obtain ⟨d, more, rfl⟩ := List.exists_cons_of_ne_nil some
    obtain ⟨digit, digits⟩ := List.forall_mem_cons.1 all
    obtain ⟨rfl, behind⟩ := List.cons_prefix_cons.1 starts
    exact ⟨wholeLength rest, if_pos digit, Nat.succ_le_succ (le_wholeLength digits hdot hf behind)⟩
  · obtain ⟨rfl, behind⟩ := List.cons_prefix_cons.1 starts
    obtain ⟨some, all⟩ := mem_digits.1 hds
    have read := le_span all behind
    have positive := List.length_pos_iff.2 some
    refine ⟨span isDigit rest, ?_, Nat.succ_le_succ read⟩
    rw [mantissaTail?, if_neg (by decide), if_pos (by decide), if_neg (by omega)]

theorem isDigit_of_isMark (h : isMark c = true) : isDigit c = false := by
  obtain same | same := Bool.or_eq_true_iff.1 h <;> rw [beq_iff_eq.1 same] <;> rfl

theorem isMark_of_mem_mantissa (h : w ∈ mantissa) (member : c ∈ w) : isMark c = false := by
  have of_isDigit {d : Char} (digit : isDigit d = true) : isMark d = false := by
    refine Bool.eq_false_iff.2 fun marked => ?_
    rw [isDigit_of_isMark marked] at digit
    cases digit
  obtain ⟨ds, hds, dot, hdot, fraction, hf, rfl⟩ | ⟨ds, hds, rfl⟩ := mem_mantissa.1 h
  · obtain member | member | member := by simpa only [List.mem_append] using member
    · exact of_isDigit ((mem_digits.1 hds).2 c member)
    · obtain hdot | rfl := hdot
      · rw [mem_point.1 hdot, List.mem_singleton] at member
        rw [member]
        rfl
      · cases member
    · exact of_isDigit (hf c member)
  · obtain rfl | member := List.mem_cons.1 member
    · rfl
    · exact of_isDigit ((mem_digits.1 hds).2 c member)

/-! ## Numbers -/

theorem take_numberTail (h : numberTail? first rest = some n) :
    first :: rest.take n ∈ mantissa * optional exponent := by
  rw [numberTail?_eq] at h
  obtain ⟨k, found, rfl⟩ := Option.map_eq_some_iff.1 h
  refine Language.mem_mul.2 ⟨_, take_mantissaTail found, _, take_exponentLength (rest.drop k), ?_⟩
  rw [List.take_add, List.cons_append]

theorem le_numberTail (h : w ∈ mantissa * optional exponent) (starts : w <+: first :: rest) :
    ∃ n, numberTail? first rest = some n ∧ w.length ≤ n + 1 := by
  obtain ⟨m, hm, e, he, rfl⟩ := Language.mem_mul.1 h
  obtain ⟨n, found, fits⟩ := le_mantissaTail hm ((List.prefix_append m e).trans starts)
  refine ⟨n + exponentLength (rest.drop n), by rw [numberTail?_eq, found]; rfl, ?_⟩
  obtain he | rfl := he
  · obtain ⟨mark, sign, ds, marked, -, -, rfl⟩ := mem_exponent.1 he
    -- The mark of the exponent cannot stand in a longer mantissa.
    have whole : m.length = n + 1 := by
      refine Nat.le_antisymm fits (Nat.not_lt.1 fun short => ?_)
      have longer : m ++ [mark] <+: first :: rest.take n := by
        have starts : m ++ [mark] <+: first :: rest := by
          refine List.IsPrefix.trans ⟨sign ++ ds, ?_⟩ starts
          rw [List.append_assoc, List.singleton_append]
        refine List.prefix_of_prefix_length_le starts ?_ ?_
        · exact List.cons_prefix_cons.2 ⟨rfl, List.take_prefix n rest⟩
        · have fit : n ≤ rest.length := mantissaTail?_le found
          simp only [List.length_append, List.length_cons, List.length_take, List.length_nil]
          omega
      have unmarked := isMark_of_mem_mantissa (take_mantissaTail found) (longer.subset (by simp : mark ∈ m ++ [mark]))
      rw [marked] at unmarked
      cases unmarked
    have behind : mark :: (sign ++ ds) <+: rest.drop n := by
      obtain ⟨tail, same⟩ := starts
      refine ⟨tail, ?_⟩
      have dropped := congrArg (List.drop (n + 1)) same
      rwa [List.append_assoc, ← whole, List.drop_left, whole, List.drop_succ_cons] at dropped
    have read := le_exponentLength he behind
    rw [List.length_append, whole]
    omega
  · rw [List.append_nil]
    omega

/-! ## Names -/

theorem isAlpha_eq (c : Char) : c.isAlpha = isLetter c := by
  have upper : c.isUpper = ('A' ≤ c && c ≤ 'Z') := Bool.decide_and ..
  have lower : c.isLower = ('a' ≤ c && c ≤ 'z') := rfl
  show (c.isUpper || c.isLower) = isLetter c
  rw [isLetter, Bool.or_comm, upper, lower]

theorem isNameStart_eq (c : Char) : isNameStart c = startsName c := by
  rw [isNameStart, startsName, isAlpha_eq]

theorem isNameChar_eq (c : Char) : isNameChar c = (startsName c || isAsciiDigit c) := by
  have digit : c.isDigit = isAsciiDigit c := rfl
  rw [isNameChar, Char.isAlphanum, isAlpha_eq, digit, startsName, Bool.or_right_comm]

theorem take_name (starts : isNameStart first = true) : first :: rest.take (span isNameChar rest) ∈ name := by
  refine Language.mem_mul.2 ⟨[first], ⟨first, isNameStart_eq first ▸ starts, rfl⟩, _, ?_, rfl⟩
  rw [← funext isNameChar_eq]
  exact take_span_mem isNameChar rest

theorem le_name (h : w ∈ name) (starts : w <+: first :: rest) :
    isNameStart first = true ∧ w.length ≤ span isNameChar rest + 1 := by
  obtain ⟨_, ⟨c, hc, rfl⟩, more, hm, rfl⟩ := Language.mem_mul.1 h
  obtain ⟨rfl, behind⟩ := List.cons_prefix_cons.1 starts
  rw [← funext isNameChar_eq] at hm
  exact ⟨isNameStart_eq c ▸ hc, Nat.succ_le_succ (le_span hm behind)⟩

theorem range_of_startsName (h : startsName c = true) :
    65 ≤ c.toNat ∧ c.toNat ≤ 90 ∨ c.toNat = 95 ∨ 97 ≤ c.toNat ∧ c.toNat ≤ 122 := by
  simp only [startsName, isLetter, Bool.or_eq_true, Bool.and_eq_true, decide_eq_true_eq, beq_iff_eq] at h
  obtain (⟨low, high⟩ | ⟨low, high⟩) | rfl := h
  · exact .inr (.inr ⟨low, high⟩)
  · exact .inl ⟨low, high⟩
  · exact .inr (.inl rfl)

/-- The digits of a script lie between the blanks, and those beyond ASCII above its letters. -/
theorem range_of_isDigit (h : isDigit c = true) : 48 ≤ c.toNat ∧ c.toNat ≤ 57 ∨ 0x660 ≤ c.toNat ∧
    c.toNat ≠ 0x1680 ∧ (c.toNat < 0x2000 ∨ 0x3000 < c.toNat) := by
  have gaps : ∀ base ∈ scriptZeros, base = 48 ∨ 0x660 ≤ base ∧ (base + 10 ≤ 0x1680 ∨ 0x1680 < base) ∧
      (base + 10 ≤ 0x2000 ∨ 0x3000 < base) := by decide
  obtain ⟨_, found⟩ := Option.isSome_iff_exists.1 h
  obtain ⟨base, found, -⟩ := Option.map_eq_some_iff.1 found
  have bounds := List.find?_some found
  simp only [Bool.and_eq_true, decide_eq_true_eq] at bounds
  have gap := gaps base (List.mem_of_find?_eq_some found)
  omega

theorem isDigit_of_startsName (h : startsName c = true) : isDigit c = false := by
  refine Bool.eq_false_iff.2 fun digit => ?_
  have letter := range_of_startsName h
  have digit := range_of_isDigit digit
  omega

theorem numberTail?_of_startsName (h : startsName first = true) (rest : List Char) :
    numberTail? first rest = none := by
  have digit : ¬ isDigit first = true := Bool.eq_false_iff.1 (isDigit_of_startsName h)
  have point : ¬ (first == '.') = true := by
    rw [beq_iff_eq]
    rintro rfl
    exact absurd h (by decide)
  rw [numberTail?, if_neg digit, if_neg point]

/-! ## Operators and marks -/

theorem take_operator (h : operator? first rest = some (l, n)) :
    Word l.kind l.text.toList ∧ l.text.toList = first :: rest.take n := by
  rw [operator?.eq_def] at h
  split at h <;> cases h <;> refine ⟨?_, rfl⟩
  case h_12 => exact .lparen
  case h_13 => exact .rparen
  case h_14 => exact .comma
  case h_15 => exact .question
  case h_16 => exact .colon
  all_goals exact .op (by decide)

theorem exists_operator_of_pair (h : c ∈ ['<', '>', '=', '!']) (rest : List Char) :
    ∃ op, operator? c ('=' :: rest) = some (.compare op, 1) := by
  fin_cases h <;> exact ⟨_, rfl⟩

theorem exists_operator_of_sign (h : c ∈ ['<', '>', '+', '-', '*', '/', '^']) (rest : List Char) :
    ∃ l n, operator? c rest = some (l, n) ∧ l.kind = "op" := by
  rw [operator?.eq_def]
  split
  case h_12 | h_13 | h_14 | h_15 | h_16 => exact absurd h (by decide)
  case h_17 => simp_all
  all_goals exact ⟨_, _, rfl, rfl⟩

theorem operators_spelled : ∀ symbol ∈ operators,
    (∃ c ∈ ['<', '>', '=', '!'], symbol.toList = [c, '=']) ∨
      ∃ c ∈ ['<', '>', '+', '-', '*', '/', '^'], symbol.toList = [c] := by
  simp [operators]

theorem leading?_of_symbol (h : c ∈ ['<', '>', '=', '!', '+', '-', '*', '/', '^', '(', ')', ',', '?', ':'])
    (rest : List Char) : leading? c rest = operator? c rest := by
  have others : ['<', '>', '=', '!', '+', '-', '*', '/', '^', '(', ')', ',', '?', ':'].all
      fun c => !isDigit c && (!(c == '.') && !isNameStart c) := by decide
  have other := List.all_eq_true.1 others c h
  rw [Bool.and_eq_true, Bool.and_eq_true, Bool.not_eq_true', Bool.not_eq_true', Bool.not_eq_true'] at other
  obtain ⟨digit, point, name⟩ := other
  rw [leading?, numberTail?, digit, point, name]
  rfl

theorem le_operator {symbol : String} (listed : symbol ∈ operators) (starts : symbol.toList <+: first :: rest) :
    ∃ l n, leading? first rest = some (l, n) ∧ l.kind = "op" ∧ symbol.toList.length ≤ n + 1 := by
  obtain ⟨c, known, same⟩ | ⟨c, known, same⟩ := operators_spelled symbol listed
  · rw [same] at starts ⊢
    obtain ⟨rfl, more, rfl⟩ := List.cons_prefix_cons.1 starts
    obtain ⟨op, found⟩ := exists_operator_of_pair known more
    have known : c ∈ _ := List.mem_append_left ['+', '-', '*', '/', '^', '(', ')', ',', '?', ':'] known
    exact ⟨.compare op, 1, (leading?_of_symbol known _).trans found, rfl, Nat.le_refl 2⟩
  · rw [same] at starts ⊢
    obtain ⟨rfl, -⟩ := List.cons_prefix_cons.1 starts
    obtain ⟨l, n, found, kind⟩ := exists_operator_of_sign known rest
    have known : c ∈ _ := List.mem_append_left ['=', '!', '(', ')', ',', '?', ':'] known
    refine ⟨l, n, (leading?_of_symbol ?_ rest).trans found, kind, Nat.le_add_left 1 n⟩
    exact List.Perm.subset (by decide) known

/-! ## What a text starts with -/

/-- A word at the start of a text is no longer than what is found there, which is of its kind. -/
theorem le_leading {kind : String} (word : Word kind w) (starts : w <+: first :: rest) :
    ∃ l n, leading? first rest = some (l, n) ∧ l.kind = kind ∧ w.length ≤ n + 1 := by
  have mark {c : Char} {l : Lexeme} (starts : [c] <+: first :: rest) (found : operator? c rest = some (l, 0))
      (known : c ∈ ['<', '>', '=', '!', '+', '-', '*', '/', '^', '(', ')', ',', '?', ':']) :
      ∃ l' n, leading? first rest = some (l', n) ∧ l'.kind = l.kind ∧ [c].length ≤ n + 1 := by
    obtain ⟨rfl, -⟩ := List.cons_prefix_cons.1 starts
    exact ⟨l, 0, (leading?_of_symbol known rest).trans found, rfl, Nat.le_refl 1⟩
  cases word with
  | number h =>
    obtain ⟨n, found, fits⟩ := le_numberTail h starts
    refine ⟨.number (String.ofList (first :: rest.take n)), n, ?_, rfl, fits⟩
    rw [leading?, found]
  | ident h =>
    obtain ⟨name, fits⟩ := le_name h starts
    refine ⟨.identifier (String.ofList (first :: rest.take (span isNameChar rest))), _, ?_, rfl, fits⟩
    rw [leading?, numberTail?_of_startsName (isNameStart_eq first ▸ name), name]
    rfl
  | op listed => exact le_operator listed starts
  | lparen => exact mark starts rfl (by decide)
  | rparen => exact mark starts rfl (by decide)
  | comma => exact mark starts rfl (by decide)
  | question => exact mark starts rfl (by decide)
  | colon => exact mark starts rfl (by decide)

/-- What is found at the start of a text is a word of its kind. -/
theorem leading?_word (h : leading? first rest = some (l, n)) :
    Word l.kind l.text.toList ∧ l.text.toList = first :: rest.take n := by
  rw [leading?] at h
  split at h
  next found =>
    cases h
    rw [text, kind, String.toList_ofList]
    exact ⟨.number (take_numberTail found), rfl⟩
  next =>
    split at h
    next starts =>
      cases h
      rw [text, kind, String.toList_ofList]
      exact ⟨.ident (take_name starts), rfl⟩
    next => exact take_operator h

theorem leading?_longest (h : leading? first rest = some (l, n)) :
    Longest (vocabulary l.kind) l.text.toList (first :: rest) := by
  obtain ⟨word, same⟩ := leading?_word h
  refine ⟨word, ?_, fun w hw starts => ?_⟩
  · rw [same]
    exact List.cons_prefix_cons.2 ⟨rfl, List.take_prefix n rest⟩
  · obtain ⟨l', n', found, -, fits⟩ := le_leading hw starts
    rw [h] at found
    cases found
    rw [same, List.length_cons, List.length_take, Nat.min_eq_left (leading?_le h)]
    exact fits

/-- A word that is as long as can be is what is found. -/
theorem leading?_of_longest {kind : String} (h : Longest (vocabulary kind) w (first :: rest)) :
    ∃ l n, leading? first rest = some (l, n) ∧ l.kind = kind ∧ l.text.toList = w := by
  obtain ⟨l, n, found, rfl, fits⟩ := le_leading h.mem h.starts
  refine ⟨l, n, found, rfl, ?_⟩
  have own := leading?_longest found
  exact (List.prefix_of_prefix_length_le own.starts h.starts (h.longest _ own.mem own.starts)).eq_of_length_le
    (own.longest w h.mem h.starts)

end Lexeme

namespace Opens
variable {c : Char} {cs rest w : List Char} {kind : String}

theorem of_number (h : w ∈ mantissa * optional exponent) (starts : w <+: cs) : Opens cs := by
  obtain ⟨m, hm, e, -, rfl⟩ := Language.mem_mul.1 h
  obtain ⟨ds, hds, tail, -, more, -, rfl⟩ | ⟨ds, hds, rfl⟩ := Lexeme.mem_mantissa.1 hm
  all_goals
    obtain ⟨some, all⟩ := Lexeme.mem_digits.1 hds
    obtain ⟨d, ds, rfl⟩ := List.exists_cons_of_ne_nil some
    obtain ⟨rest, rfl⟩ := starts
  · exact .digit (all d (.head _))
  · exact .point (all d (.head _))

theorem of_name (h : w ∈ name) (starts : w <+: cs) : Opens cs := by
  obtain ⟨_, ⟨c, hc, rfl⟩, more, -, rfl⟩ := Language.mem_mul.1 h
  obtain ⟨rest, rfl⟩ := starts
  obtain letter | underscore := Bool.or_eq_true_iff.1 hc
  · exact .letter letter
  · rw [beq_iff_eq.1 underscore]
    exact .underscore

theorem of_word (word : Word kind w) (starts : w <+: cs) : Opens cs := by
  have mark {c : Char} (known : c ∈ ['(', ')', ',', '?', ':']) (starts : [c] <+: cs) : Opens cs := by
    obtain ⟨rest, rfl⟩ := starts
    exact .mark known
  cases word with
  | number h => exact of_number h starts
  | ident h => exact of_name h starts
  | op listed => exact .operator listed starts
  | lparen | rparen | comma | question | colon => exact mark (by decide) starts

theorem exists_word (h : Opens cs) : ∃ kind w, Word kind w ∧ w <+: cs := by
  have number {w : List Char} (h : w ∈ mantissa) : Word "number" w :=
    .number (Language.mem_mul.2 ⟨w, h, [], .inr rfl, List.append_nil w⟩)
  have name {c : Char} (h : startsName c = true) : Word "ident" [c] :=
    .ident (Language.mem_mul.2 ⟨[c], ⟨c, h, rfl⟩, [], nofun, rfl⟩)
  cases h with
  | @digit c rest h =>
    refine ⟨_, [c], number (Lexeme.mem_mantissa.2 (.inl ?_)), rest, rfl⟩
    exact ⟨[c], Lexeme.mem_digits.2 (by simp [h]), [], .inr rfl, [], nofun, rfl⟩
  | @point c rest h =>
    refine ⟨_, ['.', c], number (Lexeme.mem_mantissa.2 (.inr ?_)), rest, rfl⟩
    exact ⟨[c], Lexeme.mem_digits.2 (by simp [h]), rfl⟩
  | @letter c rest h => exact ⟨_, [c], name (by rw [startsName, h]; rfl), rest, rfl⟩
  | @underscore rest => exact ⟨_, ['_'], name (by decide), rest, rfl⟩
  | operator listed starts => exact ⟨_, _, .op listed, starts⟩
  | @mark c rest known =>
    have word : ∀ c ∈ ['(', ')', ',', '?', ':'], ∃ kind, Word kind [c] := by
      simp only [List.forall_mem_cons]
      exact ⟨⟨_, .lparen⟩, ⟨_, .rparen⟩, ⟨_, .comma⟩, ⟨_, .question⟩, ⟨_, .colon⟩, nofun⟩
    obtain ⟨kind, word⟩ := word c known
    exact ⟨kind, [c], word, rest, rfl⟩

theorem ne_nil (h : Opens cs) : cs ≠ [] := by
  rintro rfl
  cases h with
  | @operator symbol _ listed starts =>
    have empty : symbol = "" := String.toList_eq_nil_iff.1 (List.prefix_nil.1 starts)
    rw [empty] at listed
    exact absurd listed (by decide)

theorem iff_leading? : Opens (c :: rest) ↔ ∃ l n, Lexeme.leading? c rest = some (l, n) := by
  refine ⟨fun h => ?_, fun ⟨l, n, found⟩ => ?_⟩
  · obtain ⟨kind, w, word, starts⟩ := h.exists_word
    obtain ⟨l, n, found, -⟩ := Lexeme.le_leading word starts
    exact ⟨l, n, found⟩
  · have longest := Lexeme.leading?_longest found
    exact of_word longest.mem longest.starts

theorem isBlank_of_range (h : 33 ≤ c.toNat ∧ c.toNat ≤ 126 ∨ 0x660 ≤ c.toNat ∧
    c.toNat ≠ 0x1680 ∧ (c.toNat < 0x2000 ∨ 0x3000 < c.toNat)) : isBlank c = false := by
  refine Bool.eq_false_iff.2 fun blank => ?_
  simp only [isBlank, Bool.or_eq_true, Bool.and_eq_true, decide_eq_true_eq, beq_iff_eq] at blank
  omega

theorem not_blank (h : Opens (c :: rest)) : isBlank c = false := by
  cases h with
  | digit h =>
    have range := Lexeme.range_of_isDigit h
    exact isBlank_of_range (by omega)
  | point => decide
  | letter h =>
    have range := Lexeme.range_of_startsName (Bool.or_eq_true_iff.2 (.inl h))
    exact isBlank_of_range (by omega)
  | underscore => decide
  | operator listed starts =>
    obtain ⟨d, known, same⟩ | ⟨d, known, same⟩ := Lexeme.operators_spelled _ listed
    all_goals
      rw [same] at starts
      obtain ⟨rfl, -⟩ := List.cons_prefix_cons.1 starts
      fin_cases known <;> decide
  | mark known =>
    have shown : ['(', ')', ',', '?', ':'].all fun c => !isBlank c := by decide
    simpa using List.all_eq_true.1 shown c known

end Opens

/-- The longest word is the longest one also in less of the text. -/
theorem Longest.shorten {l : Language Char} {word more rest : List Char} (h : Longest l word (word ++ (more ++ rest))) :
    Longest l word (word ++ more) where
  mem := h.mem
  starts := List.prefix_append word more
  longest w hw starts := h.longest w hw (starts.trans ⟨rest, List.append_assoc ..⟩)

/-- No token goes on with a blank. -/
theorem separates_of_isBlank {c : Char} (blank : isBlank c = true) : Separates c where
  digit := by
    refine Bool.eq_false_iff.2 fun digit => ?_
    have opens : Opens [c] := .digit digit
    have visible := opens.not_blank
    rw [blank] at visible
    cases visible
  name := by
    refine Bool.eq_false_iff.2 fun named => ?_
    have range : 48 ≤ c.toNat ∧ c.toNat ≤ 122 := by
      rw [Lexeme.isNameChar_eq, Bool.or_eq_true] at named
      obtain letter | digit := named
      · have range := Lexeme.range_of_startsName letter
        omega
      · simp only [isAsciiDigit, Bool.and_eq_true, decide_eq_true_eq] at digit
        exact ⟨digit.1, Nat.le_trans digit.2 (by decide)⟩
    have visible : isBlank c = false := Opens.isBlank_of_range (by omega)
    rw [blank] at visible
    cases visible
  point := by rintro rfl; exact absurd blank (by decide)
  plus := by rintro rfl; exact absurd blank (by decide)
  minus := by rintro rfl; exact absurd blank (by decide)
  equals := by rintro rfl; exact absurd blank (by decide)

theorem Longest.ne_nil {kind : String} {word text : List Char} (h : Longest (vocabulary kind) word text) :
    word ≠ [] := (Opens.of_word h.mem List.prefix_rfl).ne_nil

end GameScoring.Formula
