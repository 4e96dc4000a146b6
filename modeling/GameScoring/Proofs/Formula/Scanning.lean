import GameScoring.Formula.Token

/-!
# Scanning in context

Where a text is followed by a character that no lexeme goes on with, it is cut into the same
lexemes as on its own, wherever it starts. So the lexemes of a text that is put together from
such texts are those of its parts.
-/
namespace GameScoring.Formula
open Text

/-- A character that no lexeme goes on with. -/
structure Separates (c : Char) : Prop where
  digit : isDigit c = false
  name : Lexeme.isNameChar c = false
  point : c ≠ '.'
  plus : c ≠ '+'
  minus : c ≠ '-'
  equals : c ≠ '='

namespace Lexeme
variable {c first : Char} {cs rest : List Char} {p : Char → Bool} {l : Lexeme} {n : Nat}

theorem span_le (p : Char → Bool) (cs : List Char) : span p cs ≤ cs.length :=
  (List.takeWhile_prefix p).length_le

theorem span_append (h : p c = false) (cs rest : List Char) : span p (cs ++ c :: rest) = span p cs := by
  rw [span, List.takeWhile_append]
  split
  next whole => simp [span, h, whole]
  next => rfl

theorem drop_span_append (p : Char → Bool) (cs rest : List Char) :
    (cs ++ rest).drop (span p cs) = cs.drop (span p cs) ++ rest :=
  List.drop_append_of_le_length (span_le p cs)

theorem wholeLength_le (cs : List Char) : wholeLength cs ≤ cs.length := by
  have digits := span_le isDigit cs
  rw [wholeLength]
  split
  next fraction point =>
    have more := span_le isDigit fraction
    have length := congrArg List.length point
    rw [List.length_drop, List.length_cons] at length
    omega
  next => exact digits

theorem exponentLength_le (cs : List Char) : exponentLength cs ≤ cs.length := by
  cases cs with
  | nil => exact Nat.le_refl 0
  | cons mark rest =>
    have after := span_le isDigit rest
    cases rest with
    | nil => simp [exponentLength]
    | cons sign digits =>
      have signed := span_le isDigit digits
      simp only [List.length_cons] at after signed ⊢
      rw [exponentLength]
      split
      next => omega
      next =>
        dsimp only
        split <;> split <;> omega

theorem wholeLength_append (h : Separates c) (cs rest : List Char) :
    wholeLength (cs ++ c :: rest) = wholeLength cs := by
  rw [wholeLength, span_append h.digit, drop_span_append, wholeLength]
  cases cs.drop (span isDigit cs) with
  | nil =>
    dsimp only [List.nil_append]
    split
    next point => exact absurd (List.cons.inj point).1 h.point
    next => rfl
  | cons point fraction =>
    by_cases isPoint : point = '.'
    · subst isPoint
      exact congrArg _ (span_append h.digit fraction rest)
    · dsimp only [List.cons_append]
      split
      next same => exact absurd (List.cons.inj same).1 isPoint
      next =>
        split
        next same => exact absurd (List.cons.inj same).1 isPoint
        next => rfl

theorem exponentLength_append (h : Separates c) (cs rest : List Char) :
    exponentLength (cs ++ c :: rest) = exponentLength cs := by
  have unmarked : c ≠ 'e' ∧ c ≠ 'E' := by
    constructor <;> rintro rfl <;> exact absurd h.name (by decide)
  match cs with
  | [] => cases rest <;> simp [exponentLength, unmarked.1, unmarked.2]
  | [mark] =>
    have none : span isDigit (c :: rest) = 0 := span_append h.digit [] rest
    simp [exponentLength, h.plus, h.minus, none]
  | mark :: sign :: digits =>
    have unsigned := span_append h.digit (sign :: digits) rest
    simp only [List.cons_append] at unsigned ⊢
    simp only [exponentLength, unsigned, span_append h.digit digits rest]

theorem numberTail?_append (h : Separates c) (first : Char) (cs rest : List Char) :
    numberTail? first (cs ++ c :: rest) = numberTail? first cs := by
  simp only [numberTail?, wholeLength_append h, span_append h.digit, drop_span_append,
    List.drop_append_of_le_length (wholeLength_le cs), exponentLength_append h]

theorem numberTail?_le (h : numberTail? first cs = some n) : n ≤ cs.length := by
  rw [numberTail?] at h
  have digits := span_le isDigit cs
  have whole := wholeLength_le cs
  have exponent := exponentLength_le (cs.drop (wholeLength cs))
  have exponent' := exponentLength_le (cs.drop (span isDigit cs))
  simp only [List.length_drop] at exponent exponent'
  split at h
  next => cases h; omega
  next =>
    split at h
    next =>
      dsimp only at h
      split at h
      next => cases h
      next => cases h; omega
    next => cases h

theorem operator?_append (h : Separates c) (first : Char) (cs rest : List Char) :
    operator? first (cs ++ c :: rest) = operator? first cs := by
  cases cs with
  | nil =>
    have unequal := h.equals
    rw [List.nil_append, operator?.eq_def, operator?.eq_def]
    split <;> simp_all
  | cons second more =>
    rw [List.cons_append, operator?.eq_def, operator?.eq_def]
    split <;> simp_all

theorem operator?_le (h : operator? first cs = some (l, n)) : n ≤ cs.length := by
  rw [operator?.eq_def] at h
  split at h <;> cases h <;> simp

theorem leading?_le (h : leading? first cs = some (l, n)) : n ≤ cs.length := by
  rw [leading?] at h
  split at h
  next n found =>
    cases h
    exact numberTail?_le found
  next =>
    split at h
    next =>
      cases h
      exact span_le _ _
    next => exact operator?_le h

/-- The longest lexeme at the start of a text does not change with what is separated from it. -/
theorem leading?_append (h : Separates c) (first : Char) (cs rest : List Char) :
    leading? first (cs ++ c :: rest) = leading? first cs := by
  have name := span_append h.name cs rest
  rw [leading?, leading?, numberTail?_append h, operator?_append h]
  cases number : numberTail? first cs with
  | some n =>
    dsimp only
    rw [List.take_append_of_le_length (numberTail?_le number)]
  | none =>
    dsimp only
    rw [name, List.take_append_of_le_length (span_le isNameChar cs)]

end Lexeme

namespace Token

/-- A text with separated text behind it is scanned as on its own. -/
theorem scanFrom_append {c : Char} (h : Separates c) {cs : List Char} {n : Nat} {ts : List Token}
    (scans : scanFrom n cs = .ok ts) (rest : List Char) :
    scanFrom n (cs ++ c :: rest) = (scanFrom (n + cs.length) (c :: rest)).map (ts ++ ·) := by
  induction n, cs using scanFrom.induct generalizing ts with
  | case1 n =>
    rw [scanFrom] at scans
    cases scans
    rw [List.nil_append, List.length_nil, Nat.add_zero]
    cases scanFrom n (c :: rest) <;> rfl
  | case2 n first more blank ih =>
    rw [scanFrom, if_pos blank] at scans
    rw [List.cons_append, scanFrom, if_pos blank, ih scans, List.length_cons, Nat.add_assoc,
      Nat.add_comm 1]
  | case3 n first more visible unknown =>
    rw [scanFrom, if_neg visible, unknown] at scans
    cases scans
  | case4 n first more visible l length found ih =>
    rw [scanFrom, if_neg visible, found] at scans
    obtain ⟨later, scanned, same⟩ := ok_of_bind scans
    cases same
    have fits := Lexeme.leading?_le found
    rw [List.cons_append, scanFrom, if_neg visible, Lexeme.leading?_append h, found]
    dsimp only
    rw [List.drop_append_of_le_length fits, ih scanned, List.length_cons, List.length_drop,
      show n + 1 + length + (more.length - length) = n + (more.length + 1) by omega]
    cases scanFrom (n + (more.length + 1)) (c :: rest) <;> rfl

/-- A text that cannot be scanned fails in the same way with separated text behind it. -/
theorem scanFrom_append_error {c : Char} (h : Separates c) {cs : List Char} {n : Nat} {r : Rejection}
    (fails : scanFrom n cs = .error r) (rest : List Char) : scanFrom n (cs ++ c :: rest) = .error r := by
  induction n, cs using scanFrom.induct with
  | case1 n =>
    rw [scanFrom] at fails
    cases fails
  | case2 n first more blank ih =>
    rw [scanFrom, if_pos blank] at fails
    rw [List.cons_append, scanFrom, if_pos blank, ih fails]
  | case3 n first more visible unknown =>
    rw [scanFrom, if_neg visible, unknown] at fails
    rw [List.cons_append, scanFrom, if_neg visible, Lexeme.leading?_append h, unknown]
    exact fails
  | case4 n first more visible l length found ih =>
    rw [scanFrom, if_neg visible, found] at fails
    have fits := Lexeme.leading?_le found
    rw [List.cons_append, scanFrom, if_neg visible, Lexeme.leading?_append h, found]
    dsimp only at fails ⊢
    rw [List.drop_append_of_le_length fits]
    cases behind : scanFrom (n + 1 + length) (more.drop length) with
    | ok later =>
      rw [behind] at fails
      cases fails
    | error e =>
      rw [behind] at fails
      cases fails
      rw [ih behind]
      rfl

/-- Tokens stand one after the other in the text. -/
theorem scanFrom_positions {n : Nat} {cs : List Char} {ts : List Token} (scans : scanFrom n cs = .ok ts) :
    ts.Pairwise (fun s t => s.position < t.position) ∧
      ∀ t ∈ ts, n ≤ t.position ∧ t.position < n + cs.length := by
  induction n, cs using scanFrom.induct generalizing ts with
  | case1 n =>
    rw [scanFrom] at scans
    cases scans
    exact ⟨.nil, fun t ht => nomatch ht⟩
  | case2 n first more blank ih =>
    rw [scanFrom, if_pos blank] at scans
    obtain ⟨ordered, bounds⟩ := ih scans
    refine ⟨ordered, fun t ht => ?_⟩
    have bound := bounds t ht
    rw [List.length_cons]
    omega
  | case3 n first more visible unknown =>
    rw [scanFrom, if_neg visible, unknown] at scans
    cases scans
  | case4 n first more visible l length found ih =>
    rw [scanFrom, if_neg visible, found] at scans
    obtain ⟨later, scanned, same⟩ := ok_of_bind scans
    cases same
    obtain ⟨ordered, bounds⟩ := ih scanned
    have fits := Lexeme.leading?_le found
    simp only [List.length_drop] at bounds
    refine ⟨.cons (fun t ht => ?_) ordered, fun t ht => ?_⟩
    · have bound := bounds t ht
      show n < t.position
      omega
    · rw [List.length_cons]
      cases ht with
      | head => simp
      | tail _ ht =>
        have bound := bounds t ht
        omega

/-- A text that cannot be scanned has a character that starts no lexeme. -/
theorem scanFrom_error {n : Nat} {cs : List Char} {r : Rejection} (fails : scanFrom n cs = .error r) :
    ∃ c, r.reason = .ofCharacter c := by
  induction n, cs using scanFrom.induct with
  | case1 n =>
    rw [scanFrom] at fails
    cases fails
  | case2 n first more blank ih =>
    rw [scanFrom, if_pos blank] at fails
    exact ih fails
  | case3 n first more visible unknown =>
    rw [scanFrom, if_neg visible, unknown] at fails
    cases fails
    exact ⟨first, rfl⟩
  | case4 n first more visible l length found ih =>
    rw [scanFrom, if_neg visible, found] at fails
    cases rest : scanFrom (n + 1 + length) (more.drop length) with
    | error e =>
      simp only [rest] at fails
      cases fails
      exact ih rest
    | ok later =>
      simp only [rest] at fails
      cases fails

end Token

end GameScoring.Formula
