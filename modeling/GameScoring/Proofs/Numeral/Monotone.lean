import Mathlib
import GameScoring.Proofs.Numeral.Nearest

/-!
# Rounding to doubles is monotone

The double nearest to a number has a place among the doubles that are not negative. A larger number has the same
place or a later one, and the number that a double stands for has the place of the double. All that is said of the
nearest double follows from these two, so nothing else looks at quotients and their leading bits.
-/
namespace GameScoring.Binary

/-! ## Rounding to whole numbers -/

/-- A number is rounded to a nearest whole number, of two to the even one. -/
structure Rounds (q : ℚ) (units : Nat) : Prop where
  least : (units : ℚ) - 1 / 2 ≤ q
  most : q ≤ units + 1 / 2
  even : q = units - 1 / 2 ∨ q = units + 1 / 2 → units % 2 = 0

namespace Rounds
variable {q r : ℚ} {units others : Nat}

theorem mono (hq : Rounds q units) (hr : Rounds r others) (le : q ≤ r) : units ≤ others := by
  by_contra more
  have next : (others : ℚ) + 1 ≤ units := by exact_mod_cast not_le.1 more
  have hq_least := hq.least
  have hr_most := hr.most
  -- There is no room left between the two, so both are halves, and then two neighbours are even.
  have last : (units : ℚ) = others + 1 := by linarith
  have q_half : q = units - 1 / 2 := by linarith
  have r_half : r = others + 1 / 2 := by linarith
  have even := hq.even (.inl q_half)
  have even' := hr.even (.inr r_half)
  have last : units = others + 1 := by exact_mod_cast last
  omega

theorem of_near (near : |q - units| < 1 / 2) : Rounds q units := by
  obtain ⟨least, most⟩ := abs_lt.1 near
  exact ⟨by linarith, by linarith, fun half => by rcases half with half | half <;> linarith⟩

theorem whole (units : Nat) : Rounds units units := of_near (by simp)

end Rounds

theorem rounds_roundQuotient {n d : Nat} (pos : 0 < d) : Rounds (n / d : ℚ) (roundQuotient .even n d) := by
  have pos' : (0 : ℚ) < d := by exact_mod_cast pos
  have whole : (n : ℚ) = d * (n / d : Nat) + (n % d : Nat) := by exact_mod_cast (Nat.div_add_mod n d).symm
  have quotient : (n / d : ℚ) = (n / d : Nat) + (n % d : Nat) / d := by
    rw [div_eq_iff pos'.ne', add_mul, div_mul_cancel₀ _ pos'.ne', mul_comm]
    exact whole
  have rest_least : (0 : ℚ) ≤ (n % d : Nat) / d := by positivity
  have rest_most : ((n % d : Nat) / d : ℚ) < 1 := by
    rw [div_lt_one pos']
    exact_mod_cast Nat.mod_lt n pos
  have less_iff : 2 * (n % d) < d ↔ ((n % d : Nat) / d : ℚ) < 1 / 2 := by
    rw [div_lt_iff₀ pos', ← Nat.cast_lt (α := ℚ)]
    push_cast
    constructor <;> intro h <;> linarith
  have more_iff : d < 2 * (n % d) ↔ (1 / 2 : ℚ) < (n % d : Nat) / d := by
    rw [lt_div_iff₀ pos', ← Nat.cast_lt (α := ℚ)]
    push_cast
    constructor <;> intro h <;> linarith
  rw [quotient]
  generalize ((n % d : Nat) / d : ℚ) = rest at rest_least rest_most less_iff more_iff
  unfold roundQuotient
  dsimp only
  split
  next less =>
    have less := less_iff.1 less
    exact .of_near (abs_lt.2 ⟨by linarith, by linarith⟩)
  next not_less =>
    have not_less := mt less_iff.2 not_less
    split
    next more =>
      have more := more_iff.1 more
      exact .of_near (abs_lt.2 ⟨by push_cast; linarith, by push_cast; linarith⟩)
    next not_more =>
      have not_more := mt more_iff.2 not_more
      have half : rest = 1 / 2 := by linarith
      rw [half]
      -- The number is between two whole numbers, and the even one of them is taken.
      rcases Nat.mod_two_eq_zero_or_one (n / d) with even | odd
      · rw [even, Nat.add_zero]
        exact ⟨by linarith, by linarith, fun _ => even⟩
      · rw [odd]
        exact ⟨by push_cast; linarith, by push_cast; linarith, fun _ => by omega⟩

/-! ## The place of the nearest double -/

/-- A number is written with an exponent that a double can have: with the least one, or with one that leaves the
leading bit of the mantissa set. -/
structure Binade (q : ℚ) (exponent : Int) : Prop where
  bounded : -1074 ≤ exponent
  leading : exponent = -1074 ∨ leadingUnit ≤ q / 2 ^ exponent
  below : q / 2 ^ exponent < 2 * leadingUnit

/-- The place of a double from its exponent and its mantissa. -/
def placeOf (exponent : Int) (mantissa : Nat) : Nat := (exponent + 1074).toNat * leadingUnit + mantissa

/-- The double with a place is the nearest one to a number that is not negative. -/
inductive IsNearest (q : ℚ) : Nat → Prop
  | rounded {exponent : Int} {mantissa : Nat} (binade : Binade q exponent)
      (rounds : Rounds (q / 2 ^ exponent) mantissa) : IsNearest q (min (placeOf exponent mantissa) infinityMagnitude)

theorem placeOf_le {e e' : Int} {m m' : Nat} {q r : ℚ} (hq : Binade q e) (hr : Binade r e') (hm : Rounds (q / 2 ^ e) m)
    (hm' : Rounds (r / 2 ^ e') m') (le : q ≤ r) : placeOf e m ≤ placeOf e' m' := by
  have units : (leadingUnit : ℚ) = 2 ^ 52 := by norm_num [leadingUnit]
  rcases lt_trichotomy e e' with less | rfl | more
  · -- At a larger exponent the mantissa has its leading bit, which is as much as any mantissa can add below it.
    have small : m ≤ 2 * leadingUnit := by
      have whole := Rounds.whole (2 * leadingUnit)
      push_cast at whole
      exact hm.mono whole hq.below.le
    have large : leadingUnit ≤ m' := by
      have bounded := hq.bounded
      exact (Rounds.whole leadingUnit).mono hm' (hr.leading.resolve_left (by omega))
    have exponents : (e + 1074).toNat + 1 ≤ (e' + 1074).toNat := by
      have bounded := hq.bounded
      omega
    have shift := Nat.mul_le_mul_right leadingUnit exponents
    rw [placeOf, placeOf]
    rw [Nat.add_mul, Nat.one_mul] at shift
    omega
  · have scaled : q / 2 ^ e ≤ r / 2 ^ e := div_le_div_of_nonneg_right le (two_zpow_pos e).le
    exact Nat.add_le_add_left (hm.mono hm' scaled) _
  · exfalso
    have bounded := hr.bounded
    have least : (leadingUnit : ℚ) * 2 ^ e ≤ q :=
      (le_div_iff₀ (two_zpow_pos e)).1 (hq.leading.resolve_left (by omega))
    have most : r < 2 * leadingUnit * 2 ^ e' := (div_lt_iff₀ (two_zpow_pos e')).1 hr.below
    have powers : (2 : ℚ) ^ (e' + 1) ≤ 2 ^ e := zpow_le_zpow_right₀ one_le_two (by omega)
    rw [zpow_add_one₀ two_ne_zero] at powers
    rw [units] at least most
    linarith

namespace IsNearest
variable {q r : ℚ} {place other : Nat}

/-- A larger number has the same place or a later one. -/
theorem mono (hq : IsNearest q place) (hr : IsNearest r other) (le : q ≤ r) : place ≤ other := by
  obtain ⟨binade, rounds⟩ := hq
  obtain ⟨binade', rounds'⟩ := hr
  exact min_le_min_right _ (placeOf_le binade binade' rounds rounds' le)

theorem unique (h : IsNearest q place) (h' : IsNearest q other) : place = other :=
  Nat.le_antisymm (h.mono h' le_rfl) (h'.mono h le_rfl)

theorem le_infinity (h : IsNearest q place) : place ≤ infinityMagnitude := by
  cases h
  exact Nat.min_le_right ..

end IsNearest

theorem isNearest_zero : IsNearest 0 0 := by
  have binade : Binade 0 (-1074) := ⟨le_rfl, .inl rfl, by rw [zero_div]; norm_num [leadingUnit]⟩
  have rounds : Rounds (0 / 2 ^ (-1074 : Int)) 0 := by
    rw [zero_div]
    exact_mod_cast Rounds.whole 0
  exact .rounded binade rounds

/-- A quotient with a leading bit is rounded at the exponent that leaves that bit in the mantissa. -/
theorem binade_of_lead {q : ℚ} {lead : Int} (least : (2 : ℚ) ^ lead ≤ q) (most : q < 2 ^ (lead + 1)) :
    Binade q (max (-1074) (lead - 52)) := by
  have units : (leadingUnit : ℚ) = 2 ^ (52 : Int) := by norm_num [leadingUnit]
  refine ⟨Int.le_max_left .., ?_, ?_⟩
  · by_cases low : lead - 52 ≤ -1074
    · exact .inl (max_eq_left low)
    · refine .inr ?_
      rw [max_eq_right (by omega), le_div_iff₀ (two_zpow_pos _), units, ← zpow_add₀ two_ne_zero]
      rwa [show 52 + (lead - 52) = lead by omega]
  · rw [div_lt_iff₀ (two_zpow_pos _), units]
    calc q < 2 ^ (lead + 1) := most
      _ ≤ 2 ^ (1 + 52 + max (-1074) (lead - 52)) := zpow_le_zpow_right₀ one_le_two (by omega)
      _ = 2 * 2 ^ (52 : Int) * 2 ^ max (-1074) (lead - 52) := by
        rw [zpow_add₀ two_ne_zero, zpow_one_add₀ two_ne_zero]

/-- What `nearest` makes of a quotient is the nearest double. -/
theorem exists_nearest (negative : Bool) (num : Nat) {den : Nat} (pos : 0 < den) :
    ∃ place, nearest negative num den = ofMagnitude negative place ∧ IsNearest (num / den) place := by
  rw [nearest]
  by_cases zero : num = 0
  · subst zero
    rw [if_pos rfl, Nat.cast_zero, zero_div]
    exact ⟨0, rfl, isNearest_zero⟩
  · obtain ⟨least, most⟩ := leadingBit_spec (Nat.pos_of_ne_zero zero) pos
    have binade := binade_of_lead least most
    rw [if_neg zero]
    refine ⟨_, rfl, .rounded binade ?_⟩
    rw [← (scaled_quotient pos _).1]
    exact rounds_roundQuotient (scale_pos two_pos pos)

/-- Every number that is not negative has a nearest double. -/
theorem exists_isNearest {q : ℚ} (least : 0 ≤ q) : ∃ place, IsNearest q place := by
  obtain ⟨place, -, h⟩ := exists_nearest false q.num.toNat q.den_pos
  have whole : ((q.num.toNat : Int) : ℚ) = q.num := by rw [Int.toNat_of_nonneg (Rat.num_nonneg.2 least)]
  rw [Int.cast_natCast] at whole
  rw [whole, Rat.num_div_den] at h
  exact ⟨place, h⟩

/-- What lies between numbers with one nearest double has it, too. -/
theorem IsNearest.between {q r s : ℚ} {place : Nat} (hq : IsNearest q place) (hs : IsNearest s place) (least : 0 ≤ r)
    (le : q ≤ r) (le' : r ≤ s) : IsNearest r place := by
  obtain ⟨own, h⟩ := exists_isNearest least
  rwa [Nat.le_antisymm (hq.mono h le) (h.mono hs le')]

/-! ## The number of a place -/

def exponentAt (place : Nat) : Int := ((place / leadingUnit - 1 : Nat) : Int) - 1074

def mantissaAt (place : Nat) : Nat := place - (place / leadingUnit - 1) * leadingUnit

/-- The number that the double with a place stands for. -/
def valueAt (place : Nat) : ℚ := mantissaAt place * 2 ^ exponentAt place

theorem mantissaAt_spec (place : Nat) : mantissaAt place < 2 * leadingUnit ∧
    (place / leadingUnit - 1 = 0 ∨ leadingUnit ≤ mantissaAt place) := by
  rw [mantissaAt]
  show place - (place / 4503599627370496 - 1) * 4503599627370496 < 2 * 4503599627370496 ∧
    (place / 4503599627370496 - 1 = 0 ∨ 4503599627370496 ≤ place - (place / 4503599627370496 - 1) * 4503599627370496)
  omega

theorem mantissaAt_pos {place : Nat} (pos : 0 < place) : 0 < mantissaAt place := by
  obtain ⟨-, low | leading⟩ := mantissaAt_spec place
  · rw [mantissaAt, low]
    omega
  · have unit : 0 < leadingUnit := by decide
    omega

theorem placeOf_at (place : Nat) : placeOf (exponentAt place) (mantissaAt place) = place := by
  rw [placeOf, exponentAt, mantissaAt]
  have exponent : (((place / leadingUnit - 1 : Nat) : Int) - 1074 + 1074).toNat = place / leadingUnit - 1 := by omega
  rw [exponent]
  show (place / 4503599627370496 - 1) * 4503599627370496 +
    (place - (place / 4503599627370496 - 1) * 4503599627370496) = place
  omega

theorem binade_valueAt (place : Nat) : Binade (valueAt place) (exponentAt place) := by
  obtain ⟨small, leading⟩ := mantissaAt_spec place
  have scaled : valueAt place / 2 ^ exponentAt place = mantissaAt place :=
    mul_div_cancel_right₀ _ (two_zpow_pos _).ne'
  refine ⟨by rw [exponentAt]; omega, ?_, ?_⟩
  · rw [scaled, exponentAt]
    rcases leading with low | leading
    · exact .inl (by omega)
    · exact .inr (by exact_mod_cast leading)
  · rw [scaled]
    exact_mod_cast small

/-- A number next to the one that a double stands for has the place of the double. -/
theorem isNearest_of_near {q : ℚ} {place : Nat} (most : place ≤ infinityMagnitude)
    (near : |q - valueAt place| < 2 ^ exponentAt place / 2)
    (binade : Binade q (exponentAt place)) : IsNearest q place := by
  have scaled : |q / 2 ^ exponentAt place - mantissaAt place| < 1 / 2 := by
    have pos := two_zpow_pos (exponentAt place)
    rw [← mul_div_cancel_right₀ (mantissaAt place : ℚ) pos.ne', ← sub_div, abs_div, abs_of_pos pos, div_lt_iff₀ pos]
    exact near.trans_eq (by ring)
  have h := IsNearest.rounded binade (.of_near scaled)
  rwa [placeOf_at, min_eq_left most] at h

/-- The number that a double stands for has the place of the double. -/
theorem isNearest_valueAt {place : Nat} (most : place ≤ infinityMagnitude) : IsNearest (valueAt place) place := by
  refine isNearest_of_near most ?_ (binade_valueAt place)
  rw [sub_self, abs_zero]
  exact half_pos (two_zpow_pos _)

theorem valueAt_nonneg (place : Nat) : 0 ≤ valueAt place :=
  mul_nonneg (Nat.cast_nonneg _) (two_zpow_pos _).le

theorem valueAt_pos {place : Nat} (pos : 0 < place) : 0 < valueAt place :=
  mul_pos (by exact_mod_cast mantissaAt_pos pos) (two_zpow_pos _)

theorem valueAt_lt {place other : Nat} (less : place < other) (most : other ≤ infinityMagnitude) :
    valueAt place < valueAt other := by
  by_contra more
  have le := (isNearest_valueAt most).mono (isNearest_valueAt (less.le.trans most)) (not_lt.1 more)
  omega

end GameScoring.Binary
