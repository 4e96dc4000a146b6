import GameScoring.Proofs.Formula.Lossless
import GameScoring.Proofs.Formula.Safety
import GameScoring.Proofs.Formula.Walk

/-!
# The census of a formula is true

What an accepted formula says of itself is so: it has as many nodes as it counts, each as deep as its mark,
and mentions the variables it lists. Every node can be evaluated, and was built at a token that is spelled
as the node says.
-/
namespace GameScoring.Formula
open Formula.Parser

/-! ## Heights in a walk -/

namespace Tree
variable {α : Type} {t u : Tree α}

theorem le_tallest {ts : List (Tree α)} (h : u ∈ ts) : u.height ≤ tallest ts := by
  induction ts with
  | nil => cases h
  | cons t rest ih =>
    rw [tallest]
    rcases List.mem_cons.1 h with rfl | later
    · exact Nat.le_max_left ..
    · exact Nat.le_trans (ih later) (Nat.le_max_right ..)

theorem height_lt_of_mem_children (h : u ∈ t.children) : u.height < t.height := by
  rw [height_eq t]
  exact Nat.lt_succ_of_le (le_tallest h)

theorem height_le_of_mem_walk (h : u ∈ t.walk) : u.height ≤ t.height :=
  forall_mem_walk (P := (·.height ≤ t.height))
    (fun _ bound _ child => Nat.le_trans (Nat.le_of_lt (height_lt_of_mem_children child)) bound) (Nat.le_refl _) u h

end Tree

/-! ## Literals are not negative -/

theorem unsigned_of_ofLiteral? {literal : List Char} {d : Decimal} (h : Numeral.ofLiteral? literal = some d) :
    d.Unsigned := by
  rw [Numeral.ofLiteral?] at h
  dsimp only at h
  split at h
  all_goals
    split at h
    next => cases h
    next =>
      obtain ⟨exponent, -, rfl⟩ := Option.map_eq_some_iff.1 h
      exact nofun

theorem nonNegative_literalValue (literal : String) : Binary.NonNegative (Level.literalValue literal) := by
  rw [Level.literalValue]
  cases found : Numeral.ofLiteral? literal.toList with
  | none => exact Binary.nonNegative_ofMagnitude (Nat.le_refl _)
  | some d => exact (unsigned_of_ofLiteral? found).nonNegative_toFloat

/-! ## Nodes and their tokens -/

theorem Function.name_of_ofName? {f : Function} {name : String} (h : ofName? name = some f) : f.name = name := by
  have found := List.find?_some h
  exact beq_iff_eq.1 found

/-- A node is built at a token with the lexeme. -/
inductive Produces : Lexeme → Node → Prop
  | number {literal : String} {mark : Mark} :
    Produces (.number literal) (Tree.number mark (Level.literalValue literal))
  | reference {name : String} {mark : Mark} : Produces (.identifier name) (Tree.reference mark name)
  | negate {mark : Mark} {operand : Node} : Produces (.arithmetic .subtract) (Tree.negate mark operand)
  | arithmetic {op : Arithmetic} {mark : Mark} {left right : Node} :
    Produces (.arithmetic op) (Tree.arithmetic mark op left right)
  | compare {op : Comparison} {mark : Mark} {left right : Node} :
    Produces (.compare op) (Tree.compare mark op left right)
  | choose {mark : Mark} {condition yes no : Node} : Produces .question (Tree.choose mark condition yes no)
  | call {f : Function} {mark : Mark} {arguments : List Node} :
    Produces (.identifier f.name) (Tree.call mark f arguments)

/-- Every node of the tree is built at one of the tokens. -/
def FromTokens (ts : List Token) (t : Node) : Prop :=
  ∀ n ∈ t.walk, ∃ s ∈ ts, s.position = n.position ∧ Produces s.lexeme n

theorem FromTokens.node {ts : List Token} {s : Token} {t : Node} (member : s ∈ ts) (place : s.position = t.position)
    (own : Produces s.lexeme t) (children : ∀ u ∈ t.children, FromTokens ts u) : FromTokens ts t := by
  intro n hn
  obtain rfl | ⟨u, child, below⟩ := Tree.mem_walk_iff.1 hn
  · exact ⟨s, member, place, own⟩
  · exact children u child n below

theorem Phrase.fromTokens {c : Category} (p : Phrase c) {m : c.Meaning} (h : p.meaning? = some m)
    {ts : List Token} (within : p.tokens ⊆ ts) : Category.All (FromTokens ts) m := by
  induction p with
  | plain body ih => exact ih h within
  | choose condition question yes colon no ihc ihy ihn =>
    obtain ⟨_, _, _, hc, hy, hn, rfl⟩ := meaning?_choose.1 h
    simp only [tokens, List.append_subset, List.cons_subset] at within
    obtain ⟨inc, own, iny, -, inn⟩ := within
    refine .node own rfl .choose ?_
    have branches := List.forall_mem_cons.2 ⟨ihy hy iny, List.forall_mem_singleton.2 (ihn hn inn)⟩
    exact List.forall_mem_cons.2 ⟨ihc hc inc, branches⟩
  | single body ih => exact ih h within
  | compare left op sign right ihl ihr =>
    obtain ⟨_, _, hl, hr, rfl⟩ := meaning?_compare.1 h
    simp only [tokens, List.append_subset, List.cons_subset] at within
    obtain ⟨inl, own, inr⟩ := within
    exact .node own rfl .compare (List.forall_mem_cons.2 ⟨ihl hl inl, List.forall_mem_singleton.2 (ihr hr inr)⟩)
  | @chain tier first rest ihf ihr =>
    obtain ⟨u, f, hu, hf, rfl⟩ := meaning?_chain.1 h
    simp only [tokens, List.append_subset] at within
    cases tier with
    | additive => exact ihr hf within.2 u (ihf hu within.1)
    | multiplicative => exact ihr hf within.2 u (ihf hu within.1)
  | done =>
    cases h
    exact fun _ hl => hl
  | @turn tier op joins sign right rest ihr ihm =>
    obtain ⟨r, g, hr, hg, rfl⟩ := meaning?_turn.1 h
    simp only [tokens, List.append_subset, List.cons_subset] at within
    obtain ⟨own, inr, inm⟩ := within
    have operand : FromTokens ts r := by cases tier <;> exact ihr hr inr
    exact fun left hl => ihm hg inm _
      (.node own rfl .arithmetic (List.forall_mem_cons.2 ⟨hl, List.forall_mem_singleton.2 operand⟩))
  | summand body ih => exact ih h within
  | factor body ih => exact ih h within
  | unsigned body ih => exact ih h within
  | negate sign operand ih =>
    obtain ⟨_, hu, rfl⟩ := meaning?_negate.1 h
    simp only [tokens, List.cons_subset] at within
    exact .node within.1 rfl .negate (List.forall_mem_singleton.2 (ih hu within.2))
  | bare base ih => exact ih h within
  | power base sign exponent ihb ihe =>
    obtain ⟨_, _, hb, he, rfl⟩ := meaning?_power.1 h
    simp only [tokens, List.append_subset, List.cons_subset] at within
    obtain ⟨inb, own, ine⟩ := within
    exact .node own rfl .arithmetic (List.forall_mem_cons.2 ⟨ihb hb inb, List.forall_mem_singleton.2 (ihe he ine)⟩)
  | number literal start =>
    obtain ⟨-, rfl⟩ := meaning?_number.1 h
    exact .node (within (.head _)) rfl .number nofun
  | reference name start =>
    obtain ⟨-, rfl⟩ := meaning?_reference.1 h
    exact .node (within (.head _)) rfl .reference nofun
  | parenthesised opening body closing ih =>
    simp only [tokens, List.append_subset, List.cons_subset] at within
    exact ih h within.2.1
  | call name start opening arguments closing ih =>
    obtain ⟨f, _, known, hts, -, rfl⟩ := meaning?_call.1 h
    simp only [tokens, List.append_subset, List.cons_subset] at within
    obtain ⟨own, -, inside, -⟩ := within
    obtain rfl := Function.name_of_ofName? known
    exact .node own rfl .call (ih hts inside)
  | noArguments =>
    cases h
    exact fun _ ht => by cases ht
  | someArguments list ih => exact ih h within
  | lastArgument argument ih =>
    obtain ⟨u, hu, rfl⟩ := meaning?_lastArgument.1 h
    exact fun t ht => List.mem_singleton.1 ht ▸ ih hu within
  | nextArgument argument comma rest iha ihr =>
    obtain ⟨u, us, hu, hus, rfl⟩ := meaning?_nextArgument.1 h
    simp only [tokens, List.append_subset, List.cons_subset] at within
    exact List.forall_mem_cons.2 ⟨iha hu within.1, ihr hus within.2.2⟩

/-! ## Numbers of arguments -/

/-- An evaluation does not fail for a number of arguments. -/
def Counted {α : Type} (x : Evaluated α) : Prop :=
  ∀ (f : Function) (count : Nat), x ≠ .error (.fault (f.argumentFault count))

namespace Counted
variable {α β : Type}

theorem ok (a : α) : Counted (.ok a : Evaluated α) := by
  rintro f count ⟨⟩

theorem refuse (e : EvaluationError) : Counted (GameScoring.refuse e : Evaluated α) := by
  rintro f count ⟨⟩

theorem bind {x : Evaluated α} {g : α → Evaluated β} (h : Counted x) (next : ∀ a, Counted (g a)) :
    Counted (x >>= g) := by
  cases x with
  | ok a => exact next a
  | error e =>
    intro f count same
    cases same
    exact h f count rfl

end Counted

theorem counted_finite (operation : Operation) (x : Float) : Counted (finite operation x) := by
  rw [finite]
  split
  next => exact .ok x
  next => exact .refuse _

theorem counted_squareRoot (x : Float) : Counted (squareRoot x) := by
  rw [squareRoot]
  split
  next => exact .refuse _
  next => exact .ok _

theorem counted_clampBetween (x low high : Float) : Counted (clampBetween x low high) := by
  rw [clampBetween]
  split
  next => exact .refuse _
  next => exact .ok _

/-- The rounding of a number fails for the number only. -/
theorem roundHalfUp_error {x : Float} {places : Int} {fault : Fault}
    (h : Numeral.roundHalfUp x places = .error fault) : fault = .undefinedDecimal ∨ fault = .decimalOverflow := by
  rw [Numeral.roundHalfUp] at h
  split at h
  next found =>
    cases h
    rw [Numeral.gridFault?] at found
    split at found
    next =>
      cases found
      exact .inl rfl
    next =>
      split at found <;> cases found
      exact .inr rfl
  next => split at h <;> cases h; exact .inl rfl
  next => split at h <;> cases h; exact .inl rfl

theorem argumentFault_ne (f : Function) (count : Nat) :
    f.argumentFault count ≠ .undefinedDecimal ∧ f.argumentFault count ≠ .decimalOverflow := by
  have fixed (expected : Nat) : countFault expected count ≠ .undefinedDecimal ∧
      countFault expected count ≠ .decimalOverflow := by
    rw [countFault]
    split <;> exact ⟨nofun, nofun⟩
  cases f with
  | root | clamp | choose => exact fixed _
  | _ => exact ⟨nofun, nofun⟩

theorem counted_roundTo (x digits : Float) : Counted (roundTo x digits) := by
  have places : Counted (roundPlaces digits) := by
    rw [roundPlaces]
    split
    next =>
      split
      next => exact .ok _
      next => exact .refuse _
    next => exact .refuse _
  refine places.bind fun places => ?_
  cases rounded : Numeral.roundHalfUp x places with
  | ok y => exact .ok y
  | error fault =>
    intro f count same
    have other : fault = f.argumentFault count := by
      cases same
      rfl
    obtain ⟨defined, bounded⟩ := argumentFault_ne f count
    rcases roundHalfUp_error rounded with rfl | rfl
    · exact defined other.symm
    · exact bounded other.symm

/-- A function does not fail for a number of arguments that it accepts, whatever the arguments are. -/
theorem Function.counted_apply {f : Function} {xs : List Float} (eager : f ≠ .choose)
    (accepted : f.accepts xs.length = true) : Counted (f.apply xs) := by
  have last (x : Float) : Counted (finite (.function f) x) := counted_finite _ x
  rcases xs with _ | ⟨x, rest⟩
  · cases f <;> cases accepted
  cases f with
  | choose => exact absurd rfl eager
  | minimum => exact last _
  | maximum => exact last _
  | absolute => exact last _
  | root =>
    rcases rest with _ | ⟨y, more⟩
    · exact (counted_squareRoot x).bind last
    · exact absurd (le_of_accepts accepted rfl) (by simp only [List.length_cons]; omega)
  | round =>
    rcases rest with _ | ⟨digits, more⟩
    · exact (counted_roundTo x 0.0).bind last
    · exact (counted_roundTo x digits).bind last
  | clamp =>
    rcases rest with _ | ⟨low, _ | ⟨high, _ | ⟨y, more⟩⟩⟩
    · cases accepted
    · cases accepted
    · exact (counted_clampBetween x low high).bind last
    · exact absurd (le_of_accepts accepted rfl) (by simp only [List.length_cons]; omega)

/-! ## What the evaluator has entries for -/

/-- A node that the evaluator knows: its number, its operator with its symbol or its function with so many
arguments. No variable has the name of a function. -/
inductive Known : Node → Prop
  | number {mark : Mark} {value : Float} (finite : Binary.isFinite value = true) (least : ¬ value < 0.0) :
    Known (Tree.number mark value)
  | reference {mark : Mark} {name : String} (free : ∀ f : Function, f.name ≠ name) : Known (Tree.reference mark name)
  | negate {mark : Mark} {operand : Node} : Known (Tree.negate mark operand)
  | arithmetic {mark : Mark} {op : Arithmetic} {left right : Node} (symbol : op.symbol ∈ ["+", "-", "*", "/", "^"]) :
    Known (Tree.arithmetic mark op left right)
  | compare {mark : Mark} {op : Comparison} {left right : Node}
    (symbol : op.symbol ∈ ["<", "<=", ">", ">=", "==", "!="]) : Known (Tree.compare mark op left right)
  | choose {mark : Mark} {condition yes no : Node} : Known (Tree.choose mark condition yes no)
  | choice {mark : Mark} {condition yes no : Node} : Known (Tree.call mark .choose [condition, yes, no])
  | call {mark : Mark} {f : Function} {arguments : List Node}
    (listed : f.name ∈ ["min", "max", "sqrt", "abs", "round", "clamp"])
    (count : ∀ xs : List Float, xs.length = arguments.length → Counted (f.apply xs)) :
    Known (Tree.call mark f arguments)

theorem WellFormed.known {n : Node} (h : WellFormed n) (source : ∃ l, Produces l n) : Known n := by
  cases h with
  | number finite =>
    obtain ⟨l, produces⟩ := source
    cases produces
    exact .number finite (nonNegative_literalValue _).not_lt
  | reference free =>
    refine .reference fun f same => ?_
    rw [← same, Function.ofName?_name] at free
    cases free
  | negate _ => exact .negate
  | arithmetic _ _ => exact .arithmetic (by cases ‹Arithmetic› <;> decide)
  | compare _ _ => exact .compare (by cases ‹Comparison› <;> decide)
  | choose _ _ _ => exact .choose
  | @call position f arguments _ accepted =>
    by_cases lazy : f = .choose
    · subst lazy
      obtain ⟨c, y, n, rfl⟩ := Function.three_of_choose accepted
      exact .choice
    · refine .call ?_ fun xs length => Function.counted_apply lazy (length ▸ accepted)
      cases f <;> first | exact absurd rfl lazy | decide

/-- A formula counts its nodes and lists its variables, and each of its nodes is as deep as its mark, is
known to the evaluator and was built at a token that is written where it says. -/
structure TrueCensus (text : String) (f : Formula) : Prop where
  nodes : f.nodeCount = f.root.walk.length
  nodes_le : f.nodeCount ≤ 500
  depths : ∀ n ∈ f.root.walk, n.depth = n.height ∧ n.depth ≤ 32
  known : ∀ n ∈ f.root.walk, Known n
  names : ∀ name, name ∈ f.variableNames ↔ ∃ mark, Tree.reference mark name ∈ f.root.walk
  places : ∃ tokens, Token.scan text = .ok tokens ∧ ∀ n ∈ f.root.walk, ∃ t ∈ tokens,
    t.position = n.position ∧ Produces t.lexeme n ∧ t.lexeme.text.toList <+: text.toList.drop n.position

/-- The census of an accepted formula is true. -/
theorem census_of_accepted {text : String} {f : Formula} (accepted : ofText text = .ok f) : TrueCensus text f := by
  obtain ⟨p, writes, -, limits, made⟩ := ofText_ok_iff.1 accepted
  have sources : FromTokens p.tokens f.root := p.fromTokens writes.means (List.Subset.refl _)
  have shaped : ∀ n ∈ f.root.walk, WellFormed n :=
    Tree.forall_mem_walk (fun _ h => h.children) (p.wellFormed writes.means)
  have size : f.nodeCount = f.root.size := by rw [made]
  refine ⟨size.trans f.root.length_walk.symm, size ▸ limits.size_le, fun n hn => ?_, fun n hn => ?_, fun name => ?_,
    p.tokens, writes.scans, fun n hn => ?_⟩
  · have depth := (shaped n hn).depth_eq_height
    refine ⟨depth, ?_⟩
    rw [depth]
    exact Nat.le_trans (Tree.height_le_of_mem_walk hn) limits.height_le
  · obtain ⟨t, -, -, produces⟩ := sources n hn
    exact (shaped n hn).known ⟨t.lexeme, produces⟩
  · have names : f.variableNames = f.root.variableNames := by rw [made]
    rw [names, Tree.mem_variableNames]
    constructor
    · rintro ⟨u, member, named⟩
      cases u with
      | reference mark other =>
        cases named
        exact ⟨mark, member⟩
      | _ => cases named
    · rintro ⟨mark, member⟩
      exact ⟨_, member, rfl⟩
  · obtain ⟨t, member, place, produces⟩ := sources n hn
    have lossless := ((Reaches.of_scanFrom 0 text.toList).1 _ writes.scans).lossless rfl
    have longest := lossless.longest _ (List.mem_map_of_mem member)
    exact ⟨t, member, place, produces, place ▸ longest.starts⟩

/-- A call in parentheses that is compared. -/
theorem census_of_clamped : ∃ f, ofText "(clamp(x, 0, 1)) >= y" = .ok f ∧ TrueCensus "(clamp(x, 0, 1)) >= y" f := by
  cases accepted : ofText "(clamp(x, 0, 1)) >= y" with
  | error r =>
    have isOk : (ofText "(clamp(x, 0, 1)) >= y").isOk = true := by decide +kernel
    rw [accepted] at isOk
    cases isOk
  | ok f => exact ⟨f, rfl, census_of_accepted accepted⟩

end GameScoring.Formula
