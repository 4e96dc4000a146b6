import GameScoring.Proofs.Formula.Inquiry

/-!
# Conditionals

A call of `if` and a conditional are one thing in two forms. Either form can stand for the other anywhere in a tree,
and what the branch that is not chosen says is of no consequence. Both are rewritings of any set of nodes: what a
rewriting keeps at a node, it keeps in every tree around the node.
-/
namespace GameScoring.Formula
namespace Tree
variable {α β Q : Type}

/-- A tree in which nodes are rewritten from the leaves up, any set of them, with notes of its own. -/
inductive Rewritten (R : Tree α → Tree α → Prop) : Tree α → Tree α → Prop
  | number (note : α) (value : Float) : Rewritten R (.number note value) (.number note value)
  | reference (note note' : α) (name : String) : Rewritten R (.reference note name) (.reference note' name)
  | negate (note note' : α) {t u} (h : Rewritten R t u) : Rewritten R (.negate note t) (.negate note' u)
  | arithmetic (note note' : α) (op : Arithmetic) {l l' r r'} (left : Rewritten R l l') (right : Rewritten R r r') :
      Rewritten R (.arithmetic note op l r) (.arithmetic note' op l' r')
  | compare (note note' : α) (op : Comparison) {l l' r r'} (left : Rewritten R l l') (right : Rewritten R r r') :
      Rewritten R (.compare note op l r) (.compare note' op l' r')
  | choose (note note' : α) {c c' y y' n n'} (condition : Rewritten R c c') (yes : Rewritten R y y')
      (no : Rewritten R n n') : Rewritten R (.choose note c y n) (.choose note' c' y' n')
  | call (note note' : α) (function : Function) {ts us : List (Tree α)} (length : ts.length = us.length)
      (each : ∀ i (h : i < ts.length) (h' : i < us.length), Rewritten R ts[i] us[i]) :
      Rewritten R (.call note function ts) (.call note' function us)
  | turn {t u v} (below : Rewritten R t u) (step : R u v) : Rewritten R t v

/-- No node has to be rewritten. -/
theorem Rewritten.refl {R : Tree α → Tree α → Prop} (t : Tree α) : Rewritten R t t := by
  induction t using size.induct (motive_2 := fun ts => ∀ t ∈ ts, Rewritten R t t) with
  | case1 => exact .number _ _
  | case2 => exact .reference _ _ _
  | case3 _ _ ih => exact .negate _ _ ih
  | case4 _ op _ _ ihl ihr => exact .arithmetic _ _ op ihl ihr
  | case5 _ op _ _ ihl ihr => exact .compare _ _ op ihl ihr
  | case6 _ _ _ _ ihc ihy ihn => exact .choose _ _ ihc ihy ihn
  | case7 _ f _ ih => exact .call _ _ f rfl fun _ h _ => ih _ (List.getElem_mem h)
  | case8 _ member => cases member
  | case9 _ _ first others _ member =>
    rcases List.mem_cons.1 member with rfl | later
    · exact first
    · exact others _ later

/-- The two forms of a conditional. -/
inductive Conditional (condition yes no : Tree α) : Tree α → Prop
  | choose (note : α) : Conditional condition yes no (.choose note condition yes no)
  | call (note : α) : Conditional condition yes no (.call note .choose [condition, yes, no])

/-- One form of a conditional for the other. -/
def Interchanged (t u : Tree α) : Prop := ∃ c y n, Conditional c y n t ∧ Conditional c y n u

/-- Any tree for the branch of a conditional that its condition does not choose. -/
inductive Unchosen (value : Tree α → Evaluated Q) (holds : Q → Bool) : Tree α → Tree α → Prop
  | no {c y n n' t u} {x : Q} (evaluated : value c = .ok x) (chosen : holds x = true) (before : Conditional c y n t)
      (after : Conditional c y n' u) : Unchosen value holds t u
  | yes {c y y' n t u} {x : Q} (evaluated : value c = .ok x) (chosen : holds x = false) (before : Conditional c y n t)
      (after : Conditional c y' n u) : Unchosen value holds t u

/-! ## What a tree has by its parts -/

/-- What a tree has only by the name that it is and by what its children have. -/
def ByParts (has : Tree α → β) : Prop :=
  ∀ t u, t.referenceName? = u.referenceName? → t.children.map has = u.children.map has → has t = has u

theorem Rewritten.same_of_byParts {R : Tree α → Tree α → Prop} {has : Tree α → β} (parts : ByParts has)
    (keeps : ∀ t u, R t u → has t = has u) {t u : Tree α} (h : Rewritten R t u) : has t = has u := by
  induction h with
  | number => rfl
  | reference => exact parts _ _ rfl rfl
  | negate _ _ _ ih => exact parts _ _ rfl (by simp [children, ih])
  | arithmetic _ _ _ _ _ ihl ihr => exact parts _ _ rfl (by simp [children, ihl, ihr])
  | compare _ _ _ _ _ ihl ihr => exact parts _ _ rfl (by simp [children, ihl, ihr])
  | choose _ _ _ _ _ ihc ihy ihn => exact parts _ _ rfl (by simp [children, ihc, ihy, ihn])
  | call _ _ _ length _ ih =>
    refine parts _ _ rfl (List.ext_getElem ?_ fun i h h' => ?_)
    · rw [List.length_map, List.length_map]
      exact length
    · rw [List.getElem_map, List.getElem_map]
      exact ih i _ _
  | turn _ step ih => exact ih.trans (keeps _ _ step)

theorem Conditional.children_eq {c y n t : Tree α} (h : Conditional c y n t) : t.children = [c, y, n] := by
  cases h <;> rfl

theorem Conditional.referenceName?_eq {c y n t : Tree α} (h : Conditional c y n t) : t.referenceName? = none := by
  cases h <;> rfl

/-- The forms of a conditional have the same parts. -/
theorem Interchanged.same_of_byParts {has : Tree α → β} (parts : ByParts has) {t u : Tree α}
    (h : Interchanged t u) : has t = has u := by
  obtain ⟨c, y, n, before, after⟩ := h
  refine parts t u ?_ ?_
  · rw [before.referenceName?_eq, after.referenceName?_eq]
  · rw [before.children_eq, after.children_eq]

theorem tallest_eq_foldr (ts : List (Tree α)) : tallest ts = (ts.map height).foldr max 0 := by
  induction ts with
  | nil => rfl
  | cons t rest ih => rw [tallest, ih, List.map_cons, List.foldr_cons]

theorem totalSize_eq_sum (ts : List (Tree α)) : totalSize ts = (ts.map size).sum := by
  induction ts with
  | nil => rfl
  | cons t rest ih => rw [totalSize, ih, List.map_cons, List.sum_cons]

/-- The names of variables below a tree, as often as they are mentioned. -/
def mentions (t : Tree α) : List String := t.walk.filterMap referenceName?

theorem mentions_eq (t : Tree α) : t.mentions = t.referenceName?.toList ++ (t.children.map mentions).flatten := by
  rw [mentions, walk_eq, walkFrom_eq_flatMap, List.filterMap_cons, List.filterMap_flatMap, List.flatMap]
  cases t.referenceName? <;> rfl

theorem byParts_height : ByParts (height : Tree α → Nat) := by
  intro t u _ same
  rw [height_eq, height_eq, tallest_eq_foldr, tallest_eq_foldr, same]

theorem byParts_size : ByParts (size : Tree α → Nat) := by
  intro t u _ same
  rw [← totalSize_children, ← totalSize_children, totalSize_eq_sum, totalSize_eq_sum, same]

theorem byParts_mentions : ByParts (mentions : Tree α → List String) := by
  intro t u name same
  rw [mentions_eq, mentions_eq, name, same]

/-! ## What a tree is evaluated to -/

section Run
variable {k : Calculus α Q} {bindings : Bindings}

theorem Conditional.run_inquire {c y n t : Tree α} (h : Conditional c y n t) :
    (t.inquire k).run bindings = (c.inquire k).run bindings >>= fun x =>
      if k.holds x then (y.inquire k).run bindings else (n.inquire k).run bindings := by
  cases h <;> simp only [inquire, Inquiry.run_bind, Inquiry.run_ite]

theorem Conditional.run_of_ok {c y n t : Tree α} {x : Q} (h : Conditional c y n t)
    (evaluated : (c.inquire k).run bindings = .ok x) :
    (t.inquire k).run bindings = if k.holds x then (y.inquire k).run bindings else (n.inquire k).run bindings := by
  rw [h.run_inquire, evaluated]
  rfl

/-- What every node that is rewritten keeps its value by, the whole tree keeps its value by. -/
theorem Rewritten.run_inquire {R : Tree α → Tree α → Prop}
    (keeps : ∀ t u, R t u → (t.inquire k).run bindings = (u.inquire k).run bindings) {t u : Tree α}
    (h : Rewritten R t u) : (t.inquire k).run bindings = (u.inquire k).run bindings := by
  induction h with
  | number => rfl
  | reference => rfl
  | negate _ _ _ ih => simp only [inquire, Inquiry.run_bind, ih]
  | arithmetic _ _ _ _ _ ihl ihr => simp only [inquire, Inquiry.run_bind, ihl, ihr]
  | compare _ _ _ _ _ ihl ihr => simp only [inquire, Inquiry.run_bind, ihl, ihr]
  | choose note note' _ _ _ ihc ihy ihn =>
    rw [(Conditional.choose note).run_inquire, (Conditional.choose note').run_inquire, ihc, ihy, ihn]
  | call _ _ function length _ ih => exact run_call_congr rfl rfl function (List.forall₂_iff_get.2 ⟨length, ih⟩)
  | turn _ step ih => exact ih.trans (keeps _ _ step)

theorem Interchanged.run_inquire {t u : Tree α} (h : Interchanged t u) :
    (t.inquire k).run bindings = (u.inquire k).run bindings := by
  obtain ⟨c, y, n, before, after⟩ := h
  rw [before.run_inquire, after.run_inquire]

theorem Unchosen.run_inquire {t u : Tree α} (h : Unchosen (fun t => (t.inquire k).run bindings) k.holds t u) :
    (t.inquire k).run bindings = (u.inquire k).run bindings := by
  cases h with
  | no evaluated chosen before after =>
    rw [before.run_of_ok evaluated, after.run_of_ok evaluated, if_pos chosen, if_pos chosen]
  | yes evaluated chosen before after =>
    rw [before.run_of_ok evaluated, after.run_of_ok evaluated, chosen]
    rfl

end Run

/-- Trees that are alike in all that is counted. -/
structure SameCensus (t u : Tree α) : Prop where
  height : t.height = u.height
  size : t.size = u.size
  names : t.variableNames = u.variableNames

theorem Rewritten.sameCensus {t u : Tree α} (h : Rewritten Interchanged t u) : SameCensus t u where
  height := h.same_of_byParts byParts_height fun _ _ step => step.same_of_byParts byParts_height
  size := h.same_of_byParts byParts_size fun _ _ step => step.same_of_byParts byParts_size
  names := by
    have same : t.mentions = u.mentions :=
      h.same_of_byParts byParts_mentions fun _ _ step => step.same_of_byParts byParts_mentions
    exact congrArg (fun names => names.eraseDups.mergeSort fun a b => decide (a ≤ b)) same

variable {bindings : Bindings}

theorem evaluate_of_rewritten {R : Tree α → Tree α → Prop}
    (keeps : ∀ t u, R t u → (t.inquire (doubles α)).run bindings = (u.inquire (doubles α)).run bindings)
    {t u : Tree α} (h : Rewritten R t u) : t.evaluate bindings = u.evaluate bindings := by
  rw [← run_doubles, ← run_doubles, h.run_inquire keeps]

theorem quantity_of_rewritten {R : Tree (Option Int) → Tree (Option Int) → Prop}
    (keeps : ∀ t u, R t u → (t.inquire exactly).run bindings = (u.inquire exactly).run bindings)
    {t u : Tree (Option Int)} (h : Rewritten R t u) : t.quantity bindings = u.quantity bindings := by
  rw [← run_exactly, ← run_exactly, h.run_inquire keeps]

/-- A tree keeps its value or its error, its height, its size and its variables if any of its conditionals take
their other form. It keeps its value or its error if any branches that are not chosen are replaced. -/
theorem conditionals_interchange :
    (∀ (α : Type) (t u : Tree α), Rewritten Interchanged t u →
      SameCensus t u ∧ ∀ bindings, t.evaluate bindings = u.evaluate bindings) ∧
    (∀ t u : Tree (Option Int), Rewritten Interchanged t u →
      ∀ bindings, evaluateNode bindings (some t) = evaluateNode bindings (some u)) ∧
    (∀ (α : Type) (bindings : Bindings) (t u : Tree α), Rewritten (Unchosen (evaluate bindings) (· != 0.0)) t u →
      t.evaluate bindings = u.evaluate bindings) ∧
    ∀ (bindings : Bindings) (t u : Tree (Option Int)), Rewritten (Unchosen (quantity bindings) (!·.isZero)) t u →
      evaluateNode bindings (some t) = evaluateNode bindings (some u) := by
  have exact_of_quantity {bindings : Bindings} {t u : Tree (Option Int)}
      (same : t.quantity bindings = u.quantity bindings) :
      evaluateNode bindings (some t) = evaluateNode bindings (some u) :=
    congrArg (· >>= Quantity.toFloat) same
  refine ⟨fun α t u h => ⟨h.sameCensus, fun bindings => ?_⟩, fun t u h bindings => ?_, fun α bindings t u h => ?_,
    fun bindings t u h => ?_⟩
  · exact evaluate_of_rewritten (fun _ _ step => step.run_inquire) h
  · exact exact_of_quantity (quantity_of_rewritten (fun _ _ step => step.run_inquire) h)
  · have values : evaluate bindings = fun t : Tree α => (t.inquire (doubles α)).run bindings :=
      funext fun t => t.run_doubles.symm
    rw [values] at h
    exact evaluate_of_rewritten (fun _ _ step => step.run_inquire) h
  · have values : quantity bindings = fun t => (t.inquire exactly).run bindings :=
      funext fun t => t.run_exactly.symm
    rw [values] at h
    exact exact_of_quantity (quantity_of_rewritten (fun _ _ step => step.run_inquire) h)

/-- `abs(if(x, 1, 2))` takes its other form, and then loses the branch that `x = 3` does not choose. -/
theorem conditionals_interchange_absolute :
    let x : Tree (Option Int) := .reference none "x"
    let lazy := Tree.call none .absolute [.call none .choose [x, .number none 1.0, .number none 2.0]]
    let turned := Tree.call none .absolute [.choose none x (.number none 1.0) (.number none 2.0)]
    let replaced := Tree.call none .absolute [.choose none x (.number none 1.0) (.reference none "y")]
    let three : Bindings := Table.empty.insert "x" 3.0
    (SameCensus lazy turned ∧ ∀ bindings, lazy.evaluate bindings = turned.evaluate bindings) ∧
      evaluateNode three (some lazy) = evaluateNode three (some turned) ∧
      turned.evaluate three = replaced.evaluate three ∧
      evaluateNode three (some turned) = evaluateNode three (some replaced) := by
  intro x lazy turned replaced three
  have call_one {R : Tree (Option Int) → Tree (Option Int) → Prop} {t u : Tree (Option Int)} (h : Rewritten R t u) :
      Rewritten R (.call none .absolute [t]) (.call none .absolute [u]) := by
    refine .call _ _ _ rfl fun i hi _ => ?_
    obtain rfl : i = 0 := by simpa using hi
    exact h
  have turn : Rewritten Interchanged lazy turned :=
    call_one (.turn (.refl _) ⟨_, _, _, .call none, .choose none⟩)
  obtain ⟨alike, exact_alike, kept, exact_kept⟩ := conditionals_interchange
  refine ⟨alike _ lazy turned turn, exact_alike lazy turned turn three, ?_, ?_⟩
  · exact kept _ three turned replaced (call_one (.turn (.refl _)
      (.no (x := 3.0) rfl (by decide +kernel) (.choose none) (.choose none))))
  · exact exact_kept three turned replaced (call_one (.turn (.refl _)
      (.no (x := .real 3.0) rfl (by decide +kernel) (.choose none) (.choose none))))

end Tree
end GameScoring.Formula
