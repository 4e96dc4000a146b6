import GameScoring.Formula.Tree

/-!
# Walks and notes

The walk of a tree is the tree and then the walks of its children. What a tree is without its
notes decides how many nodes it has and which variables it mentions.
-/
namespace GameScoring.Formula.Tree
variable {α β : Type}

theorem walkFrom_append (ts us : List (Tree α)) : walkFrom (ts ++ us) = walkFrom ts ++ walkFrom us := by
  induction ts using walkFrom.induct with
  | case1 => rw [List.nil_append, walkFrom, List.nil_append]
  | case2 top stack ih =>
    rw [List.cons_append, walkFrom, ← List.append_assoc, ih, walkFrom, List.cons_append]

theorem walk_eq (t : Tree α) : t.walk = t :: walkFrom t.children := by
  rw [walk, walkFrom, List.append_nil]

theorem walkFrom_eq_flatMap (ts : List (Tree α)) : walkFrom ts = ts.flatMap walk := by
  induction ts with
  | nil => rw [walkFrom, List.flatMap_nil]
  | cons t ts ih => rw [← List.singleton_append, walkFrom_append, ih, List.flatMap_append,
      List.flatMap_singleton, walk]

theorem mem_walk_iff {t u : Tree α} : u ∈ t.walk ↔ u = t ∨ ∃ child ∈ t.children, u ∈ child.walk := by
  rw [walk_eq, walkFrom_eq_flatMap, List.mem_cons, List.mem_flatMap]

theorem length_walkFrom (ts : List (Tree α)) : (walkFrom ts).length = totalSize ts := by
  induction ts using walkFrom.induct with
  | case1 => rw [walkFrom, List.length_nil, totalSize]
  | case2 top stack ih =>
    have top_size := totalSize_children top
    rw [walkFrom, List.length_cons, ih, totalSize_append, totalSize]
    omega

theorem height_eq (t : Tree α) : t.height = tallest t.children + 1 := by
  cases t <;> simp [height, children, tallest]

/-- As many nodes are walked as there are. -/
theorem length_walk (t : Tree α) : t.walk.length = t.size := length_walkFrom [t]

theorem mem_variableNames {t : Tree α} {name : String} :
    name ∈ t.variableNames ↔ ∃ u ∈ t.walk, u.referenceName? = some name := by
  rw [variableNames, List.mem_mergeSort, List.mem_eraseDups, List.mem_filterMap]

/-- A tree mentions the name that it is, and what its children mention. -/
theorem mem_variableNames_iff {t : Tree α} {name : String} :
    name ∈ t.variableNames ↔ t.referenceName? = some name ∨ ∃ u ∈ t.children, name ∈ u.variableNames := by
  simp only [mem_variableNames, walk_eq t, walkFrom_eq_flatMap, List.mem_cons, or_and_right, exists_or,
    exists_eq_left, List.mem_flatMap]
  apply or_congr_right
  constructor
  · rintro ⟨u, ⟨child, member, below⟩, named⟩
    exact ⟨child, member, u, below, named⟩
  · rintro ⟨child, member, u, below, named⟩
    exact ⟨u, ⟨child, member, below⟩, named⟩

theorem variableNames_subset {t u : Tree α} (child : u ∈ t.children) : u.variableNames ⊆ t.variableNames :=
  fun _ mentioned => mem_variableNames_iff.2 (.inr ⟨u, child, mentioned⟩)

/-- A variable mentions nothing but itself. -/
theorem eq_of_mem_variableNames {t : Tree α} {name other : String} (h : t.referenceName? = some other)
    (mentioned : name ∈ t.variableNames) : name = other := by
  cases t with
  | reference note own =>
    cases h
    rcases mem_variableNames_iff.1 mentioned with same | ⟨_, child, _⟩
    · exact (Option.some.inj same).symm
    · cases child
  | _ => cases h

/-! ## Trees without notes -/

theorem mapAll_eq_map (f : α → β) (ts : List (Tree α)) : mapAll f ts = ts.map (map f) := by
  induction ts with
  | nil => rfl
  | cons t ts ih => rw [mapAll, ih, List.map_cons]

theorem children_map (f : α → β) (t : Tree α) : (t.map f).children = t.children.map (map f) := by
  cases t <;> simp [map, children, mapAll_eq_map]

theorem referenceName?_map (f : α → β) (t : Tree α) : (t.map f).referenceName? = t.referenceName? := by
  cases t <;> rfl

theorem walkFrom_map (f : α → β) (ts : List (Tree α)) :
    walkFrom (ts.map (map f)) = (walkFrom ts).map (map f) := by
  induction ts using walkFrom.induct with
  | case1 => simp only [List.map_nil, walkFrom]
  | case2 top stack ih =>
    rw [List.map_cons, walkFrom, children_map, ← List.map_append, ih, ← List.map_cons, ← walkFrom]

theorem size_map (f : α → β) (t : Tree α) : (t.map f).size = t.size := by
  induction t using size.induct (motive_2 := fun ts => totalSize (mapAll f ts) = totalSize ts) <;>
    simp [map, mapAll, size, totalSize, *]

/-- A tree without its notes. -/
def bare (t : Tree α) : Tree Unit := t.map fun _ => ()

theorem size_bare (t : Tree α) : t.bare.size = t.size := size_map _ t

theorem variableNames_bare (t : Tree α) : t.bare.variableNames = t.variableNames := by
  have names : t.bare.walk.filterMap referenceName? = t.walk.filterMap referenceName? := by
    calc t.bare.walk.filterMap referenceName?
        = ((walkFrom [t]).map (map fun _ => ())).filterMap referenceName? := by
          rw [← walkFrom_map]
          rfl
      _ = t.walk.filterMap referenceName? := by
          rw [List.filterMap_map]
          exact congrArg (t.walk.filterMap ·) (funext (referenceName?_map _))
  rw [variableNames, names, variableNames]

end GameScoring.Formula.Tree
