import GameScoring.Table

/-!
# Names of tables

A name stands in a table exactly if an entry is found under it, and it can be taken out again. Which names a
table has depends only on the names that its entries were given under.
-/
namespace GameScoring.Table
variable {α β : Type}

theorem get?_of_mem {t : Table α} {name : String} {entry : α} (member : (name, entry) ∈ t.entries) :
    t.get? name = some entry := by
  obtain ⟨entries, distinct⟩ := t
  simp only [get?]
  replace member : (name, entry) ∈ entries := member
  induction entries with
  | nil => cases member
  | cons head rest ih =>
    obtain ⟨first, old⟩ := head
    rw [List.map_cons, List.nodup_cons] at distinct
    rcases List.mem_cons.1 member with same | later
    · cases same
      simp
    · have other : name ≠ first := by
        rintro rfl
        exact distinct.1 (List.mem_map.2 ⟨_, later, rfl⟩)
      simp only [List.lookup_cons, beq_eq_false_iff_ne.2 other]
      exact ih distinct.2 later

theorem mem_names_iff {t : Table α} {name : String} : name ∈ t.names ↔ ∃ entry, t.get? name = some entry := by
  constructor
  · intro member
    obtain ⟨⟨_, entry⟩, stood, rfl⟩ := List.mem_map.1 member
    exact ⟨entry, get?_of_mem stood⟩
  · rintro ⟨entry, found⟩
    exact List.mem_map.2 ⟨_, mem_of_get? found, rfl⟩

theorem contains_iff {t : Table α} {name : String} : t.contains name = true ↔ name ∈ t.names := by
  rw [contains, Option.isSome_iff_exists, mem_names_iff]

/-- Removes the entry of a name. -/
def erase (t : Table α) (name : String) : Table α :=
  ⟨t.entries.filter fun e => e.1 != name, t.distinct.sublist (List.filter_sublist.map _)⟩

theorem get?_erase (t : Table α) (name other : String) :
    (t.erase name).get? other = if other = name then none else t.get? other := by
  obtain ⟨entries, distinct⟩ := t
  simp only [get?, erase]
  clear distinct
  induction entries with
  | nil => simp
  | cons head rest ih =>
    obtain ⟨first, entry⟩ := head
    by_cases same : first = name
    · subst same
      rw [List.filter_cons_of_neg (by simp), ih]
      by_cases h : other = first
      · rw [if_pos h, if_pos h]
      · simp [h, List.lookup_cons, beq_eq_false_iff_ne.2 h]
    · rw [List.filter_cons_of_pos (by simpa using same)]
      by_cases h : other = first
      · subst h
        simp [same]
      · simp [List.lookup_cons, beq_eq_false_iff_ne.2 h, ih]

/-! ## Tables of lists -/

theorem mem_ofList {entries : List (String × α)} {e : String × α}
    (member : e ∈ (ofList entries).entries) : e ∈ entries := by
  suffices all : ∀ start : Table α,
      e ∈ (entries.foldl (fun t e => t.insert e.1 e.2) start).entries → e ∈ start.entries ∨ e ∈ entries from
    (all empty member).resolve_left nofun
  clear member
  induction entries with
  | nil => exact fun _ => .inl
  | cons first rest ih =>
    intro start member
    rcases ih _ member with early | later
    · rcases mem_insert early with rfl | old
      · exact .inr (List.mem_cons_self ..)
      · exact .inl old
    · exact .inr (List.mem_cons_of_mem _ later)

/-- A list that gives no name twice is the table that it makes. -/
theorem entries_ofList {entries : List (String × α)} (distinct : (entries.map Prod.fst).Nodup) :
    (ofList entries).entries = entries := by
  suffices all : ∀ start : Table α, (start.names ++ entries.map Prod.fst).Nodup →
      (entries.foldl (fun t e => t.insert e.1 e.2) start).entries = start.entries ++ entries from all empty distinct
  clear distinct
  induction entries with
  | nil => exact fun start _ => (List.append_nil _).symm
  | cons first rest ih =>
    intro start distinct
    have new : first.1 ∉ start.names := fun old =>
      (List.nodup_append.1 distinct).2.2 _ old _ (List.mem_cons_self ..) rfl
    refine (ih (start.insert first.1 first.2) ?_).trans ?_
    · rw [names_insert_of_new new, List.append_assoc]
      exact distinct
    · rw [entries_insert_of_new new, List.append_assoc]
      rfl

theorem names_insert_of_old {t : Table α} {name : String} {entry : α} (old : name ∈ t.names) :
    (t.insert name entry).names = t.names := by
  obtain ⟨entries, distinct⟩ := t
  replace old : name ∈ entries.map Prod.fst := old
  show (insertInto name entry entries).map Prod.fst = entries.map Prod.fst
  clear distinct
  induction entries with
  | nil => cases old
  | cons head rest ih =>
    obtain ⟨first, before⟩ := head
    by_cases same : first = name
    · rw [insertInto, if_pos same, List.map_cons, List.map_cons, same]
    · have later : name ∈ rest.map Prod.fst := (List.mem_cons.1 old).resolve_left (Ne.symm same)
      rw [insertInto, if_neg same, List.map_cons, List.map_cons, ih later]

theorem names_insert_congr {s : Table α} {t : Table β} (same : s.names = t.names) (name : String) (a : α) (b : β) :
    (s.insert name a).names = (t.insert name b).names := by
  by_cases old : name ∈ s.names
  · rw [names_insert_of_old old, names_insert_of_old (same ▸ old), same]
  · rw [names_insert_of_new old, names_insert_of_new (same ▸ old), same]

/-- Lists that give the same names make tables with the same names. -/
theorem names_ofList_congr {entries : List (String × α)} {others : List (String × β)}
    (same : entries.map Prod.fst = others.map Prod.fst) : (ofList entries).names = (ofList others).names := by
  suffices all : ∀ (s : Table α) (t : Table β), s.names = t.names →
      (entries.foldl (fun t e => t.insert e.1 e.2) s).names =
        (others.foldl (fun t e => t.insert e.1 e.2) t).names from all empty empty rfl
  induction entries generalizing others with
  | nil =>
    cases List.map_eq_nil_iff.1 same.symm
    exact fun _ _ => id
  | cons first rest ih =>
    cases others with
    | nil => cases same
    | cons other others =>
      rw [List.map_cons, List.map_cons, List.cons.injEq] at same
      intro s t names
      refine ih same.2 _ _ ?_
      show (s.insert first.1 first.2).names = (t.insert other.1 other.2).names
      rw [same.1]
      exact names_insert_congr names ..

end GameScoring.Table
