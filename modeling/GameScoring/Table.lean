/-! # Tables

A table maps names to entries and remembers the order in which names were first given. Names are
distinct, which the type keeps as a proof.
-/
namespace GameScoring

structure Table (α : Type) where
  entries : List (String × α)
  distinct : (entries.map Prod.fst).Nodup

namespace Table
variable {α β : Type}

def empty : Table α := ⟨[], List.nodup_nil⟩

instance : Inhabited (Table α) := ⟨empty⟩

def names (t : Table α) : List String := t.entries.map Prod.fst

def values (t : Table α) : List α := t.entries.map Prod.snd

def size (t : Table α) : Nat := t.entries.length

def isEmpty (t : Table α) : Bool := t.entries.isEmpty

def get? (t : Table α) (name : String) : Option α := t.entries.lookup name

def contains (t : Table α) (name : String) : Bool := (t.get? name).isSome

/-- Replaces the entry of a name where it stands, or adds a new name at the end. -/
def insertInto (name : String) (entry : α) : List (String × α) → List (String × α)
  | [] => [(name, entry)]
  | (other, old) :: rest =>
    if other = name then (name, entry) :: rest else (other, old) :: insertInto name entry rest

theorem mem_names_insertInto {name other : String} {entry : α} {entries : List (String × α)} :
    other ∈ (insertInto name entry entries).map Prod.fst ↔
      other = name ∨ other ∈ entries.map Prod.fst := by
  induction entries with
  | nil => simp [insertInto]
  | cons head rest ih =>
    obtain ⟨first, old⟩ := head
    by_cases same : first = name
    · subst same; simp [insertInto]
    · simp only [insertInto, if_neg same, List.map_cons, List.mem_cons, ih]
      exact or_left_comm

theorem nodup_insertInto {name : String} {entry : α} {entries : List (String × α)}
    (distinct : (entries.map Prod.fst).Nodup) : ((insertInto name entry entries).map Prod.fst).Nodup := by
  induction entries with
  | nil => simp [insertInto]
  | cons head rest ih =>
    obtain ⟨first, old⟩ := head
    rw [List.map_cons, List.nodup_cons] at distinct
    by_cases same : first = name
    · subst same; simpa [insertInto] using distinct
    · simp only [insertInto, if_neg same, List.map_cons, List.nodup_cons, mem_names_insertInto]
      exact ⟨fun h => h.elim same distinct.1, ih distinct.2⟩

def insert (t : Table α) (name : String) (entry : α) : Table α :=
  ⟨insertInto name entry t.entries, nodup_insertInto t.distinct⟩

/-- A name that is given twice keeps its first place and its last entry. -/
def ofList (entries : List (String × α)) : Table α :=
  entries.foldl (fun t e => t.insert e.1 e.2) empty

/-- Changes every entry and keeps the names. -/
def map (f : α → β) (t : Table α) : Table β :=
  ⟨t.entries.map fun e => (e.1, f e.2), by simpa [List.map_map, Function.comp_def] using t.distinct⟩

theorem eq_of_entries {s t : Table α} (h : s.entries = t.entries) : s = t := by
  cases s
  cases t
  cases h
  rfl

theorem mem_of_get? {t : Table α} {name : String} {entry : α} (h : t.get? name = some entry) :
    (name, entry) ∈ t.entries := by
  obtain ⟨before, after, same, -⟩ := List.lookup_eq_some_iff.1 h
  exact same ▸ List.mem_append_right _ (List.mem_cons_self ..)

theorem mem_insert {t : Table α} {name : String} {entry : α} {e : String × α}
    (h : e ∈ (t.insert name entry).entries) : e = (name, entry) ∨ e ∈ t.entries := by
  obtain ⟨entries, distinct⟩ := t
  replace h : e ∈ insertInto name entry entries := h
  show e = (name, entry) ∨ e ∈ entries
  clear distinct
  induction entries with
  | nil => exact .inl (List.mem_singleton.1 h)
  | cons head rest ih =>
    obtain ⟨first, old⟩ := head
    by_cases same : first = name
    · rw [insertInto, if_pos same] at h
      exact (List.mem_cons.1 h).imp id (List.mem_cons_of_mem _)
    · rw [insertInto, if_neg same] at h
      rcases List.mem_cons.1 h with rfl | h
      · exact .inr (List.mem_cons_self ..)
      · exact (ih h).imp id (List.mem_cons_of_mem _)

theorem entries_insert_of_new {t : Table α} {name : String} {entry : α} (new : name ∉ t.names) :
    (t.insert name entry).entries = t.entries ++ [(name, entry)] := by
  obtain ⟨entries, distinct⟩ := t
  have absent : name ∉ entries.map Prod.fst := new
  show insertInto name entry entries = entries ++ [(name, entry)]
  clear distinct new
  induction entries with
  | nil => rfl
  | cons head rest ih =>
    obtain ⟨first, old⟩ := head
    rw [List.map_cons, List.mem_cons, not_or] at absent
    rw [insertInto, if_neg (Ne.symm absent.1), ih absent.2, List.cons_append]

theorem names_insert_of_new {t : Table α} {name : String} {entry : α} (new : name ∉ t.names) :
    (t.insert name entry).names = t.names ++ [name] := by
  rw [names, entries_insert_of_new new, List.map_append]
  rfl

theorem get?_insert (t : Table α) (name other : String) (entry : α) :
    (t.insert name entry).get? other = if other = name then some entry else t.get? other := by
  obtain ⟨entries, distinct⟩ := t
  simp only [get?, insert]
  induction entries with
  | nil => by_cases h : other = name <;> simp [insertInto, List.lookup_cons, beq_eq_false_iff_ne.2, h]
  | cons head rest ih =>
    obtain ⟨first, old⟩ := head
    rw [List.map_cons, List.nodup_cons] at distinct
    by_cases same : first = name
    · subst same
      by_cases h : other = first <;> simp [insertInto, List.lookup_cons, beq_eq_false_iff_ne.2, h]
    · by_cases h : other = first
      · subst h; simp [insertInto, same]
      · simp only [insertInto, if_neg same, List.lookup_cons, beq_eq_false_iff_ne.2 h]
        exact ih distinct.2

end Table

end GameScoring
