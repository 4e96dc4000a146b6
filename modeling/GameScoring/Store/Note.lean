import GameScoring.Numeral.Word
import GameScoring.Report

/-! # Notes

What is noted of a version when it is saved: a description, who created it and whether it becomes the active
one. A note is stored in columns, two of text and one of truth values, and not every value fits a column.
-/
namespace GameScoring.Store

structure Note where
  description : Value
  createdBy : Value
  activate : Value

structure SaveNote where
  description : Option String
  createdBy : Option String
  activate : Bool

/-- Why a note cannot be stored: a value fits no column, or an integer is wider than a column. -/
inductive NoteDefect
  | unfit
  | tooWide
deriving DecidableEq, Repr

/-- What a column of text keeps of a value: the text of a number, and nothing of null. -/
def textColumn : Value → Except NoteDefect (Option String)
  | .null => .ok none
  | .text s => .ok (some s)
  | .bool b => .ok (some (Text.intText (Value.ofBool b)))
  | .int i => if Numeral.isWordSized 64 i then .ok (some (Text.intText i)) else .error .tooWide
  | .float x => .ok (Numeral.stored? x)
  | _ => .error .unfit

/-- What a column of truth values keeps: null is false, and so is zero. -/
def truthColumn (value : Value) : Except NoteDefect Bool :=
  if value.sameAtom .null || value.sameAtom (.bool false) then .ok false
  else if value.sameAtom (.bool true) then .ok true
  else .error .unfit

/-- A column keeps true of what is equal to true, and of nothing else. -/
theorem truthColumn_ok {value : Value} {kept : Bool} (h : truthColumn value = .ok kept) :
    value.sameAtom (.bool true) = kept := by
  unfold truthColumn at h
  by_cases isFalse : (value.sameAtom .null || value.sameAtom (.bool false)) = true
  · rw [if_pos isFalse] at h
    cases h
    cases value with
    | bool b => cases b <;> simp_all [Value.sameAtom]
    | int i => simp_all [Value.sameAtom, Value.ofBool]
    | float x => simp_all [Value.sameAtom, Value.sameNumber, Value.ofBool]
    | _ => rfl
  · rw [if_neg isFalse] at h
    by_cases isTrue : value.sameAtom (.bool true) = true
    · rw [if_pos isTrue] at h
      cases h
      exact isTrue
    · rw [if_neg isTrue] at h
      cases h

def Note.stored (note : Note) : Except NoteDefect SaveNote := do
  let activate ← truthColumn note.activate
  return ⟨← textColumn note.description, ← textColumn note.createdBy, activate⟩

theorem Note.activate_of_stored {note : Note} {saved : SaveNote} (h : note.stored = .ok saved) :
    truthColumn note.activate = .ok saved.activate := by
  obtain ⟨activate, column, h⟩ := ok_of_bind h
  obtain ⟨description, -, h⟩ := ok_of_bind h
  obtain ⟨createdBy, -, h⟩ := ok_of_bind h
  cases h
  exact column

end GameScoring.Store
