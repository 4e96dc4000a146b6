import GameScoring.Formula.Evaluation

/-! # Environments

An environment is a table of finite numbers. It is made from an object entry by entry: truth values become
1 and 0, numbers their double, and the first entry that is neither is refused.
-/
namespace GameScoring

inductive EnvironmentError
  | badName (name : Value)
  | notNumber (name : String) (typeName : String)
  | notFinite (name : String) (value : Value)

def EnvironmentError.report : EnvironmentError → Report
  | badName name =>
    .input ("Variable names must be non-empty strings, got " ++ name.literal) .null [] "INPUT_ERROR"
  | notNumber name typeName =>
    .input ("Variable '" ++ name ++ "' must be a number, got " ++ typeName) (.text name) [] "INPUT_ERROR"
  | notFinite name value =>
    .input ("Variable '" ++ name ++ "' must be finite, got " ++ value.display) (.text name) [] "INPUT_ERROR"

/-- The double a number stands for; other values have none. -/
def Value.number? : Value → Option (Except Fault Float)
  | .int i => some (Numeral.ofInt i)
  | .float x => some (.ok x)
  | _ => none

structure Environment where
  bindings : Formula.Bindings
  finite : ∀ e ∈ bindings.entries, Binary.isFinite e.2 = true

namespace Environment

def empty : Environment := ⟨Table.empty, by simp [Table.empty]⟩

private theorem finite_insertInto {name : String} {x : Float} (hx : Binary.isFinite x = true)
    {entries : List (String × Float)} (h : ∀ e ∈ entries, Binary.isFinite e.2 = true) :
    ∀ e ∈ Table.insertInto name x entries, Binary.isFinite e.2 = true := by
  induction entries with
  | nil => simpa [Table.insertInto] using hx
  | cons head rest ih =>
    obtain ⟨first, old⟩ := head
    rw [List.forall_mem_cons] at h
    by_cases same : first = name
    · simpa [Table.insertInto, same] using ⟨hx, fun a b m => h.2 _ m⟩
    · simpa [Table.insertInto, same] using ⟨h.1, fun a b m => ih h.2 _ m⟩

def insert (environment : Environment) (name : String) (x : Float) (hx : Binary.isFinite x = true) :
    Environment :=
  ⟨environment.bindings.insert name x, finite_insertInto hx environment.finite⟩

def coerce (name : String) (value : Value) : Except (Failure EnvironmentError) Float :=
  match value with
  | .bool b => .ok (if b then 1.0 else 0.0)
  | _ =>
    match value.number? with
    | some number => number.mapError Failure.fault
    | none => refuse (.notNumber name value.typeName)

def insertAll (environment : Environment) :
    List (Value × Value) → Except (Failure EnvironmentError) Environment
  | [] => .ok environment
  | (key, value) :: rest =>
    match key with
    | .text name =>
      if name.isEmpty then refuse (.badName key)
      else do
        let x ← coerce name value
        if hx : Binary.isFinite x = true then (environment.insert name x hx).insertAll rest
        else refuse (.notFinite name value)
    | _ => refuse (.badName key)

/-- The environment of an object. What stands for nothing is an empty environment. -/
def ofValue (values : Value) : Except (Failure EnvironmentError) Environment :=
  if values.isNothing then .ok empty
  else match values with
    | .object entries => empty.insertAll entries
    | other => .error (.fault (.noEntries other.typeName))

end Environment

def Formula.Bindings.ofValue (values : Value) : Formula.Bindings :=
  match values with
  | .object entries => Table.ofList (entries.filterMap fun
      | (.text name, value) => (value.number?.bind Except.toOption).map (name, ·)
      | _ => none)
  | _ => Table.empty

end GameScoring
