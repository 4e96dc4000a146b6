import GameScoring.Scoring.Problem

/-! # Comparisons

Configurations are compared in order, each with the next: which weights and formulas changed, and by how
much the final score did in a common environment. A configuration that cannot be scored does not keep the
others from being compared.
-/
namespace GameScoring.Scoring

/-- A name whose entries differ; a side without the name has none. -/
structure Change (α : Type) where
  name : String
  old : Option α
  new : Option α

def sameOption {α : Type} (same : α → α → Bool) : Option α → Option α → Bool
  | none, none => true
  | some a, some b => same a b
  | _, _ => false

/-- The names of the first table in order, then those only in the second. -/
def orderedNames {α : Type} (before after : Table α) : List String :=
  before.names ++ after.names.filter fun name => !before.contains name

def changes {α : Type} (same : α → α → Bool) (before after : Table α) : List (Change α) :=
  ((orderedNames before after).map fun name => ⟨name, before.get? name, after.get? name⟩).filter fun c =>
    !sameOption same c.old c.new

structure WeightChange where
  competency : String
  old : Option Float
  new : Option Float
  delta : Float

structure FormulaChange where
  competency : String
  old : Option String
  new : Option String

def weightChange (c : Change Float) : Except Fault WeightChange := do
  return ⟨c.name, c.old, c.new, ← Numeral.optionalDifference c.new c.old⟩

def weightChanges (before after : Table Float) : Except Fault (List WeightChange) :=
  (changes (· == ·) before after).mapM weightChange

/-- Formulas are compared as text: another spelling of the same formula is a change. -/
def formulaChanges (before after : Table String) : List FormulaChange :=
  (changes (· == ·) before after).map fun c => ⟨c.name, c.old, c.new⟩

structure Outcome where
  label : String
  result : Except ScoringError Scores

structure Difference where
  fromLabel : String
  toLabel : String
  weights : List WeightChange
  formulas : List FormulaChange
  scoreDelta : Option Float

structure Comparison where
  outcomes : Option (List Outcome)
  differences : List Difference

/-- A configuration and the label it is shown under. -/
abbrev Labelled := String × Configuration

/-- Configurations without labels are counted from zero. -/
def label (configurations : List Configuration) : Option (List Value) → Except (Failure Problem) (List Labelled)
  | none => .ok (configurations.zipIdx.map fun (c, index) => (Text.natText index, c))
  | some labels =>
    if labels.length != configurations.length then refuse (.labelCount labels.length configurations.length)
    else .ok ((labels.map Value.display).zip configurations)

def scoreAll (bindings : Formula.Bindings) : List Labelled → Reported (List Outcome)
  | [] => .pure (.ok [])
  | (label, c) :: rest =>
    let pass := score c bindings
    let result : Except Fault (Except ScoringError Scores) := match pass.outcome with
      | .ok scores => .ok (.ok scores)
      | .error (.refused e) => .ok (.error e)
      | .error (.fault fault) => .error fault
    match result with
    | .error fault => ⟨pass.events, .error (.fault fault)⟩
    | .ok result =>
      let later := scoreAll bindings rest
      ⟨pass.events ++ later.events, later.outcome.map (⟨label, result⟩ :: ·)⟩

def scoreMany (configurations : List Configuration) (values : Value) (labels : Option (List Value)) :
    Reported (List Outcome) :=
  match label configurations labels with
  | .error e => .pure (.error e)
  | .ok labelled =>
    match Environment.ofValue values with
    | .error e => .pure (.error (e.map .environment))
    | .ok environment => scoreAll environment.bindings labelled

/-- The difference of two final scores, if there are two. -/
def scoreDelta? (before after : Option Outcome) : Except Fault (Option Float) :=
  match before.map Outcome.result, after.map Outcome.result with
  | some (.ok old), some (.ok new) => do
    return some (← Numeral.roundHalfUp (← Numeral.difference new.final old.final) finalPlaces)
  | _, _ => .ok none

/-- A labelled configuration with its outcome, if it was scored. -/
abbrev Entry := Labelled × Option Outcome

def difference (before after : Entry) : Except Fault Difference := do
  return {
    fromLabel := before.1.1
    toLabel := after.1.1
    weights := ← weightChanges before.1.2.weights after.1.2.weights
    formulas := formulaChanges before.1.2.formulas after.1.2.formulas
    scoreDelta := ← scoreDelta? before.2 after.2 }

def differences : List Entry → Except Fault (List Difference)
  | before :: after :: rest => do
    let first ← difference before after
    return first :: (← differences (after :: rest))
  | _ => .ok []

/-- Compares configurations in order and, if variables are given, their scores. -/
def compare (configurations : List Configuration) (values : Option Value) (labels : Option (List Value)) :
    Reported Comparison :=
  if configurations.length < minCompared then .pure (refuse (.tooFewConfigurations configurations.length))
  else match label configurations labels with
    | .error e => .pure (.error e)
    | .ok labelled =>
      match values with
      | none =>
        .pure <| (differences (labelled.map (·, none))).mapError Failure.fault |>.map (⟨none, ·⟩)
      | some values =>
        match Environment.ofValue values with
        | .error e => .pure (.error (e.map .environment))
        | .ok environment =>
          let scored := scoreAll environment.bindings labelled
          ⟨scored.events, do
            let outcomes ← scored.outcome
            let found ← (differences (labelled.zip (outcomes.map some))).mapError Failure.fault
            return ⟨some outcomes, found⟩⟩

end GameScoring.Scoring
