import Mathlib
import GameScoring.Proofs.Service.Agreement
import GameScoring.Proofs.Service.Catalogue

/-!
# Stored versions stay usable

What a save checks is all that is asked of a version afterwards. A row is read again into the configuration
that was saved, and its formulas parse again. So an activation, a listing or a comparison never fails because
of a row, and a submission that cannot be scored fails at an evaluation.
-/
namespace GameScoring.Service
open Scoring Store Telemetry

/-- A configuration as it is saved: every formula and every weight of it can be used. -/
structure Usable (c : Configuration) : Prop where
  formulas : c.formulas.entries ≠ []
  accepted : ∀ entry ∈ c.formulas.entries,
    Text.isBlankText entry.1 = false ∧ ∃ f, Formula.ofText entry.2 = .ok f
  weights : ∀ entry ∈ c.weights.entries,
    Text.isBlankText entry.1 = false ∧ Binary.isFinite entry.2 = true ∧ ¬ entry.2 < 0.0

/-! ## Formulas -/

theorem checkFormulas_ok_iff {c : Configuration} :
    checkFormulas c = .ok () ↔ ∀ entry ∈ c.formulas.entries, ∃ f, Formula.ofText entry.2 = .ok f := by
  rw [checkFormulas, List.forM_eq_forM]
  induction c.formulas.entries with
  | nil => exact ⟨fun _ _ member => (nomatch member), fun _ => rfl⟩
  | cons entry rest ih =>
    rw [List.forM_cons, List.forall_mem_cons, ← ih]
    obtain ⟨name, text⟩ := entry
    dsimp only
    cases accepted : Formula.ofText text with
    | error e => exact ⟨nofun, fun h => nomatch h.1⟩
    | ok f => exact ⟨fun h => ⟨⟨f, rfl⟩, h⟩, fun h => h.2⟩

theorem SaveRequest.usable {request : SaveRequest} {c : Configuration}
    (h : request.configuration = .ok c) : Usable c := by
  obtain ⟨-, checked, nonempty, accepts⟩ := SaveRequest.required h
  refine ⟨?_, ?_, ?_⟩
  · intro empty
    rw [Table.isEmpty, empty] at nonempty
    cases nonempty
  · intro entry member
    exact ⟨(checked.formulas entry member).named, checkFormulas_ok_iff.1 accepts entry member⟩
  · intro entry member
    have stable := checked.weights entry member
    exact ⟨stable.named, (Configuration.readWeight_ok_iff.1 stable.kept).2⟩

/-- The codes of the ways in which the evaluation of a formula can fail. -/
def evaluationCodes : List String := ["UNDEFINED_VARIABLE", "DIVISION_BY_ZERO", "DOMAIN_ERROR"]

theorem code_mem {e : Formula.EvaluationError} (h : e.report.kind ∈ Formula.evaluationKinds) :
    e.report.code ∈ evaluationCodes := by
  cases e with
  | unsupportedNode => revert h; decide
  | undefinedVariable _ => exact .head _
  | divisionByZero => exact .tail _ (.head _)
  | zeroToNegativePower => exact .tail _ (.head _)
  | _ => exact .tail _ (.tail _ (.head _))

/-- Scoring a usable configuration fails only at an evaluation. -/
theorem Usable.kind_mem {c : Configuration} (usable : Usable c) {environment : Environment} {e : ScoringError}
    (gets : Gets c environment (.error e)) : e.kind ∈ evaluationCodes := by
  obtain ⟨total, entry, member, blames⟩ := gets.blames
  obtain ⟨-, f, accepted⟩ := usable.accepted entry member
  rw [ScoringError.kind]
  generalize e.cause = cause at blames
  cases blames with
  | rejected rejected => exact nomatch rejected.symm.trans accepted
  | failed known failed =>
    have safe := (Formula.wellFormed_of_accepted known).safe environment
    rw [Formula.evaluate] at failed
    rw [failed] at safe
    cases safe with
    | refused kind => exact code_mem kind
  | overflow _ _ => exact .tail _ (.tail _ (.head _))

/-! ## Stores of usable versions -/

theorem mem_readRows {rows : List Row} {versions : List Version} (h : readRows rows = .ok versions)
    {version : Version} (member : version ∈ versions) : ∃ row ∈ rows, row.read = .ok version := by
  induction rows generalizing versions with
  | nil =>
    cases h
    cases member
  | cons row rows ih =>
    rw [readRows, List.mapM_cons] at h
    obtain ⟨first, read, h⟩ := ok_of_bind h
    obtain ⟨others, rest, h⟩ := ok_of_bind h
    cases h
    rcases List.mem_cons.1 member with rfl | later
    · exact ⟨row, List.mem_cons_self .., ok_of_widen read⟩
    · obtain ⟨other, stood, other_read⟩ := ih rest later
      exact ⟨other, List.mem_cons_of_mem _ stood, other_read⟩

/-- A row that is read again into a usable configuration. -/
def UsableRow (row : Row) : Prop :=
  ∃ c, Configuration.ofPayload (.text row.gameType) row.payload = .ok c ∧ Usable c

theorem StoredIn.usable {entry : Saved} {row : Row} (h : StoredIn entry row) : UsableRow row := by
  obtain ⟨-, checked, -⟩ := SaveRequest.required h.configured
  refine ⟨entry.version.configuration, ?_, SaveRequest.usable h.configured⟩
  rw [h.row_gameType, h.gameType, h.payload]
  exact checked.ofPayload_payload

theorem usable_run (calls : List Call) : ∀ row ∈ (State.initial.run calls).store.rows, UsableRow row := by
  intro row member
  obtain ⟨entry, -, stored⟩ := exists_of_mem_right (saves_stored calls) member
  exact stored.usable

theorem UsableRow.of_read {row : Row} (h : UsableRow row) {version : Version} (read : row.read = .ok version) :
    Usable version.configuration := by
  obtain ⟨c, readable, usable⟩ := h
  have again : row.read = .ok ⟨row.toHeading, c⟩ := ok_of_widen (readRow_ok readable)
  cases again.symm.trans read
  exact usable

section Activation

variable {store : Store} {drawn : Nat} {saved : String → Nat} (orderly : Orderly drawn saved store.rows)
  (usable : ∀ row ∈ store.rows, UsableRow row) (conditions : Conditions) (gameType name : String)
include orderly

theorem named?_of_mem {row : Row} (member : row ∈ store.rows) :
    store.named? row.gameType row.name = some row := by
  cases found : store.named? row.gameType row.name with
  | none =>
    have stood : row ∈ store.rowsOf row.gameType := List.mem_filter.2 ⟨member, beq_self_eq_true _⟩
    exact absurd (beq_self_eq_true row.name) (List.find?_eq_none.1 found row stood)
  | some other =>
    obtain ⟨stood, game, named⟩ := of_named? found
    rw [orderly.eq_of_name stood member game named]

/-- The rows of a game are read, and the version that is found by its name is that of the row with this name. -/
theorem find?_history : ∃ versions, readRows (store.history gameType) = .ok versions ∧
    ((store.named? gameType name = none ∧ versions.find? (fun version => version.name == name) = none) ∨
      ∃ target version, store.named? gameType name = some target ∧ target.read = .ok version ∧
        versions.find? (fun version => version.name == name) = some version) := by
  have stood : ∀ row ∈ store.history gameType, row ∈ store.rows ∧ row.gameType = gameType := by
    intro row member
    obtain ⟨member, game⟩ := List.mem_filter.1 (List.mem_reverse.1 member)
    exact ⟨member, beq_iff_eq.1 game⟩
  obtain ⟨versions, read, headings⟩ := readRows_ok fun row member => orderly.readable row (stood row member).1
  refine ⟨versions, read, ?_⟩
  cases found : versions.find? fun version => version.name == name with
  | none =>
    refine .inl ⟨?_, rfl⟩
    cases named : store.named? gameType name with
    | none => rfl
    | some target =>
      obtain ⟨member, rfl, rfl⟩ := of_named? named
      have stored : target.toHeading ∈ versions.map (·.toHeading) := by
        rw [headings]
        exact List.mem_map.2 ⟨target, List.mem_reverse.2 (List.mem_filter.2 ⟨member, beq_self_eq_true _⟩), rfl⟩
      obtain ⟨version, version_member, same⟩ := List.mem_map.1 stored
      have named_so : version.name = target.name := congrArg Heading.name same
      exact absurd (beq_iff_eq.2 named_so) (List.find?_eq_none.1 found version version_member)
  | some version =>
    obtain ⟨row, member, row_read⟩ := mem_readRows read (List.mem_of_find?_eq_some found)
    obtain ⟨row_stored, rfl⟩ := stood row member
    have same := List.find?_some found
    have row_name : version.name = row.name := congrArg Heading.name (toHeading_of_read row_read)
    refine .inr ⟨row, version, ?_, row_read, rfl⟩
    rw [← beq_iff_eq.1 same, row_name]
    exact named?_of_mem orderly row_stored

theorem activatable_of_unnamed (unnamed : store.named? gameType name = none) :
    activatable store gameType name = refuse (.store (.unknownVersion gameType name)) := by
  obtain ⟨versions, read, ⟨-, missing⟩ | ⟨target, version, named, -⟩⟩ := find?_history orderly gameType name
  · rw [activatable, read]
    dsimp only [bind, Except.bind]
    rw [missing]
  · rw [unnamed] at named
    cases named

include usable

/-- A version that is stored can be activated. -/
theorem activatable_of_named {target : Row} (named : store.named? gameType name = some target) :
    activatable store gameType name = readRow target := by
  obtain ⟨versions, read, ⟨unnamed, -⟩ | ⟨row, version, other, row_read, found⟩⟩ :=
    find?_history orderly gameType name
  · rw [named] at unnamed
    cases unnamed
  · cases other.symm.trans named
    have usable := (usable target (of_named? named).1).of_read row_read
    have accepts : checkFormulas version.configuration = .ok () :=
      checkFormulas_ok_iff.2 fun entry member => (usable.accepted entry member).2
    rw [activatable, read, readRow, row_read]
    dsimp only [bind, Except.bind]
    rw [found]
    dsimp only
    rw [accepts]
    rfl

/-- An activation is refused for a version that is not stored or for its commit, and never for a row. -/
theorem setActive_eq : setActive conditions store gameType name =
    match store.named? gameType name, conditions.commitFailure with
    | none, _ => .unchanged store (refuse (.store (.unknownVersion gameType name)))
    | some _, some _ => .unchanged store (refuse (.store (.notActivated gameType name)))
    | some target, none =>
      let cleared := mark (fun row => row.gameType == gameType && row.id != target.id) false store.rows
      .unchanged { store with rows := mark (·.id == target.id) true cleared }
        (readRow (target.withActive true)) := by
  cases named : store.named? gameType name with
  | none =>
    rw [setActive, activatable_of_unnamed orderly gameType name named]
    rfl
  | some target =>
    obtain ⟨c, readable⟩ := orderly.readable target (of_named? named).1
    rw [setActive, activatable_of_named orderly usable gameType name named]
    simp only [readRow_ok readable, Store.setActive_eq, named]
    cases conditions.commitFailure <;> rfl

end Activation

/-! ## Comparisons and submissions -/

/-- Why versions are not compared: what was asked for, and never what is stored. -/
inductive Uncomparable (store : Store) (gameType : String) (ids : List String) (testData : Option Value) :
    Failure Refusal → Prop
  | tooFew (few : ids.length < minCompared) : Uncomparable store gameType ids testData (.refused .tooFewVersions)
  | unknown (missing : (store.rowsWith ids).length < ids.length) :
      Uncomparable store gameType ids testData
        (.refused (.unknownVersions (ids.filter fun id => (store.row? id).isNone)))
  | foreign {row : Row} (member : row ∈ store.rowsWith ids) (other : row.gameType ≠ gameType) :
      Uncomparable store gameType ids testData (.refused (.foreignVersion row.name row.gameType gameType))
  | unreadable {values : Value} {e : Failure EnvironmentError} (given : testData = some values)
      (unread : Environment.ofValue values = .error e) :
      Uncomparable store gameType ids testData (e.map fun e => .scoring (.environment e))
  | unshown {values : Value} (given : testData = some values) (nothing : values.isNothing = true) :
      Uncomparable store gameType ids testData (.fault (.notIterable values.typeName))

/-- Why a submission is not recorded. Scoring fails only at an evaluation. -/
inductive Unrecorded (store : Store) (failure : Option CommitFailure) (gameType userId : String) (raw : Value) :
    Failure Refusal → Prop
  | noUser (anonymous : userId = "") : Unrecorded store failure gameType userId raw (.refused .noUser)
  | inactive (unmarked : ∀ row ∈ store.rowsOf gameType, row.active = false) :
      Unrecorded store failure gameType userId raw (.refused (.noActiveVersion gameType))
  | unextracted {e : Failure ExtractionError} (unread : Registry.builtIn.extract gameType raw = .error e) :
      Unrecorded store failure gameType userId raw (e.map fun e => .scoring (.extraction e))
  | unscored {e : ScoringError} (kind : e.kind ∈ evaluationCodes) :
      Unrecorded store failure gameType userId raw (.refused (.scoring (.scoring e)))
  | uncommitted (failed : failure ≠ none) :
      Unrecorded store failure gameType userId raw (.refused (.store .submissionNotRecorded))

theorem any_rowsWith {store : Store} {ids : List String} {id : String} (asked : id ∈ ids) :
    (store.rowsWith ids).any (·.id == id) = (store.row? id).isSome := by
  rw [Bool.eq_iff_iff, List.any_eq_true]
  constructor
  · rintro ⟨row, member, same⟩
    obtain ⟨other, -, found⟩ := List.mem_filterMap.1 member
    exact List.find?_isSome.2 ⟨row, List.mem_of_find?_eq_some found, same⟩
  · intro known
    obtain ⟨row, found⟩ := Option.isSome_iff_exists.1 known
    have same := List.find?_some found
    exact ⟨row, List.mem_filterMap.2 ⟨id, asked, found⟩, same⟩

/-- Values that are read can be shown, unless nothing is given in place of them. -/
theorem scoredEntries_of_read {values : Value} {environment : Environment}
    (read : Environment.ofValue values = .ok environment) :
    (∃ shown, scoredEntries values = .ok shown) ∨
      (values.isNothing = true ∧ scoredEntries values = .error (.fault (.notIterable values.typeName))) := by
  have nothing (unentered : ∀ entries, values ≠ .object entries) : values.isNothing = true := by
    by_contra something
    rw [Environment.ofValue, if_neg something] at read
    · cases read
    · exact unentered
  cases values with
  | object _ | text _ | list _ => exact .inl ⟨_, rfl⟩
  | datum d =>
    cases d with
    | bytes _ | set _ => exact .inl ⟨_, rfl⟩
    | _ => exact .inr ⟨nothing nofun, rfl⟩
  | _ => exact .inr ⟨nothing nofun, rfl⟩

/-- Telemetry of the game of a usable version is scored, unless it cannot be read or an evaluation fails. -/
theorem Usable.calculate_error {c : Configuration} (usable : Usable c) {raw : Value} {e : Failure Problem}
    (h : (calculate .builtIn c.gameType c raw).outcome = .error e) :
    (∃ unread, Registry.builtIn.extract c.gameType raw = .error unread ∧ e = unread.map .extraction) ∨
      ∃ error : ScoringError, e = .refused (.scoring error) ∧ error.kind ∈ evaluationCodes := by
  cases extracted : Registry.builtIn.extract c.gameType raw with
  | error unread =>
    rw [calculate, if_neg (by simp), extracted] at h
    cases h
    exact .inl ⟨unread, rfl, rfl⟩
  | ok environment =>
    obtain ⟨result, gets⟩ := exists_gets c environment
    rw [calculate_gets gets extracted] at h
    cases result with
    | ok scores => cases h
    | error error =>
      cases h
      exact .inr ⟨error, rfl, usable.kind_mem gets⟩

section Answers

variable {store : Store} {drawn : Nat} {saved : String → Nat} (orderly : Orderly drawn saved store.rows)
include orderly

theorem active_cases (gameType : String) :
    (∃ row ∈ store.rows, ∃ version, row.read = .ok version ∧ row.gameType = gameType ∧
      active store gameType = .ok version) ∨
    ((∀ row ∈ store.rowsOf gameType, row.active = false) ∧
      active store gameType = refuse (.noActiveVersion gameType)) := by
  rw [active]
  cases found : store.active? gameType with
  | none =>
    refine .inr ⟨fun row member => ?_, rfl⟩
    exact Bool.eq_false_iff.2 (List.find?_eq_none.1 found row (List.mem_reverse.2 member))
  | some row =>
    obtain ⟨member, game⟩ := List.mem_filter.1 (List.mem_reverse.1 (List.mem_of_find?_eq_some found))
    obtain ⟨c, readable⟩ := orderly.readable row member
    have read : readRow row = .ok ⟨row.toHeading, c⟩ := readRow_ok readable
    exact .inl ⟨row, member, _, ok_of_widen read, beq_iff_eq.1 game, read⟩

theorem requestedVersions_cases (ids : List String) : ∃ versions : List Version,
    versions.map (·.toHeading) = (store.rowsWith ids).map (·.toHeading) ∧
    (∀ version ∈ versions, version.configuration.Checked) ∧
    requestedVersions store ids =
      if (store.rowsWith ids).length < ids.length then
        refuse (.unknownVersions (ids.filter fun id => (store.row? id).isNone))
      else .ok versions := by
  have known : ∀ row ∈ store.rowsWith ids, row ∈ store.rows := by
    intro row member
    obtain ⟨id, -, found⟩ := List.mem_filterMap.1 member
    exact List.mem_of_find?_eq_some found
  obtain ⟨versions, read, headings⟩ := readRows_ok fun row member => orderly.readable row (known row member)
  have length : versions.length = (store.rowsWith ids).length := by
    have same := congrArg List.length headings
    rwa [List.length_map, List.length_map] at same
  refine ⟨versions, headings, ?_, ?_⟩
  · intro version member
    obtain ⟨row, -, row_read⟩ := mem_readRows read member
    exact (checked_of_read row_read).2
  · have missing : (ids.filter fun id => !(versions.any fun version => version.id == id)) =
        ids.filter fun id => (store.row? id).isNone := by
      apply List.filter_congr
      intro id asked
      have same : (versions.any fun version => version.id == id) = (store.rowsWith ids).any (·.id == id) := by
        have headings := congrArg (·.any (·.id == id)) headings
        rwa [List.any_map, List.any_map] at headings
      rw [same, ← Option.not_isSome, any_rowsWith asked]
    rw [requestedVersions, read, ← length, ← missing]
    rfl

theorem comparable_outcome (gameType : String) (ids : List String) (testData : Option Value) :
    (∃ versions, comparable store gameType ids = .ok versions ∧ minCompared ≤ versions.length ∧
      ∀ version ∈ versions, version.configuration.Checked) ∨
    ∃ e, Uncomparable store gameType ids testData e ∧ comparable store gameType ids = .error e := by
  obtain ⟨versions, headings, checked, requested⟩ := requestedVersions_cases orderly ids
  by_cases few : ids.length < minCompared
  · refine .inr ⟨_, .tooFew few, ?_⟩
    rw [comparable, if_pos few]
    rfl
  by_cases missing : (store.rowsWith ids).length < ids.length
  · refine .inr ⟨_, .unknown missing, ?_⟩
    rw [comparable, if_neg few, requested, if_pos missing]
    rfl
  have requested : requestedVersions store ids = .ok versions := by rw [requested, if_neg missing]
  cases found : versions.find? fun version => version.gameType != gameType with
  | none =>
    have length := congrArg List.length headings
    rw [List.length_map, List.length_map] at length
    refine .inl ⟨versions, ?_, by omega, checked⟩
    rw [comparable, if_neg few, requested]
    dsimp only [bind, Except.bind]
    rw [found]
    rfl
  | some version =>
    have stored : version.toHeading ∈ (store.rowsWith ids).map (·.toHeading) := by
      rw [← headings]
      exact List.mem_map.2 ⟨version, List.mem_of_find?_eq_some found, rfl⟩
    obtain ⟨row, member, same⟩ := List.mem_map.1 stored
    have other := List.find?_some found
    rw [← same] at other
    refine .inr ⟨_, .foreign member (bne_iff_ne.1 other), ?_⟩
    rw [comparable, if_neg few, requested]
    dsimp only [bind, Except.bind]
    rw [found]
    dsimp only
    rw [← same]
    rfl

/-- A comparison fails only because of what was asked for. -/
theorem compareVersions_outcome (gameType : String) (ids : List String) (testData : Option Value) :
    (∃ comparison, (compareVersions store gameType ids testData).outcome = .ok comparison) ∨
    ∃ e, Uncomparable store gameType ids testData e ∧
      (compareVersions store gameType ids testData).outcome = .error e := by
  rcases comparable_outcome orderly gameType ids testData with
    ⟨versions, compared, many, checked⟩ | ⟨e, reason, refused⟩
  · have checked' : ∀ c ∈ versions.map (·.configuration), c.Checked := by rwa [List.forall_mem_map]
    have many' : minCompared ≤ (versions.map (·.configuration)).length := by rwa [List.length_map]
    have outcome : (compareVersions store gameType ids testData).outcome =
        widen .scoring (compare (versions.map (·.configuration)) testData
          (some (versions.map fun version => Value.text version.name))).outcome >>= fun comparison => do
            return ⟨comparedVersions versions comparison.outcomes, comparison.differences,
              ← shownTestData testData⟩ := by
      rw [compareVersions, compared]
      rfl
    rw [outcome]
    cases testData with
    | none =>
      obtain ⟨found, differ⟩ := compare_unscored many' checked' (labels_versions versions)
      rw [differ]
      exact .inl ⟨_, rfl⟩
    | some values =>
      cases read : Environment.ofValue values with
      | error e =>
        refine .inr ⟨_, .unreadable rfl read, ?_⟩
        rw [compare_unread many' (labels_versions versions) read]
        cases e <;> rfl
      | ok environment =>
        obtain ⟨outcomes, found, scored, -⟩ := compare_outcome many' checked' (labels_versions versions) read
        rw [scored, shownTestData]
        rcases scoredEntries_of_read read with ⟨shown, entries⟩ | ⟨nothing, unshown⟩
        · rw [entries]
          exact .inl ⟨_, rfl⟩
        · rw [unshown]
          exact .inr ⟨_, .unshown rfl nothing, rfl⟩
  · refine .inr ⟨e, reason, ?_⟩
    rw [compareVersions, refused]
    rfl

/-- A submission fails because of what was asked for, at an evaluation or because of its commit. -/
theorem submit_outcome (usable : ∀ row ∈ store.rows, UsableRow row) (conditions : Conditions)
    (gameType userId : String) (raw : Value) :
    (∃ submission, (submit conditions store gameType userId raw).outcome = .ok submission) ∨
    ∃ e, Unrecorded store conditions.commitFailure gameType userId raw e ∧
      (submit conditions store gameType userId raw).outcome = .error e := by
  cases chosen : versionFor store gameType userId with
  | error e =>
    have refused : (submit conditions store gameType userId raw).outcome = .error e := by
      rw [submit, chosen]
      rfl
    rw [versionFor] at chosen
    by_cases anonymous : userId.isEmpty = true
    · rw [if_pos anonymous] at chosen
      cases chosen
      exact .inr ⟨_, .noUser (String.isEmpty_iff.1 anonymous), refused⟩
    · rw [if_neg anonymous] at chosen
      rcases active_cases orderly gameType with ⟨_, -, version, -, -, found⟩ | ⟨unmarked, missing⟩
      · rw [found] at chosen
        cases chosen
      · cases missing.symm.trans chosen
        exact .inr ⟨_, .inactive unmarked, refused⟩
  | ok version =>
    obtain ⟨row, member, game, read⟩ : ∃ row ∈ store.rows, row.gameType = gameType ∧ row.read = .ok version := by
      rw [versionFor] at chosen
      by_cases anonymous : userId.isEmpty = true
      · rw [if_pos anonymous] at chosen
        cases chosen
      · rw [if_neg anonymous] at chosen
        rcases active_cases orderly gameType with ⟨row, member, other, read, game, found⟩ | ⟨-, missing⟩
        · cases found.symm.trans chosen
          exact ⟨row, member, game, read⟩
        · rw [missing] at chosen
          cases chosen
    have home : version.configuration.gameType = gameType := (checked_of_read read).1.trans game
    rcases submit_cases conditions raw chosen with
      ⟨e, unscored, refused⟩ | ⟨scores, -, ⟨failed, refused⟩ | ⟨-, recorded⟩⟩
    · rw [← home] at unscored
      have failed : Unrecorded store conditions.commitFailure gameType userId raw (e.map .scoring) := by
        rcases ((usable row member).of_read read).calculate_error unscored with
          ⟨unread, extracted, rfl⟩ | ⟨error, rfl, kind⟩
        · rw [home] at extracted
          cases unread <;> exact .unextracted extracted
        · exact .unscored kind
      exact .inr ⟨_, failed, by rw [refused]⟩
    · exact .inr ⟨_, .uncommitted failed, by rw [refused]; rfl⟩
    · exact .inl ⟨_, by rw [recorded]⟩

end Answers

/-! ## Reachable states -/

/-- Every version of a state can be used: it is read again, activated, answered, listed and compared, and
submissions are scored with it. An operation fails only because of what is asked for, at an evaluation or
because of its commit. -/
structure Serviceable (state : State) : Prop where
  usable : ∀ row ∈ state.store.rows, UsableRow row
  activated : ∀ row ∈ state.store.rows, ∃ version, row.read = .ok version ∧
    (state.perform none (.setActive row.gameType row.name)).2 = .ok (.version (version.withActive true)) ∧
    ∀ failure, (state.perform (some failure) (.setActive row.gameType row.name)).2 =
      refuse (.store (.notActivated row.gameType row.name))
  unknown : ∀ failure gameType name, (∀ row ∈ state.store.rows, row.gameType = gameType → row.name ≠ name) →
    (state.perform failure (.setActive gameType name)).2 = refuse (.store (.unknownVersion gameType name))
  active : ∀ failure gameType,
    (∃ row ∈ state.store.rows, ∃ version, row.read = .ok version ∧
      (state.perform failure (.active gameType)).2 = .ok (.version version)) ∨
    (state.perform failure (.active gameType)).2 = refuse (.noActiveVersion gameType)
  listed : ∀ failure gameType, ∃ versions,
    (state.perform failure (.versions gameType)).2 = .ok (.versions versions)
  compared : ∀ failure gameType ids testData,
    (∃ comparison, (state.perform failure (.compare gameType ids testData)).2 = .ok (.comparison comparison)) ∨
    ∃ e, Uncomparable state.store gameType ids testData e ∧
      (state.perform failure (.compare gameType ids testData)).2 = .error e
  submitted : ∀ failure gameType userId raw,
    (∃ submission, (state.perform failure (.submit gameType userId raw)).2 = .ok (.submission submission)) ∨
    ∃ e, Unrecorded state.store failure gameType userId raw e ∧
      (state.perform failure (.submit gameType userId raw)).2 = .error e

section Performed

variable {state : State} {roster : Roster} (h : Represents state roster)
  (usable : ∀ row ∈ state.store.rows, UsableRow row)
include h usable

/-- An activation marks the version it names, or it leaves the state as it was. -/
theorem perform_setActive (failure : Option CommitFailure) (gameType name : String) :
    state.perform failure (.setActive gameType name) =
      match state.store.named? gameType name, failure with
      | none, _ => (state, refuse (.store (.unknownVersion gameType name)))
      | some _, some _ => (state, refuse (.store (.notActivated gameType name)))
      | some target, none =>
        let cleared := mark (fun row => row.gameType == gameType && row.id != target.id) false state.store.rows
        ({ state with store.rows := mark (·.id == target.id) true cleared },
          (readRow (target.withActive true)).map .version) := by
  have reply := congrArg (Reply.map Result.version)
    (setActive_eq h.toOrderly usable (state.conditions failure) gameType name)
  cases named : state.store.named? gameType name with
  | none =>
    rw [named] at reply
    exact perform_of_unchanged reply
  | some target =>
    cases failure with
    | none =>
      rw [named] at reply
      exact perform_of_unchanged reply
    | some failure =>
      rw [named] at reply
      exact perform_of_unchanged reply

theorem serviceable : Serviceable state where
  usable := usable
  activated row member := by
    obtain ⟨c, readable, -⟩ := usable row member
    have read : row.read = .ok ⟨row.toHeading, c⟩ := ok_of_widen (readRow_ok readable)
    have marked : readRow (row.withActive true) = .ok ⟨(row.withActive true).toHeading, c⟩ := readRow_ok readable
    refine ⟨_, read, ?_, fun failure => ?_⟩
    · rw [perform_setActive h usable, named?_of_mem h.toOrderly member]
      exact congrArg (Except.map Result.version) marked
    · rw [perform_setActive h usable, named?_of_mem h.toOrderly member]
  unknown failure gameType name unknown := by
    rw [perform_setActive h usable]
    cases found : state.store.named? gameType name with
    | none => rfl
    | some row =>
      obtain ⟨member, game, named⟩ := of_named? found
      exact absurd named (unknown row member game)
  active failure gameType := by
    rcases active_cases h.toOrderly gameType with ⟨row, member, version, read, -, found⟩ | ⟨-, missing⟩
    · exact .inl ⟨row, member, version, read, congrArg (Except.map Result.version) found⟩
    · exact .inr (congrArg (Except.map Result.version) missing)
  listed failure gameType := by
    obtain ⟨versions, read, -⟩ := readRows_ok fun row member =>
      h.readable row (List.mem_of_mem_filter (List.mem_reverse.1 member))
    exact ⟨versions, congrArg (Except.map Result.versions) read⟩
  compared failure gameType ids testData := by
    rcases compareVersions_outcome h.toOrderly gameType ids testData with
      ⟨comparison, compared⟩ | ⟨e, reason, refused⟩
    · exact .inl ⟨comparison, congrArg (Except.map Result.comparison) compared⟩
    · exact .inr ⟨e, reason, congrArg (Except.map Result.comparison) refused⟩
  submitted failure gameType userId raw := by
    rcases submit_outcome h.toOrderly usable (state.conditions failure) gameType userId raw with
      ⟨submission, recorded⟩ | ⟨e, reason, refused⟩
    · exact .inl ⟨submission, congrArg (Except.map Result.submission) recorded⟩
    · exact .inr ⟨e, reason, congrArg (Except.map Result.submission) refused⟩

end Performed

/-- Whatever operations are performed one after another on an empty store, what was stored stays usable. -/
theorem stored_versions_stay_usable (calls : List Call) : Serviceable (State.initial.run calls) :=
  serviceable (Represents.initial.run calls) (usable_run calls)

end GameScoring.Service
