import GameScoring.Proofs.Scoring.Isolation
import GameScoring.Proofs.Service.Usability

/-!
# Versions that are asked for by their ids

Versions are asked for in some order, more than once, or under ids that nothing is stored under. They are found in the
order in which they are asked for, although the storage returns rows in any order. A comparison names what is missing
or what is of another game, and otherwise keeps versions, results and differences together.
-/
namespace GameScoring.Service
open Scoring Store

/-! ## States that are reached -/

/-- A state is reached by operations of the service and by changes of its store. A checked configuration can be saved
in the store although its formulas do not parse. What records sessions or telemetry changes no version. -/
inductive Reachable : State → Prop
  | initial : Reachable .initial
  | performed {state : State} (h : Reachable state) (failure : Option CommitFailure) (operation : Operation) :
      Reachable (state.perform failure operation).1
  | saved {state : State} {failure : Option CommitFailure} {c : Configuration} {note : Note} {store : Store} {row : Row}
      (h : Reachable state) (checked : c.Checked)
      (saved : state.store.save failure (idText (state.drawn + 1)) c note = (store, .ok row)) :
      Reachable (state.withStore store 1)
  | activated {state : State} {failure : Option CommitFailure} {gameType name : String} {store : Store} {row : Row}
      (h : Reachable state) (marked : state.store.setActive failure gameType name = (store, .ok row)) :
      Reachable (state.withStore store 0)
  | recorded {state : State} {store : Store} (h : Reachable state) (rows : store.rows = state.store.rows)
      (drawn : Nat) : Reachable (state.withStore store drawn)

theorem Reachable.represents {state : State} (h : Reachable state) : ∃ roster, Represents state roster := by
  induction h with
  | initial => exact ⟨_, .initial⟩
  | performed _ failure operation ih =>
    obtain ⟨roster, represents⟩ := ih
    exact ⟨_, represents.perform failure operation⟩
  | @saved state failure c note store row _ checked saved ih =>
    obtain ⟨roster, represents⟩ := ih
    rw [save_eq] at saved
    split at saved
    next => cases saved
    next => cases saved
    next => cases saved
    next kept _ =>
      cases saved
      exact ⟨_, represents.effect (.saved c kept checked rfl rfl)⟩
  | @activated state failure gameType name store row _ marked ih =>
    obtain ⟨roster, represents⟩ := ih
    rw [Store.setActive_eq] at marked
    split at marked
    next => cases marked
    next => cases marked
    next target named =>
      cases marked
      exact ⟨_, represents.effect (.activated gameType name target named rfl rfl)⟩
  | recorded _ rows drawn ih =>
    obtain ⟨roster, represents⟩ := ih
    exact ⟨roster, represents.of_rows_eq rows (Nat.le_add_right ..)⟩

/-! ## Known ids -/

/-- Whether something is stored under an id. -/
def isKnown (store : Store) (id : String) : Bool := store.rows.any (·.id == id)

/-- The version that is stored under an id, of whatever game it is. -/
def StoredUnder (store : Store) (id : String) (version : Version) : Prop := StoredAs store version.gameType id version

/-- Rows that were found in any order, put in the order of the ids. -/
def reassembled (found : List Row) (ids : List String) : List Row :=
  ids.filterMap (Table.ofList (found.map fun row => (row.id, row))).get?

theorem isSome_row? (store : Store) (id : String) : (store.row? id).isSome = isKnown store id := by
  rw [isKnown, row?, List.isSome_find?]

theorem of_row? {store : Store} {id : String} {row : Row} (found : store.row? id = some row) :
    row ∈ store.rows ∧ row.id = id := by
  have same := List.find?_some found
  exact ⟨List.mem_of_find?_eq_some found, beq_iff_eq.1 same⟩

section Known
variable {store : Store} {drawn : Nat} {saved : String → Nat} (orderly : Orderly drawn saved store.rows)
include orderly

/-- Whatever the order in which the rows of ids are found, they are put in the order of the ids. -/
theorem reassembled_eq {ids : List String} {found : List Row}
    (selected : found.Perm (store.rows.filter fun row => ids.contains row.id)) :
    reassembled found ids = store.rowsWith ids := by
  have distinct : (found.map (·.id)).Nodup := by
    rw [(selected.map _).nodup_iff]
    exact orderly.distinct.sublist (List.filter_sublist.map _)
  have listed : (Table.ofList (found.map fun row => (row.id, row))).entries = found.map fun row => (row.id, row) :=
    Table.entries_ofList (by rwa [List.map_map])
  refine List.filterMap_congr fun id asked => ?_
  cases chosen : store.row? id with
  | some row =>
    obtain ⟨stored, rfl⟩ := of_row? chosen
    apply Table.get?_of_mem
    rw [listed]
    have asked : (ids.contains row.id) = true := List.contains_iff_mem.2 asked
    exact List.mem_map.2 ⟨row, selected.mem_iff.2 (List.mem_filter.2 ⟨stored, asked⟩), rfl⟩
  | none =>
    cases other : (Table.ofList (found.map fun row => (row.id, row))).get? id with
    | none => rfl
    | some row =>
      have entered := Table.mem_of_get? other
      rw [listed] at entered
      obtain ⟨row, member, ⟨⟩⟩ := List.mem_map.1 entered
      have stored := (List.mem_filter.1 (selected.mem_iff.1 member)).1
      exact absurd (beq_self_eq_true row.id) (List.find?_eq_none.1 chosen row stored)

/-- The versions of the ids that are known are read, in the order of the ids. -/
theorem readRows_rowsWith (ids : List String) : ∃ versions, readRows (store.rowsWith ids) = .ok versions ∧
    List.Forall₂ (StoredUnder store) (ids.filter (isKnown store)) versions := by
  induction ids with
  | nil => exact ⟨[], rfl, .nil⟩
  | cons id rest ih =>
    obtain ⟨versions, read, kept⟩ := ih
    cases found : store.row? id with
    | none =>
      have unknown : ¬ isKnown store id = true := by simp [← isSome_row?, found]
      refine ⟨versions, ?_, ?_⟩
      · rwa [rowsWith, List.filterMap_cons_none found]
      · rwa [List.filter_cons_of_neg unknown]
    | some row =>
      obtain ⟨stored, rfl⟩ := of_row? found
      obtain ⟨c, readable⟩ := orderly.readable row stored
      have first : readRow row = .ok ⟨row.toHeading, c⟩ := readRow_ok readable
      have present : isKnown store row.id = true := by rw [← isSome_row?, found]; rfl
      refine ⟨⟨row.toHeading, c⟩ :: versions, ?_, ?_⟩
      · rw [rowsWith, List.filterMap_cons_some found]
        exact readRows_cons first read
      · rw [List.filter_cons_of_pos present]
        exact .cons ⟨row, stored, rfl, rfl, ok_of_widen first⟩ kept

end Known

/-! ## Versions to compare -/

/-- What becomes of the ids of a comparison: they are too few, or some are unknown, or the first of another game is
named, or else their versions are found in order. -/
inductive Requested (store : Store) (gameType : String) (ids : List String) : Answer (List Version) → Prop
  | tooFew (few : ids.length < 2) : Requested store gameType ids (refuse .tooFewVersions)
  | unknown (many : 2 ≤ ids.length) (missing : ∃ id ∈ ids, isKnown store id = false) :
      Requested store gameType ids (refuse (.unknownVersions (ids.filter fun id => !isKnown store id)))
  | foreign {before after : List String} {id : String} {version : Version} (many : 2 ≤ ids.length)
      (known : ∀ id ∈ ids, isKnown store id = true) (split : ids = before ++ id :: after)
      (home : ∀ earlier ∈ before, ∃ version, StoredAs store gameType earlier version)
      (stored : StoredUnder store id version) (foreign : version.gameType ≠ gameType) :
      Requested store gameType ids (refuse (.foreignVersion version.name version.gameType gameType))
  | found {versions : List Version} (many : 2 ≤ ids.length)
      (stored : List.Forall₂ (StoredAs store gameType) ids versions) : Requested store gameType ids (.ok versions)

theorem split_of_find? {α β : Type} {R : α → β → Prop} {p : β → Bool} {as : List α} {bs : List β} {b : β}
    (h : List.Forall₂ R as bs) (found : bs.find? p = some b) :
    ∃ before a after, as = before ++ a :: after ∧ R a b ∧ ∀ x ∈ before, ∃ y, R x y ∧ p y = false := by
  induction h with
  | nil => cases found
  | @cons x y xs ys first others ih =>
    cases chosen : p y with
    | true =>
      rw [List.find?_cons_of_pos chosen, Option.some_inj] at found
      subst found
      exact ⟨[], x, xs, rfl, first, by simp⟩
    | false =>
      rw [List.find?_cons_of_neg (by rw [chosen]; decide)] at found
      obtain ⟨before, a, after, rfl, related, earlier⟩ := ih found
      exact ⟨x :: before, a, after, rfl, related, List.forall_mem_cons.2 ⟨⟨y, first, chosen⟩, earlier⟩⟩

section Comparable
variable {store : Store} {drawn : Nat} {saved : String → Nat} (orderly : Orderly drawn saved store.rows)
include orderly

theorem comparable_requested (gameType : String) (ids : List String) :
    Requested store gameType ids (comparable store gameType ids) := by
  by_cases few : ids.length < 2
  · rw [comparable, if_pos (show ids.length < minCompared from few)]
    exact .tooFew few
  have many : ¬ ids.length < minCompared := few
  rw [comparable, if_neg many]
  by_cases missing : ∃ id ∈ ids, isKnown store id = false
  · obtain ⟨_, -, -, requested⟩ := requestedVersions_cases orderly ids
    have fewer : (store.rowsWith ids).length < ids.length := by
      obtain ⟨id, asked, unknown⟩ := missing
      rw [← isSome_row?, Option.isSome_eq_false_iff, Option.isNone_iff_eq_none] at unknown
      exact List.length_filterMap_lt_length_iff_exists.2 ⟨id, asked, unknown⟩
    have listed : (ids.filter fun id => (store.row? id).isNone) = ids.filter fun id => !isKnown store id :=
      List.filter_congr fun id _ => by rw [← isSome_row?, Option.not_isSome]
    rw [requested, if_pos fewer, listed]
    exact .unknown (not_lt.1 few) missing
  · simp only [not_exists, not_and, Bool.not_eq_false] at missing
    obtain ⟨versions, read, stored⟩ := readRows_rowsWith orderly ids
    rw [List.filter_eq_self.2 missing] at stored
    have requested : requestedVersions store ids = .ok versions := by
      rw [requestedVersions, read]
      exact if_neg (by rw [stored.length_eq]; omega)
    rw [requested]
    dsimp only [bind, Except.bind, pure, Except.pure]
    cases found : versions.find? fun version => version.gameType != gameType with
    | none =>
      have home : ∀ version ∈ versions, version.gameType = gameType := by
        simpa using List.find?_eq_none.1 found
      have stored : List.Forall₂ (StoredAs store gameType) ids versions := by
        refine ((List.forall₂_and_left ..).2 ⟨home, stored.flip⟩).flip.imp ?_
        rintro id version ⟨rfl, stored⟩
        exact stored
      exact .found (not_lt.1 few) stored
    | some version =>
      obtain ⟨before, id, after, split, stored, earlier⟩ := split_of_find? stored found
      have foreign := List.find?_some found
      refine .foreign (not_lt.1 few) missing split (fun other asked => ?_) stored (bne_iff_ne.1 foreign)
      obtain ⟨shown, stored, home⟩ := earlier other asked
      obtain rfl : shown.gameType = gameType := by simpa using home
      exact ⟨shown, stored⟩

end Comparable

/-! ## Comparisons -/

/-- Some id is that of a version of another game. -/
def AnyForeign (store : Store) (gameType : String) (ids : List String) : Prop :=
  ∃ id ∈ ids, ∃ version, StoredUnder store id version ∧ version.gameType ≠ gameType

/-- There are variables that no environment can be made from. -/
def RefusesVariables (testData : Option Value) : Prop :=
  ∃ values e, testData = some values ∧ Environment.ofValue values = refuse e

/-- The kind of report of a refusal. Results and faults have none. -/
def refusedKind? {α : Type} : Answer α → Option Report.Kind
  | .error (.refused e) => some e.report.kind
  | _ => none

/-- A version is compared with nothing, or with its own result in an environment. -/
inductive ScoredIn : Option Environment → ComparedVersion → Prop
  | nothing {version : Version} : ScoredIn none ⟨version, none⟩
  | scored {environment : Environment} {version : Version} {result : Except ScoringError Scores}
      (gets : Gets version.configuration environment result) : ScoredIn (some environment) ⟨version, some result⟩

/-- The entry of an id in a comparison: the version that is stored under it, and its result. -/
structure EntryFor (store : Store) (gameType : String) (environment : Option Environment) (id : String)
    (entry : ComparedVersion) : Prop where
  stored : StoredAs store gameType id entry.version
  scored : ScoredIn environment entry

/-- A version under its name, as it is compared. -/
def underName (version : Version) : Labelled := (version.name, version.configuration)

/-- A difference between two entries: it is labelled with the names of their versions, and it is the one that the two
have when they are compared alone. -/
structure DifferenceFor (testData : Option Value) (environment : Option Environment) (before after : ComparedVersion)
    (d : Difference) : Prop where
  fromLabel : d.fromLabel = before.version.name
  toLabel : d.toLabel = after.version.name
  own : DifferenceOf testData environment (underName before.version) (underName after.version) d

/-- A comparison has one entry for each id and one difference for each two neighbours, in order. -/
structure ComparedFor (store : Store) (gameType : String) (ids : List String) (testData : Option Value)
    (environment : Option Environment) (comparison : VersionComparison) : Prop where
  entries : List.Forall₂ (EntryFor store gameType environment) ids comparison.entries
  differences : List.Forall₂ (fun pair d => DifferenceFor testData environment pair.1 pair.2 d)
    (comparison.entries.zip comparison.entries.tail) comparison.differences
  testData : shownTestData testData = .ok comparison.testData

/-- What a comparison answers: why its ids cannot be compared, why its variables cannot be read or shown, or else what
is compared. -/
inductive Answers (store : Store) (gameType : String) (ids : List String) (testData : Option Value) :
    Answer VersionComparison → Prop
  | refused {e : Failure Refusal} (h : Requested store gameType ids (.error e)) :
      Answers store gameType ids testData (.error e)
  | unread {versions : List Version} {values : Value} {e : Failure EnvironmentError}
      (found : Requested store gameType ids (.ok versions)) (given : testData = some values)
      (unread : Environment.ofValue values = .error e) :
      Answers store gameType ids testData (.error (e.map fun e => .scoring (.environment e)))
  | unshown {versions : List Version} {environment : Option Environment} {f : Fault}
      (found : Requested store gameType ids (.ok versions)) (reads : Reads testData environment)
      (unshown : shownTestData testData = .error (.fault f)) : Answers store gameType ids testData (.error (.fault f))
  | compared {versions : List Version} {environment : Option Environment} {comparison : VersionComparison}
      (found : Requested store gameType ids (.ok versions)) (reads : Reads testData environment)
      (compared : ComparedFor store gameType ids testData environment comparison) :
      Answers store gameType ids testData (.ok comparison)

theorem labelled_versions (versions : List Version) :
    labelled (versions.map (·.configuration)) (some (versions.map fun version => Value.text version.name)) =
      versions.map underName := by
  rw [labelled, shownLabels, List.map_map]
  exact List.zip_map'

theorem forall₂_zip_right {α β γ : Type} {R : α → β → Prop} {S : β → γ → Prop} {as : List α} {bs : List β} {cs : List γ}
    (h : List.Forall₂ R as bs) (h' : List.Forall₂ S bs cs) :
    List.Forall₂ (fun a pair => R a pair.1 ∧ S pair.1 pair.2) as (bs.zip cs) := by
  induction h generalizing cs with
  | nil => exact .nil
  | cons first _ ih =>
    cases h' with
    | cons first' others' => exact .cons ⟨first, first'⟩ (ih others')

section Compared
variable {store : Store} {gameType : String} {ids : List String} {versions : List Version}
  {environment : Option Environment} {outcomes : Option (List Outcome)}

theorem entries_comparedVersions (stored : List.Forall₂ (StoredAs store gameType) ids versions)
    (scored : OutcomesOf environment (versions.map underName) outcomes) :
    List.Forall₂ (EntryFor store gameType environment) ids (comparedVersions versions outcomes) := by
  cases scored with
  | nothing =>
    rw [comparedVersions, List.forall₂_map_right_iff]
    exact stored.imp fun id version stored => ⟨stored, .nothing⟩
  | each results =>
    rw [List.forall₂_map_left_iff] at results
    rw [comparedVersions, List.forall₂_map_right_iff]
    exact (forall₂_zip_right stored results).imp fun id pair both => ⟨both.1, .scored both.2.gets⟩

theorem map_version_comparedVersions (scored : OutcomesOf environment (versions.map underName) outcomes) :
    (comparedVersions versions outcomes).map (·.version) = versions := by
  cases scored with
  | nothing =>
    rw [comparedVersions, List.map_map]
    exact List.map_id _
  | each results =>
    rw [comparedVersions, List.map_map]
    exact List.map_fst_zip (by rw [← results.length_eq, List.length_map])

theorem labels_of_difference {before after : Entry} {d : Difference} (between : difference before after = .ok d) :
    d.fromLabel = before.1.1 ∧ d.toLabel = after.1.1 := by
  obtain ⟨weights, -, between⟩ := ok_of_bind between
  obtain ⟨delta, -, between⟩ := ok_of_bind between
  cases between
  exact ⟨rfl, rfl⟩

theorem minCompared_le (many : 2 ≤ ids.length) (stored : List.Forall₂ (StoredAs store gameType) ids versions) :
    minCompared ≤ (versions.map (·.configuration)).length := by
  rw [List.length_map, ← stored.length_eq]
  exact many

/-- Versions that are found are compared, if their variables can be read. -/
theorem compare_found {testData : Option Value} (many : 2 ≤ ids.length)
    (stored : List.Forall₂ (StoredAs store gameType) ids versions) (reads : Reads testData environment) :
    ∃ outcomes found, (compare (versions.map (·.configuration)) testData
        (some (versions.map fun version => Value.text version.name))).outcome = .ok ⟨outcomes, found⟩ ∧
      ∀ shown, shownTestData testData = .ok shown →
        ComparedFor store gameType ids testData environment ⟨comparedVersions versions outcomes, found, shown⟩ := by
  obtain ⟨outcomes, found, compared, scored, differ⟩ :=
    compare_eq (minCompared_le many stored) (checked_of_stored stored) (labels_versions versions) reads
  rw [labelled_versions] at scored differ
  have checked : ∀ l ∈ versions.map underName, l.2.Checked := by
    intro l member
    obtain ⟨version, listed, rfl⟩ := List.mem_map.1 member
    exact checked_of_stored stored _ (List.mem_map.2 ⟨version, listed, rfl⟩)
  have fit := fit_of_outcomes checked scored
  have neighbours := forall₂_neighbours
    (R := fun before after d => (d.fromLabel = before.1 ∧ d.toLabel = after.1) ∧
      DifferenceOf testData environment before after d) scored differ fun before hb after ha d between =>
        ⟨labels_of_difference between, differenceOf_entries (scored.entries before hb) (scored.entries after ha) between
          reads (fit before hb).checked (fit after ha).checked⟩
  refine ⟨outcomes, found, by rw [compared], fun shown shows => ⟨entries_comparedVersions stored scored, ?_, shows⟩⟩
  rw [← map_version_comparedVersions scored, List.map_map, ← List.map_tail, List.zip_map,
    List.forall₂_map_left_iff] at neighbours
  exact neighbours.imp fun pair d both => ⟨both.1.1, both.1.2, both.2⟩

end Compared

theorem reads_or_unread (testData : Option Value) : (∃ environment, Reads testData environment) ∨
    ∃ values e, testData = some values ∧ Environment.ofValue values = .error e := by
  cases testData with
  | none => exact .inl ⟨none, .nothing⟩
  | some values =>
    cases read : Environment.ofValue values with
    | error e => exact .inr ⟨values, e, rfl, read⟩
    | ok environment => exact .inl ⟨some environment, .values read⟩

/-- Variables that cannot be shown are a fault. -/
theorem exists_fault_of_shownTestData {testData : Option Value} {e : Failure Refusal}
    (h : shownTestData testData = .error e) : ∃ f, e = .fault f := by
  cases testData with
  | none => cases h
  | some values =>
    cases shown : scoredEntries values with
    | ok entries =>
      rw [shownTestData, shown] at h
      cases h
    | error other =>
      rw [shownTestData, shown] at h
      cases h
      unfold scoredEntries at shown
      split at shown <;> cases shown
      exact ⟨_, rfl⟩

section Answers
variable {store : Store} {drawn : Nat} {saved : String → Nat} (orderly : Orderly drawn saved store.rows)
  {gameType : String} {ids : List String} {testData : Option Value}
include orderly

theorem compareVersions_answers (gameType : String) (ids : List String) (testData : Option Value) :
    Answers store gameType ids testData (compareVersions store gameType ids testData).outcome := by
  have requested := comparable_requested orderly gameType ids
  cases asked : comparable store gameType ids with
  | error e =>
    rw [asked] at requested
    rw [compareVersions, asked]
    exact .refused requested
  | ok versions =>
    rw [asked] at requested
    have outcome : (compareVersions store gameType ids testData).outcome =
        widen .scoring (compare (versions.map (·.configuration)) testData
          (some (versions.map fun version => Value.text version.name))).outcome >>= fun comparison => do
            return ⟨comparedVersions versions comparison.outcomes, comparison.differences,
              ← shownTestData testData⟩ := by
      rw [compareVersions, asked]
      rfl
    rw [outcome]
    cases id requested with
    | found many stored =>
      rcases reads_or_unread testData with ⟨environment, reads⟩ | ⟨values, e, given, unread⟩
      · obtain ⟨outcomes, found, compared, holds⟩ := compare_found many stored reads
        rw [compared]
        cases shows : shownTestData testData with
        | ok shown => exact .compared requested reads (holds shown shows)
        | error e =>
          obtain ⟨f, rfl⟩ := exists_fault_of_shownTestData shows
          exact .unshown requested reads shows
      · subst given
        rw [compare_unread (minCompared_le many stored) (labels_versions versions) unread]
        have answer := Answers.unread requested rfl unread
        cases e <;> exact answer

/-- Where versions are found, all ids are known, and none of another game. -/
theorem home_of_found {versions : List Version} (found : Requested store gameType ids (.ok versions)) :
    2 ≤ ids.length ∧ (∀ id ∈ ids, isKnown store id = true) ∧
      ∀ id ∈ ids, ∀ version, StoredUnder store id version → version.gameType = gameType := by
  cases found with
  | found many stored =>
    have placed : ∀ id ∈ ids, ∃ row ∈ store.rows, row.id = id ∧ row.gameType = gameType := by
      intro id asked
      obtain ⟨version, -, row, member, named, home, -⟩ := exists_of_mem_right stored.flip asked
      exact ⟨row, member, named, home⟩
    refine ⟨many, fun id asked => ?_, fun id asked version stored => ?_⟩
    · obtain ⟨row, member, named, -⟩ := placed id asked
      exact List.any_eq_true.2 ⟨row, member, beq_iff_eq.2 named⟩
    · obtain ⟨row, member, named, home⟩ := placed id asked
      obtain ⟨other, member', named', home', -⟩ := stored
      rw [← home', orderly.eq_of_id member' member (named'.trans named.symm), home]

/-- A comparison is not found exactly if there are enough ids and some are unknown. -/
theorem Answers.notFound_iff {answer : Answer VersionComparison} (h : Answers store gameType ids testData answer) :
    refusedKind? answer = some .notFound ↔ 2 ≤ ids.length ∧ ∃ id ∈ ids, isKnown store id = false := by
  have of_known (known : ∀ id ∈ ids, isKnown store id = true) :
      ¬ (2 ≤ ids.length ∧ ∃ id ∈ ids, isKnown store id = false) := by
    rintro ⟨-, id, asked, unknown⟩
    rw [known id asked] at unknown
    cases unknown
  cases h with
  | refused h =>
    cases h with
    | tooFew few => exact iff_of_false (by rintro ⟨⟩) fun many => absurd few (not_lt.2 many.1)
    | unknown many missing => exact iff_of_true rfl ⟨many, missing⟩
    | foreign _ known _ _ _ _ => exact iff_of_false (by rintro ⟨⟩) (of_known known)
  | @unread _ _ e found _ _ =>
    refine iff_of_false ?_ (of_known (home_of_found orderly found).2.1)
    rcases e with (_ | _ | _) | _ <;> rintro ⟨⟩
  | unshown found _ _ => exact iff_of_false (by rintro ⟨⟩) (of_known (home_of_found orderly found).2.1)
  | compared found _ _ => exact iff_of_false (by rintro ⟨⟩) (of_known (home_of_found orderly found).2.1)

/-- A comparison is refused as input exactly if there are too few ids, or all are known and one is of another game or
the variables are refused. -/
theorem Answers.input_iff {answer : Answer VersionComparison} (h : Answers store gameType ids testData answer) :
    refusedKind? answer = some .input ↔ ids.length < 2 ∨
      (∀ id ∈ ids, isKnown store id = true) ∧ (AnyForeign store gameType ids ∨ RefusesVariables testData) := by
  -- Where versions are found, only the variables are left to be refused.
  have of_found {versions : List Version} (found : Requested store gameType ids (.ok versions)) :
      (ids.length < 2 ∨
        (∀ id ∈ ids, isKnown store id = true) ∧ (AnyForeign store gameType ids ∨ RefusesVariables testData)) ↔
        RefusesVariables testData := by
    obtain ⟨many, known, home⟩ := home_of_found orderly found
    constructor
    · rintro (few | ⟨-, ⟨id, asked, version, stored, foreign⟩ | unread⟩)
      · omega
      · exact absurd (home id asked version stored) foreign
      · exact unread
    · exact fun unread => .inr ⟨known, .inr unread⟩
  have readable {environment : Option Environment} (reads : Reads testData environment) :
      ¬ RefusesVariables testData := by
    rintro ⟨values, e, rfl, unread⟩
    cases reads with
    | values read => cases read.symm.trans unread
  cases h with
  | refused h =>
    cases h with
    | tooFew few => exact iff_of_true rfl (.inl few)
    | unknown many missing =>
      refine iff_of_false (by rintro ⟨⟩) ?_
      rintro (few | ⟨known, -⟩)
      · omega
      · obtain ⟨id, asked, unknown⟩ := missing
        rw [known id asked] at unknown
        cases unknown
    | foreign _ known split _ stored foreign =>
      exact iff_of_true rfl (.inr ⟨known, .inl ⟨_, by simp [split], _, stored, foreign⟩⟩)
  | @unread _ values e found given unread =>
    rw [of_found found]
    cases e with
    | refused e => exact iff_of_true (by cases e <;> rfl) ⟨values, e, given, unread⟩
    | fault f =>
      refine iff_of_false (by rintro ⟨⟩) ?_
      rintro ⟨other, e, same, refused⟩
      cases given.symm.trans same
      cases unread.symm.trans refused
  | unshown found reads _ =>
    rw [of_found found]
    exact iff_of_false (by rintro ⟨⟩) (readable reads)
  | compared found reads _ =>
    rw [of_found found]
    exact iff_of_false (by rintro ⟨⟩) (readable reads)

end Answers

/-- Whatever is asked for in a state that is reached, the versions of known ids are found in order, however the storage
returns their rows. A comparison answers for its ids first, then for its variables, and keeps entries and differences
in order. -/
theorem requests_answered_in_order {state : State} (h : Reachable state) :
    (∀ ids, (∃ versions, readRows (state.store.rowsWith ids) = .ok versions ∧
        List.Forall₂ (StoredUnder state.store) (ids.filter (isKnown state.store)) versions) ∧
      ∀ found : List Row, found.Perm (state.store.rows.filter fun row => ids.contains row.id) →
        reassembled found ids = state.store.rowsWith ids) ∧
    ∀ gameType ids testData,
      Answers state.store gameType ids testData (compareVersions state.store gameType ids testData).outcome ∧
      (refusedKind? (compareVersions state.store gameType ids testData).outcome = some .notFound ↔
        2 ≤ ids.length ∧ ∃ id ∈ ids, isKnown state.store id = false) ∧
      (refusedKind? (compareVersions state.store gameType ids testData).outcome = some .input ↔
        ids.length < 2 ∨ (∀ id ∈ ids, isKnown state.store id = true) ∧
          (AnyForeign state.store gameType ids ∨ RefusesVariables testData)) := by
  obtain ⟨roster, represents⟩ := h.represents
  have orderly := represents.toOrderly
  refine ⟨fun ids => ⟨readRows_rowsWith orderly ids, fun _ => reassembled_eq orderly⟩, fun gameType ids testData => ?_⟩
  have answers := compareVersions_answers orderly gameType ids testData
  exact ⟨answers, answers.notFound_iff orderly, answers.input_iff orderly⟩

theorem Reachable.run {state : State} (h : Reachable state) (calls : List Call) : Reachable (state.run calls) := by
  induction calls generalizing state with
  | nil => exact h
  | cons call calls ih => exact ih (h.performed call.1 call.2)

/-- Two versions of a game are saved, and neither uses a variable. -/
def constantCalls : List Call :=
  ["2", "3"].map fun formula => (none, .save ⟨.text "focus_task", .record [("focus", .text formula)],
    .record [("focus", .float 0.5)], .null, ⟨.null, .null, .bool true⟩⟩)

/-- The versions are found in the order in which they are asked for, and an unknown id is not found. -/
theorem constants_requested_in_order :
    let store := (State.initial.run constantCalls).store
    (∃ versions, readRows (store.rowsWith ["uuid!2", "uuid!9", "uuid!1", "uuid!2"]) = .ok versions ∧
      List.Forall₂ (StoredUnder store) ["uuid!2", "uuid!1", "uuid!2"] versions) ∧
    refusedKind? (compareVersions store "focus_task" ["uuid!2", "uuid!9"] none).outcome = some .notFound := by
  intro store
  have ordered := requests_answered_in_order (Reachable.initial.run constantCalls)
  have known : ["uuid!2", "uuid!9", "uuid!1", "uuid!2"].filter (isKnown store) = ["uuid!2", "uuid!1", "uuid!2"] := by
    decide +kernel
  have unknown : isKnown store "uuid!9" = false := by decide +kernel
  refine ⟨?_, (ordered.2 "focus_task" _ none).2.1.2 ⟨le_rfl, "uuid!9", by simp, unknown⟩⟩
  rw [← known]
  exact (ordered.1 _).1

/-- A level that is no number. -/
def wordedLevel : Value := .record [("level", .text "high")]

/-- Two known versions of one game are not compared, because a variable that they do not use is no number. -/
theorem worded_level_is_refused :
    Reachable (State.initial.run constantCalls) ∧
      (∀ id ∈ ["uuid!1", "uuid!2"], ∃ version,
        StoredAs (State.initial.run constantCalls).store "focus_task" id version) ∧
      refusedKind? (compareVersions (State.initial.run constantCalls).store "focus_task" ["uuid!1", "uuid!2"]
        (some wordedLevel)).outcome = some .input := by
  have reached := Reachable.initial.run constantCalls
  obtain ⟨roster, represents⟩ := reached.represents
  refine ⟨reached, fun id asked => ?_, by decide +kernel⟩
  have found : (comparable (State.initial.run constantCalls).store "focus_task" ["uuid!1", "uuid!2"]).isOk = true := by
    decide +kernel
  have requested := comparable_requested represents.toOrderly "focus_task" ["uuid!1", "uuid!2"]
  cases answer : comparable (State.initial.run constantCalls).store "focus_task" ["uuid!1", "uuid!2"] with
  | error e =>
    rw [answer] at found
    cases found
  | ok versions =>
    rw [answer] at requested
    cases requested with
    | found _ stored =>
      obtain ⟨version, -, stored⟩ := exists_of_mem_right stored.flip asked
      exact ⟨version, stored⟩

end GameScoring.Service
