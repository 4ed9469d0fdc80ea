import Mathlib.Tactic.Ring
import RagProject.Evaluation.CorpusReadiness

/-! A run on an isolated dataset is allowed on the strength of a preflight in which every fact and
every answerable case was found. Later calls renew it, each within five minutes of the one before. -/
namespace RagProject.Evaluation
open Python Jobs Documents Context Interleaving

section Counting
universe u v w
variable {T : Type u} {U : Type v} {X : Type w} {step : T → X → T} {other : U → X → U}

/-- Two loops over one list, of which the first never counts more. When their counts agree in the
end, then they agreed in every turn. -/
theorem counted_alike (low : T → Nat) (high : U → Nat) (a b : X → Nat)
    (lows : ∀ t x, low (step t x) = low t + a x) (highs : ∀ u x, high (other u x) = high u + b x)
    (below : ∀ x, a x ≤ b x) {xs : List X} {t : T} {u : U} (start : low t ≤ high u)
    (agree : low (xs.foldl step t) = high (xs.foldl other u)) :
    low t = high u ∧ ∀ x ∈ xs, a x = b x := by
  induction xs generalizing t u with
  | nil => exact ⟨agree, fun x none => absurd none List.not_mem_nil⟩
  | cons x xs ih =>
    have turn := below x
    have further : low (step t x) ≤ high (other u x) := by
      rw [lows, highs]
      omega
    obtain ⟨same, rest⟩ := ih further agree
    rw [lows, highs] at same
    refine ⟨by omega, fun y member => ?_⟩
    rcases List.mem_cons.mp member with rfl | later
    · omega
    · exact rest y later

theorem counted_length (xs : List X) (n : Nat) : xs.foldl (fun n _ => n + 1) n = n + xs.length := by
  induction xs generalizing n with
  | nil => rfl
  | cons x xs ih =>
    rw [List.foldl_cons, ih, List.length_cons]
    omega

theorem ages_add {first second third : Time} {n : Nat} (soon : first - second ≤ readinessCacheTtl)
    (age : second - third ≤ n * readinessCacheTtl) :
    first - third ≤ (n + 1 : Nat) * readinessCacheTtl := by
  have sum : first - third = (first - second) + (second - third) := by ring
  have more : ((n + 1 : Nat) : Int) * readinessCacheTtl = readinessCacheTtl + n * readinessCacheTtl := by
    push_cast
    ring
  rw [sum, more]
  exact add_le_add soon age

end Counting

section Tally
variable [ValueTexts] [CaseFold] (db : Db) (tally : SourceTally) (source : CorpusSource)

def readyShare : Nat := if (sourceStatus db source).1 = .ready then 1 else 0

def presentFacts : Nat :=
  if (sourceStatus db source).1 = .ready then
    source.facts.countP fun fact => normalizedContains (indexedText db source) (statementOf fact)
  else 0

theorem tally_counts : (tallySource db tally source).factCount = tally.factCount + source.facts.length ∧
    (tallySource db tally source).readyCount = tally.readyCount + readyShare db source ∧
    (tallySource db tally source).presentCount = tally.presentCount + presentFacts db source := by
  unfold tallySource readyShare presentFacts
  rcases sourceStatus db source with ⟨status, failureCode⟩
  cases status with
  | ready => exact ⟨rfl, rfl, rfl⟩
  | _ => exact ⟨rfl, rfl, rfl⟩

theorem readyShare_le : readyShare db source ≤ 1 := by
  unfold readyShare
  split <;> omega

theorem presentFacts_le : presentFacts db source ≤ source.facts.length := by
  unfold presentFacts
  split
  · exact List.countP_le_length
  · exact Nat.zero_le _

end Tally

section Indexed
variable [ValueTexts] [CaseFold]

/-- The recorded version is ready and active, with chunks whose text has every fact. -/
structure SourceIndexed (db : Db) (source : CorpusSource) : Prop where
  version : ∃ id v, source.documentVersionId = some id ∧ db.getVersionById id = some v ∧
    v.status = .ready ∧ v.isActive = true ∧ 0 < db.countChunks id
  facts : ∀ fact ∈ source.facts,
    normalizedContains (indexedText db source) (statementOf fact) = true

def Indexed (t : CorpusTables) : Prop :=
  t.sources ≠ [] ∧ ∀ source ∈ t.sources, SourceIndexed t.db source

theorem sourceStatus_ready {db : Db} {source : CorpusSource}
    (ready : (sourceStatus db source).1 = .ready) :
    ∃ id v, source.documentVersionId = some id ∧ db.getVersionById id = some v ∧
      v.status = .ready ∧ v.isActive = true ∧ 0 < db.countChunks id := by
  unfold sourceStatus at ready
  dsimp only at ready
  split at ready
  · rename_i active
    split at ready
    · rename_i chunks
      obtain ⟨v, found, usable⟩ := (Option.any_eq_true _ _).mp active
      obtain ⟨id, recorded, there⟩ := Option.bind_eq_some_iff.mp found
      obtain ⟨status, activeToo⟩ := Bool.and_eq_true_iff.mp usable
      refine ⟨id, v, recorded, there, by simpa using status, activeToo, ?_⟩
      unfold countChunksForVersion at chunks
      simpa only [recorded, there, Option.any_some, usable, if_true] using chunks
    · cases ready
  · split at ready
    · cases ready
    · split at ready
      · cases ready
      · dsimp only at ready
        split at ready <;> cases ready

theorem sourcesIndexed_indexed {t : CorpusTables} (indexed : sourcesIndexed t = true) : Indexed t := by
  unfold sourcesIndexed at indexed
  dsimp only at indexed
  obtain ⟨front, present⟩ := Bool.and_eq_true_iff.mp indexed
  obtain ⟨some_source, ready⟩ := Bool.and_eq_true_iff.mp front
  have counted : (tallySources t).readyCount = t.sources.foldl (fun n _ => n + 1) 0 := by
    rw [counted_length, Nat.zero_add]
    exact eq_of_beq ready
  have allReady := (counted_alike SourceTally.readyCount id (readyShare t.db) (fun _ => 1)
    (fun tally source => (tally_counts t.db tally source).2.1) (fun _ _ => rfl)
    (readyShare_le t.db) (Nat.le_refl 0) counted).2
  have allPresent := (counted_alike SourceTally.presentCount SourceTally.factCount
    (presentFacts t.db) (fun source => source.facts.length)
    (fun tally source => (tally_counts t.db tally source).2.2)
    (fun tally source => (tally_counts t.db tally source).1)
    (presentFacts_le t.db) (Nat.le_refl 0) (eq_of_beq present)).2
  refine ⟨by simpa using some_source, fun source member => ?_⟩
  have share := allReady source member
  unfold readyShare at share
  have status : (sourceStatus t.db source).1 = .ready := by
    by_contra other
    rw [if_neg other] at share
    cases share
  have facts := allPresent source member
  unfold presentFacts at facts
  rw [if_pos status] at facts
  exact ⟨sourceStatus_ready status, List.countP_eq_length.mp facts⟩

end Indexed

section Preflight
variable [ValueTexts] [CaseFold] (check : CorpusCheck)

/-- The documents of the sources that a check has found ready. -/
def CorpusCheck.documentIds : List (String × Nat) := (tallySources check.tables).sourceDocumentIds

/-- The search of a check returned documents of the dataset only, the wanted ones among them. -/
def CorpusCheck.Finds (items : Option (List (Option Nat))) (wanted : List Nat) : Prop :=
  ∃ found, items = some found ∧ (∀ item ∈ found, ∃ id ∈ allowedIdsOf check.documentIds, item = some id) ∧
    ∀ id ∈ wanted, some id ∈ found

/-- Every fact and every answerable case was searched for, and found. -/
structure CorpusCheck.Passed : Prop where
  facts : ∀ source ∈ check.tables.sources, ∀ fact ∈ source.facts, ∃ documentId,
    List.lookup source.sourceKey check.documentIds = some documentId ∧
      check.Finds (probeFact check.tables.dataset.evaluationDatasetId check.probe check.documentIds
        source fact) [documentId]
  cases : ∀ case ∈ check.tables.cases, case.active = true → case.answerable = true →
    expectedIdsOf check.documentIds case ≠ [] ∧
      check.Finds (probeCase check.tables.dataset.evaluationDatasetId check.probe check.documentIds
        case.question) (expectedIdsOf check.documentIds case)

variable {check}

theorem returnedIds_finds {items : Option (List (Option Nat))} {returned wanted : List Nat}
    (valid : returnedIds check.documentIds items = some returned)
    (inside : ∀ id ∈ wanted, id ∈ returned) : check.Finds items wanted := by
  obtain ⟨found, answered, validated⟩ := Option.bind_eq_some_iff.mp valid
  unfold validatedRetrievedDocumentIds at validated
  dsimp only at validated
  split at validated
  · cases validated
  rename_i sound
  cases validated
  rw [Bool.not_eq_true, Bool.or_eq_false_iff] at sound
  obtain ⟨named, allowed⟩ := sound
  refine ⟨found, answered, fun item member => ?_, fun id member => ?_⟩
  · have present := List.any_eq_false.mp named item member
    rcases item with _ | id
    · exact absurd rfl present
    · rw [Bool.not_eq_false'] at allowed
      have every := List.all_eq_true.mp allowed id
        (List.mem_filterMap.mpr ⟨some id, member, rfl⟩)
      exact ⟨id, of_decide_eq_true every, rfl⟩
  · obtain ⟨item, member, same⟩ := List.mem_filterMap.mp (inside id member)
    exact same ▸ member

theorem factRetrieved_finds {source : CorpusSource} {fact : Dict}
    (retrieved : factRetrieved check.tables.dataset.evaluationDatasetId check.probe check.documentIds
      source fact = true) : ∃ documentId,
    List.lookup source.sourceKey check.documentIds = some documentId ∧
      check.Finds (probeFact check.tables.dataset.evaluationDatasetId check.probe check.documentIds
        source fact) [documentId] := by
  unfold factRetrieved at retrieved
  split at retrieved
  · cases retrieved
  rename_i documentId known
  obtain ⟨_, answered⟩ := Bool.and_eq_true_iff.mp retrieved
  obtain ⟨returned, valid, inside⟩ := (Option.any_eq_true _ _).mp answered
  refine ⟨documentId, known, returnedIds_finds valid fun id member => ?_⟩
  cases List.mem_singleton.mp member
  exact of_decide_eq_true inside

theorem caseRetrieved_finds {expectation : String × List Nat}
    (retrieved : caseRetrieved check.tables.dataset.evaluationDatasetId check.probe check.documentIds
      expectation = true) : expectation.2 ≠ [] ∧
    check.Finds (probeCase check.tables.dataset.evaluationDatasetId check.probe check.documentIds
      expectation.1) expectation.2 := by
  unfold caseRetrieved at retrieved
  obtain ⟨expected, answered⟩ := Bool.and_eq_true_iff.mp retrieved
  obtain ⟨returned, valid, inside⟩ := (Option.any_eq_true _ _).mp answered
  refine ⟨by simpa using expected, returnedIds_finds valid fun id member => ?_⟩
  exact of_decide_eq_true (List.all_eq_true.mp inside id member)

theorem mem_expectations {t : CorpusTables} {case : CorpusCase} (member : case ∈ t.cases)
    (active : case.active = true) (answerable : case.answerable = true) :
    (case.question, expectedIdsOf (tallySources t).sourceDocumentIds case) ∈
      answerableExpectations t :=
  List.mem_map.mpr ⟨case, List.mem_filter.mpr ⟨member, by rw [active, answerable]; rfl⟩, rfl⟩

theorem preflight_passed
    (facts : (preflightOf check.probe check.tables).factRetrieved = (tallySources check.tables).factCount)
    (cases : (preflightOf check.probe check.tables).answerableRetrieved =
      (answerableExpectations check.tables).length) : check.Passed := by
  unfold preflightOf runRetrievalPreflight at facts cases
  split at facts
  · rename_i nothing
    rw [if_pos nothing] at cases
    have none_counted : check.tables.sources.foldl (fun (n : Nat) _ => n) 0 =
        (tallySources check.tables).factCount := (List.foldl_fixed _).trans facts
    have alike := (counted_alike id SourceTally.factCount (fun _ => 0)
      (fun source => source.facts.length) (fun _ _ => rfl)
      (fun tally source => (tally_counts check.tables.db tally source).1) (fun _ => Nat.zero_le _)
      (by exact Nat.le_refl 0) none_counted).2
    refine ⟨fun source member fact inside => ?_, fun case member active answerable => ?_⟩
    · rw [List.length_eq_zero_iff.mp (alike source member).symm] at inside
      cases inside
    · have there := mem_expectations member active answerable
      rw [List.length_eq_zero_iff.mp cases.symm] at there
      cases there
  · rename_i some_id
    rw [if_neg some_id] at cases
    have alike := (counted_alike id SourceTally.factCount
      (fun source : CorpusSource => source.facts.countP (factRetrieved
        check.tables.dataset.evaluationDatasetId check.probe check.documentIds source))
      (fun source => source.facts.length) (fun _ _ => rfl)
      (fun tally source => (tally_counts check.tables.db tally source).1)
      (fun _ => List.countP_le_length) (by exact Nat.le_refl 0) facts).2
    refine ⟨fun source member fact inside => ?_, fun case member active answerable => ?_⟩
    · exact factRetrieved_finds (List.countP_eq_length.mp (alike source member) fact inside)
    · exact caseRetrieved_finds (List.countP_eq_length.mp cases _
        (mem_expectations member active answerable))

/-- An allowed run has its sources indexed, and a preflight of its own or a fresh answer. -/
theorem allowed_cases (allowed : check.allowed = true) : Indexed check.tables ∧
    (readinessIsFresh check.now check.tables.dataset = true ∨ check.Passed) := by
  unfold CorpusCheck.allowed readiness at allowed
  dsimp only at allowed
  obtain ⟨front, cases⟩ := Bool.and_eq_true_iff.mp allowed
  obtain ⟨indexed, facts⟩ := Bool.and_eq_true_iff.mp front
  refine ⟨sourcesIndexed_indexed indexed, ?_⟩
  by_cases fresh : readinessIsFresh check.now check.tables.dataset = true
  · exact .inl fresh
  · unfold retrievedCounts at facts cases
    rw [if_pos indexed, if_neg fresh] at facts cases
    exact .inr (preflight_passed (eq_of_beq facts) (eq_of_beq cases))

theorem status_allowed (status : (readiness check.now check.probe check.tables).1.dataset.corpusStatus =
    .ready) : check.allowed = true := by
  unfold CorpusCheck.allowed
  unfold readiness at status ⊢
  dsimp only at status ⊢
  split at status
  · cases status
  split at status
  · assumption
  split at status <;> cases status

end Preflight

section History
variable [ValueTexts] [CaseFold]

/-- The newest event is an allowed check. It passed a preflight, or renewed the check just before it. -/
inductive Backed : List CorpusEvent → Prop where
  | passed {check : CorpusCheck} {older : List CorpusEvent} (allowed : check.allowed = true)
      (passed : check.Passed) : Backed (.checked check :: older)
  | renewed {check earlier : CorpusCheck} {older : List CorpusEvent} (allowed : check.allowed = true)
      (soon : check.now - earlier.now ≤ readinessCacheTtl)
      (backed : Backed (.checked earlier :: older)) :
      Backed (.checked check :: .checked earlier :: older)

/-- The check whose preflight stands behind the newest one. -/
theorem Backed.root {history : List CorpusEvent} (backed : Backed history) :
    ∃ check older, history = .checked check :: older ∧ ∃ renewals root before,
      history = renewals ++ .checked root :: before ∧
      (∀ event ∈ renewals, ∃ renewal : CorpusCheck, event = .checked renewal ∧
        renewal.allowed = true) ∧
      root.allowed = true ∧ root.Passed ∧
      check.now - root.now ≤ renewals.length * readinessCacheTtl := by
  induction backed with
  | @passed check older allowed passed =>
    refine ⟨check, older, rfl, [], check, older, rfl, fun _ none => absurd none List.not_mem_nil,
      allowed, passed, ?_⟩
    simp
  | @renewed check earlier older allowed soon backed ih =>
    obtain ⟨earlier', older', same, renewals, root, before, split, renewed, rootAllowed, passed, age⟩ :=
      ih
    cases same
    refine ⟨check, _, rfl, .checked check :: renewals, root, before, congrArg _ split,
      fun event member => ?_, rootAllowed, passed, ?_⟩
    · rcases List.mem_cons.mp member with rfl | later
      · exact ⟨check, rfl, allowed⟩
      · exact renewed event later
    · exact ages_add soon age

/-- Every allowed check of the history is backed, and a ready dataset was checked by the newest
event. -/
structure HistoryOk (s : CorpusSystem) : Prop where
  backed : ∀ newer check older, s.history = newer ++ .checked check :: older →
    check.allowed = true → Backed (.checked check :: older)
  ready : s.tables.dataset.corpusStatus = .ready → ∃ check older,
    s.history = .checked check :: older ∧ check.allowed = true ∧
      s.tables.dataset.readinessCheckedAt = some check.now

theorem fresh_backed {s : CorpusSystem} (ok : HistoryOk s) {check : CorpusCheck}
    (allowed : check.allowed = true)
    (fresh : readinessIsFresh check.now s.tables.dataset = true) :
    Backed (.checked check :: s.history) := by
  unfold readinessIsFresh at fresh
  obtain ⟨front, recent⟩ := Bool.and_eq_true_iff.mp fresh
  obtain ⟨status, _⟩ := Bool.and_eq_true_iff.mp front
  obtain ⟨earlier, older, newest, earlierAllowed, at_time⟩ := ok.ready (eq_of_beq status)
  rw [at_time] at recent
  rw [newest]
  exact .renewed allowed (of_decide_eq_true recent) (ok.backed [] earlier older newest earlierAllowed)

theorem step_historyOk {s t : CorpusSystem} {action : CorpusAction} (ok : HistoryOk s)
    (step : corpusStep s action = some t) : HistoryOk t := by
  cases action with
  | prepare =>
    simp only [corpusStep] at step
    split at step
    · cases step
    · cases step
      refine ⟨fun newer check older there allowed => ?_, fun impossible => by cases impossible⟩
      cases newer with
      | nil => cases there
      | cons event newer =>
        obtain ⟨_, rest⟩ := List.cons.inj there
        exact ok.backed newer check older rest allowed
  | change db sources cases =>
    cases step
    exact ⟨ok.backed, ok.ready⟩
  | readiness now probe =>
    cases step
    refine ⟨fun newer check older there allowed => ?_, fun status =>
      ⟨_, _, rfl, status_allowed status, rfl⟩⟩
    cases newer with
    | nil =>
      cases there
      rcases (allowed_cases allowed).2 with fresh | passed
      · exact fresh_backed ok allowed fresh
      · exact .passed allowed passed
    | cons event newer =>
      obtain ⟨_, rest⟩ := List.cons.inj there
      exact ok.backed newer check older rest allowed

/-- A run is allowed only with every source indexed, and after a preflight that found every fact and
every answerable case: its own, or one that an unbroken series of allowed calls has renewed since,
each at most five minutes after the call before it. -/
theorem run_allowed_backed {start s : CorpusSystem} {actions : List CorpusAction}
    (fresh : start.history = []) (unprepared : start.tables.dataset.corpusStatus ≠ .ready)
    (run : exec corpusStep start actions = some s) {newer older : List CorpusEvent}
    {check : CorpusCheck} (there : s.history = newer ++ .checked check :: older)
    (allowed : check.allowed = true) :
    Indexed check.tables ∧ ∃ renewals root before,
      .checked check :: older = renewals ++ .checked root :: before ∧
      (∀ event ∈ renewals, ∃ renewal : CorpusCheck, event = .checked renewal ∧
        renewal.allowed = true) ∧
      root.Passed ∧ check.now - root.now ≤ renewals.length * readinessCacheTtl := by
  have begins : HistoryOk start := by
    refine ⟨fun newer check older there => ?_, fun ready => absurd ready unprepared⟩
    rw [fresh] at there
    cases newer <;> cases there
  have ok : HistoryOk s :=
    (run_of_exec run).preserves (fun _ _ _ ok _ step => step_historyOk ok step) begins
  obtain ⟨_, _, same, renewals, root, before, split, renewed, _, passed, age⟩ :=
    (ok.backed newer check older there allowed).root
  cases same
  exact ⟨(allowed_cases allowed).1, renewals, root, before, split, renewed, passed, age⟩

end History
section Renewed
local instance teaFold : CaseFold := asciiCaseFold

/-- Texts only. -/
local instance teaTexts : ValueTexts := ⟨fun value => if let .str text := value then text else ""⟩

def teaVersion : DocumentVersion :=
  ⟨7, 3, 1, "hash", .ready, true, none, "tea.txt", "text/plain", 18, none, none, none, none, none,
    1, 0, 0⟩

def teaChunk : DocumentChunk :=
  ⟨9, 7, 0, "hash", "Tea is at four.", none, none, none, none, none, none, "text", 0⟩

def teaSource : CorpusSource where
  sourceKey := "tea"
  facts := [[("fact_id", .str "f1"), ("statement", .str "tea is at four")]]
  logicalDocumentId := some 3
  documentVersionId := some 7
  ingestJobId := none
  status := .preparing
  failureCode := none
  preparedAt := none
  updatedAt := 0

def teaCase : CorpusCase where
  question := "When is tea?"
  active := true
  metadataJson := some [("answerable", .bool true),
    ("expected_evidence", .list [.dict [("source_key", .str "tea")]])]
  expectedDocumentIds := none
  updatedAt := 0

def teaTables : CorpusTables where
  db := ⟨[⟨3, 1, "tea", .active, none, 0, 0⟩], [teaVersion], [teaChunk], [], 1, none, none, none⟩
  dataset := ⟨1, .preparing, none, none, none⟩
  sources := [teaSource]
  cases := [teaCase]

def minutes (n : Int) : Time := n * 60000000

/-- A search that returns every document, and one that is out of order. -/
def findsAll : Probe := fun _ allowedIds _ _ => some (allowedIds.map some)

def outOfOrder : Probe := fun _ _ _ _ => none

def firstTea : CorpusCheck := ⟨minutes 0, findsAll, teaTables⟩

def secondTea : CorpusCheck := ⟨minutes 4, outOfOrder, (readiness (minutes 0) findsAll teaTables).1⟩

def lastTea : CorpusCheck :=
  ⟨minutes 8, outOfOrder, (readiness (minutes 4) outOfOrder secondTea.tables).1⟩

/-- The last run is allowed eight minutes after the only preflight. -/
theorem last_tea_backed : Indexed lastTea.tables ∧
    ∃ (renewals : List CorpusEvent) (root : CorpusCheck) (before : List CorpusEvent),
    [.checked lastTea, .checked secondTea, .checked firstTea] = renewals ++ .checked root :: before ∧
      (∀ event ∈ renewals, ∃ renewal : CorpusCheck, event = .checked renewal ∧
        renewal.allowed = true) ∧
      root.Passed ∧ lastTea.now - root.now ≤ renewals.length * readinessCacheTtl := by
  have run : exec corpusStep ⟨teaTables, []⟩ [.readiness (minutes 0) findsAll,
      .readiness (minutes 4) outOfOrder, .readiness (minutes 8) outOfOrder] =
      some ⟨(readiness (minutes 8) outOfOrder lastTea.tables).1,
        [] ++ .checked lastTea :: [.checked secondTea, .checked firstTea]⟩ := rfl
  have unprepared : teaTables.dataset.corpusStatus ≠ .ready := by decide
  have allowed : lastTea.allowed = true := by decide +kernel
  exact run_allowed_backed rfl unprepared run rfl allowed

end Renewed
end RagProject.Evaluation
