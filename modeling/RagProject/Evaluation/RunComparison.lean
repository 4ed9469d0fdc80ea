import Mathlib.Data.String.Basic
import RagProject.Context.Texts
import RagProject.Lib.Number
import RagProject.Lib.Table

/-! The comparison of two evaluation runs case by case (services/evaluation_service.py): the items of
each run under keys of text, and what became of each key. -/
namespace RagProject.Evaluation
open Python Context

inductive EvaluationStatus where
  | queued | running | succeeded | failed | canceled
  deriving DecidableEq, Repr

structure EvaluationResult where
  metricName : String
  metricScore : Option Rat
  metricValue : Option Rat
  metricDetailJson : Option Value
  detailsJson : Option Value
  deriving DecidableEq

structure EvaluationRunItem where
  evaluationRunItemId : Nat
  evaluationCaseId : Option Nat
  caseKey : Option String
  strategyType : String
  status : EvaluationStatus
  metricSummaryJson : Option Value
  deriving DecidableEq

/-- The items of a run with the results of each of them. -/
structure ComparedRun where
  items : List EvaluationRunItem
  resultsByItem : Nat → List EvaluationResult

structure EvaluationCaseComparisonSource where
  evaluationRunItemId : Nat
  caseId : String
  questionHash : Option String
  caseSnapshotHash : Option String
  comparisonLabel : String
  status : EvaluationStatus
  metricValues : List (String × Rat)
  deriving DecidableEq, Repr

section Sources
variable [UnicodeTables]

/-- A dict field of a JSON value, or an empty dict. -/
def dictField (payload : Option Value) (key : String) : Dict :=
  match payload with
  | some (.dict entries) =>
    match Dict.get entries key with
    | some (.dict inner) => inner
    | _ => []
  | _ => []

def itemCaseSnapshot (item : EvaluationRunItem) : Dict :=
  dictField item.metricSummaryJson "case_snapshot"

def itemTargetMetadata (item : EvaluationRunItem) : Dict :=
  dictField item.metricSummaryJson "evaluation_target"

def safeHashValue : Option Value → Option String
  | some (.str value) =>
    if value.length ≠ 64 then none
    else
      let lowered := lower value.toList
      if lowered.all fun c => "0123456789abcdef".toList.contains c then some (String.ofList lowered)
      else none
  | _ => none

def forbiddenIdentifierParts : List String :=
  ["api_key", "bearer", "credential", "password", "secret", "token"]

def safeCaseIdentifier : Option Value → Option String
  | some (.str value) =>
    let text := cleanText value
    if text = "" ∨ 200 < text.length then none
    else if forbiddenIdentifierParts.any (fun part => contains (lower text.toList) part.toList) ∨
        '@' ∈ text.toList then none
    else some text
  | _ => none

def safeLabelValue (maxLength : Nat) : Option Value → Option String
  | some (.str value) =>
    let text := lower (strip value.toList)
    if text = [] ∨ maxLength < text.length then none
    else if text.all fun c => "abcdefghijklmnopqrstuvwxyz0123456789_.-:".toList.contains c then
      some (String.ofList text)
    else none
  | _ => none

def itemComparisonLabel (item : EvaluationRunItem) : String :=
  (safeLabelValue 120 (Dict.get (itemTargetMetadata item) "comparison_label")).getD
    item.strategyType

omit [UnicodeTables] in
/-- The first dict of the results named case_metadata. -/
def caseMetadataPayload (results : List EvaluationResult) : Dict :=
  ((results.filter (·.metricName == "case_metadata")).findSome? fun result =>
    [result.metricDetailJson, result.detailsJson].findSome? fun payload =>
      match payload with
      | some (.dict entries) => some entries
      | _ => none).getD []

def resultNumericValue (result : EvaluationResult) : Option Rat :=
  if result.metricName = "p95_latency" then result.metricValue
  else result.metricScore.orElse fun _ => result.metricValue

/-- The value of each metric; a later one counts. -/
def resultMetricValues (results : List EvaluationResult) : List (String × Rat) :=
  Table.mergeRows Prod.fst [] ((results.filter (·.metricName != "case_metadata")).filterMap
    fun result => (resultNumericValue result).map (result.metricName, ·))

def caseComparisonSource (results : List EvaluationResult) (item : EvaluationRunItem) :
    EvaluationCaseComparisonSource :=
  let details := caseMetadataPayload results
  let hashOf (key : String) :=
    (safeHashValue (Dict.get details key)).orElse fun _ =>
      safeHashValue (Dict.get (itemCaseSnapshot item) key)
  let questionHash := hashOf "question_hash"
  let caseSnapshotHash := hashOf "case_snapshot_hash"
  { evaluationRunItemId := item.evaluationRunItemId
    caseId :=
      ((safeCaseIdentifier (Dict.get details "case_id")).orElse fun _ =>
        (safeCaseIdentifier (item.caseKey.map .str)).orElse fun _ =>
          questionHash.orElse fun _ => caseSnapshotHash.orElse fun _ =>
            item.evaluationCaseId.map fun id => "evaluation_case:" ++ toString id).getD
              ("item:" ++ toString item.evaluationRunItemId)
    questionHash := questionHash
    caseSnapshotHash := caseSnapshotHash
    comparisonLabel := itemComparisonLabel item
    status := item.status
    metricValues := resultMetricValues results }

/-- _case_comparison_sources. -/
def caseComparisonSources (run : ComparedRun) : List EvaluationCaseComparisonSource :=
  run.items.map fun item => caseComparisonSource (run.resultsByItem item.evaluationRunItemId) item

end Sources

section Matching

/-- How often a case stands in a run. -/
def caseCount (sources : List EvaluationCaseComparisonSource) (caseId : String) : Nat :=
  sources.countP (·.caseId == caseId)

/-- _duplicated_case_ids. -/
def duplicatedCaseIds (sourceGroups : List (List EvaluationCaseComparisonSource)) : List String :=
  sourceGroups.flatMap fun sources =>
    (sources.map (·.caseId)).dedup.filter fun caseId => 1 < caseCount sources caseId

variable (duplicated : List String)

/-- The key of an item before it is told apart from others of its run. -/
def matchKey (source : EvaluationCaseComparisonSource) : String :=
  if source.caseId ∈ duplicated then
    source.caseId ++ "::" ++
      (if source.comparisonLabel = "" then "default" else source.comparisonLabel)
  else source.caseId

def itemKey (source : EvaluationCaseComparisonSource) : String :=
  matchKey duplicated source ++ "::item:" ++ toString source.evaluationRunItemId

abbrev SourcesByKey := List (String × EvaluationCaseComparisonSource)

/-- One turn of the loop of _case_sources_by_match_key. -/
def addSource (byKey : SourcesByKey) (source : EvaluationCaseComparisonSource) : SourcesByKey :=
  let key := matchKey duplicated source
  Table.mergeRow Prod.fst byKey
    (if byKey.any (·.1 == key) then itemKey duplicated source else key, source)

def caseSourcesByMatchKey (sources : List EvaluationCaseComparisonSource) : SourcesByKey :=
  sources.foldl (addSource duplicated) []

end Matching

section Comparison

inductive EvaluationCaseTransition where
  | added | removed | improved | regressed | unchanged
  deriving DecidableEq, Repr

structure EvaluationCaseComparison where
  caseId : String
  questionHash : Option String
  caseSnapshotHash : Option String
  comparisonLabel : Option String
  baseStatus : Option EvaluationStatus
  candidateStatus : Option EvaluationStatus
  transition : EvaluationCaseTransition
  metricDeltas : List (String × Option Rat)
  deriving DecidableEq, Repr

/-- sorted(set(left) | set(right)). -/
def sortedUnion (left right : List String) : List String :=
  (left ++ right).dedup.insertionSort (· ≤ ·)

/-- _case_metric_deltas. -/
def caseMetricDeltas (baseValues candidateValues : List (String × Rat)) :
    List (String × Option Rat) :=
  (sortedUnion (baseValues.map Prod.fst) (candidateValues.map Prod.fst)).map fun metricName =>
    (metricName,
      match baseValues.lookup metricName, candidateValues.lookup metricName with
      | some baseValue, some candidateValue => some (roundDecimal 6 (candidateValue - baseValue))
      | _, _ => none)

/-- _case_transition. -/
def caseTransition : Option EvaluationStatus → Option EvaluationStatus → EvaluationCaseTransition
  | none, _ => .added
  | some _, none => .removed
  | some base, some candidate =>
    if base = candidate then .unchanged
    else if base = .succeeded ∧ candidate ≠ .succeeded then .regressed
    else if base ≠ .succeeded ∧ candidate = .succeeded then .improved
    else .unchanged

def firstNonEmpty (left right : Option String) : Option String :=
  if (left.getD "") = "" then right else left

abbrev MatchedSources :=
  Option EvaluationCaseComparisonSource × Option EvaluationCaseComparisonSource

/-- The comparison of what the runs hold under a key. -/
def caseComparison (matchKey : String) (pair : MatchedSources) : EvaluationCaseComparison :=
  let (base, candidate) := pair
  { caseId := ((base.orElse fun _ => candidate).map (·.caseId)).getD matchKey
    questionHash := firstNonEmpty (base.bind (·.questionHash)) (candidate.bind (·.questionHash))
    caseSnapshotHash :=
      firstNonEmpty (base.bind (·.caseSnapshotHash)) (candidate.bind (·.caseSnapshotHash))
    comparisonLabel :=
      firstNonEmpty (base.map (·.comparisonLabel)) (candidate.map (·.comparisonLabel))
    baseStatus := base.map (·.status)
    candidateStatus := candidate.map (·.status)
    transition := caseTransition (base.map (·.status)) (candidate.map (·.status))
    metricDeltas :=
      match base, candidate with
      | some base, some candidate => caseMetricDeltas base.metricValues candidate.metricValues
      | _, _ => [] }

variable [UnicodeTables] (base candidate : ComparedRun)

/-- The keys of both runs in order, with what each run holds under them. -/
def matchedSources : List (String × MatchedSources) :=
  let baseSources := caseComparisonSources base
  let candidateSources := caseComparisonSources candidate
  let duplicated := duplicatedCaseIds [baseSources, candidateSources]
  let baseByKey := caseSourcesByMatchKey duplicated baseSources
  let candidateByKey := caseSourcesByMatchKey duplicated candidateSources
  (sortedUnion (baseByKey.map Prod.fst) (candidateByKey.map Prod.fst)).map fun key =>
    (key, baseByKey.lookup key, candidateByKey.lookup key)

/-- _compare_run_cases. -/
def compareRunCases : List EvaluationCaseComparison :=
  (matchedSources base candidate).map fun entry => caseComparison entry.1 entry.2

end Comparison

end RagProject.Evaluation
