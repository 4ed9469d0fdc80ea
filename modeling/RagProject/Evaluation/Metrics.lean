import Mathlib.Data.Finset.Card
import RagProject.Context.Evidence
import RagProject.Lib.Number
import RagProject.Lib.Ranking

/-! The scores of a retrieval for an evaluation case (evaluation/metrics.py): recall_at_k and mrr of
calculate_metrics. -/
namespace RagProject.Evaluation
open Python Context

section Inputs

structure EvaluationCase where
  caseId : String
  expectedKeywords : List String
  expectedAnswer : Option String
  expectedDocumentIds : List Int
  expectedChunkIds : List Int
  deriving DecidableEq, Repr

structure RetrievedEvaluationItem where
  documentChunkId : Int
  logicalDocumentId : Option Int
  rankOrder : Nat
  snippet : String
  deriving DecidableEq, Repr

structure EvaluationMetricInputs where
  case : EvaluationCase
  citationSnippets : List String
  retrievedItems : List RetrievedEvaluationItem
  deriving DecidableEq, Repr

structure RelevanceDetails where
  caseKey : String
  expectedDocumentIdsCount : Nat
  expectedChunkIdsCount : Nat
  expectedKeywordCount : Nat
  retrievedCount : Nat
  notApplicable : Bool
  matchedCount : Option Nat
  rank : Option Nat
  deriving DecidableEq, Repr

structure MetricValue where
  metricName : String
  metricScore : Option Rat
  metricLabel : String
  details : RelevanceDetails
  deriving DecidableEq, Repr

/-- The expected answer, if it is not empty. -/
def EvaluationCase.givenAnswer (case : EvaluationCase) : Option String :=
  case.expectedAnswer.filter (· ≠ "")

end Inputs

section Scores

/-- _clamp01. -/
def clamp01 (value : Rat) : Rat := roundDecimal 6 (min 1 (max 0 value))

/-- _ratio. -/
def ratio (numerator denominator : Nat) : Rat :=
  if denominator = 0 then 0 else clamp01 (numerator / denominator)

/-- _label. -/
def label (value : Rat) : String :=
  let score := clamp01 value
  if 75 / 100 ≤ score then "pass"
  else if 45 / 100 ≤ score then "partial"
  else "fail"

/-- _optional_label. -/
def optionalLabel : Option Rat → String
  | none => "not_applicable"
  | some value => label value

end Scores

section Relevance
variable [CaseFold]

/-- needle.casefold() in text.casefold(). -/
def holds (needle : String) (text : List Char) : Bool :=
  contains (casefold text) (casefold needle.toList)

/-- _keyword_hits. -/
def keywordHits (text : List Char) (expectedKeywords : List String) : Nat :=
  expectedKeywords.countP (holds · text)

variable (case : EvaluationCase)

/-- _expected_answer_hit. -/
def expectedAnswerHit (text : List Char) : Nat :=
  if case.expectedKeywords ≠ [] then 0
  else if case.givenAnswer.any (holds · text) then 1
  else 0

/-- _target_count. -/
def targetCount : Nat :=
  if case.expectedChunkIds ≠ [] then case.expectedChunkIds.toFinset.card
  else if case.expectedDocumentIds ≠ [] then case.expectedDocumentIds.toFinset.card
  else if case.expectedKeywords ≠ [] then case.expectedKeywords.length
  else if case.givenAnswer.isSome then 1
  else 0

variable (retrievedItems : List RetrievedEvaluationItem) (evidenceText : List Char)

/-- _matched_target_count. -/
def matchedTargetCount : Nat :=
  if case.expectedChunkIds ≠ [] then
    (case.expectedChunkIds.toFinset ∩ (retrievedItems.map (·.documentChunkId)).toFinset).card
  else if case.expectedDocumentIds ≠ [] then
    (case.expectedDocumentIds.toFinset ∩
      (retrievedItems.filterMap (·.logicalDocumentId)).toFinset).card
  else if case.expectedKeywords ≠ [] then keywordHits evidenceText case.expectedKeywords
  else expectedAnswerHit case evidenceText

/-- _recall_at_k. -/
def recallAtK : Option Rat :=
  if targetCount case = 0 then none
  else some (ratio (matchedTargetCount case retrievedItems evidenceText) (targetCount case))

/-- _first_relevant_rank. -/
def firstRelevantRank : Option Nat :=
  if case.expectedChunkIds ≠ [] then
    (retrievedItems.find? (·.documentChunkId ∈ case.expectedChunkIds)).map (·.rankOrder)
  else if case.expectedDocumentIds ≠ [] then
    (retrievedItems.find? (·.logicalDocumentId.any (· ∈ case.expectedDocumentIds))).map (·.rankOrder)
  else if case.expectedKeywords ≠ [] then
    (retrievedItems.find? fun item =>
      case.expectedKeywords.any (holds · item.snippet.toList)).map (·.rankOrder)
  else if case.givenAnswer.any (holds · evidenceText) then retrievedItems.head?.map (·.rankOrder)
  else none

/-- The score for the first relevant rank. -/
def meanReciprocalRank : Option Rat :=
  if targetCount case = 0 then none
  else match firstRelevantRank case retrievedItems evidenceText with
    | none => some 0
    | some rank => some (roundDecimal 6 (1 / rank))

/-- _relevance_details. -/
def relevanceDetails (matchedCount rank : Option Nat) (notApplicable : Bool) : RelevanceDetails where
  caseKey := case.caseId
  expectedDocumentIdsCount := case.expectedDocumentIds.length
  expectedChunkIdsCount := case.expectedChunkIds.length
  expectedKeywordCount := case.expectedKeywords.length
  retrievedCount := retrievedItems.length
  notApplicable := notApplicable
  matchedCount := matchedCount
  rank := rank

end Relevance

section Metrics
variable [CaseFold]

def sortedItems (items : List RetrievedEvaluationItem) : List RetrievedEvaluationItem :=
  items.insertionSort fun a b => a.rankOrder ≤ b.rankOrder

/-- The snippets of the items, or those of the citations where these are empty. -/
def retrievalEvidenceText (items : List RetrievedEvaluationItem) (citationSnippets : List String) :
    List Char :=
  let text := join [' '] (items.map (·.snippet.toList))
  if text.isEmpty then join [' '] (citationSnippets.map (·.toList)) else text

/-- The entries recall_at_k and mrr of calculate_metrics. -/
def calculateMetrics (inputs : EvaluationMetricInputs) : MetricValue × MetricValue :=
  let retrievedItems := sortedItems inputs.retrievedItems
  let evidenceText := retrievalEvidenceText retrievedItems inputs.citationSnippets
  let recallAt := recallAtK inputs.case retrievedItems evidenceText
  let mrr := meanReciprocalRank inputs.case retrievedItems evidenceText
  let matchedCount := recallAt.map fun _ =>
    matchedTargetCount inputs.case retrievedItems evidenceText
  let rank := firstRelevantRank inputs.case retrievedItems evidenceText
  (⟨"recall_at_k", recallAt, optionalLabel recallAt,
      relevanceDetails inputs.case retrievedItems matchedCount none recallAt.isNone⟩,
    ⟨"mrr", mrr, optionalLabel mrr,
      relevanceDetails inputs.case retrievedItems none rank mrr.isNone⟩)

end Metrics

end RagProject.Evaluation
