import RagProject.Lib.Number
import RagProject.Rag.Ask

/-! The confidence that is stored with an answer (rag/confidence.py), over exact rationals. -/
namespace RagProject.Generation
open Python Rag

structure ConfidenceSettings where
  confidenceHighThreshold : Rat
  confidenceMediumThreshold : Rat
  groundednessHighThreshold : Rat
  groundednessMediumThreshold : Rat
  deriving DecidableEq, Repr

structure ConfidenceScores where
  answerConfidence : Rat
  groundednessScore : Rat
  confidenceLabel : ConfidenceLabel
  deriving DecidableEq, Repr

structure ConfidenceComponent where
  weight : Rat
  value : Rat
  present : Bool
  deriving DecidableEq, Repr

/-- The scores of a RetrievalScoreSummary that the confidence looks at. -/
structure ScoreSummary where
  top1RetrievalScore : Option Rat
  top1RerankScore : Option Rat
  deriving DecidableEq, Repr

structure ConfidenceInputs where
  retrievalScoreSummary : ScoreSummary
  markerCount : Nat
  uniqueCitationCount : Nat
  selectedCount : Nat
  deriving DecidableEq, Repr

def mediumRetrievalSupportFloor : Rat := 30 / 100

def highRetrievalSupportFloor : Rat := 60 / 100

def clampUnit (value : Rat) : Rat := min 1 (max 0 value)

def optionalScore (value : Option Rat) : Rat := (value.map clampUnit).getD 0

def retrievalSupportScore (scores : List (Option Rat)) : Rat :=
  let present := (scores.filter (·.isSome)).map optionalScore
  if present = [] then 0 else present.sum / present.length

def weightedRenormalized (components : List ConfidenceComponent) : Rat :=
  let present := components.filter (·.present)
  let totalWeight := (present.map (·.weight)).sum
  if totalWeight ≤ 0 then 0 else (present.map fun c => c.weight * c.value).sum / totalWeight

def belowThreshold (threshold : Rat) : Rat := max 0 (min 1 threshold - 1 / 100)

def supportCappedConfidence (answerConfidence retrievalSupport : Rat) (settings : ConfidenceSettings) :
    Rat :=
  if retrievalSupport < mediumRetrievalSupportFloor then
    min answerConfidence (belowThreshold settings.confidenceMediumThreshold)
  else if retrievalSupport < highRetrievalSupportFloor then
    min answerConfidence (belowThreshold settings.confidenceHighThreshold)
  else answerConfidence

def requiredCitationCount (selectedCount uniqueCitationCount : Nat) : Nat :=
  if selectedCount = 0 ∨ uniqueCitationCount = 0 then max 1 selectedCount
  else min selectedCount uniqueCitationCount

def safeRatio (numerator denominator : Nat) : Rat :=
  if denominator = 0 then 0 else clampUnit (numerator / denominator)

def confidenceLabelOf (answerConfidence groundednessScore retrievalSupport : Rat)
    (settings : ConfidenceSettings) : ConfidenceLabel :=
  if settings.confidenceHighThreshold ≤ answerConfidence ∧
      settings.groundednessHighThreshold ≤ groundednessScore ∧
      highRetrievalSupportFloor ≤ retrievalSupport then .high
  else if settings.confidenceMediumThreshold ≤ answerConfidence ∧
      settings.groundednessMediumThreshold ≤ groundednessScore ∧
      mediumRetrievalSupportFloor ≤ retrievalSupport then .medium
  else .low

def calculateConfidence (inputs : ConfidenceInputs) (settings : ConfidenceSettings) :
    ConfidenceScores :=
  let citationCoverage := safeRatio inputs.uniqueCitationCount
    (requiredCitationCount inputs.selectedCount inputs.uniqueCitationCount)
  let markerPresence : Rat := if 0 < inputs.markerCount then 1 else 0
  let groundedness := clampUnit (75 / 100 * citationCoverage + 25 / 100 * markerPresence)
  let contextStrength : Rat := if 0 < inputs.selectedCount then 1 else 0
  let top1Retrieval := inputs.retrievalScoreSummary.top1RetrievalScore
  let top1Rerank := inputs.retrievalScoreSummary.top1RerankScore
  let support := retrievalSupportScore [top1Retrieval, top1Rerank]
  let components := [
    ⟨35 / 100, optionalScore top1Retrieval, top1Retrieval.isSome⟩,
    ⟨35 / 100, optionalScore top1Rerank, top1Rerank.isSome⟩,
    ⟨20 / 100, groundedness, true⟩, ⟨10 / 100, contextStrength, true⟩]
  let answerConfidence :=
    supportCappedConfidence (clampUnit (weightedRenormalized components)) support settings
  { answerConfidence := roundDecimal 6 answerConfidence
    groundednessScore := roundDecimal 6 groundedness
    confidenceLabel := confidenceLabelOf answerConfidence groundedness support settings }

def lowConfidenceForInsufficientEvidence (confidence : ConfidenceScores)
    (settings : ConfidenceSettings) : ConfidenceScores where
  answerConfidence :=
    roundDecimal 6 (min confidence.answerConfidence (belowThreshold settings.confidenceMediumThreshold))
  groundednessScore := confidence.groundednessScore
  confidenceLabel := .low

/-- _decimal_score; a score is rounded before it is quantized, so no half is left to round up. -/
def decimalScore (value : Rat) : Rat := roundDecimal 6 value

/-- What ask stores of the confidence with a run. -/
def storedConfidence (inputs : ConfidenceInputs) (insufficientEvidenceFallback : Bool)
    (settings : ConfidenceSettings) : ConfidenceScores :=
  let confidence := calculateConfidence inputs settings
  let confidence :=
    if insufficientEvidenceFallback then lowConfidenceForInsufficientEvidence confidence settings
    else confidence
  { confidence with
    answerConfidence := decimalScore confidence.answerConfidence
    groundednessScore := decimalScore confidence.groundednessScore }

/-- Rounding moves a number by half a unit at most. -/
theorem roundDecimal_near (digits : Nat) (q : Rat) :
    roundDecimal digits q ≤ q + 1 / (2 * 10 ^ digits) := by
  have scale : (0 : Rat) < 10 ^ digits := by positivity
  have near : (roundHalfEven (q * 10 ^ digits) : Rat) ≤ q * 10 ^ digits + 1 / 2 := by
    have floor := Int.floor_le (q * 10 ^ digits)
    unfold roundHalfEven roundRest
    split_ifs with less more
    · linarith
    · push_cast
      linarith
    · linarith
    · push_cast
      linarith
  unfold roundDecimal
  rw [div_le_iff₀ scale]
  calc (roundHalfEven (q * 10 ^ digits) : Rat) ≤ q * 10 ^ digits + 1 / 2 := near
    _ = (q + 1 / (2 * 10 ^ digits)) * 10 ^ digits := by
      field_simp

/-- The stored confidence of a fallback is low, and below the threshold of a medium one. -/
theorem storedConfidence_low (inputs : ConfidenceInputs) {settings : ConfidenceSettings}
    (above : 1 / 100 < settings.confidenceMediumThreshold)
    (unit : settings.confidenceMediumThreshold ≤ 1) :
    (storedConfidence inputs true settings).confidenceLabel = .low ∧
      (storedConfidence inputs true settings).answerConfidence <
        settings.confidenceMediumThreshold := by
  refine ⟨rfl, ?_⟩
  have ceiling : belowThreshold settings.confidenceMediumThreshold =
      settings.confidenceMediumThreshold - 1 / 100 := by
    unfold belowThreshold
    rw [min_eq_right unit, max_eq_right (by linarith)]
  have capped := min_le_right (calculateConfidence inputs settings).answerConfidence
    (settings.confidenceMediumThreshold - 1 / 100)
  have once := roundDecimal_near 6
    (min (calculateConfidence inputs settings).answerConfidence
      (settings.confidenceMediumThreshold - 1 / 100))
  have twice := roundDecimal_near 6 (roundDecimal 6
    (min (calculateConfidence inputs settings).answerConfidence
      (settings.confidenceMediumThreshold - 1 / 100)))
  simp only [storedConfidence, if_true, lowConfidenceForInsufficientEvidence, decimalScore, ceiling]
  norm_num at once twice ⊢
  linarith

end RagProject.Generation
