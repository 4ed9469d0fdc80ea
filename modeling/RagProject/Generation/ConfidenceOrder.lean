import RagProject.Generation.Confidence
import Mathlib.Tactic.FieldSimp

/-! The confidence grows with the evidence, and its label is gated by the support. -/
namespace RagProject.Generation
open Python Rag

section Parts

def groundednessOf (inputs : ConfidenceInputs) : Rat :=
  clampUnit (75 / 100 * safeRatio inputs.uniqueCitationCount
      (requiredCitationCount inputs.selectedCount inputs.uniqueCitationCount) +
    25 / 100 * if 0 < inputs.markerCount then 1 else 0)

def supportOf (inputs : ConfidenceInputs) : Rat :=
  retrievalSupportScore [inputs.retrievalScoreSummary.top1RetrievalScore,
    inputs.retrievalScoreSummary.top1RerankScore]

/-- The weighted mean of the components that are present. -/
def blendOf (inputs : ConfidenceInputs) : Rat :=
  weightedRenormalized [
    ⟨35 / 100, optionalScore inputs.retrievalScoreSummary.top1RetrievalScore,
      inputs.retrievalScoreSummary.top1RetrievalScore.isSome⟩,
    ⟨35 / 100, optionalScore inputs.retrievalScoreSummary.top1RerankScore,
      inputs.retrievalScoreSummary.top1RerankScore.isSome⟩,
    ⟨20 / 100, groundednessOf inputs, true⟩,
    ⟨10 / 100, if 0 < inputs.selectedCount then 1 else 0, true⟩]

/-- The confidence before it is rounded. -/
def exactConfidence (inputs : ConfidenceInputs) (settings : ConfidenceSettings) : Rat :=
  supportCappedConfidence (clampUnit (blendOf inputs)) (supportOf inputs) settings

theorem calculateConfidence_eq (inputs : ConfidenceInputs) (settings : ConfidenceSettings) :
    calculateConfidence inputs settings =
      { answerConfidence := roundDecimal 6 (exactConfidence inputs settings)
        groundednessScore := roundDecimal 6 (groundednessOf inputs)
        confidenceLabel := confidenceLabelOf (exactConfidence inputs settings)
          (groundednessOf inputs) (supportOf inputs) settings } := rfl

end Parts

section Monotone

theorem clampUnit_mono {a b : Rat} (le : a ≤ b) : clampUnit a ≤ clampUnit b :=
  min_le_min_left 1 (max_le_max_left 0 le)

theorem clampUnit_unit (a : Rat) : 0 ≤ clampUnit a ∧ clampUnit a ≤ 1 :=
  ⟨le_min (by norm_num) (le_max_left 0 a), min_le_left 1 _⟩

theorem clampUnit_large {a : Rat} (large : 1 ≤ a) : clampUnit a = 1 :=
  min_eq_left (le_trans large (le_max_right 0 a))

/-- A score is raised, and stays absent or present. -/
inductive ScoreRaised : Option Rat → Option Rat → Prop where
  | absent : ScoreRaised none none
  | present {a b : Rat} (le : a ≤ b) : ScoreRaised (some a) (some b)

structure Raised (inputs raised : ConfidenceInputs) : Prop where
  retrieval : ScoreRaised inputs.retrievalScoreSummary.top1RetrievalScore
    raised.retrievalScoreSummary.top1RetrievalScore
  rerank : ScoreRaised inputs.retrievalScoreSummary.top1RerankScore
    raised.retrievalScoreSummary.top1RerankScore
  markers : inputs.markerCount ≤ raised.markerCount
  citations : inputs.uniqueCitationCount ≤ raised.uniqueCitationCount
  selected : inputs.selectedCount = raised.selectedCount

/-- One citation is enough: the coverage of the citations is zero or one. -/
theorem coverage_eq (selectedCount citations : Nat) :
    safeRatio citations (requiredCitationCount selectedCount citations) =
      if citations = 0 then 0 else 1 := by
  unfold safeRatio requiredCitationCount
  by_cases uncited : citations = 0
  · subst uncited
    simp [clampUnit]
  · rw [if_neg uncited]
    have one : (1 : Rat) ≤ citations := by exact_mod_cast Nat.one_le_iff_ne_zero.mpr uncited
    by_cases unselected : selectedCount = 0
    · subst unselected
      simp only [true_or, if_true, Nat.max_zero, one_ne_zero, if_false, Nat.cast_one, div_one]
      exact clampUnit_large one
    · have enough : min selectedCount citations ≠ 0 := by omega
      have positive : (0 : Rat) < (min selectedCount citations : Nat) := by
        exact_mod_cast Nat.pos_of_ne_zero enough
      simp only [unselected, uncited, or_self, if_false, enough]
      apply clampUnit_large
      rw [le_div_iff₀ positive, one_mul]
      exact_mod_cast Nat.min_le_right selectedCount citations

theorem groundedness_eq (inputs : ConfidenceInputs) : groundednessOf inputs =
    75 / 100 * (if inputs.uniqueCitationCount = 0 then 0 else 1) +
      25 / 100 * if 0 < inputs.markerCount then 1 else 0 := by
  unfold groundednessOf
  rw [coverage_eq]
  split_ifs <;> norm_num [clampUnit]

variable {inputs raised : ConfidenceInputs}

theorem groundedness_mono (up : Raised inputs raised) :
    groundednessOf inputs ≤ groundednessOf raised := by
  rw [groundedness_eq, groundedness_eq]
  have markers := up.markers
  have citations := up.citations
  have covers : (if inputs.uniqueCitationCount = 0 then (0 : Rat) else 1) ≤
      if raised.uniqueCitationCount = 0 then 0 else 1 := by
    split_ifs <;> first | omega | norm_num
  have marks : (if 0 < inputs.markerCount then (1 : Rat) else 0) ≤
      if 0 < raised.markerCount then 1 else 0 := by
    split_ifs <;> first | omega | norm_num
  linarith

theorem optionalScore_mono {a b : Option Rat} (up : ScoreRaised a b) :
    optionalScore a ≤ optionalScore b := by
  cases up with
  | absent => exact le_refl _
  | present le => exact clampUnit_mono le

theorem supportScore_mono {a b c d : Option Rat} (retrieval : ScoreRaised a b)
    (rerank : ScoreRaised c d) : retrievalSupportScore [a, c] ≤ retrievalSupportScore [b, d] := by
  have first := optionalScore_mono retrieval
  have second := optionalScore_mono rerank
  unfold retrievalSupportScore
  cases retrieval with
  | absent =>
    cases rerank with
    | absent => exact le_refl _
    | present le => simpa using second
  | present le =>
    cases rerank with
    | absent => simpa using first
    | present leRerank =>
      simp
      linarith

theorem support_mono (up : Raised inputs raised) : supportOf inputs ≤ supportOf raised :=
  supportScore_mono up.retrieval up.rerank

/-- The mean of components with fixed weights and presence. -/
theorem renormalized_mono {a b c d g h : Rat} {p q : Option Rat × Option Rat} {strength : Rat}
    (retrieval : ScoreRaised p.1 q.1) (rerank : ScoreRaised p.2 q.2) (le : g ≤ h)
    (scores : optionalScore p.1 = a ∧ optionalScore q.1 = b ∧ optionalScore p.2 = c ∧
      optionalScore q.2 = d) :
    weightedRenormalized [⟨35 / 100, a, p.1.isSome⟩, ⟨35 / 100, c, p.2.isSome⟩,
        ⟨20 / 100, g, true⟩, ⟨10 / 100, strength, true⟩] ≤
      weightedRenormalized [⟨35 / 100, b, q.1.isSome⟩, ⟨35 / 100, d, q.2.isSome⟩,
        ⟨20 / 100, h, true⟩, ⟨10 / 100, strength, true⟩] := by
  have first := optionalScore_mono retrieval
  have second := optionalScore_mono rerank
  obtain ⟨rfl, rfl, rfl, rfl⟩ := scores
  obtain ⟨p₁, p₂⟩ := p
  obtain ⟨q₁, q₂⟩ := q
  simp only at retrieval rerank first second ⊢
  unfold weightedRenormalized
  cases retrieval with
  | absent =>
    cases rerank with
    | absent =>
      norm_num
      linarith
    | present more =>
      norm_num
      linarith
  | present more =>
    cases rerank with
    | absent =>
      norm_num
      linarith
    | present most =>
      norm_num
      linarith

theorem blend_mono (up : Raised inputs raised) : blendOf inputs ≤ blendOf raised := by
  unfold blendOf
  rw [← up.selected]
  exact renormalized_mono (p := (_, _)) (q := (_, _)) up.retrieval up.rerank (groundedness_mono up)
    ⟨rfl, rfl, rfl, rfl⟩

/-- The thresholds of the confidence, as the claim of the settings has them. -/
structure ThresholdsOk (settings : ConfidenceSettings) : Prop where
  low : 1 / 100 ≤ settings.confidenceMediumThreshold
  order : settings.confidenceMediumThreshold ≤ settings.confidenceHighThreshold
  unit : settings.confidenceHighThreshold ≤ 1

theorem below_eq {threshold : Rat} (low : 1 / 100 ≤ threshold) (unit : threshold ≤ 1) :
    belowThreshold threshold = threshold - 1 / 100 := by
  unfold belowThreshold
  rw [min_eq_right unit, max_eq_right (by linarith)]

variable {settings : ConfidenceSettings}

/-- No cap is passed on the way down. -/
theorem capped_mono (ok : ThresholdsOk settings) {a b s t : Rat} (le : a ≤ b) (more : s ≤ t) :
    supportCappedConfidence a s settings ≤ supportCappedConfidence b t settings := by
  have medium := below_eq ok.low (le_trans ok.order ok.unit)
  have high := below_eq (le_trans ok.low ok.order) ok.unit
  have caps : belowThreshold settings.confidenceMediumThreshold ≤
      belowThreshold settings.confidenceHighThreshold := by
    have order := ok.order
    rw [medium, high]
    linarith
  have floors : mediumRetrievalSupportFloor < highRetrievalSupportFloor := by
    norm_num [mediumRetrievalSupportFloor, highRetrievalSupportFloor]
  unfold supportCappedConfidence
  by_cases weak : s < mediumRetrievalSupportFloor
  · rw [if_pos weak]
    split_ifs
    · exact min_le_min_right _ le
    · exact min_le_min le caps
    · exact le_trans (min_le_left _ _) le
  · rw [if_neg weak, if_neg (not_lt.mpr (le_trans (not_lt.mp weak) more))]
    split_ifs with first second
    · exact min_le_min_right _ le
    · exact le_trans (min_le_left _ _) le
    · exact absurd (lt_of_le_of_lt more (by assumption)) first
    · exact le

theorem capped_unit {a : Rat} (unit : 0 ≤ a ∧ a ≤ 1) (s : Rat) :
    0 ≤ supportCappedConfidence a s settings ∧ supportCappedConfidence a s settings ≤ 1 := by
  have caps : ∀ threshold, 0 ≤ belowThreshold threshold := fun _ => le_max_left 0 _
  unfold supportCappedConfidence
  split_ifs
  · exact ⟨le_min unit.1 (caps _), le_trans (min_le_left _ _) unit.2⟩
  · exact ⟨le_min unit.1 (caps _), le_trans (min_le_left _ _) unit.2⟩
  · exact unit

theorem exactConfidence_mono (ok : ThresholdsOk settings) (up : Raised inputs raised) :
    exactConfidence inputs settings ≤ exactConfidence raised settings :=
  capped_mono ok (clampUnit_mono (blend_mono up)) (support_mono up)

theorem round_unit {q : Rat} (unit : 0 ≤ q ∧ q ≤ 1) :
    0 ≤ roundDecimal 6 q ∧ roundDecimal 6 q ≤ 1 := by
  have zero : roundDecimal 6 0 = 0 := roundDecimal_int 0
  have one : roundDecimal 6 1 = 1 := roundDecimal_int 1
  exact ⟨zero ▸ roundDecimal_mono unit.1, one ▸ roundDecimal_mono unit.2⟩

end Monotone

section Labels

def labelRank : ConfidenceLabel → Nat
  | .low => 0
  | .medium => 1
  | .high => 2

theorem label_mono (settings : ConfidenceSettings) {a b g h s t : Rat} (confident : a ≤ b)
    (grounded : g ≤ h) (supported : s ≤ t) :
    labelRank (confidenceLabelOf a g s settings) ≤ labelRank (confidenceLabelOf b h t settings) := by
  unfold confidenceLabelOf
  by_cases high : settings.confidenceHighThreshold ≤ a ∧ settings.groundednessHighThreshold ≤ g ∧
      highRetrievalSupportFloor ≤ s
  · have up : settings.confidenceHighThreshold ≤ b ∧ settings.groundednessHighThreshold ≤ h ∧
        highRetrievalSupportFloor ≤ t :=
      ⟨le_trans high.1 confident, le_trans high.2.1 grounded, le_trans high.2.2 supported⟩
    rw [if_pos high, if_pos up]
  · rw [if_neg high]
    by_cases medium : settings.confidenceMediumThreshold ≤ a ∧
        settings.groundednessMediumThreshold ≤ g ∧ mediumRetrievalSupportFloor ≤ s
    · have up : settings.confidenceMediumThreshold ≤ b ∧
          settings.groundednessMediumThreshold ≤ h ∧ mediumRetrievalSupportFloor ≤ t :=
        ⟨le_trans medium.1 confident, le_trans medium.2.1 grounded, le_trans medium.2.2 supported⟩
      rw [if_pos medium, if_pos up]
      split_ifs <;> decide
    · rw [if_neg medium]
      exact Nat.zero_le _

theorem label_high {a g s : Rat} {settings : ConfidenceSettings}
    (label : confidenceLabelOf a g s settings = .high) :
    settings.confidenceHighThreshold ≤ a ∧ settings.groundednessHighThreshold ≤ g ∧
      highRetrievalSupportFloor ≤ s := by
  unfold confidenceLabelOf at label
  split_ifs at label with high
  exact high

theorem label_medium {a g s : Rat} {settings : ConfidenceSettings}
    (label : confidenceLabelOf a g s settings = .medium) :
    settings.confidenceMediumThreshold ≤ a ∧ settings.groundednessMediumThreshold ≤ g ∧
      mediumRetrievalSupportFloor ≤ s := by
  unfold confidenceLabelOf at label
  split_ifs at label with high medium
  exact medium

theorem label_weak {a g s : Rat} {settings : ConfidenceSettings}
    (weak : s < mediumRetrievalSupportFloor) : confidenceLabelOf a g s settings = .low := by
  have floors : mediumRetrievalSupportFloor < highRetrievalSupportFloor := by
    norm_num [mediumRetrievalSupportFloor, highRetrievalSupportFloor]
  unfold confidenceLabelOf
  rw [if_neg fun high => absurd high.2.2 (not_le.mpr (lt_trans weak floors)),
    if_neg fun medium => absurd medium.2.2 (not_le.mpr weak)]

/-- The groundedness is not changed by rounding. -/
theorem groundedness_round (inputs : ConfidenceInputs) :
    roundDecimal 6 (groundednessOf inputs) = groundednessOf inputs := by
  rw [groundedness_eq]
  split_ifs <;> norm_num [roundDecimal, roundHalfEven, roundRest]

end Labels

section Theorem
variable {settings : ConfidenceSettings}

/-- A threshold of at most six decimals. -/
def SixDecimals (threshold : Rat) : Prop := ∃ n : Int, threshold = n / 10 ^ 6

/-- Rounding does not take a confidence below such a threshold. -/
theorem reached {threshold q : Rat} (short : SixDecimals threshold) (reaches : threshold ≤ q) :
    threshold ≤ roundDecimal 6 q := by
  obtain ⟨n, rfl⟩ := short
  have fixed : roundDecimal 6 ((n : Rat) / 10 ^ 6) = n / 10 ^ 6 := by
    unfold roundDecimal
    rw [div_mul_cancel₀ (n : Rat) (by norm_num), roundHalfEven_int]
  rw [← fixed]
  exact roundDecimal_mono reaches

/-- What the scores of one request say; a confidence is compared before it is rounded. -/
structure Gated (inputs : ConfidenceInputs) (settings : ConfidenceSettings) : Prop where
  confidence : 0 ≤ (calculateConfidence inputs settings).answerConfidence ∧
    (calculateConfidence inputs settings).answerConfidence ≤ 1
  grounded : 0 ≤ (calculateConfidence inputs settings).groundednessScore ∧
    (calculateConfidence inputs settings).groundednessScore ≤ 1
  high : (calculateConfidence inputs settings).confidenceLabel = .high →
    settings.confidenceHighThreshold ≤ exactConfidence inputs settings ∧
      settings.groundednessHighThreshold ≤ (calculateConfidence inputs settings).groundednessScore ∧
      highRetrievalSupportFloor ≤ supportOf inputs
  medium : (calculateConfidence inputs settings).confidenceLabel = .medium →
    settings.confidenceMediumThreshold ≤ exactConfidence inputs settings ∧
      settings.groundednessMediumThreshold ≤
        (calculateConfidence inputs settings).groundednessScore ∧
      mediumRetrievalSupportFloor ≤ supportOf inputs
  highReached : (calculateConfidence inputs settings).confidenceLabel = .high →
    SixDecimals settings.confidenceHighThreshold →
      settings.confidenceHighThreshold ≤ (calculateConfidence inputs settings).answerConfidence
  mediumReached : (calculateConfidence inputs settings).confidenceLabel = .medium →
    SixDecimals settings.confidenceMediumThreshold →
      settings.confidenceMediumThreshold ≤ (calculateConfidence inputs settings).answerConfidence
  weak : supportOf inputs < mediumRetrievalSupportFloor →
    (calculateConfidence inputs settings).confidenceLabel = .low ∧
      (calculateConfidence inputs settings).answerConfidence < settings.confidenceMediumThreshold

theorem weak_confidence (ok : ThresholdsOk settings) {inputs : ConfidenceInputs}
    (weak : supportOf inputs < mediumRetrievalSupportFloor) :
    (calculateConfidence inputs settings).answerConfidence < settings.confidenceMediumThreshold := by
  have capped : exactConfidence inputs settings ≤ settings.confidenceMediumThreshold - 1 / 100 := by
    unfold exactConfidence supportCappedConfidence
    rw [if_pos weak, ← below_eq ok.low (le_trans ok.order ok.unit)]
    exact min_le_right _ _
  have near := roundDecimal_near 6 (exactConfidence inputs settings)
  rw [calculateConfidence_eq]
  norm_num at near ⊢
  linarith

theorem gated (ok : ThresholdsOk settings) (inputs : ConfidenceInputs) : Gated inputs settings := by
  refine ⟨?_, ?_, ?_, ?_, fun label short => reached short (label_high label).1,
    fun label short => reached short (label_medium label).1,
    fun weak => ⟨label_weak weak, weak_confidence ok weak⟩⟩
  · exact round_unit (capped_unit (clampUnit_unit _) _)
  · exact round_unit (clampUnit_unit _)
  · intro label
    rw [calculateConfidence_eq, groundedness_round]
    exact label_high label
  · intro label
    rw [calculateConfidence_eq, groundedness_round]
    exact label_medium label

theorem confidence_gated (settings : ConfidenceSettings) (ok : ThresholdsOk settings) :
    (∀ inputs, Gated inputs settings) ∧
      ∀ inputs raised, Raised inputs raised →
        (calculateConfidence inputs settings).answerConfidence ≤
            (calculateConfidence raised settings).answerConfidence ∧
          labelRank (calculateConfidence inputs settings).confidenceLabel ≤
            labelRank (calculateConfidence raised settings).confidenceLabel := by
  refine ⟨gated ok, fun inputs raised up => ?_⟩
  have confident := exactConfidence_mono ok up
  exact ⟨roundDecimal_mono confident,
    label_mono settings confident (groundedness_mono up) (support_mono up)⟩

/-- A threshold with seven decimals. -/
def fineThresholds : ConfidenceSettings := ⟨7500034 / 10000000, 45 / 100, 75 / 100, 45 / 100⟩

def supportedInputs : ConfidenceInputs :=
  ⟨⟨some (642862 / 1000000), some (642862 / 1000000)⟩, 1, 1, 1⟩

theorem fineThresholds_ok : ThresholdsOk fineThresholds := by
  constructor <;> norm_num [fineThresholds]

theorem confidence_gated_fine :
    Gated supportedInputs fineThresholds ∧
      (calculateConfidence supportedInputs fineThresholds).answerConfidence ≤
        (calculateConfidence { supportedInputs with markerCount := 2 } fineThresholds).answerConfidence := by
  have raised : Raised supportedInputs { supportedInputs with markerCount := 2 } :=
    ⟨.present (le_refl _), .present (le_refl _), by decide, le_refl _, rfl⟩
  have all := confidence_gated fineThresholds fineThresholds_ok
  exact ⟨all.1 supportedInputs, (all.2 _ _ raised).1⟩

/-- The label is high, and the confidence that is returned with it has been rounded below the
threshold of a high one. -/
theorem rounded_below :
    ThresholdsOk fineThresholds ∧
      (calculateConfidence supportedInputs fineThresholds).confidenceLabel = .high ∧
      (calculateConfidence supportedInputs fineThresholds).answerConfidence <
        fineThresholds.confidenceHighThreshold :=
  ⟨fineThresholds_ok, by decide +kernel, by decide +kernel⟩

end Theorem

end RagProject.Generation
