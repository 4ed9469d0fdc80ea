import RagProject.Evaluation.Metrics

/-! When recall_at_k and mrr of a case agree with each other. -/
namespace RagProject.Evaluation
open Python Context

section Arithmetic

theorem clamp01_unit (value : Rat) : 0 ≤ clamp01 value ∧ clamp01 value ≤ 1 := by
  apply roundDecimal_unit
  constructor
  · apply le_min zero_le_one (le_max_left 0 value)
  · apply min_le_left

variable {numerator more denominator rank : Nat}

theorem ratio_unit : 0 ≤ ratio numerator denominator ∧ ratio numerator denominator ≤ 1 := by
  unfold ratio
  split
  · simp
  · apply clamp01_unit

theorem ratio_mono (le : numerator ≤ more) : ratio numerator denominator ≤ ratio more denominator := by
  unfold ratio
  split
  · rfl
  · apply roundDecimal_mono
    apply min_le_min_left
    apply max_le_max_left
    apply div_le_div_of_nonneg_right (mod_cast le) (Nat.cast_nonneg _)

/-- A ratio counts where it is not less than half of the sixth decimal. -/
theorem ratio_pos (some_target : 0 < denominator) (part : numerator ≤ denominator) :
    0 < ratio numerator denominator ↔ denominator < 2000000 * numerator := by
  have scale : (0 : Rat) < denominator := mod_cast some_target
  have inside : (numerator : Rat) / denominator ≤ 1 := (div_le_one scale).mpr (mod_cast part)
  have positive : (0 : Rat) ≤ numerator / denominator := by positivity
  unfold ratio clamp01
  rw [if_neg (by omega), max_eq_right positive, min_eq_right inside, roundDecimal_pos,
    div_lt_div_iff₀ (by norm_num) scale]
  norm_num
  rw [← Nat.cast_ofNat, ← Nat.cast_mul, Nat.cast_lt, Nat.mul_comm]

theorem ratio_one : 0 < ratio 1 1 := (ratio_pos Nat.one_pos (le_refl 1)).mpr (by norm_num)

theorem ratio_zero : ratio 0 1 = 0 := by
  apply le_antisymm _ ratio_unit.1
  have none := (ratio_pos Nat.one_pos (Nat.zero_le 1)).not.mpr (by norm_num)
  exact not_lt.mp none

theorem reciprocal_unit (positive : 0 < rank) :
    0 ≤ roundDecimal 6 (1 / rank) ∧ roundDecimal 6 (1 / rank) ≤ 1 := by
  apply roundDecimal_unit
  have scale : (1 : Rat) ≤ rank := mod_cast positive
  constructor
  · positivity
  · apply (div_le_one (by linarith)).mpr scale

theorem reciprocal_pos (positive : 0 < rank) :
    0 < roundDecimal 6 (1 / rank) ↔ rank < 2000000 := by
  have scale : (0 : Rat) < rank := mod_cast positive
  rw [roundDecimal_pos, div_lt_div_iff₀ (by norm_num) scale]
  norm_num

end Arithmetic

section Ranks
variable {items larger : List RetrievedEvaluationItem}

theorem sortedItems_perm : (sortedItems items).Perm items := List.perm_insertionSort _ _

theorem mem_sortedItems {item : RetrievedEvaluationItem} : item ∈ sortedItems items ↔ item ∈ items :=
  sortedItems_perm.mem_iff

theorem sortedItems_sorted :
    (sortedItems items).Pairwise fun a b => a.rankOrder ≤ b.rankOrder :=
  Ranking.sorted_ranking (·.rankOrder) items

/-- Sorted items with distinct ranks are found by their ranks. -/
theorem sortedItems_unique (distinct : (items.map (·.rankOrder)).Nodup) (same : larger.Perm items)
    (sorted : larger.Pairwise fun a b => a.rankOrder ≤ b.rankOrder) : sortedItems items = larger := by
  apply (sortedItems_perm.trans same.symm).eq_of_pairwise _ sortedItems_sorted sorted
  intro a b first second le ge
  apply List.inj_on_of_nodup_map distinct (mem_sortedItems.mp first) (same.mem_iff.mp second)
  omega

/-- An item with a larger rank comes last. -/
theorem sortedItems_added (distinct : (items.map (·.rankOrder)).Nodup)
    {item : RetrievedEvaluationItem} (last : ∀ other ∈ items, other.rankOrder < item.rankOrder)
    (added : larger.Perm (item :: items)) : sortedItems larger = sortedItems items ++ [item] := by
  apply sortedItems_unique
  · rw [(added.map _).nodup_iff, List.map_cons, List.nodup_cons]
    refine ⟨?_, distinct⟩
    intro old
    obtain ⟨other, member, same⟩ := List.mem_map.mp old
    have less := last other member
    omega
  · apply List.Perm.trans _ added.symm
    apply (List.perm_append_singleton item _).trans
    exact sortedItems_perm.cons item
  · apply List.pairwise_append.mpr
    refine ⟨sortedItems_sorted, List.pairwise_singleton _ _, ?_⟩
    intro other member final only
    rw [List.mem_singleton.mp only]
    exact Nat.le_of_lt (last other (mem_sortedItems.mp member))

/-- The first item of a kind has the least rank of its kind. -/
theorem find_least (wanted : RetrievedEvaluationItem → Bool)
    (sorted : items.Pairwise fun a b => a.rankOrder ≤ b.rankOrder) {rank : Nat} :
    (items.find? wanted).map (·.rankOrder) = some rank ↔
      IsLeast {r | ∃ item ∈ items, wanted item ∧ item.rankOrder = r} rank := by
  induction items with
  | nil => simp [IsLeast]
  | cons item items ih =>
    obtain ⟨before, later⟩ := List.pairwise_cons.mp sorted
    by_cases first : wanted item
    · have least : IsLeast {r | ∃ other ∈ item :: items, wanted other ∧ other.rankOrder = r}
          item.rankOrder := by
        constructor
        · exact ⟨item, List.mem_cons_self, first, rfl⟩
        · rintro r ⟨other, member, _, rfl⟩
          rcases List.mem_cons.mp member with rfl | after
          · rfl
          · exact before other after
      simp only [List.find?_cons_of_pos (p := wanted) first, Option.map_some, Option.some.injEq]
      constructor
      · rintro rfl
        exact least
      · exact least.unique
    · have rest : {r | ∃ other ∈ item :: items, wanted other ∧ other.rankOrder = r} =
          {r | ∃ other ∈ items, wanted other ∧ other.rankOrder = r} := by
        ext r
        simp [first]
      rw [rest, ← ih later, List.find?_cons_of_neg first]

end Ranks

section Texts
variable [CaseFold]

theorem casefold_append (s t : List Char) : casefold (s ++ t) = casefold s ++ casefold t :=
  List.flatMap_append

/-- What a text holds, a longer text holds. -/
theorem holds_part {needle : String} {part text : List Char} (inside : part <:+: text)
    (found : holds needle part = true) : holds needle text = true := by
  obtain ⟨front, back, rfl⟩ := inside
  obtain ⟨before, after, split⟩ := contains_iff.mp found
  apply contains_iff.mpr
  refine ⟨casefold front ++ before, after ++ casefold back, ?_⟩
  simp only [casefold_append, split, List.append_assoc]

theorem keywordHits_part {part text : List Char} (inside : part <:+: text) (keywords : List String) :
    keywordHits part keywords ≤ keywordHits text keywords := by
  apply List.countP_mono_left
  intro keyword _
  exact holds_part inside

end Texts

section Agreement
variable [CaseFold]

def HasTarget (case : EvaluationCase) : Prop :=
  case.expectedChunkIds ≠ [] ∨ case.expectedDocumentIds ≠ [] ∨ case.expectedKeywords ≠ [] ∨
    case.givenAnswer.isSome

/-- The item by itself matches a target of the case. -/
def matchesTarget (case : EvaluationCase) (item : RetrievedEvaluationItem) : Bool :=
  if case.expectedChunkIds ≠ [] then item.documentChunkId ∈ case.expectedChunkIds
  else if case.expectedDocumentIds ≠ [] then
    item.logicalDocumentId.any (· ∈ case.expectedDocumentIds)
  else if case.expectedKeywords ≠ [] then
    case.expectedKeywords.any (holds · item.snippet.toList)
  else case.givenAnswer.any (holds · item.snippet.toList)

/-- The least rank of an item that by itself matches a target. -/
def FirstMatch (case : EvaluationCase) (items : List RetrievedEvaluationItem) (rank : Nat) : Prop :=
  IsLeast {r | ∃ item ∈ items, matchesTarget case item ∧ item.rankOrder = r} rank

def FirstRank (items : List RetrievedEvaluationItem) (first : Nat) : Prop :=
  IsLeast {r | ∃ item ∈ items, item.rankOrder = r} first

/-- One more copy of an element. -/
def Repeats {A : Type} (old new : List A) : Prop := ∃ a ∈ old, new.Perm (a :: old)

/-- One expected list of the case has an element once more. -/
inductive RepeatsOne : EvaluationCase → EvaluationCase → Prop
  | chunk {case : EvaluationCase} {ids : List Int} (again : Repeats case.expectedChunkIds ids) :
    RepeatsOne case { case with expectedChunkIds := ids }
  | document {case : EvaluationCase} {ids : List Int}
    (again : Repeats case.expectedDocumentIds ids) :
    RepeatsOne case { case with expectedDocumentIds := ids }
  | keyword {case : EvaluationCase} {keywords : List String}
    (again : Repeats case.expectedKeywords keywords) :
    RepeatsOne case { case with expectedKeywords := keywords }

def recallScore (inputs : EvaluationMetricInputs) : Option Rat := (calculateMetrics inputs).1.metricScore

def mrrScore (inputs : EvaluationMetricInputs) : Option Rat := (calculateMetrics inputs).2.metricScore

/-- The scores agree with each other, with the items and with larger inputs. -/
structure Consistent (inputs : EvaluationMetricInputs) : Prop where
  recallNone : recallScore inputs = none ↔ ¬HasTarget inputs.case
  mrrNone : mrrScore inputs = none ↔ ¬HasTarget inputs.case
  recallUnit : ∀ q ∈ recallScore inputs, 0 ≤ q ∧ q ≤ 1
  mrrUnit : ∀ m ∈ mrrScore inputs, 0 ≤ m ∧ m ≤ 1
  together : ∀ q ∈ recallScore inputs, ∀ m ∈ mrrScore inputs, 0 < q ↔ 0 < m
  reciprocal : ∀ m ∈ mrrScore inputs,
    (∀ rank, FirstMatch inputs.case inputs.retrievedItems rank → m = roundDecimal 6 (1 / rank)) ∧
      ((∀ item ∈ inputs.retrievedItems, ¬matchesTarget inputs.case item) → m = 0)
  grown : ∀ item larger, (∀ other ∈ inputs.retrievedItems, other.rankOrder < item.rankOrder) →
    larger.Perm (item :: inputs.retrievedItems) →
      (∀ q ∈ recallScore inputs,
        ∀ p ∈ recallScore { inputs with retrievedItems := larger }, q ≤ p) ∧
      ∀ m ∈ mrrScore inputs, m ≠ 0 →
        mrrScore { inputs with retrievedItems := larger } = some m
  repeated : ∀ case, RepeatsOne inputs.case case →
    recallScore { inputs with case := case } = recallScore inputs ∧
      mrrScore { inputs with case := case } = mrrScore inputs

/-- Inputs whose items have distinct positive ranks. -/
structure RankedInputs extends EvaluationMetricInputs where
  some_item : retrievedItems ≠ []
  distinct : (retrievedItems.map (·.rankOrder)).Nodup
  positive : ∀ item ∈ retrievedItems, 0 < item.rankOrder

def snippetsOf (inputs : EvaluationMetricInputs) : List Char :=
  join [' '] ((sortedItems inputs.retrievedItems).map (·.snippet.toList))

def evidenceOf (inputs : EvaluationMetricInputs) : List Char :=
  retrievalEvidenceText (sortedItems inputs.retrievedItems) inputs.citationSnippets

/-- Recall and mrr are rounded to zero together. -/
def Balanced (inputs : EvaluationMetricInputs) : Prop :=
  targetCount inputs.case <
      2000000 * matchedTargetCount inputs.case (sortedItems inputs.retrievedItems) (evidenceOf inputs) ↔
    ∃ item ∈ inputs.retrievedItems, matchesTarget inputs.case item ∧ item.rankOrder < 2000000

/-- A keyword more, found or not, does not show at six decimals. -/
def CountsAlike (hits count : Nat) : Prop :=
  (0 < hits → ratio (hits + 1) (count + 1) = ratio hits count) ∧
    (hits < count → ratio hits (count + 1) = ratio hits count)

/-- What a case with keywords asks of the texts. -/
structure KeywordsAgree (inputs : EvaluationMetricInputs) : Prop where
  balanced : Balanced inputs
  alike : CountsAlike (keywordHits (evidenceOf inputs) inputs.case.expectedKeywords)
    inputs.case.expectedKeywords.length
  fallback : snippetsOf inputs = [] →
    ratio (keywordHits (evidenceOf inputs) inputs.case.expectedKeywords)
        inputs.case.expectedKeywords.length ≤
      ratio (keywordHits [' '] inputs.case.expectedKeywords) inputs.case.expectedKeywords.length

/-- An answer that the evidence holds is held by an item whose rank counts as the first one does. -/
def AnswerAgrees (inputs : EvaluationMetricInputs) : Prop :=
  ∀ answer ∈ inputs.case.givenAnswer, holds answer (evidenceOf inputs) →
    ∃ rank first, FirstMatch inputs.case inputs.retrievedItems rank ∧
      FirstRank inputs.retrievedItems first ∧ first < 2000000 ∧
        roundDecimal 6 (1 / (rank : Rat)) = roundDecimal 6 (1 / (first : Rat))

/-- What the scores of a case have to agree. -/
def Agrees (inputs : EvaluationMetricInputs) : Prop :=
  if inputs.case.expectedChunkIds ≠ [] ∨ inputs.case.expectedDocumentIds ≠ [] then Balanced inputs
  else if inputs.case.expectedKeywords ≠ [] then KeywordsAgree inputs
  else AnswerAgrees inputs

end Agreement

section Scores
variable [CaseFold] (case : EvaluationCase) (items : List RetrievedEvaluationItem) (text : List Char)

omit [CaseFold] in
theorem targetCount_zero : targetCount case = 0 ↔ ¬HasTarget case := by
  unfold targetCount HasTarget
  split_ifs with chunks documents keywords answer <;> simp_all

theorem matchedTargetCount_le : matchedTargetCount case items text ≤ targetCount case := by
  unfold matchedTargetCount targetCount
  split_ifs with chunks documents keywords answer
  · exact Finset.card_le_card Finset.inter_subset_left
  · exact Finset.card_le_card Finset.inter_subset_left
  · exact List.countP_le_length
  · unfold expectedAnswerHit
    split_ifs <;> omega
  · simp_all [expectedAnswerHit]

/-- A case whose items are looked at one by one. -/
def ItemWise : Prop :=
  case.expectedChunkIds ≠ [] ∨ case.expectedDocumentIds ≠ [] ∨ case.expectedKeywords ≠ []

variable {case items text}

theorem firstRelevantRank_itemwise (each : ItemWise case) :
    firstRelevantRank case items text = (items.find? (matchesTarget case)).map (·.rankOrder) := by
  unfold firstRelevantRank matchesTarget
  rcases each with chunks | documents | keywords
  · simp only [if_pos chunks]
  · by_cases chunks : case.expectedChunkIds ≠ []
    · simp only [if_pos chunks]
    · simp only [if_neg chunks, if_pos documents]
  · by_cases chunks : case.expectedChunkIds ≠ []
    · simp only [if_pos chunks]
    · by_cases documents : case.expectedDocumentIds ≠ []
      · simp only [if_neg chunks, if_pos documents]
      · simp only [if_neg chunks, if_neg documents, if_pos keywords]

theorem firstRelevantRank_item {rank : Nat} (found : firstRelevantRank case items text = some rank) :
    ∃ item ∈ items, item.rankOrder = rank := by
  unfold firstRelevantRank at found
  split_ifs at found
  all_goals
    obtain ⟨item, there, same⟩ := Option.map_eq_some_iff.mp found
    first
    | exact ⟨item, List.mem_of_find?_eq_some there, same⟩
    | exact ⟨item, List.mem_of_head? there, same⟩

theorem recallAtK_some (target : HasTarget case) : recallAtK case items text =
    some (ratio (matchedTargetCount case items text) (targetCount case)) := by
  unfold recallAtK
  rw [if_neg (fun none => (targetCount_zero case).mp none target)]

theorem meanReciprocalRank_some (target : HasTarget case) : meanReciprocalRank case items text =
    some (((firstRelevantRank case items text).map fun rank : Nat =>
      roundDecimal 6 (1 / (rank : Rat))).getD 0) := by
  unfold meanReciprocalRank
  rw [if_neg (fun none => (targetCount_zero case).mp none target)]
  cases firstRelevantRank case items text <;> rfl

end Scores

section ItemByItem
variable [CaseFold] {inputs : EvaluationMetricInputs}

theorem recallScore_none : recallScore inputs = none ↔ ¬HasTarget inputs.case := by
  rw [← targetCount_zero]
  simp [recallScore, calculateMetrics, recallAtK]

theorem mrrScore_none : mrrScore inputs = none ↔ ¬HasTarget inputs.case := by
  constructor
  · intro none target
    unfold mrrScore calculateMetrics at none
    simp only [meanReciprocalRank_some target] at none
    cases none
  · intro none
    simp only [mrrScore, calculateMetrics, meanReciprocalRank, if_pos (targetCount_zero _ |>.mpr none)]

theorem recallScore_unit : ∀ q ∈ recallScore inputs, 0 ≤ q ∧ q ≤ 1 := by
  intro q score
  by_cases target : HasTarget inputs.case
  · simp only [recallScore, calculateMetrics, recallAtK_some target, Option.mem_some_iff] at score
    rw [← score]
    exact ratio_unit
  · rw [recallScore_none.mpr target] at score
    cases score

variable (inputs) in
theorem recallScore_pos : ∀ q ∈ recallScore inputs, 0 < q ↔ targetCount inputs.case < 2000000 *
    matchedTargetCount inputs.case (sortedItems inputs.retrievedItems) (evidenceOf inputs) := by
  intro q score
  by_cases target : HasTarget inputs.case
  · simp only [recallScore, calculateMetrics, recallAtK_some target, Option.mem_some_iff] at score
    rw [← score]
    apply ratio_pos
    · exact Nat.pos_of_ne_zero fun none => (targetCount_zero _).mp none target
    · apply matchedTargetCount_le
  · rw [recallScore_none.mpr target] at score
    cases score

theorem mrrScore_unit (positive : ∀ item ∈ inputs.retrievedItems, 0 < item.rankOrder) :
    ∀ m ∈ mrrScore inputs, 0 ≤ m ∧ m ≤ 1 := by
  intro m score
  by_cases target : HasTarget inputs.case
  · simp only [mrrScore, calculateMetrics, meanReciprocalRank_some target,
      Option.mem_some_iff] at score
    rw [← score]
    cases first : firstRelevantRank inputs.case (sortedItems inputs.retrievedItems)
        (retrievalEvidenceText (sortedItems inputs.retrievedItems) inputs.citationSnippets) with
    | none => simp
    | some rank =>
      obtain ⟨item, member, rfl⟩ := firstRelevantRank_item first
      exact reciprocal_unit (positive item (mem_sortedItems.mp member))
  · rw [mrrScore_none.mpr target] at score
    cases score

theorem find_firstMatch {rank : Nat} :
    ((sortedItems inputs.retrievedItems).find? (matchesTarget inputs.case)).map (·.rankOrder) =
      some rank ↔ FirstMatch inputs.case inputs.retrievedItems rank := by
  have same : {r | ∃ item ∈ sortedItems inputs.retrievedItems,
      matchesTarget inputs.case item ∧ item.rankOrder = r} =
        {r | ∃ item ∈ inputs.retrievedItems, matchesTarget inputs.case item ∧ item.rankOrder = r} := by
    ext r
    simp only [Set.mem_ofPred_eq, mem_sortedItems]
  rw [find_least _ sortedItems_sorted, same, FirstMatch]

theorem find_noMatch : (sortedItems inputs.retrievedItems).find? (matchesTarget inputs.case) = none ↔
    ∀ item ∈ inputs.retrievedItems, ¬matchesTarget inputs.case item := by
  simp only [List.find?_eq_none, mem_sortedItems]

omit [CaseFold] in
theorem ItemWise.target {case : EvaluationCase} (each : ItemWise case) : HasTarget case := by
  rcases each with chunks | documents | keywords
  · exact .inl chunks
  · exact .inr (.inl documents)
  · exact .inr (.inr (.inl keywords))

variable (inputs) in
theorem mrrScore_itemwise (each : ItemWise inputs.case) : mrrScore inputs =
    some ((((sortedItems inputs.retrievedItems).find? (matchesTarget inputs.case)).map fun item =>
      roundDecimal 6 (1 / (item.rankOrder : Rat))).getD 0) := by
  simp only [mrrScore, calculateMetrics, meanReciprocalRank_some each.target,
    firstRelevantRank_itemwise each, Option.map_map, Function.comp_def]

theorem mrrScore_reciprocal (each : ItemWise inputs.case) : ∀ m ∈ mrrScore inputs,
    (∀ rank, FirstMatch inputs.case inputs.retrievedItems rank → m = roundDecimal 6 (1 / rank)) ∧
      ((∀ item ∈ inputs.retrievedItems, ¬matchesTarget inputs.case item) → m = 0) := by
  intro m score
  rw [mrrScore_itemwise _ each, Option.mem_some_iff] at score
  rw [← score]
  constructor
  · intro rank first
    obtain ⟨item, found, rfl⟩ := Option.map_eq_some_iff.mp (find_firstMatch.mpr first)
    simp only [found, Option.map_some, Option.getD_some]
  · intro none
    simp only [find_noMatch.mpr none, Option.map_none, Option.getD_none]

theorem mrrScore_pos (each : ItemWise inputs.case)
    (positive : ∀ item ∈ inputs.retrievedItems, 0 < item.rankOrder) : ∀ m ∈ mrrScore inputs,
      0 < m ↔ ∃ item ∈ inputs.retrievedItems, matchesTarget inputs.case item ∧
        item.rankOrder < 2000000 := by
  intro m score
  have ranks := mrrScore_reciprocal each m score
  cases found : (sortedItems inputs.retrievedItems).find? (matchesTarget inputs.case) with
  | none =>
    have nothing := find_noMatch.mp found
    rw [ranks.2 nothing]
    constructor
    · intro impossible
      exact absurd impossible (lt_irrefl 0)
    · rintro ⟨item, member, matched, _⟩
      exact absurd matched (nothing item member)
  | some item =>
    have first : FirstMatch inputs.case inputs.retrievedItems item.rankOrder := by
      apply find_firstMatch.mp
      rw [found, Option.map_some]
    have member := mem_sortedItems.mp (List.mem_of_find?_eq_some found)
    rw [ranks.1 _ first, reciprocal_pos (positive item member)]
    constructor
    · intro small
      exact ⟨item, member, List.find?_some found, small⟩
    · rintro ⟨other, there, matched, small⟩
      exact Nat.lt_of_le_of_lt (first.2 ⟨other, there, matched, rfl⟩) small

/-- The two scores are positive together where both are rounded to zero or none is. -/
theorem together_iff (each : ItemWise inputs.case)
    (positive : ∀ item ∈ inputs.retrievedItems, 0 < item.rankOrder) :
    (∀ q ∈ recallScore inputs, ∀ m ∈ mrrScore inputs, 0 < q ↔ 0 < m) ↔ Balanced inputs := by
  have mrr := mrrScore_pos each positive
  have recallAt := recallScore_pos inputs
  constructor
  · intro same
    obtain ⟨q, first⟩ := Option.ne_none_iff_exists'.mp fun none =>
      recallScore_none.mp none each.target
    obtain ⟨m, second⟩ := Option.ne_none_iff_exists'.mp fun none => mrrScore_none.mp none each.target
    unfold Balanced
    rw [← recallAt q first, ← mrr m second]
    exact same q first m second
  · intro balanced q first m second
    rw [recallAt q first, mrr m second]
    exact balanced

/-- A later item does not change the rank of the first match. -/
theorem mrrScore_grown (each : ItemWise inputs.case)
    (distinct : (inputs.retrievedItems.map (·.rankOrder)).Nodup) {item : RetrievedEvaluationItem}
    {larger : List RetrievedEvaluationItem}
    (last : ∀ other ∈ inputs.retrievedItems, other.rankOrder < item.rankOrder)
    (added : larger.Perm (item :: inputs.retrievedItems)) : ∀ m ∈ mrrScore inputs, m ≠ 0 →
      mrrScore { inputs with retrievedItems := larger } = some m := by
  intro m score some_match
  have found : (sortedItems inputs.retrievedItems).find? (matchesTarget inputs.case) ≠ none := by
    intro none
    exact some_match ((mrrScore_reciprocal each m score).2 (find_noMatch.mp none))
  obtain ⟨first, there⟩ := Option.ne_none_iff_exists'.mp found
  rw [mrrScore_itemwise _ each] at score
  rw [mrrScore_itemwise { inputs with retrievedItems := larger } each]
  simp only [sortedItems_added distinct last added, List.find?_append, there, Option.some_or] at score ⊢
  exact score

end ItemByItem

section Repetition
variable [CaseFold] {case other : EvaluationCase} {items : List RetrievedEvaluationItem}
variable {text : List Char}

omit [CaseFold] in
theorem Repeats.mem {A : Type} {old new : List A} (again : Repeats old new) (b : A) :
    b ∈ new ↔ b ∈ old := by
  obtain ⟨a, inside, same⟩ := again
  rw [same.mem_iff, List.mem_cons, or_iff_right_of_imp]
  rintro rfl
  exact inside

omit [CaseFold] in
theorem Repeats.any {A : Type} {old new : List A} (again : Repeats old new) (p : A → Bool) :
    new.any p = old.any p := by
  apply Bool.eq_iff_iff.mpr
  simp only [List.any_eq_true, again.mem]

omit [CaseFold] in
theorem Repeats.old {A : Type} {old new : List A} (again : Repeats old new) : old ≠ [] := by
  obtain ⟨a, inside, _⟩ := again
  exact List.ne_nil_of_mem inside

omit [CaseFold] in
theorem Repeats.new {A : Type} {old new : List A} (again : Repeats old new) : new ≠ [] := by
  obtain ⟨a, inside, same⟩ := again
  exact List.ne_nil_of_mem (same.mem_iff.mpr List.mem_cons_self)

omit [CaseFold] in
theorem RepeatsOne.target (again : RepeatsOne case other) : HasTarget case ∧ HasTarget other := by
  cases again with
  | chunk again => exact ⟨.inl again.old, .inl again.new⟩
  | document again => exact ⟨.inr (.inl again.old), .inr (.inl again.new)⟩
  | keyword again => exact ⟨.inr (.inr (.inl again.old)), .inr (.inr (.inl again.new))⟩

/-- Which elements a list has decides the first relevant rank, not how often. -/
theorem firstRelevantRank_repeated (again : RepeatsOne case other) :
    firstRelevantRank other items text = firstRelevantRank case items text := by
  unfold firstRelevantRank
  cases again with
  | chunk again => simp only [if_pos again.old, if_pos again.new, again.mem]
  | document again => simp only [if_pos again.old, if_pos again.new, again.mem]
  | keyword again =>
    simp only [if_pos again.old, if_pos again.new, again.any]

theorem mrrScore_repeated {inputs : EvaluationMetricInputs} (again : RepeatsOne inputs.case other) :
    mrrScore { inputs with case := other } = mrrScore inputs := by
  simp only [mrrScore, calculateMetrics, meanReciprocalRank_some again.target.1,
    meanReciprocalRank_some again.target.2, firstRelevantRank_repeated again]

omit [CaseFold] in
theorem Repeats.toFinset {old new : List Int} (again : Repeats old new) :
    new.toFinset = old.toFinset := by
  ext id
  simp only [List.mem_toFinset, again.mem]

theorem recallScore_repeated {inputs : EvaluationMetricInputs}
    (ids : inputs.case.expectedChunkIds ≠ [] ∨ inputs.case.expectedDocumentIds ≠ [])
    (again : RepeatsOne inputs.case other) :
    recallScore { inputs with case := other } = recallScore inputs := by
  simp only [recallScore, calculateMetrics, recallAtK_some again.target.1,
    recallAtK_some again.target.2]
  congr 2
  · unfold matchedTargetCount
    cases again with
    | chunk again => simp only [if_pos again.old, if_pos again.new, again.toFinset]
    | document again => simp only [if_pos again.old, if_pos again.new, again.toFinset]
    | keyword again =>
      rcases ids with chunks | documents
      · simp only [if_pos chunks]
      · simp only [if_pos documents]
  · unfold targetCount
    cases again with
    | chunk again => simp only [if_pos again.old, if_pos again.new, again.toFinset]
    | document again => simp only [if_pos again.old, if_pos again.new, again.toFinset]
    | keyword again =>
      rcases ids with chunks | documents
      · simp only [if_pos chunks]
      · simp only [if_pos documents]

end Repetition

section Keywords
variable [CaseFold] {inputs : EvaluationMetricInputs}

variable (inputs) in
theorem recallScore_keywords (bare : inputs.case.expectedChunkIds = [] ∧
    inputs.case.expectedDocumentIds = []) (keywords : inputs.case.expectedKeywords ≠ []) :
    recallScore inputs = some (ratio
      (keywordHits (evidenceOf inputs) inputs.case.expectedKeywords)
        inputs.case.expectedKeywords.length) := by
  simp only [recallScore, calculateMetrics, recallAtK_some (.inr (.inr (.inl keywords))),
    matchedTargetCount, targetCount, bare.1, bare.2, keywords, evidenceOf, ne_eq, not_true_eq_false,
    not_false_eq_true, if_true, if_false]

/-- Repeating keywords changes nothing where found and missing ones count alike. -/
theorem recallScore_alike (bare : inputs.case.expectedChunkIds = [] ∧
    inputs.case.expectedDocumentIds = []) (keywords : inputs.case.expectedKeywords ≠ []) :
    (∀ case, RepeatsOne inputs.case case →
        recallScore { inputs with case := case } = recallScore inputs) ↔
      CountsAlike (keywordHits (evidenceOf inputs) inputs.case.expectedKeywords)
        inputs.case.expectedKeywords.length := by
  have more (keyword : String) (list : List String)
      (same : list.Perm (keyword :: inputs.case.expectedKeywords)) :
      recallScore { inputs with case := { inputs.case with expectedKeywords := list } } =
        some (ratio (keywordHits (evidenceOf inputs) inputs.case.expectedKeywords +
          if holds keyword (evidenceOf inputs) then 1 else 0)
            (inputs.case.expectedKeywords.length + 1)) := by
    have some_keyword : list ≠ [] := List.ne_nil_of_mem (same.mem_iff.mpr List.mem_cons_self)
    have score := recallScore_keywords
      { inputs with case := { inputs.case with expectedKeywords := list } } bare some_keyword
    have evidence : evidenceOf { inputs with case := { inputs.case with expectedKeywords := list } } =
      evidenceOf inputs := rfl
    rw [score, evidence, keywordHits, same.countP_eq, same.length_eq, List.countP_cons,
      List.length_cons]
    rfl
  rw [recallScore_keywords _ bare keywords]
  constructor
  · intro repeated
    constructor
    · intro some_hit
      obtain ⟨keyword, member, found⟩ := List.countP_pos_iff.mp some_hit
      have same := repeated _ (.keyword ⟨keyword, member, .refl _⟩)
      rw [more keyword _ (.refl _), if_pos found] at same
      exact Option.some.inj same
    · intro some_miss
      obtain ⟨keyword, member, missing⟩ : ∃ keyword ∈ inputs.case.expectedKeywords,
          ¬holds keyword (evidenceOf inputs) := by
        by_contra all
        push Not at all
        have whole := List.countP_eq_length.mpr all
        unfold keywordHits at some_miss
        omega
      have same := repeated _ (.keyword ⟨keyword, member, .refl _⟩)
      rw [more keyword _ (.refl _), if_neg missing] at same
      exact Option.some.inj same
  · rintro ⟨hit, miss⟩ case again
    cases again with
    | chunk again => exact absurd bare.1 again.old
    | document again => exact absurd bare.2 again.old
    | keyword again =>
      obtain ⟨keyword, member, same⟩ := again
      rw [more keyword _ same]
      by_cases found : holds keyword (evidenceOf inputs)
      · rw [if_pos found, hit (List.countP_pos_iff.mpr ⟨keyword, member, found⟩)]
      · rw [if_neg found, Nat.add_zero, miss]
        apply Nat.lt_of_le_of_ne List.countP_le_length
        intro whole
        exact found (List.countP_eq_length.mp whole keyword member)

end Keywords

section Growth
variable [CaseFold] {inputs : EvaluationMetricInputs} {item : RetrievedEvaluationItem}
variable {larger : List RetrievedEvaluationItem}

omit [CaseFold] in
theorem evidenceOf_snippets (shown : snippetsOf inputs ≠ []) : evidenceOf inputs = snippetsOf inputs := by
  unfold snippetsOf at shown
  simp only [evidenceOf, retrievalEvidenceText, List.isEmpty_iff, if_neg shown, snippetsOf]

omit [CaseFold] in
/-- A later item adds its snippet, after a blank, to those before it. -/
theorem evidenceOf_larger (some_item : inputs.retrievedItems ≠ [])
    (distinct : (inputs.retrievedItems.map (·.rankOrder)).Nodup)
    (last : ∀ other ∈ inputs.retrievedItems, other.rankOrder < item.rankOrder)
    (added : larger.Perm (item :: inputs.retrievedItems)) :
    evidenceOf { inputs with retrievedItems := larger } =
      snippetsOf inputs ++ [' '] ++ item.snippet.toList := by
  have some_snippet : (sortedItems inputs.retrievedItems).map (·.snippet.toList) ≠ [] := by
    intro none
    have nothing := sortedItems_perm.symm.trans (.of_eq (List.map_eq_nil_iff.mp none))
    exact some_item nothing.eq_nil
  have snippets : snippetsOf { inputs with retrievedItems := larger } =
      snippetsOf inputs ++ [' '] ++ item.snippet.toList := by
    simp only [snippetsOf, sortedItems_added distinct last added, List.map_append, List.map_cons,
      List.map_nil, join_concat some_snippet]
  rw [evidenceOf_snippets (by simp [snippets]), snippets]

theorem matchedTargetCount_grown (ids : inputs.case.expectedChunkIds ≠ [] ∨
    inputs.case.expectedDocumentIds ≠ []) {items more : List RetrievedEvaluationItem}
    (inside : items ⊆ more) (text longer : List Char) :
    matchedTargetCount inputs.case items text ≤ matchedTargetCount inputs.case more longer := by
  unfold matchedTargetCount
  by_cases chunks : inputs.case.expectedChunkIds ≠ []
  · simp only [if_pos chunks]
    apply Finset.card_le_card
    apply Finset.inter_subset_inter_left
    intro id
    simp only [List.mem_toFinset]
    exact fun member => List.map_subset _ inside member
  · have documents := ids.resolve_left chunks
    simp only [if_neg chunks, if_pos documents]
    apply Finset.card_le_card
    apply Finset.inter_subset_inter_left
    intro id
    simp only [List.mem_toFinset]
    exact fun member => List.filterMap_subset _ inside member

theorem recallScore_grown (ids : inputs.case.expectedChunkIds ≠ [] ∨
    inputs.case.expectedDocumentIds ≠ []) (added : larger.Perm (item :: inputs.retrievedItems)) :
    ∀ q ∈ recallScore inputs, ∀ p ∈ recallScore { inputs with retrievedItems := larger },
      q ≤ p := by
  have target : HasTarget inputs.case := ids.imp_right .inl
  intro q first p second
  simp only [recallScore, calculateMetrics, recallAtK_some target, Option.mem_some_iff] at first second
  rw [← first, ← second]
  apply ratio_mono
  apply matchedTargetCount_grown ids
  intro other member
  rw [mem_sortedItems] at member ⊢
  exact added.mem_iff.mpr (List.mem_cons_of_mem _ member)

omit [CaseFold] in
theorem ranks_bounded (items : List RetrievedEvaluationItem) :
    ∃ rank, ∀ other ∈ items, other.rankOrder < rank := by
  induction items with
  | nil => exact ⟨0, by simp⟩
  | cons item items ih =>
    obtain ⟨rank, above⟩ := ih
    refine ⟨max rank (item.rankOrder + 1), fun other member => ?_⟩
    rcases List.mem_cons.mp member with rfl | later
    · omega
    · have := above other later
      omega

/-- Snippets that are not empty stay in the evidence; in the place of citations there is a blank. -/
theorem recallScore_fallback (bare : inputs.case.expectedChunkIds = [] ∧
    inputs.case.expectedDocumentIds = []) (keywords : inputs.case.expectedKeywords ≠ [])
    (some_item : inputs.retrievedItems ≠ [])
    (distinct : (inputs.retrievedItems.map (·.rankOrder)).Nodup) :
    (∀ item larger, (∀ other ∈ inputs.retrievedItems, other.rankOrder < item.rankOrder) →
        larger.Perm (item :: inputs.retrievedItems) → ∀ q ∈ recallScore inputs,
          ∀ p ∈ recallScore { inputs with retrievedItems := larger }, q ≤ p) ↔
      (snippetsOf inputs = [] →
        ratio (keywordHits (evidenceOf inputs) inputs.case.expectedKeywords)
            inputs.case.expectedKeywords.length ≤
          ratio (keywordHits [' '] inputs.case.expectedKeywords)
            inputs.case.expectedKeywords.length) := by
  have score (more : List RetrievedEvaluationItem) := recallScore_keywords
    { inputs with retrievedItems := more } bare keywords
  have present := recallScore_keywords _ bare keywords
  constructor
  · intro grown empty
    obtain ⟨rank, above⟩ := ranks_bounded inputs.retrievedItems
    let blank : RetrievedEvaluationItem := ⟨0, none, rank, ""⟩
    have last : ∀ other ∈ inputs.retrievedItems, other.rankOrder < blank.rankOrder := above
    have evidence := evidenceOf_larger some_item distinct last (.refl _)
    rw [empty] at evidence
    have bound := grown blank _ last (.refl _) _ present _ (score _)
    rw [evidence] at bound
    exact bound
  · intro fallback item larger last added q first p second
    rw [present, Option.mem_some_iff] at first
    rw [score, Option.mem_some_iff] at second
    rw [← first, ← second]
    have evidence := evidenceOf_larger some_item distinct last added
    dsimp only
    rw [evidence]
    by_cases empty : snippetsOf inputs = []
    · apply (fallback empty).trans
      apply ratio_mono
      apply keywordHits_part
      rw [empty]
      exact (List.prefix_append [' '] _).isInfix
    · rw [evidenceOf_snippets empty]
      apply ratio_mono
      apply keywordHits_part
      rw [List.append_assoc]
      exact (List.prefix_append _ _).isInfix

end Growth

section Answer
variable [CaseFold] {inputs : EvaluationMetricInputs}

/-- A case without expected lists. -/
structure AnswerOnly (case : EvaluationCase) : Prop where
  chunks : case.expectedChunkIds = []
  documents : case.expectedDocumentIds = []
  keywords : case.expectedKeywords = []

variable (inputs) in
theorem recallScore_answer (only : AnswerOnly inputs.case) {answer : String}
    (given : inputs.case.givenAnswer = some answer) :
    recallScore inputs = some (ratio (if holds answer (evidenceOf inputs) then 1 else 0) 1) := by
  have target : HasTarget inputs.case := by
    unfold HasTarget
    simp [given]
  simp only [recallScore, calculateMetrics, recallAtK_some target, matchedTargetCount, targetCount,
    expectedAnswerHit, only.chunks, only.documents, only.keywords, given, evidenceOf, ne_eq,
    not_true_eq_false, if_false, Option.any_some, Option.isSome_some, if_true]
  rfl

omit [CaseFold] in
theorem head_firstRank {items : List RetrievedEvaluationItem} (some_item : items ≠ []) :
    ∃ first, (sortedItems items).head?.map (·.rankOrder) = some first ∧ FirstRank items first := by
  have shown : sortedItems items ≠ [] := by
    intro none
    exact some_item (sortedItems_perm.symm.trans (.of_eq none)).eq_nil
  obtain ⟨item, rest, shape⟩ := List.exists_cons_of_ne_nil shown
  refine ⟨item.rankOrder, by rw [shape]; rfl, ?_⟩
  have least : IsLeast {r | ∃ item ∈ sortedItems items, true ∧ item.rankOrder = r} item.rankOrder :=
    (find_least (fun _ => true) sortedItems_sorted).mp (by rw [shape]; rfl)
  simpa only [mem_sortedItems, true_and, FirstRank] using least

variable (inputs) in
theorem mrrScore_answer (only : AnswerOnly inputs.case) (some_item : inputs.retrievedItems ≠ [])
    {answer : String} (given : inputs.case.givenAnswer = some answer) :
    ∃ first, FirstRank inputs.retrievedItems first ∧ mrrScore inputs = some
      (if holds answer (evidenceOf inputs) then roundDecimal 6 (1 / first) else 0) := by
  have target : HasTarget inputs.case := by
    unfold HasTarget
    simp [given]
  obtain ⟨first, head, least⟩ := head_firstRank some_item
  refine ⟨first, least, ?_⟩
  simp only [mrrScore, calculateMetrics, meanReciprocalRank_some target, firstRelevantRank,
    only.chunks, only.documents, only.keywords, given, ne_eq, not_true_eq_false, if_false,
    Option.any_some, head, evidenceOf]
  split
  · next found => exact congrArg some (if_pos found).symm
  · next missing => exact congrArg some (if_neg missing).symm

/-- What a snippet of an item holds, the evidence holds. -/
theorem holds_evidence {needle : String} {item : RetrievedEvaluationItem}
    (member : item ∈ inputs.retrievedItems) (found : holds needle item.snippet.toList = true) :
    holds needle (evidenceOf inputs) = true := by
  have inside : item.snippet.toList <:+: snippetsOf inputs :=
    join_part (List.mem_map_of_mem (mem_sortedItems.mpr member))
  by_cases empty : snippetsOf inputs = []
  · rw [empty, List.infix_nil] at inside
    rw [inside] at found
    exact holds_part List.nil_infix found
  · rw [evidenceOf_snippets empty]
    exact holds_part inside found

theorem matchesTarget_answer (only : AnswerOnly inputs.case) {answer : String}
    (given : inputs.case.givenAnswer = some answer) (item : RetrievedEvaluationItem) :
    matchesTarget inputs.case item = holds answer item.snippet.toList := by
  simp only [matchesTarget, only.chunks, only.documents, only.keywords, given, ne_eq,
    not_true_eq_false, if_false, Option.any_some]

omit [CaseFold] in
theorem AnswerOnly.not_repeated {case other : EvaluationCase} (only : AnswerOnly case)
    (again : RepeatsOne case other) : False := by
  cases again with
  | chunk again => exact again.old only.chunks
  | document again => exact again.old only.documents
  | keyword again => exact again.old only.keywords

theorem firstMatch_exists {item : RetrievedEvaluationItem} (member : item ∈ inputs.retrievedItems)
    (matched : matchesTarget inputs.case item) :
    ∃ rank, FirstMatch inputs.case inputs.retrievedItems rank := by
  cases found : (sortedItems inputs.retrievedItems).find? (matchesTarget inputs.case) with
  | none => exact absurd matched (find_noMatch.mp found item member)
  | some first => exact ⟨first.rankOrder, find_firstMatch.mp (by rw [found, Option.map_some])⟩

omit [CaseFold] in
theorem FirstRank.grown {items larger : List RetrievedEvaluationItem} {first : Nat}
    {item : RetrievedEvaluationItem} (least : FirstRank items first)
    (last : ∀ other ∈ items, other.rankOrder < item.rankOrder)
    (added : larger.Perm (item :: items)) : FirstRank larger first := by
  obtain ⟨⟨head, member, rank⟩, before⟩ := least
  constructor
  · exact ⟨head, added.mem_iff.mpr (List.mem_cons_of_mem _ member), rank⟩
  · rintro r ⟨other, there, rfl⟩
    rcases List.mem_cons.mp (added.mem_iff.mp there) with rfl | old
    · have above := last head member
      omega
    · exact before ⟨other, old, rfl⟩

/-- The scores for an expected answer agree where the evidence has it from an item that counts as
the first one does. -/
theorem consistent_answer (only : AnswerOnly inputs.case)
    (some_item : inputs.retrievedItems ≠ [])
    (positive : ∀ item ∈ inputs.retrievedItems, 0 < item.rankOrder) :
    Consistent inputs ↔ AnswerAgrees inputs := by
  cases given : inputs.case.givenAnswer with
  | none =>
    have no_target : ¬HasTarget inputs.case := by
      unfold HasTarget
      simp [only.chunks, only.documents, only.keywords, given]
    have recallAt := recallScore_none.mpr no_target
    have mrr := mrrScore_none.mpr no_target
    constructor
    · intro _ answer some_answer
      rw [given] at some_answer
      cases some_answer
    · intro _
      refine ⟨recallScore_none, mrrScore_none, recallScore_unit, mrrScore_unit positive, ?_, ?_, ?_,
        fun _ again => (only.not_repeated again).elim⟩
      · simp [recallAt]
      · simp [mrr]
      · simp [recallAt, mrr]
  | some answer =>
    have recallAt := recallScore_answer _ only given
    obtain ⟨first, least, mrr⟩ := mrrScore_answer _ only some_item given
    have low : 0 < first := by
      obtain ⟨item, member, rfl⟩ := least.1
      exact positive item member
    constructor
    · intro consistent other some_answer found
      obtain rfl : answer = other := Option.some.inj (given.symm.trans some_answer)
      rw [if_pos found] at recallAt mrr
      have counts := (consistent.together _ recallAt _ mrr).mp ratio_one
      obtain ⟨ranks, nothing⟩ := consistent.reciprocal _ mrr
      obtain ⟨item, member, matched⟩ : ∃ item ∈ inputs.retrievedItems,
          matchesTarget inputs.case item := by
        by_contra none
        push Not at none
        have zero := nothing fun item member => by simpa using none item member
        exact absurd zero (ne_of_gt counts)
      obtain ⟨rank, match_⟩ := firstMatch_exists member matched
      exact ⟨rank, first, match_, least, (reciprocal_pos low).mp counts, (ranks rank match_).symm⟩
    · intro agrees
      have shown (larger : List RetrievedEvaluationItem) := recallScore_answer
        { inputs with retrievedItems := larger } only given
      by_cases found : holds answer (evidenceOf inputs)
      · obtain ⟨rank, head, match_, other, small, same⟩ := agrees answer given found
        obtain rfl := least.unique other
        obtain ⟨item, member, matched, _⟩ := match_.1
        rw [if_pos found] at recallAt mrr
        refine ⟨recallScore_none, mrrScore_none, recallScore_unit, mrrScore_unit positive, ?_, ?_, ?_,
          fun _ again => (only.not_repeated again).elim⟩
        · intro q score m second
          obtain rfl := Option.some.inj (recallAt.symm.trans score)
          obtain rfl := Option.some.inj (mrr.symm.trans second)
          exact iff_of_true ratio_one ((reciprocal_pos low).mpr small)
        · intro m score
          obtain rfl := Option.some.inj (mrr.symm.trans score)
          constructor
          · intro r another
            rw [another.unique match_]
            exact same.symm
          · intro nothing
            exact absurd matched (nothing item member)
        · intro added larger last perm
          have still : holds answer (evidenceOf { inputs with retrievedItems := larger }) := by
            apply holds_evidence (perm.mem_iff.mpr (List.mem_cons_of_mem _ member))
            rw [← matchesTarget_answer only given]
            exact matched
          have some_more : larger ≠ [] := List.ne_nil_of_mem (perm.mem_iff.mpr List.mem_cons_self)
          obtain ⟨other, again, more⟩ := mrrScore_answer
            { inputs with retrievedItems := larger } only some_more given
          obtain rfl := (least.grown last perm).unique again
          rw [if_pos still] at more
          constructor
          · intro q score p later
            have one := shown larger
            rw [if_pos still] at one
            obtain rfl := Option.some.inj (recallAt.symm.trans score)
            obtain rfl := Option.some.inj (one.symm.trans later)
            exact le_refl _
          · intro m score _
            rw [more, ← mrr, score]
      · rw [if_neg found] at recallAt mrr
        have nothing : ∀ item ∈ inputs.retrievedItems, ¬matchesTarget inputs.case item := by
          intro item member matched
          rw [matchesTarget_answer only given] at matched
          exact found (holds_evidence member matched)
        refine ⟨recallScore_none, mrrScore_none, recallScore_unit, mrrScore_unit positive, ?_, ?_, ?_,
          fun _ again => (only.not_repeated again).elim⟩
        · intro q score m second
          obtain rfl := Option.some.inj (recallAt.symm.trans score)
          obtain rfl := Option.some.inj (mrr.symm.trans second)
          rw [ratio_zero]
        · intro m score
          obtain rfl := Option.some.inj (mrr.symm.trans score)
          constructor
          · intro rank match_
            obtain ⟨item, member, matched, _⟩ := match_.1
            exact absurd matched (nothing item member)
          · exact fun _ => rfl
        · intro added larger last perm
          constructor
          · intro q score p later
            obtain rfl := Option.some.inj (recallAt.symm.trans score)
            rw [ratio_zero]
            exact (recallScore_unit p later).1
          · intro m score some_match
            obtain rfl := Option.some.inj (mrr.symm.trans score)
            exact absurd rfl some_match

end Answer

section Claim
variable [CaseFold]

end Claim

section Straddling

/-- A keyword of two words, one of them in each snippet. -/
def straddling : RankedInputs where
  case := ⟨"case", ["data base"], none, [], []⟩
  citationSnippets := []
  retrievedItems := [⟨1, none, 1, "data"⟩, ⟨2, none, 2, "base"⟩]
  some_item := by decide
  distinct := by decide
  positive := by decide

end Straddling

end RagProject.Evaluation
