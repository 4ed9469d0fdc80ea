import RagProject.Retrieval.FusionDominance

/-! What a fusion returns: the ranking of the chunks by their raw scores. -/
namespace RagProject.Retrieval
open Python

section Ranked

variable {denseCandidates sparseCandidates : List VectorSearchCandidate} {limit rrfK : Nat}
  {denseWeight sparseWeight : Rat}

theorem fuseCandidates_eq (method : FusionMethod) (positive : 1 ≤ limit) :
    fuseCandidates denseCandidates sparseCandidates method limit rrfK denseWeight sparseWeight =
      ((Ranking.ranked fusionKey (scoredInputs method
        (dedupeCandidates denseCandidates sparseCandidates) rrfK denseWeight sparseWeight)
        limit).zipIdx 1).map (fusedCandidate method) := by
  unfold fuseCandidates
  rw [if_neg (by omega)]
  by_cases empty : dedupeCandidates denseCandidates sparseCandidates = []
  · have nothing : scoredInputs method [] rrfK denseWeight sparseWeight = [] := by
      cases method with
      | rrf => rfl
      | weighted =>
        simp only [scoredInputs, weightedFusion]
        split_ifs <;> rfl
    rw [if_pos empty, empty, nothing]
    simp [Ranking.ranked]
  · exact if_neg empty

/-- Scores that keep the order of the raw ones give the ranking by the raw ones. -/
theorem fuse_listed {method : FusionMethod} {eligible : List FusionInput}
    {raw : FusionInput → Rat} {f : Rat → Rat} (positive : 1 ≤ limit)
    (scored : scoredInputs method (dedupeCandidates denseCandidates sparseCandidates) rrfK
      denseWeight sparseWeight = eligible.map fun input => (input, f (raw input)))
    (keeps : KeepsOrder raw f eligible) :
    fuseCandidates denseCandidates sparseCandidates method limit rrfK denseWeight sparseWeight =
      listed method (fun input => f (raw input)) (Ranking.ranked (rawKey raw) eligible limit) := by
  rw [fuseCandidates_eq method positive, scored, ranked_raw keeps]
  rfl

end Ranked

section Reciprocal

/-- What holds of the candidates that rank fusion returns for two lists. -/
structure RrfRanking (lists : Source → List VectorSearchCandidate) (weight : Source → Rat)
    (limit : Nat) (result : List FusedCandidate) : Prop where
  few : result.length ≤ limit
  distinct : (result.map (·.documentChunkId)).Nodup
  unit : ∀ c ∈ result, 0 ≤ c.fusedScore ∧ c.fusedScore ≤ 1 ∧ c.retrievalScore = c.fusedScore
  falling : result.Pairwise fun c d => d.fusedScore ≤ c.fusedScore
  first : ∀ c ∈ result.head?, c.fusedScore = 1
  order : result.map (·.qdrantOrder) = List.range' 1 result.length
  complete : ∀ id source, 0 < weight source → (firstRank (lists source) id).isSome →
    id ∈ result.map (·.documentChunkId) ∨ result.length = limit
  dominance : ∀ a b, Dominates lists weight a b → b ∈ result.map (·.documentChunkId) →
    [a, b].Sublist (result.map (·.documentChunkId))

variable {lists : Source → List VectorSearchCandidate} {inputs : List FusionInput} {rrfK : Nat}
  {denseWeight sparseWeight top : Rat} {limit : Nat}

theorem share_bounds {raw : FusionInput → Rat} (above : 0 < top)
    (bound : ∀ input ∈ inputs, raw input ≤ top) {input : FusionInput}
    (member : input ∈ inputs.filter fun input => 0 < raw input) :
    0 ≤ roundDecimal 6 (raw input / top) ∧ roundDecimal 6 (raw input / top) ≤ 1 := by
  obtain ⟨inside, chosen⟩ := List.mem_filter.mp member
  have more : 0 < raw input := of_decide_eq_true chosen
  have zero : roundDecimal 6 (0 : Rat) = 0 := by exact_mod_cast roundDecimal_int 0
  have one : roundDecimal 6 (1 : Rat) = 1 := by exact_mod_cast roundDecimal_int 1
  constructor
  · rw [← zero]
    exact roundDecimal_mono (div_nonneg (le_of_lt more) (le_of_lt above))
  · rw [← one]
    exact roundDecimal_mono ((div_le_one above).mpr (bound input inside))

/-- The one with the greatest score leads the ranking. -/
theorem first_ranked {raw : FusionInput → Rat} (bound : ∀ input ∈ inputs, raw input ≤ top)
    (reached : (∃ input ∈ inputs, 0 < raw input) → ∃ input ∈ inputs, raw input = top)
    {input : FusionInput}
    (leads : input ∈ (Ranking.ranked (rawKey raw)
      (inputs.filter fun input => 0 < raw input) limit).head?) :
    raw input = top := by
  have ranked := List.mem_of_mem_head? leads
  obtain ⟨inside, chosen⟩ := List.mem_filter.mp (Ranking.ranked_subset ranked)
  have more : 0 < raw input := of_decide_eq_true chosen
  obtain ⟨best, member, same⟩ := reached ⟨input, inside, more⟩
  apply le_antisymm (bound input inside)
  rw [← same]
  by_contra behind
  have eligible : best ∈ inputs.filter fun input => 0 < raw input :=
    List.mem_filter.mpr ⟨member, decide_eq_true (lt_trans more (not_le.mp behind))⟩
  have before := Ranking.ranked_before eligible (rawKey_lt (not_le.mp behind)) ranked
  -- the head stands before itself, behind another input
  have sorted : (Ranking.ranked (rawKey raw) (inputs.filter fun input => 0 < raw input)
      limit).Pairwise fun a b => rawKey raw a ≤ rawKey raw b := Ranking.ranked_sorted
  generalize Ranking.ranked (rawKey raw) (inputs.filter fun input => 0 < raw input) limit =
    ranking at leads before sorted
  cases ranking with
  | nil => cases leads
  | cons head rest =>
    obtain rfl : head = input := by simpa using leads
    rcases List.mem_cons.mp (before.subset List.mem_cons_self) with rfl | later
    · exact behind (le_refl _)
    · exact behind (raw_of_key ((List.pairwise_cons.mp sorted).1 best later))

theorem rrf_ranking (deduped : Deduped lists inputs) (denseWeighs : 0 ≤ denseWeight)
    (sparseWeighs : 0 ≤ sparseWeight) (above : 0 < top)
    (bound : ∀ input ∈ inputs, rrfScore rrfK denseWeight sparseWeight input ≤ top)
    (reached : (∃ input ∈ inputs, 0 < rrfScore rrfK denseWeight sparseWeight input) →
      ∃ input ∈ inputs, rrfScore rrfK denseWeight sparseWeight input = top) :
    RrfRanking lists (weightOf denseWeight sparseWeight) limit
      (listed .rrf (fun input => rrfScore rrfK denseWeight sparseWeight input / top)
        (Ranking.ranked (rawKey (rrfScore rrfK denseWeight sparseWeight))
          (inputs.filter fun input => 0 < rrfScore rrfK denseWeight sparseWeight input) limit)) := by
  set raw := rrfScore rrfK denseWeight sparseWeight with raw_def
  set eligible := inputs.filter fun input => 0 < raw input with eligible_def
  have scoreOf {c : FusedCandidate} (member : c ∈ listed .rrf (fun input => raw input / top)
      (Ranking.ranked (rawKey raw) eligible limit)) :
      ∃ input ∈ Ranking.ranked (rawKey raw) eligible limit,
        c.fusedScore = roundDecimal 6 (raw input / top) := by
    have shown := List.mem_map_of_mem (f := (·.fusedScore)) member
    rw [listed_scores] at shown
    obtain ⟨input, inside, same⟩ := List.mem_map.mp shown
    exact ⟨input, inside, same.symm⟩
  have known {id : Nat} (member : id ∈ (Ranking.ranked (rawKey raw) eligible limit).map
      (·.documentChunkId)) : ∃ input ∈ eligible, input.documentChunkId = id ∧
        input ∈ Ranking.ranked (rawKey raw) eligible limit := by
    obtain ⟨input, inside, same⟩ := List.mem_map.mp member
    exact ⟨input, Ranking.ranked_subset inside, same, inside⟩
  constructor
  case few =>
    rw [listed_length, Ranking.ranked_length]
    exact Nat.min_le_left _ _
  case distinct =>
    rw [listed_ids]
    exact Ranking.ranked_nodup _ (deduped.distinct.sublist (List.filter_sublist.map _))
  case unit =>
    intro c member
    obtain ⟨input, inside, same⟩ := scoreOf member
    obtain ⟨low, high⟩ := share_bounds above bound (Ranking.ranked_subset inside)
    rw [same]
    exact ⟨low, high, (listed_scored _ _ _ member).trans same⟩
  case falling =>
    rw [← List.pairwise_map (f := fun c : FusedCandidate => c.fusedScore)
      (R := fun first second : Rat => second ≤ first), listed_scores, List.pairwise_map]
    refine Ranking.ranked_sorted.imp fun le => roundDecimal_mono ?_
    exact div_le_div_of_nonneg_right (raw_of_key le) (le_of_lt above)
  case first =>
    intro c leads
    have score : c.fusedScore ∈ ((listed .rrf (fun input => raw input / top)
        (Ranking.ranked (rawKey raw) eligible limit)).map (·.fusedScore)).head? := by
      rw [List.head?_map]
      exact Option.mem_map_of_mem _ leads
    rw [listed_scores, List.head?_map] at score
    obtain ⟨input, first, same⟩ := Option.mem_map.mp score
    rw [← same, first_ranked bound reached first, div_self (ne_of_gt above)]
    exact_mod_cast roundDecimal_int 1
  case order =>
    rw [listed_order, listed_length]
  case complete =>
    intro id source counts occurs
    obtain ⟨input, member, rfl, positive⟩ :=
      rrfScore_pos rrfK deduped denseWeighs sparseWeighs counts occurs
    have inside : input ∈ eligible := List.mem_filter.mpr ⟨member, decide_eq_true positive⟩
    rw [listed_ids, listed_length]
    exact (Ranking.ranked_or_full inside).imp_left fun shown => List.mem_map_of_mem shown
  case dominance =>
    intro a b dominates shown
    rw [listed_ids] at shown ⊢
    obtain ⟨second, inside, rfl, ranked⟩ := known shown
    obtain ⟨secondIn, chosen⟩ := List.mem_filter.mp inside
    have positive : 0 < raw second := of_decide_eq_true chosen
    obtain ⟨source, counts, occurs⟩ :=
      positive_occurs deduped denseWeighs sparseWeighs secondIn positive
    obtain ⟨r, place⟩ := Option.isSome_iff_exists.mp occurs
    obtain ⟨q, ahead, _⟩ := dominates.ahead source counts r place
    obtain ⟨first, firstIn, rfl⟩ := (deduped.present a).mpr ⟨source, by rw [ahead]; rfl⟩
    have more := rrfScore_dominates deduped denseWeighs sparseWeighs firstIn secondIn dominates positive
    have counted : first ∈ eligible :=
      List.mem_filter.mpr ⟨firstIn, decide_eq_true (lt_trans positive more)⟩
    exact (Ranking.ranked_before counted (rawKey_lt more) ranked).map (·.documentChunkId)

end Reciprocal

section Weighted

/-- A score, moved and scaled into the range of the scores of its list. -/
def minMaxScore (scores : List Rat) (score : Rat) : Rat :=
  match scores.min?, scores.max? with
  | some low, some high => if high = low then 1 else (score - low) / (high - low)
  | _, _ => 0

def sourceScores (inputs : List FusionInput) (source : Source) : List Rat :=
  inputs.filterMap (·.score source)

/-- The raw weighted sum of an input. -/
def weightedSum (inputs : List FusionInput) (denseWeight sparseWeight : Rat)
    (input : FusionInput) : Rat :=
  (input.denseScore.elim 0 (minMaxScore (sourceScores inputs .dense))) * denseWeight +
    (input.sparseScore.elim 0 (minMaxScore (sourceScores inputs .sparse))) * sparseWeight

/-- The order of the inputs by their raw weighted sums, before it is cut. -/
structure WeightedOrder (inputs : List FusionInput) (denseWeight sparseWeight : Rat)
    (full : List FusionInput) : Prop where
  all : full.Perm (inputs.filter (hasPositiveWeightedSource denseWeight sparseWeight))
  sorted : full.Pairwise fun a b => rawKey (weightedSum inputs denseWeight sparseWeight) a ≤
    rawKey (weightedSum inputs denseWeight sparseWeight) b

variable {lists : Source → List VectorSearchCandidate} {inputs : List FusionInput}
  {denseWeight sparseWeight : Rat}

/-- A chunk with a score in a list has a rank in it. -/
theorem Deduped.ranked_of_score (deduped : Deduped lists inputs) {input : FusionInput}
    (member : input ∈ inputs) (source : Source) (scored : (input.score source).isSome) :
    (input.rank source).isSome := by
  rw [deduped.score input member source] at scored
  rw [deduped.rank input member source]
  unfold firstRank
  rw [Option.isSome_map, List.findIdx?_isSome, List.any_eq_true]
  obtain ⟨q, best⟩ := Option.isSome_iff_exists.mp scored
  obtain ⟨c, member, _⟩ := List.mem_filterMap.mp (List.max?_mem best)
  exact ⟨c, (List.mem_filter.mp member).1, (List.mem_filter.mp member).2⟩

theorem Deduped.scoreBounds_eq (deduped : Deduped lists inputs) (source : Source) :
    (inputs.filter fun input => (input.rank source).isSome).filterMap (·.score source) =
      sourceScores inputs source := by
  rw [List.filterMap_filter]
  apply List.filterMap_congr
  intro input member
  cases scored : input.score source with
  | none => exact ite_self none
  | some q =>
    have ranked := deduped.ranked_of_score member source (by rw [scored]; rfl)
    rw [if_pos ranked]

/-- The normalized score of an input is not changed by the clamp. -/
theorem Deduped.normalized_eq (deduped : Deduped lists inputs) {input : FusionInput}
    (member : input ∈ inputs) (source : Source) :
    normalizedSourceScore (input.score source) (scoreBounds inputs source) =
      (input.score source).elim 0 (minMaxScore (sourceScores inputs source)) := by
  unfold scoreBounds
  rw [deduped.scoreBounds_eq source]
  cases scored : input.score source with
  | none => rfl
  | some q =>
    have here : q ∈ sourceScores inputs source := List.mem_filterMap.mpr ⟨input, member, scored⟩
    simp only [Option.elim_some, minMaxScore]
    cases least : (sourceScores inputs source).min? with
    | none =>
      rw [List.min?_eq_none_iff] at least
      rw [least] at here
      cases here
    | some low =>
      cases greatest : (sourceScores inputs source).max? with
      | none =>
        rw [List.max?_eq_none_iff] at greatest
        rw [greatest] at here
        cases here
      | some high =>
        have below := (List.min?_eq_some_iff.mp least).2 q here
        have above := (List.max?_eq_some_iff.mp greatest).2 q here
        simp only [normalizedSourceScore]
        by_cases flat : high = low
        · rw [if_pos flat, if_pos flat]
        · have range : 0 < high - low :=
            sub_pos.mpr (lt_of_le_of_ne (le_trans below above) (Ne.symm flat))
          rw [if_neg flat, if_neg flat, clamp_of_bounds
            (div_nonneg (sub_nonneg.mpr below) (le_of_lt range))
            ((div_le_one range).mpr (sub_le_sub_right above low))]

theorem Deduped.weightedScore_eq (deduped : Deduped lists inputs) (denseWeight sparseWeight : Rat)
    {input : FusionInput} (member : input ∈ inputs) :
    weightedScore inputs denseWeight sparseWeight input =
      weightedSum inputs denseWeight sparseWeight input / (denseWeight + sparseWeight) := by
  have dense := deduped.normalized_eq member .dense
  have sparse := deduped.normalized_eq member .sparse
  simp only [FusionInput.score] at dense sparse
  rw [weightedScore, weightedSum, dense, sparse]

/-- The scores of a weighted fusion keep the order of the raw weighted sums. -/
theorem weighted_scored (deduped : Deduped lists inputs) (total : 0 < denseWeight + sparseWeight)
    (rrfK : Nat) :
    ∃ f : Rat → Rat, KeepsOrder (weightedSum inputs denseWeight sparseWeight) f
        (inputs.filter (hasPositiveWeightedSource denseWeight sparseWeight)) ∧
      scoredInputs .weighted inputs rrfK denseWeight sparseWeight =
        (inputs.filter (hasPositiveWeightedSource denseWeight sparseWeight)).map fun input =>
          (input, f (weightedSum inputs denseWeight sparseWeight input)) := by
  obtain ⟨f, keeps, scored⟩ := normalizeShiftedScores_eq
    (inputs.filter (hasPositiveWeightedSource denseWeight sparseWeight))
    (weightedScore inputs denseWeight sparseWeight)
  have share {input : FusionInput}
      (member : input ∈ inputs.filter (hasPositiveWeightedSource denseWeight sparseWeight)) :=
    deduped.weightedScore_eq denseWeight sparseWeight (List.mem_filter.mp member).1
  refine ⟨fun q => f (q / (denseWeight + sparseWeight)), ⟨fun a ha b hb => ?_⟩, ?_⟩
  · have same := keeps.le_iff a ha b hb
    rw [share ha, share hb, div_le_div_iff_of_pos_right total] at same
    exact same
  · simp only [scoredInputs, weightedFusion]
    rw [if_neg (not_le.mpr total), scored]
    apply List.map_congr_left
    intro input member
    rw [share member]

end Weighted

section Fusion

variable {denseWeight sparseWeight : Rat}

/-- What fusion returns follows the raw scores: reciprocal ranks respect dominance, the weighted
order is that of the weighted sums, and a smaller limit only cuts. -/
theorem fusion_respects_dominance (denseCandidates sparseCandidates : List VectorSearchCandidate)
    (rrfK : Nat) (denseWeighs : 0 ≤ denseWeight) (sparseWeighs : 0 ≤ sparseWeight)
    (some_weighs : denseWeight ≠ 0 ∨ sparseWeight ≠ 0) :
    let lists := listsOf denseCandidates sparseCandidates
    let inputs := dedupeCandidates denseCandidates sparseCandidates
    let fuse method limit :=
      fuseCandidates denseCandidates sparseCandidates method limit rrfK denseWeight sparseWeight
    (∀ limit, 1 ≤ limit →
      RrfRanking lists (weightOf denseWeight sparseWeight) limit (fuse .rrf limit)) ∧
    (Deduped lists inputs ∧ ∃ full, WeightedOrder inputs denseWeight sparseWeight full ∧
      ∀ limit, 1 ≤ limit → (fuse .weighted limit).map (·.documentChunkId) =
        (full.take limit).map (·.documentChunkId)) ∧
    ∀ method smaller limit, 1 ≤ smaller → smaller ≤ limit →
      fuse method smaller = (fuse method limit).take smaller := by
  intro lists inputs fuse
  have deduped : Deduped lists inputs := dedupeCandidates_ok denseCandidates sparseCandidates
  have total : 0 < denseWeight + sparseWeight := by
    rcases some_weighs with dense | sparse
    · exact add_pos_of_pos_of_nonneg (lt_of_le_of_ne denseWeighs (Ne.symm dense)) sparseWeighs
    · exact add_pos_of_nonneg_of_pos denseWeighs (lt_of_le_of_ne sparseWeighs (Ne.symm sparse))
  obtain ⟨top, above, bound, reached, shares⟩ :=
    normalizeFusedScores_eq inputs (rrfScore rrfK denseWeight sparseWeight)
  obtain ⟨f, keeps, sums⟩ := weighted_scored deduped total rrfK
  have reciprocals : KeepsOrder (rrfScore rrfK denseWeight sparseWeight) (· / top)
      (inputs.filter fun input => 0 < rrfScore rrfK denseWeight sparseWeight input) :=
    ⟨fun _ _ _ _ => div_le_div_iff_of_pos_right above⟩
  have scored : scoredInputs .rrf inputs rrfK denseWeight sparseWeight =
      (inputs.filter fun input => 0 < rrfScore rrfK denseWeight sparseWeight input).map
        fun input => (input, rrfScore rrfK denseWeight sparseWeight input / top) := shares
  have rrf (limit : Nat) (positive : 1 ≤ limit) := fuse_listed positive scored reciprocals
  have weighted (limit : Nat) (positive : 1 ≤ limit) := fuse_listed positive sums keeps
  refine ⟨fun limit positive => ?_, ⟨deduped, ?_⟩, fun method smaller limit positive le => ?_⟩
  · show RrfRanking lists _ limit (fuseCandidates _ _ _ _ _ _ _)
    rw [rrf limit positive]
    exact rrf_ranking deduped denseWeighs sparseWeighs above bound reached
  · refine ⟨_, ⟨List.perm_insertionSort _ _, Ranking.sorted_ranking _ _⟩, fun limit positive => ?_⟩
    show (fuseCandidates _ _ _ _ _ _ _).map _ = _
    rw [weighted limit positive, listed_ids]
    rfl
  · show fuseCandidates _ _ _ _ _ _ _ = (fuseCandidates _ _ _ _ _ _ _).take smaller
    cases method with
    | rrf =>
      rw [rrf smaller positive, rrf limit (le_trans positive le), ← listed_take,
        ← Ranking.ranked_take le]
    | weighted =>
      rw [weighted smaller positive, weighted limit (le_trans positive le), ← listed_take,
        ← Ranking.ranked_take le]

theorem fusion_of_two_lists :
    RrfRanking (listsOf [⟨some 1, .finite 1⟩, ⟨some 2, .nonFinite⟩] [⟨some 2, .finite 1⟩])
      (weightOf 1 0) 1
      (fuseCandidates [⟨some 1, .finite 1⟩, ⟨some 2, .nonFinite⟩] [⟨some 2, .finite 1⟩]
        .rrf 1 60 1 0) :=
  (fusion_respects_dominance [⟨some 1, .finite 1⟩, ⟨some 2, .nonFinite⟩] [⟨some 2, .finite 1⟩] 60
    (by norm_num : (0 : Rat) ≤ 1) (by norm_num : (0 : Rat) ≤ 0) (.inl (by norm_num))).1 1 (by decide)

end Fusion

end RagProject.Retrieval
