import Mathlib.Data.List.Induction
import Mathlib.Tactic.FieldSimp
import RagProject.Retrieval.Fusion

/-! What the fusion knows of a chunk after the lists were merged, and which order the normalized
scores give. -/
namespace RagProject.Retrieval
open Python

section Occurrences

def isChunk (id : Nat) (candidate : VectorSearchCandidate) : Bool :=
  candidate.documentChunkId = some id

/-- The number of the first occurrence of a chunk in a list. -/
def firstRank (candidates : List VectorSearchCandidate) (id : Nat) : Option Nat :=
  (candidates.findIdx? (isChunk id)).map (· + 1)

/-- The best finite score of a chunk in a list. -/
def bestScore (candidates : List VectorSearchCandidate) (id : Nat) : Option Rat :=
  ((candidates.filter (isChunk id)).filterMap fun c => finiteScore c.retrievalScore).max?

variable {candidates : List VectorSearchCandidate} {c : VectorSearchCandidate} {id : Nat}

theorem firstRank_bounds {rank : Nat} (found : firstRank candidates id = some rank) :
    1 ≤ rank ∧ rank ≤ candidates.length := by
  obtain ⟨i, place, rfl⟩ := Option.map_eq_some_iff.mp found
  obtain ⟨inside, _⟩ := List.findIdx?_eq_some_iff_getElem.mp place
  omega

theorem firstRank_append_other (other : c.documentChunkId ≠ some id) :
    firstRank (candidates ++ [c]) id = firstRank candidates id := by
  have miss : isChunk id c = false := by simpa [isChunk] using other
  unfold firstRank
  rw [List.findIdx?_append]
  simp [miss]

theorem firstRank_append_same (same : c.documentChunkId = some id) :
    firstRank (candidates ++ [c]) id =
      some ((firstRank candidates id).getD (candidates.length + 1)) := by
  have hit : isChunk id c = true := by simpa [isChunk] using same
  unfold firstRank
  rw [List.findIdx?_append]
  cases candidates.findIdx? (isChunk id) <;> simp [hit]

theorem bestScore_append_other (other : c.documentChunkId ≠ some id) :
    bestScore (candidates ++ [c]) id = bestScore candidates id := by
  have miss : isChunk id c = false := by simpa [isChunk] using other
  simp [bestScore, List.filter_append, miss]

theorem max?_concat (scores : List Rat) (score : Option Rat) :
    (scores ++ score.toList).max? = maxOptionalScore scores.max? score := by
  cases score with
  | none => cases h : scores.max? <;> simp [maxOptionalScore, h]
  | some q =>
    cases scores with
    | nil => rfl
    | cons first scores =>
      rw [Option.toList_some, List.cons_append, List.max?_cons', List.foldl_append, List.max?_cons']
      rfl

theorem bestScore_append_same (same : c.documentChunkId = some id) :
    bestScore (candidates ++ [c]) id =
      maxOptionalScore (bestScore candidates id) (finiteScore c.retrievalScore) := by
  have hit : isChunk id c = true := by simpa [isChunk] using same
  have last : [c].filterMap (fun c => finiteScore c.retrievalScore) =
      (finiteScore c.retrievalScore).toList := by
    cases h : finiteScore c.retrievalScore <;> simp [h]
  unfold bestScore
  rw [List.filter_append, List.filter_singleton, hit, cond_true, List.filterMap_append, last,
    max?_concat]

end Occurrences

section Dedupe

/-- The rows are the chunks of the lists so far, with their ranks and scores. -/
structure Deduped (lists : Source → List VectorSearchCandidate) (inputs : List FusionInput) :
    Prop where
  distinct : (inputs.map (·.documentChunkId)).Nodup
  rank : ∀ input ∈ inputs, ∀ source,
    input.rank source = firstRank (lists source) input.documentChunkId
  score : ∀ input ∈ inputs, ∀ source,
    input.score source = bestScore (lists source) input.documentChunkId
  present : ∀ id, (∃ input ∈ inputs, input.documentChunkId = id) ↔
    ∃ source, (firstRank (lists source) id).isSome

@[simp] theorem set_id (input : FusionInput) (source : Source) (score : Option Rat) (rank : Nat) :
    (input.set source score rank).documentChunkId = input.documentChunkId := by
  cases source <;> rfl

theorem set_rank (input : FusionInput) (source other : Source) (score : Option Rat) (rank : Nat) :
    (input.set source score rank).rank other =
      if other = source then some rank else input.rank other := by
  cases source <;> cases other <;> rfl

theorem set_score (input : FusionInput) (source other : Source) (score : Option Rat) (rank : Nat) :
    (input.set source score rank).score other =
      if other = source then score else input.score other := by
  cases source <;> cases other <;> rfl

variable {lists : Source → List VectorSearchCandidate} {inputs : List FusionInput}

/-- The row of a chunk, or an empty one, knows what the lists say of it. -/
theorem Deduped.existing (deduped : Deduped lists inputs) (id : Nat) :
    let existing := (Table.row FusionInput.documentChunkId inputs id).getD ⟨id, none, none, none, none⟩
    existing.documentChunkId = id ∧ ∀ source, existing.rank source = firstRank (lists source) id ∧
      existing.score source = bestScore (lists source) id := by
  cases found : Table.row FusionInput.documentChunkId inputs id with
  | some row =>
    obtain ⟨member, same⟩ := Table.mem_of_row found
    refine ⟨same, fun source => ?_⟩
    rw [← same]
    exact ⟨deduped.rank row member source, deduped.score row member source⟩
  | none =>
    have absent : ∀ source, firstRank (lists source) id = none := by
      intro source
      by_contra some_rank
      obtain ⟨row, member, same⟩ := (deduped.present id).mpr
        ⟨source, Option.isSome_iff_ne_none.mpr some_rank⟩
      have there := Table.row_isSome member same
      rw [found] at there
      cases there
    refine ⟨rfl, fun source => ⟨?_, ?_⟩⟩
    · rw [absent source]
      cases source <;> rfl
    · have none_of : (lists source).filter (isChunk id) = [] := by
        have nowhere := absent source
        unfold firstRank at nowhere
        rw [Option.map_eq_none_iff, List.findIdx?_eq_none_iff] at nowhere
        exact List.filter_eq_nil_iff.mpr fun c member => by simp [nowhere c member]
      unfold bestScore
      rw [none_of]
      cases source <;> rfl

/-- The lists after one more candidate of a source. -/
def extend (lists : Source → List VectorSearchCandidate) (source : Source)
    (candidate : VectorSearchCandidate) : Source → List VectorSearchCandidate :=
  Function.update lists source (lists source ++ [candidate])

theorem extend_other (lists : Source → List VectorSearchCandidate) (source : Source)
    (candidate : VectorSearchCandidate) (other : Source) (id : Nat)
    (apart : other ≠ source ∨ candidate.documentChunkId ≠ some id) :
    firstRank (extend lists source candidate other) id = firstRank (lists other) id ∧
      bestScore (extend lists source candidate other) id = bestScore (lists other) id := by
  unfold extend
  by_cases this : other = source
  · subst this
    have miss := apart.resolve_left fun ne => ne rfl
    rw [Function.update_self]
    exact ⟨firstRank_append_other miss, bestScore_append_other miss⟩
  · rw [Function.update_of_ne this]
    exact ⟨rfl, rfl⟩

theorem dedupeCandidate_none (source : Source) {candidate : VectorSearchCandidate} {index : Nat}
    (unnamed : candidate.documentChunkId = none) :
    dedupeCandidate source inputs (candidate, index) = inputs := by
  simp only [dedupeCandidate, unnamed]

theorem dedupeCandidate_some (deduped : Deduped lists inputs) (source : Source)
    {candidate : VectorSearchCandidate} {id : Nat} (named : candidate.documentChunkId = some id) :
    ∃ row : FusionInput, dedupeCandidate source inputs (candidate, (lists source).length + 1) =
        Table.mergeRow FusionInput.documentChunkId inputs row ∧
      row.documentChunkId = id ∧ ∀ other,
        row.rank other = firstRank (extend lists source candidate other) id ∧
        row.score other = bestScore (extend lists source candidate other) id := by
  obtain ⟨sameId, known⟩ := deduped.existing id
  simp only [dedupeCandidate, named]
  generalize (Table.row FusionInput.documentChunkId inputs id).getD ⟨id, none, none, none, none⟩ =
    existing at sameId known
  refine ⟨_, rfl, by rw [set_id, sameId], fun other => ?_⟩
  rw [set_rank, set_score]
  by_cases this : other = source
  · subst this
    rw [if_pos rfl, if_pos rfl, (known other).1, (known other).2, extend, Function.update_self,
      firstRank_append_same named, bestScore_append_same named]
    refine ⟨congrArg some ?_, rfl⟩
    cases found : firstRank (lists other) id with
    | none => rfl
    | some rank =>
      have bounds := firstRank_bounds found
      have smaller : min rank ((lists other).length + 1) = rank := Nat.min_eq_left (by omega)
      simp only [Option.getD_some, if_neg (by omega : rank ≠ 0), smaller]
  · have same := extend_other lists source candidate other id (.inl this)
    rw [if_neg this, if_neg this, same.1, same.2]
    exact known other

theorem dedupeCandidate_ok (deduped : Deduped lists inputs) (source : Source)
    (candidate : VectorSearchCandidate) :
    Deduped (extend lists source candidate)
      (dedupeCandidate source inputs (candidate, (lists source).length + 1)) := by
  cases named : candidate.documentChunkId with
  | none =>
    have same (other : Source) (id : Nat) :=
      extend_other lists source candidate other id (.inr (by simp [named]))
    rw [dedupeCandidate_none source named]
    refine ⟨deduped.distinct, fun input member s => ?_, fun input member s => ?_, fun id => ?_⟩
    · rw [(same s _).1]
      exact deduped.rank input member s
    · rw [(same s _).2]
      exact deduped.score input member s
    · simp only [(same _ _).1]
      exact deduped.present id
  | some id =>
    obtain ⟨row, turn, rowId, known⟩ := dedupeCandidate_some deduped source named
    have same {other : Source} {i : Nat} (ne : i ≠ id) :=
      extend_other lists source candidate other i (.inr (by rw [named]; simpa using Ne.symm ne))
    rw [turn]
    refine ⟨Table.mergeRow_distinct deduped.distinct, fun input member s => ?_,
      fun input member s => ?_, fun i => ?_⟩
    · rcases Table.mem_mergeRow.mp member with rfl | ⟨old, apart⟩
      · rw [rowId]
        exact (known s).1
      · rw [(same (rowId ▸ apart)).1]
        exact deduped.rank input old s
    · rcases Table.mem_mergeRow.mp member with rfl | ⟨old, apart⟩
      · rw [rowId]
        exact (known s).2
      · rw [(same (rowId ▸ apart)).2]
        exact deduped.score input old s
    · by_cases this : i = id
      · subst this
        have ranked : (firstRank (extend lists source candidate source) i).isSome := by
          rw [extend, Function.update_self, firstRank_append_same named]
          rfl
        exact ⟨fun _ => ⟨source, ranked⟩,
          fun _ => ⟨row, Table.mem_mergeRow.mpr (.inl rfl), rowId⟩⟩
      · simp only [(same this).1]
        rw [← deduped.present i]
        constructor
        · rintro ⟨input, member, rfl⟩
          rcases Table.mem_mergeRow.mp member with rfl | ⟨old, _⟩
          · exact absurd rowId this
          · exact ⟨input, old, rfl⟩
        · rintro ⟨input, member, rfl⟩
          refine ⟨input, Table.mem_mergeRow.mpr (.inr ⟨member, ?_⟩), rfl⟩
          rw [rowId]
          exact this

/-- A loop over the candidates of a source that was not looked at before. -/
theorem dedupeSource_ok (deduped : Deduped lists inputs) (source : Source)
    (unseen : lists source = []) (candidates : List VectorSearchCandidate) :
    Deduped (Function.update lists source candidates)
      ((candidates.zipIdx 1).foldl (dedupeCandidate source) inputs) := by
  induction candidates using List.reverseRecOn with
  | nil =>
    have same : Function.update lists source [] = lists := by
      rw [← unseen, Function.update_eq_self]
    rw [same]
    exact deduped
  | append_singleton candidates candidate ih =>
    have step := dedupeCandidate_ok ih source candidate
    rw [extend, Function.update_idem, Function.update_self] at step
    rw [List.zipIdx_append, List.foldl_append]
    simpa [Nat.add_comm] using step

/-- The two lists of a fusion. -/
def listsOf (denseCandidates sparseCandidates : List VectorSearchCandidate) :
    Source → List VectorSearchCandidate
  | .dense => denseCandidates
  | .sparse => sparseCandidates

theorem dedupeCandidates_ok (denseCandidates sparseCandidates : List VectorSearchCandidate) :
    Deduped (listsOf denseCandidates sparseCandidates)
      (dedupeCandidates denseCandidates sparseCandidates) := by
  have start : Deduped (fun _ => []) [] := ⟨.nil, by simp, by simp, by simp [firstRank]⟩
  have dense := dedupeSource_ok start .dense rfl denseCandidates
  have both := dedupeSource_ok dense .sparse rfl sparseCandidates
  have lists : Function.update (Function.update (fun _ => []) .dense denseCandidates) .sparse
      sparseCandidates = listsOf denseCandidates sparseCandidates := by
    funext source
    cases source <;> rfl
  rw [lists] at both
  exact both

end Dedupe

section Order

/-- The order of the inputs by a score, with ties broken by the ranks and the chunk. -/
def rawKey (raw : FusionInput → Rat) (input : FusionInput) :
    Rat ×ₗ WithTop Nat ×ₗ WithTop Nat ×ₗ Nat := fusionKey (input, raw input)

/-- A normalization keeps the order of the scores. -/
structure KeepsOrder (raw : FusionInput → Rat) (f : Rat → Rat) (inputs : List FusionInput) : Prop where
  le_iff : ∀ a ∈ inputs, ∀ b ∈ inputs, f (raw a) ≤ f (raw b) ↔ raw a ≤ raw b

theorem fusionKey_le {a b : FusionInput} {s t u v : Rat} (lt : s < t ↔ u < v) (eq : t = s ↔ v = u) :
    fusionKey (b, t) ≤ fusionKey (a, s) ↔ fusionKey (b, v) ≤ fusionKey (a, u) := by
  simp only [fusionKey, Prod.Lex.toLex_le_toLex, neg_lt_neg_iff, neg_inj, lt, eq]

theorem KeepsOrder.key_le {raw : FusionInput → Rat} {f : Rat → Rat} {inputs : List FusionInput}
    (keeps : KeepsOrder raw f inputs) {a b : FusionInput} (ha : a ∈ inputs) (hb : b ∈ inputs) :
    rawKey raw a ≤ rawKey raw b ↔ fusionKey (a, f (raw a)) ≤ fusionKey (b, f (raw b)) := by
  have up := keeps.le_iff a ha b hb
  have down := keeps.le_iff b hb a ha
  apply fusionKey_le
  · rw [lt_iff_le_not_ge, lt_iff_le_not_ge, up, down]
  · rw [le_antisymm_iff, le_antisymm_iff, up, down]

/-- The normalized ranking is the ranking by the raw scores. -/
theorem ranked_raw {raw : FusionInput → Rat} {f : Rat → Rat} {inputs : List FusionInput}
    (keeps : KeepsOrder raw f inputs) (limit : Nat) :
    Ranking.ranked fusionKey (inputs.map fun input => (input, f (raw input))) limit =
      (Ranking.ranked (rawKey raw) inputs limit).map fun input => (input, f (raw input)) := by
  have sorted := List.map_insertionSort (r := fun a b => rawKey raw a ≤ rawKey raw b)
    (s := fun a b => fusionKey a ≤ fusionKey b) (fun input => (input, f (raw input))) inputs
    fun a ha b hb => keeps.key_le ha hb
  rw [Ranking.ranked, Ranking.ranked, ← sorted, List.map_take]

theorem rawKey_lt {raw : FusionInput → Rat} {a b : FusionInput} (more : raw b < raw a) :
    rawKey raw a < rawKey raw b := by
  unfold rawKey fusionKey
  rw [Prod.Lex.toLex_lt_toLex]
  exact .inl (neg_lt_neg more)

theorem raw_of_key {raw : FusionInput → Rat} {a b : FusionInput}
    (le : rawKey raw a ≤ rawKey raw b) : raw b ≤ raw a := by
  unfold rawKey fusionKey at le
  rw [Prod.Lex.toLex_le_toLex] at le
  rcases le with less | ⟨same, _⟩
  · exact le_of_lt (neg_lt_neg_iff.mp less)
  · exact le_of_eq (neg_inj.mp same).symm

end Order

section Normalization

theorem clamp_of_bounds {q : Rat} (low : 0 ≤ q) (high : q ≤ 1) : clamp q = q := by
  unfold clamp
  rw [max_eq_right low, min_eq_right high]

/-- The positive scores, as shares of the greatest one. -/
theorem normalizeFusedScores_eq (inputs : List FusionInput) (raw : FusionInput → Rat) :
    ∃ top : Rat, 0 < top ∧ (∀ input ∈ inputs, raw input ≤ top) ∧
      ((∃ input ∈ inputs, 0 < raw input) → ∃ input ∈ inputs, raw input = top) ∧
      normalizeFusedScores (inputs.map fun input => (input, raw input)) =
        (inputs.filter fun input => 0 < raw input).map fun input => (input, raw input / top) := by
  unfold normalizeFusedScores
  have scores : (inputs.map fun input => (input, raw input)).map (·.2) = inputs.map raw := by
    rw [List.map_map]
    rfl
  simp only [scores, maxScore]
  cases greatest : (inputs.map raw).max? with
  | none =>
    rw [List.max?_eq_none_iff, List.map_eq_nil_iff] at greatest
    subst greatest
    exact ⟨1, by norm_num, by simp, by simp, by simp⟩
  | some top =>
    obtain ⟨member, above⟩ := List.max?_eq_some_iff.mp greatest
    have bound : ∀ input ∈ inputs, raw input ≤ top := fun input inside =>
      above _ (List.mem_map_of_mem inside)
    obtain ⟨best, inside, same⟩ := List.mem_map.mp member
    rw [Option.getD_some]
    by_cases positive : 0 < top
    · refine ⟨top, positive, bound, fun _ => ⟨best, inside, same⟩, ?_⟩
      rw [if_neg (not_le_of_gt positive), List.filter_map, List.map_map]
      apply List.map_congr_left
      intro input chosen
      obtain ⟨here, more⟩ := List.mem_filter.mp chosen
      have share : 0 < raw input := by simpa using more
      simp only [Function.comp]
      rw [clamp_of_bounds (div_nonneg (le_of_lt share) (le_of_lt positive))
        ((div_le_one positive).mpr (bound input here))]
    · refine ⟨1, by norm_num, fun input here => ?_, ?_, ?_⟩
      · have low := bound input here
        linarith
      · rintro ⟨input, here, more⟩
        exact absurd (lt_of_lt_of_le more (bound input here)) positive
      · have none : (inputs.filter fun input => 0 < raw input) = [] := by
          apply List.filter_eq_nil_iff.mpr
          intro input here
          have low := bound input here
          simp only [decide_eq_true_eq, not_lt]
          linarith
        rw [if_pos (not_lt.mp positive), none, List.map_nil]

/-- All scores, moved and scaled into one range. -/
theorem normalizeShiftedScores_eq (inputs : List FusionInput) (raw : FusionInput → Rat) :
    ∃ f : Rat → Rat, KeepsOrder raw f inputs ∧
      normalizeShiftedScores (inputs.map fun input => (input, raw input)) =
        inputs.map fun input => (input, f (raw input)) := by
  unfold normalizeShiftedScores
  have scores : (inputs.map fun input => (input, raw input)).map (·.2) = inputs.map raw := by
    rw [List.map_map]
    rfl
  simp only [scores]
  cases least : (inputs.map raw).min? with
  | none =>
    rw [List.min?_eq_none_iff, List.map_eq_nil_iff] at least
    subst least
    exact ⟨id, ⟨by simp⟩, rfl⟩
  | some low =>
    cases greatest : (inputs.map raw).max? with
    | none =>
      rw [List.max?_eq_none_iff, List.map_eq_nil_iff] at greatest
      subst greatest
      cases least
    | some high =>
      have below : ∀ input ∈ inputs, low ≤ raw input := fun input inside =>
        (List.min?_eq_some_iff.mp least).2 _ (List.mem_map_of_mem inside)
      have above : ∀ input ∈ inputs, raw input ≤ high := fun input inside =>
        (List.max?_eq_some_iff.mp greatest).2 _ (List.mem_map_of_mem inside)
      by_cases flat : high = low
      · refine ⟨fun _ => 1, ⟨fun a ha b hb => ?_⟩, ?_⟩
        · have first := above a ha
          have second := below b hb
          simp only [le_refl, true_iff]
          linarith
        · simp only [if_pos flat, List.map_map]
          rfl
      · have range : 0 < high - low := by
          have order : low ≤ high := (List.max?_eq_some_iff.mp greatest).2 _
            (List.min?_eq_some_iff.mp least).1
          exact sub_pos.mpr (lt_of_le_of_ne order (Ne.symm flat))
        refine ⟨fun q => (q - low) / (high - low), ⟨fun a _ b _ => ?_⟩, ?_⟩
        · rw [div_le_div_iff_of_pos_right range, sub_le_sub_iff_right]
        · simp only [if_neg flat, List.map_map]
          apply List.map_congr_left
          intro input inside
          have first := below input inside
          have second := above input inside
          simp only [Function.comp]
          rw [clamp_of_bounds (div_nonneg (by linarith) (le_of_lt range))
            ((div_le_one range).mpr (by linarith))]

end Normalization

end RagProject.Retrieval
