import RagProject.Retrieval.FusionOrder

/-! Rank fusion respects dominance: what stands earlier in every list that counts stands earlier
in the fused list. -/
namespace RagProject.Retrieval
open Python

section Dominance

theorem firstRank_inj {candidates : List VectorSearchCandidate} {a b rank : Nat}
    (first : firstRank candidates a = some rank) (second : firstRank candidates b = some rank) :
    a = b := by
  obtain ⟨i, iPlace, iRank⟩ := Option.map_eq_some_iff.mp first
  obtain ⟨j, jPlace, jRank⟩ := Option.map_eq_some_iff.mp second
  have same : i = j := by omega
  subst same
  obtain ⟨_, isA, _⟩ := List.findIdx?_eq_some_iff_getElem.mp iPlace
  obtain ⟨_, isB, _⟩ := List.findIdx?_eq_some_iff_getElem.mp jPlace
  simp only [isChunk, decide_eq_true_eq] at isA isB
  exact Option.some.inj (isA.symm.trans isB)

def weightOf (denseWeight sparseWeight : Rat) : Source → Rat
  | .dense => denseWeight
  | .sparse => sparseWeight

/-- Two chunks, of which the first one stands ahead in every list that counts and has the other. -/
structure Dominates (lists : Source → List VectorSearchCandidate) (weight : Source → Rat)
    (a b : Nat) : Prop where
  apart : a ≠ b
  ahead : ∀ source, 0 < weight source → ∀ r, firstRank (lists source) b = some r →
    ∃ q, firstRank (lists source) a = some q ∧ q ≤ r

theorem reciprocal_nonneg (rrfK : Nat) {weight : Rat} (weighs : 0 ≤ weight) (rank : Option Nat) :
    0 ≤ reciprocal rrfK weight rank := by
  cases rank with
  | none => exact le_refl 0
  | some rank =>
    apply div_nonneg weighs
    positivity

variable {lists : Source → List VectorSearchCandidate} {inputs : List FusionInput} {rrfK : Nat}
  {denseWeight sparseWeight : Rat}

/-- Where the chunk that stands ahead counts, it counts for more. -/
theorem reciprocal_ahead (rrfK : Nat) {weight : Source → Rat} {a b : Nat} (dominates : Dominates lists weight a b)
    (source : Source) (weighs : 0 ≤ weight source) :
    reciprocal rrfK (weight source) (firstRank (lists source) b) ≤
        reciprocal rrfK (weight source) (firstRank (lists source) a) ∧
      (0 < reciprocal rrfK (weight source) (firstRank (lists source) b) →
        reciprocal rrfK (weight source) (firstRank (lists source) b) <
          reciprocal rrfK (weight source) (firstRank (lists source) a)) := by
  cases place : firstRank (lists source) b with
  | none => exact ⟨reciprocal_nonneg rrfK weighs _, fun positive => absurd positive (lt_irrefl _)⟩
  | some r =>
    rcases eq_or_lt_of_le weighs with zero | positive
    · have nothing (rank : Option Nat) : reciprocal rrfK (weight source) rank = 0 := by
        rw [← zero]
        cases rank <;> simp [reciprocal]
      rw [nothing, nothing]
      exact ⟨le_refl _, fun more => absurd more (lt_irrefl _)⟩
    · obtain ⟨q, first, le⟩ := dominates.ahead source positive r place
      have less : q < r := lt_of_le_of_ne le fun same => by
        subst same
        exact dominates.apart (firstRank_inj first place)
      have one := (firstRank_bounds first).1
      have strict : weight source / ((rrfK : Rat) + r) < weight source / ((rrfK : Rat) + q) := by
        apply div_lt_div_of_pos_left positive
        · have start : (1 : Rat) ≤ q := by exact_mod_cast one
          have base : (0 : Rat) ≤ rrfK := by positivity
          linarith
        · have apart : (q : Rat) < r := by exact_mod_cast less
          linarith
      rw [first]
      exact ⟨le_of_lt strict, fun _ => strict⟩

theorem Deduped.rrfScore_eq (deduped : Deduped lists inputs) {input : FusionInput}
    (member : input ∈ inputs) :
    rrfScore rrfK denseWeight sparseWeight input =
      reciprocal rrfK denseWeight (firstRank (lists .dense) input.documentChunkId) +
        reciprocal rrfK sparseWeight (firstRank (lists .sparse) input.documentChunkId) := by
  have dense : input.denseRank = _ := deduped.rank input member .dense
  have sparse : input.sparseRank = _ := deduped.rank input member .sparse
  rw [rrfScore, dense, sparse]

theorem rrfScore_dominates (deduped : Deduped lists inputs) (denseWeighs : 0 ≤ denseWeight)
    (sparseWeighs : 0 ≤ sparseWeight) {a b : FusionInput} (ha : a ∈ inputs) (hb : b ∈ inputs)
    (dominates : Dominates lists (weightOf denseWeight sparseWeight) a.documentChunkId
      b.documentChunkId) (positive : 0 < rrfScore rrfK denseWeight sparseWeight b) :
    rrfScore rrfK denseWeight sparseWeight b < rrfScore rrfK denseWeight sparseWeight a := by
  obtain ⟨dense, denseMore⟩ := reciprocal_ahead rrfK dominates .dense denseWeighs
  obtain ⟨sparse, sparseMore⟩ := reciprocal_ahead rrfK dominates .sparse sparseWeighs
  rw [deduped.rrfScore_eq hb] at positive ⊢
  rw [deduped.rrfScore_eq ha]
  simp only [weightOf] at dense denseMore sparse sparseMore
  have left := reciprocal_nonneg rrfK denseWeighs (firstRank (lists .dense) b.documentChunkId)
  rcases eq_or_lt_of_le left with none | some
  · have strict := sparseMore (by linarith)
    linarith
  · have strict := denseMore some
    linarith

/-- A chunk that occurs where it counts has a positive score, and so is known. -/
theorem rrfScore_pos (rrfK : Nat) (deduped : Deduped lists inputs) (denseWeighs : 0 ≤ denseWeight)
    (sparseWeighs : 0 ≤ sparseWeight) {source : Source} {id : Nat}
    (counts : 0 < weightOf denseWeight sparseWeight source)
    (occurs : (firstRank (lists source) id).isSome) :
    ∃ input ∈ inputs, input.documentChunkId = id ∧
      0 < rrfScore rrfK denseWeight sparseWeight input := by
  obtain ⟨input, member, rfl⟩ := (deduped.present id).mpr ⟨source, occurs⟩
  refine ⟨input, member, rfl, ?_⟩
  rw [deduped.rrfScore_eq member]
  have dense := reciprocal_nonneg rrfK denseWeighs (firstRank (lists .dense) input.documentChunkId)
  have sparse := reciprocal_nonneg rrfK sparseWeighs
    (firstRank (lists .sparse) input.documentChunkId)
  obtain ⟨rank, place⟩ := Option.isSome_iff_exists.mp occurs
  have one := (firstRank_bounds place).1
  have below : (0 : Rat) < (rrfK : Rat) + rank := by
    have start : (1 : Rat) ≤ rank := by exact_mod_cast one
    have base : (0 : Rat) ≤ rrfK := by positivity
    linarith
  cases source with
  | dense =>
    have share : 0 < denseWeight / ((rrfK : Rat) + rank) := div_pos counts below
    have whole : reciprocal rrfK denseWeight (some rank) = denseWeight / ((rrfK : Rat) + rank) := rfl
    rw [place, whole]
    linarith
  | sparse =>
    have share : 0 < sparseWeight / ((rrfK : Rat) + rank) := div_pos counts below
    have whole : reciprocal rrfK sparseWeight (some rank) = sparseWeight / ((rrfK : Rat) + rank) := rfl
    rw [place, whole]
    linarith

/-- A chunk with a positive score occurs where it counts. -/
theorem positive_occurs (deduped : Deduped lists inputs) (denseWeighs : 0 ≤ denseWeight)
    (sparseWeighs : 0 ≤ sparseWeight) {input : FusionInput} (member : input ∈ inputs)
    (positive : 0 < rrfScore rrfK denseWeight sparseWeight input) :
    ∃ source, 0 < weightOf denseWeight sparseWeight source ∧
      (firstRank (lists source) input.documentChunkId).isSome := by
  rw [deduped.rrfScore_eq member] at positive
  by_contra nowhere
  have zero (source : Source) (weighs : 0 ≤ weightOf denseWeight sparseWeight source) :
      reciprocal rrfK (weightOf denseWeight sparseWeight source)
        (firstRank (lists source) input.documentChunkId) = 0 := by
    cases place : firstRank (lists source) input.documentChunkId with
    | none => rfl
    | some rank =>
      have light : ¬ 0 < weightOf denseWeight sparseWeight source := fun more =>
        nowhere ⟨source, more, by rw [place]; rfl⟩
      have none : weightOf denseWeight sparseWeight source = 0 := le_antisymm (not_lt.mp light) weighs
      simp only [reciprocal, none, zero_div]
  have dense := zero .dense denseWeighs
  have sparse := zero .sparse sparseWeighs
  simp only [weightOf] at dense sparse
  rw [dense, sparse] at positive
  linarith

end Dominance

section Listed

/-- The candidates that are returned for a ranking. -/
def listed (method : FusionMethod) (score : FusionInput → Rat) (chosen : List FusionInput) :
    List FusedCandidate :=
  ((chosen.map fun input => (input, score input)).zipIdx 1).map (fusedCandidate method)

variable (method : FusionMethod) (score : FusionInput → Rat) (chosen : List FusionInput)

theorem listed_map {B : Type} (f : FusedCandidate → B) (g : FusionInput → B)
    (same : ∀ input index, f (fusedCandidate method ((input, score input), index)) = g input) :
    (listed method score chosen).map f = chosen.map g := by
  unfold listed
  rw [List.map_map]
  have first := List.zipIdx_map_fst 1 (chosen.map fun input => (input, score input))
  have both := congrArg (List.map fun entry : FusionInput × Rat => g entry.1) first
  rw [List.map_map, List.map_map] at both
  refine Eq.trans (List.map_congr_left ?_) both
  rintro ⟨entry, index⟩ member
  have inside : entry ∈ chosen.map fun input => (input, score input) := by
    have shown := List.mem_map_of_mem (f := Prod.fst) member
    rwa [first] at shown
  obtain ⟨input, _, rfl⟩ := List.mem_map.mp inside
  exact same input index

theorem listed_ids :
    (listed method score chosen).map (·.documentChunkId) = chosen.map (·.documentChunkId) :=
  listed_map _ _ _ _ _ fun _ _ => rfl

theorem listed_scores : (listed method score chosen).map (·.fusedScore) =
    chosen.map fun input => roundDecimal 6 (score input) :=
  listed_map _ _ _ _ _ fun _ _ => rfl

theorem listed_length : (listed method score chosen).length = chosen.length := by
  simp [listed]

theorem listed_order :
    (listed method score chosen).map (·.qdrantOrder) = List.range' 1 chosen.length := by
  have second := List.zipIdx_map_snd 1 (chosen.map fun input => (input, score input))
  rw [List.length_map] at second
  unfold listed
  rw [List.map_map, ← second]
  rfl

theorem listed_scored {c : FusedCandidate} (member : c ∈ listed method score chosen) :
    c.retrievalScore = c.fusedScore := by
  obtain ⟨entry, _, rfl⟩ := List.mem_map.mp member
  rfl

theorem listed_take (n : Nat) :
    listed method score (chosen.take n) = (listed method score chosen).take n := by
  have index : ∀ (items : List (FusionInput × Rat)) (start : Nat),
      (items.take n).zipIdx start = (items.zipIdx start).take n := by
    intro items start
    conv_rhs => rw [← List.take_append_drop n items]
    rw [List.zipIdx_append]
    rcases Nat.lt_or_ge items.length n with short | long
    · rw [List.drop_eq_nil_of_le (Nat.le_of_lt short)]
      simp
    · rw [List.take_left' (by simp [long])]
  unfold listed
  rw [List.map_take, index, List.map_take]

end Listed

end RagProject.Retrieval
