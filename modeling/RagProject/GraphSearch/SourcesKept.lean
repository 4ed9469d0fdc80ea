import Mathlib.Algebra.Order.BigOperators.Group.List
import RagProject.GraphSearch.Sources

/-! Paths, source candidates and path records of a graph search: what each of them keeps. -/
namespace RagProject.GraphSearch
open Python Graph Ranking

section Selection
variable (paths : List GraphPathCandidate) (maxPaths : Nat) (reasonCodes : List String)

/-- The paths that a plain cut keeps. -/
def plainTop : List GraphPathCandidate := (sortedPaths paths).take maxPaths

/-- The paths with chunks, then those without, up to the cap. -/
def preferred : List GraphPathCandidate :=
  ((sortedPaths paths).filter (!·.sourceChunkIds.isEmpty) ++
    (sortedPaths paths).filter (·.sourceChunkIds.isEmpty)).take maxPaths

theorem selected_perm : (selectPathsAtCap paths maxPaths reasonCodes).1.Perm
    (preferred paths maxPaths) := sortedPaths_perm _

/-- What a selection of paths keeps. -/
structure Selected (selected : List GraphPathCandidate × List String) : Prop where
  length : selected.1.length = min maxPaths paths.length
  distinct : (selected.1.map (·.pathId)).Nodup
  inside : selected.1 ⊆ paths
  backed : ∀ p ∈ selected.1, p.sourceChunkIds = [] →
    ∀ q ∈ paths, q.sourceChunkIds ≠ [] → q ∈ selected.1
  sorted : selected.1.Pairwise fun a b => pathSortKey b ≤ pathSortKey a
  same : (∀ p, p ∈ selected.1 ↔ p ∈ plainTop paths maxPaths) → selected.2 = reasonCodes
  differs : ¬(∀ p, p ∈ selected.1 ↔ p ∈ plainTop paths maxPaths) →
    selected.2 = reasonCodes ++ ["chunk_backed_paths_preferred"]

variable {paths maxPaths reasonCodes}

theorem sortedPaths_sorted :
    (sortedPaths paths).Pairwise fun a b => pathSortKey b ≤ pathSortKey a := by
  have total : Std.Total fun a b : GraphPathCandidate => pathSortKey b ≤ pathSortKey a :=
    ⟨fun a b => le_total (pathSortKey b) (pathSortKey a)⟩
  have trans : IsTrans GraphPathCandidate fun a b => pathSortKey b ≤ pathSortKey a :=
    ⟨fun _ _ _ first second => le_trans second first⟩
  exact List.pairwise_insertionSort _ paths

/-- A path without chunks is only kept after all that have some. -/
theorem preferred_backed {p q : GraphPathCandidate} (kept : p ∈ preferred paths maxPaths)
    (bare : p.sourceChunkIds = []) (member : q ∈ paths) (backed : q.sourceChunkIds ≠ []) :
    q ∈ preferred paths maxPaths := by
  have first : q ∈ (sortedPaths paths).filter (!·.sourceChunkIds.isEmpty) := by
    apply List.mem_filter.mpr
    constructor
    · exact (sortedPaths_perm paths).mem_iff.mpr member
    · simpa using backed
  have apart : p ∉ (sortedPaths paths).filter (!·.sourceChunkIds.isEmpty) := by
    intro inside
    simpa [bare] using (List.mem_filter.mp inside).2
  unfold preferred at kept ⊢
  generalize (sortedPaths paths).filter (!·.sourceChunkIds.isEmpty) = with_chunks at first apart kept ⊢
  rw [List.take_append, List.mem_append] at kept ⊢
  left
  have room : with_chunks.length ≤ maxPaths := by
    by_contra full
    have none : maxPaths - with_chunks.length = 0 := by omega
    rw [none, List.take_zero] at kept
    rcases kept with early | nothing
    · exact apart (List.mem_of_mem_take early)
    · cases nothing
  rw [List.take_of_length_le room]
  exact first

theorem selectPathsAtCap_selected (distinct : (paths.map (·.pathId)).Nodup) :
    Selected paths maxPaths reasonCodes (selectPathsAtCap paths maxPaths reasonCodes) := by
  have perm := selected_perm paths maxPaths reasonCodes
  have codes : (selectPathsAtCap paths maxPaths reasonCodes).2 =
      if preferred paths maxPaths ⊆ plainTop paths maxPaths ∧
          plainTop paths maxPaths ⊆ preferred paths maxPaths then reasonCodes
      else reasonCodes ++ ["chunk_backed_paths_preferred"] := rfl
  have sets : (preferred paths maxPaths ⊆ plainTop paths maxPaths ∧
      plainTop paths maxPaths ⊆ preferred paths maxPaths) ↔
        ∀ p, p ∈ (selectPathsAtCap paths maxPaths reasonCodes).1 ↔ p ∈ plainTop paths maxPaths := by
    simp only [perm.mem_iff]
    constructor
    · intro both p
      exact ⟨fun member => both.1 member, fun member => both.2 member⟩
    · intro same
      exact ⟨fun p => (same p).mp, fun p => (same p).mpr⟩
  constructor
  · exact selected_length paths maxPaths reasonCodes
  · rw [(perm.map _).nodup_iff]
    have all := ((preferred_perm paths).map (·.pathId)).nodup_iff.mpr distinct
    exact all.sublist ((List.take_sublist _ _).map _)
  · intro p member
    exact selected_mem _ _ _ member
  · intro p kept bare q member backed
    rw [perm.mem_iff] at kept ⊢
    exact preferred_backed kept bare member backed
  · exact sortedPaths_sorted
  · intro same
    rw [codes, if_pos (sets.mpr same)]
  · intro differs
    rw [codes, if_neg (mt sets.mp differs)]

end Selection

section Candidates
variable (paths : List GraphPathCandidate)

def pathsThrough (chunkId : Nat) : List GraphPathCandidate :=
  paths.filter (chunkId ∈ ·.sourceChunkIds)

/-- The mean of the up to three best scores of the paths through a chunk. -/
def meanOfBest (chunkId : Nat) : Rat :=
  let best := (((pathsThrough paths chunkId).map (·.pathScore)).insertionSort fun a b => b ≤ a).take 3
  best.sum / best.length

/-- What the source candidates of some paths keep. -/
structure Kept (topK maxSourceChunks : Nat) (candidates : List GraphSourceCandidate) : Prop where
  length : candidates.length ≤ min topK maxSourceChunks
  distinct : (candidates.map (·.documentChunkId)).Nodup
  ranks : candidates.map (·.rankOrder) = List.range' 1 candidates.length
  unit : ∀ c ∈ candidates, 0 ≤ c.retrievalScore ∧ c.retrievalScore ≤ 1
  sorted : candidates.Pairwise fun a b => b.retrievalScore < a.retrievalScore ∨
    b.retrievalScore = a.retrievalScore ∧ a.documentChunkId < b.documentChunkId
  scores : ∀ c ∈ candidates, (∃ p ∈ paths, c.documentChunkId ∈ p.sourceChunkIds) ∧
    c.retrievalScore = roundDecimal 6 (meanOfBest paths c.documentChunkId)
  best : ∀ chunkId, (∃ p ∈ paths, chunkId ∈ p.sourceChunkIds) →
    chunkId ∉ candidates.map (·.documentChunkId) →
      ∀ c ∈ candidates, roundDecimal 6 (meanOfBest paths chunkId) ≤ c.retrievalScore

variable {paths}

/-- The groups of the paths: distinct chunks, each with the paths through it. -/
theorem byChunkId_eq (single : ∀ p ∈ paths, p.sourceChunkIds.Nodup) : ∃ ids : List Nat, ids.Nodup ∧
    (∀ id, id ∈ ids ↔ ∃ p ∈ paths, id ∈ p.sourceChunkIds) ∧
      byChunkId paths = ids.map fun id => (id, pathsThrough paths id) := by
  obtain ⟨ids, distinct, keys, groups⟩ := Counter.grouped_eq (·.1)
    (paths.flatMap fun path => path.sourceChunkIds.map (·, path))
  refine ⟨ids, distinct, fun id => ?_, ?_⟩
  · rw [keys]
    simp only [List.mem_flatMap, List.mem_map]
    constructor
    · rintro ⟨_, ⟨p, member, k, there, rfl⟩, rfl⟩
      exact ⟨p, member, there⟩
    · rintro ⟨p, member, there⟩
      exact ⟨(id, p), ⟨p, member, id, there, rfl⟩, rfl⟩
  · unfold byChunkId
    rw [groups, List.map_map]
    apply List.map_congr_left
    intro id _
    have through : ((paths.flatMap fun path => path.sourceChunkIds.map (·, path)).filter
        fun pair => pair.1 = id).map (·.2) = pathsThrough paths id := by
      clear keys groups
      unfold pathsThrough
      induction paths with
      | nil => rfl
      | cons path paths ih =>
        have rest := ih fun p member => single p (List.mem_cons_of_mem _ member)
        have one : ((path.sourceChunkIds.map (·, path)).filter fun pair => pair.1 = id).map (·.2) =
            [path].filter (id ∈ ·.sourceChunkIds) := by
          rw [List.filter_map, List.map_map]
          have known : path.sourceChunkIds.filter ((fun pair => decide (pair.1 = id)) ∘ (·, path)) =
              if id ∈ path.sourceChunkIds then [id] else [] := by
            have plain : path.sourceChunkIds.filter ((fun pair => decide (pair.1 = id)) ∘ (·, path)) =
                path.sourceChunkIds.filter (· == id) := by
              apply List.filter_congr
              intro k _
              simp [Bool.beq_eq_decide_eq]
            rw [plain, List.filter_beq]
            split
            · next inside =>
              rw [List.count_eq_one_of_mem (single path List.mem_cons_self) inside]
              rfl
            · next outside => rw [List.count_eq_zero_of_not_mem outside]; rfl
          rw [known]
          split
          · next inside => simp [inside]
          · next outside => simp [outside]
        rw [List.flatMap_cons, List.filter_append, List.map_append, rest, one, ← List.filter_append]
        rfl
    simp only [Function.comp_apply, through]

theorem rankedPaths_perm (paths : List GraphPathCandidate) : (rankedPaths paths).Perm paths :=
  List.perm_insertionSort _ _

theorem sourceCandidate_score (chunkId : Nat) :
    (sourceCandidate chunkId (pathsThrough paths chunkId)).retrievalScore =
      roundDecimal 6 (meanOfBest paths chunkId) := by
  have sorted : (rankedPaths (pathsThrough paths chunkId)).map (·.pathScore) =
      ((pathsThrough paths chunkId).map (·.pathScore)).insertionSort fun a b => b ≤ a := by
    apply List.map_insertionSort
    intro a _ b _
    rfl
  have length : ((((pathsThrough paths chunkId).map (·.pathScore)).insertionSort
      fun a b => b ≤ a).take 3).length = min 3 (rankedPaths (pathsThrough paths chunkId)).length := by
    rw [← sorted, List.length_take, List.length_map]
  unfold sourceCandidate meanOfBest
  dsimp only
  rw [length, List.map_take, sorted]

theorem mean_unit {scores : List Rat} (bounds : ∀ q ∈ scores, 0 ≤ q ∧ q ≤ 1) :
    0 ≤ scores.sum / scores.length ∧ scores.sum / scores.length ≤ 1 := by
  have low : 0 ≤ scores.sum := List.sum_nonneg fun q member => (bounds q member).1
  have high : scores.sum ≤ scores.length := by
    have le := List.sum_le_card_nsmul scores 1 fun q member => (bounds q member).2
    simpa using le
  constructor
  · positivity
  · exact div_le_one_of_le₀ high (Nat.cast_nonneg _)

theorem meanOfBest_unit (scores : ∀ p ∈ paths, 0 ≤ p.pathScore ∧ p.pathScore ≤ 1)
    (chunkId : Nat) : 0 ≤ meanOfBest paths chunkId ∧ meanOfBest paths chunkId ≤ 1 := by
  apply mean_unit
  intro q member
  have inside := (List.perm_insertionSort _ _).mem_iff.mp (List.mem_of_mem_take member)
  obtain ⟨p, through, rfl⟩ := List.mem_map.mp inside
  exact scores p (List.mem_filter.mp through).1

theorem withRank_zipIdx {B : Type} (f : GraphSourceCandidate → B)
    (same : ∀ candidate rank, f (withRank candidate rank) = f candidate)
    (candidates : List GraphSourceCandidate) :
    (candidates.zipIdx.map fun (candidate, index) => withRank candidate (index + 1)).map f =
      candidates.map f := by
  rw [List.map_map]
  have plain : (f ∘ fun pair : GraphSourceCandidate × Nat => withRank pair.1 (pair.2 + 1)) =
      f ∘ (·.1) := by
    funext pair
    exact same _ _
  rw [plain, ← List.map_map, List.zipIdx_map_fst]

/-- The candidates before the cut, one for each chunk. -/
def allCandidates (paths : List GraphPathCandidate) : List GraphSourceCandidate :=
  (byChunkId paths).map fun (chunkId, chunkPaths) => sourceCandidate chunkId chunkPaths

/-- The candidates that are kept, before they have their ranks. -/
def cutCandidates (paths : List GraphPathCandidate) (topK maxSourceChunks : Nat) :
    List GraphSourceCandidate :=
  ranked candidateOrder (allCandidates paths) (max 1 (min topK maxSourceChunks))

theorem mem_allCandidates (single : ∀ p ∈ paths, p.sourceChunkIds.Nodup)
    {c : GraphSourceCandidate} : c ∈ allCandidates paths ↔
      ∃ id, (∃ p ∈ paths, id ∈ p.sourceChunkIds) ∧ sourceCandidate id (pathsThrough paths id) = c := by
  obtain ⟨ids, _, keys, groups⟩ := byChunkId_eq single
  simp only [allCandidates, groups, List.map_map, List.mem_map, Function.comp_apply, keys]

theorem allCandidates_distinct (single : ∀ p ∈ paths, p.sourceChunkIds.Nodup) :
    ((allCandidates paths).map (·.documentChunkId)).Nodup := by
  obtain ⟨ids, distinct, _, groups⟩ := byChunkId_eq single
  have keys : (allCandidates paths).map (·.documentChunkId) = ids := by
    simp only [allCandidates, groups, List.map_map]
    exact List.map_id' ids
  rw [keys]
  exact distinct

variable {topK maxSourceChunks : Nat}

theorem mem_sourceCandidates {c : GraphSourceCandidate}
    (member : c ∈ sourceCandidates paths topK maxSourceChunks) :
    ∃ d ∈ cutCandidates paths topK maxSourceChunks, ∃ rank, c = withRank d rank := by
  obtain ⟨⟨d, index⟩, inside, rfl⟩ := List.mem_map.mp member
  exact ⟨d, (List.mem_zipIdx' inside).2 ▸ List.getElem_mem _, index + 1, rfl⟩

/-- The candidates are the best of all chunks. -/
theorem sourceCandidates_kept (top : 1 ≤ topK) (chunks : 1 ≤ maxSourceChunks)
    (scores : ∀ p ∈ paths, 0 ≤ p.pathScore ∧ p.pathScore ≤ 1)
    (single : ∀ p ∈ paths, p.sourceChunkIds.Nodup) :
    Kept paths topK maxSourceChunks (sourceCandidates paths topK maxSourceChunks) := by
  have ids : (sourceCandidates paths topK maxSourceChunks).map (·.documentChunkId) =
      (cutCandidates paths topK maxSourceChunks).map (·.documentChunkId) :=
    withRank_zipIdx _ (fun _ _ => rfl) _
  have distinct : ((cutCandidates paths topK maxSourceChunks).map (·.documentChunkId)).Nodup :=
    ranked_nodup _ (allCandidates_distinct single)
  have found : ∀ c ∈ sourceCandidates paths topK maxSourceChunks,
      (∃ p ∈ paths, c.documentChunkId ∈ p.sourceChunkIds) ∧
        c.retrievalScore = roundDecimal 6 (meanOfBest paths c.documentChunkId) := by
    intro c member
    obtain ⟨d, inside, rank, rfl⟩ := mem_sourceCandidates member
    obtain ⟨id, through, rfl⟩ := (mem_allCandidates single).mp (ranked_subset inside)
    exact ⟨through, sourceCandidate_score id⟩
  constructor
  · have size := congrArg List.length ids
    rw [List.length_map, List.length_map, cutCandidates, ranked_length] at size
    omega
  · rw [ids]
    exact distinct
  · simp only [sourceCandidates, List.map_map, List.length_map, List.length_zipIdx]
    have places := List.zipIdx_map_snd 0 (cutCandidates paths topK maxSourceChunks)
    have turn : (·.rankOrder) ∘ (fun pair : GraphSourceCandidate × Nat => withRank pair.1 (pair.2 + 1)) =
        (1 + ·) ∘ (·.2) := by
      funext pair
      exact Nat.add_comm _ _
    rw [turn, ← List.map_map]
    exact (congrArg _ places).trans (List.map_add_range' 0 _ 1)
  · intro c member
    rw [(found c member).2]
    exact roundDecimal_unit (meanOfBest_unit scores _)
  · have keys := withRank_zipIdx (fun c => (c.retrievalScore, c.documentChunkId)) (fun _ _ => rfl)
      (cutCandidates paths topK maxSourceChunks)
    have order : ((cutCandidates paths topK maxSourceChunks).map fun c =>
        (c.retrievalScore, c.documentChunkId)).Pairwise fun a b =>
          b.1 < a.1 ∨ b.1 = a.1 ∧ a.2 < b.2 := by
      apply List.pairwise_map.mpr
      apply (ranked_sorted.and (List.pairwise_map.mp distinct)).imp
      rintro a b ⟨le, apart⟩
      rcases Prod.Lex.le_iff.mp le with less | ⟨same, smaller⟩
      · exact .inl (neg_lt_neg_iff.mp less)
      · exact .inr ⟨(neg_inj.mp same).symm, Nat.lt_of_le_of_ne smaller apart⟩
    rw [← keys] at order
    exact List.pairwise_map.mp order
  · exact found
  · intro chunkId through out c member
    obtain ⟨d, inside, rank, rfl⟩ := mem_sourceCandidates member
    rw [ids] at out
    have shown : (withRank d rank).retrievalScore = d.retrievalScore := rfl
    rw [shown, ← sourceCandidate_score]
    by_contra better
    have less : candidateOrder (sourceCandidate chunkId (pathsThrough paths chunkId)) <
        candidateOrder d := by
      apply Prod.Lex.lt_iff.mpr
      exact .inl (neg_lt_neg (not_le.mp better))
    have before := ranked_before ((mem_allCandidates single).mpr ⟨chunkId, through, rfl⟩) less inside
    apply out
    apply List.mem_map.mpr
    exact ⟨_, before.subset List.mem_cons_self, rfl⟩

end Candidates

section Records

/-- The entries of the loop over the references of the candidates. -/
structure SelectedOk (references : List (Nat × GraphPathCandidate)) (selected : SelectedChunks) :
    Prop where
  distinct : (selected.map (·.1.pathId)).Nodup
  path : ∀ entry ∈ selected, ∃ reference ∈ references, reference.2 = entry.1
  chunks : ∀ entry ∈ selected, entry.2 ≠ [] ∧ entry.2.Nodup
  from_ : ∀ entry ∈ selected, ∀ id ∈ entry.2,
    ∃ reference ∈ references, reference.1 = id ∧ reference.2.pathId = entry.1.pathId
  all : ∀ reference ∈ references, ∃ entry ∈ selected, entry.1.pathId = reference.2.pathId

theorem selectChunk_ok {references : List (Nat × GraphPathCandidate)} {selected : SelectedChunks}
    (ok : SelectedOk references selected) (reference : Nat × GraphPathCandidate) :
    SelectedOk (references ++ [reference]) (selectChunk selected reference) := by
  have last : reference ∈ references ++ [reference] := by simp
  have old {r : Nat × GraphPathCandidate} (member : r ∈ references) : r ∈ references ++ [reference] :=
    List.mem_append_left _ member
  unfold selectChunk
  split
  · next known =>
    rw [List.any_eq_true] at known
    obtain ⟨present, there, same⟩ := known
    rw [beq_iff_eq] at same
    let turn (entry : GraphPathCandidate × List Nat) : GraphPathCandidate × List Nat :=
      if entry.1.pathId = reference.2.pathId ∧ reference.1 ∉ entry.2 then
        (entry.1, entry.2 ++ [reference.1])
      else entry
    have path (entry : GraphPathCandidate × List Nat) : (turn entry).1 = entry.1 := by
      unfold turn
      split <;> rfl
    have paths : (selected.map turn).map (·.1.pathId) = selected.map (·.1.pathId) := by
      rw [List.map_map]
      exact List.map_congr_left fun entry _ => congrArg (·.pathId) (path entry)
    constructor
    · rw [paths]
      exact ok.distinct
    · intro entry member
      obtain ⟨before, inside, rfl⟩ := List.mem_map.mp member
      obtain ⟨r, from_, same⟩ := ok.path before inside
      exact ⟨r, old from_, same.trans (path before).symm⟩
    · intro entry member
      obtain ⟨before, inside, rfl⟩ := List.mem_map.mp member
      obtain ⟨some_chunk, single⟩ := ok.chunks before inside
      split
      · next new =>
        refine ⟨by simp, ?_⟩
        apply List.nodup_append.mpr
        refine ⟨single, List.nodup_singleton _, ?_⟩
        rintro id here _ only rfl
        exact new.2 (List.mem_singleton.mp only ▸ here)
      · exact ⟨some_chunk, single⟩
    · intro entry member id chunk
      obtain ⟨before, inside, rfl⟩ := List.mem_map.mp member
      rw [show _ = (turn before).1 from rfl, path]
      split at chunk
      · next new =>
        rcases List.mem_append.mp chunk with earlier | final
        · obtain ⟨r, from_, one, two⟩ := ok.from_ before inside id earlier
          exact ⟨r, old from_, one, two⟩
        · exact ⟨reference, last, (List.mem_singleton.mp final).symm, new.1.symm⟩
      · obtain ⟨r, from_, one, two⟩ := ok.from_ before inside id chunk
        exact ⟨r, old from_, one, two⟩
    · intro r member
      obtain ⟨before, inside, same⟩ : ∃ entry ∈ selected, entry.1.pathId = r.2.pathId := by
        rcases List.mem_append.mp member with earlier | final
        · exact ok.all r earlier
        · rw [List.mem_singleton.mp final]
          exact ⟨present, there, same⟩
      exact ⟨turn before, List.mem_map_of_mem inside, by rw [path, same]⟩
  · next unknown =>
    have fresh : ∀ entry ∈ selected, entry.1.pathId ≠ reference.2.pathId := by
      intro entry member same
      exact unknown (List.any_eq_true.mpr ⟨entry, member, beq_iff_eq.mpr same⟩)
    constructor
    · rw [List.map_append, List.nodup_append]
      refine ⟨ok.distinct, List.nodup_singleton _, ?_⟩
      rintro id before _ only rfl
      obtain ⟨entry, member, same⟩ := List.mem_map.mp before
      exact fresh entry member (same.trans (List.mem_singleton.mp only))
    · intro entry member
      rcases List.mem_append.mp member with before | final
      · obtain ⟨r, from_, same⟩ := ok.path entry before
        exact ⟨r, old from_, same⟩
      · rw [List.mem_singleton.mp final]
        exact ⟨reference, last, rfl⟩
    · intro entry member
      rcases List.mem_append.mp member with before | final
      · exact ok.chunks entry before
      · rw [List.mem_singleton.mp final]
        exact ⟨List.cons_ne_nil _ _, List.nodup_singleton _⟩
    · intro entry member id chunk
      rcases List.mem_append.mp member with before | final
      · obtain ⟨r, from_, one, two⟩ := ok.from_ entry before id chunk
        exact ⟨r, old from_, one, two⟩
      · rw [List.mem_singleton.mp final] at chunk ⊢
        exact ⟨reference, last, (List.mem_singleton.mp chunk).symm, rfl⟩
    · intro r member
      rcases List.mem_append.mp member with before | final
      · obtain ⟨entry, inside, same⟩ := ok.all r before
        exact ⟨entry, List.mem_append_left _ inside, same⟩
      · rw [List.mem_singleton.mp final]
        exact ⟨(reference.2, [reference.1]), by simp, rfl⟩

theorem selectChunks_ok (references : List (Nat × GraphPathCandidate)) :
    SelectedOk references (references.foldl selectChunk []) := by
  induction references using List.reverseRecOn with
  | nil =>
    exact ⟨.nil, fun _ none => (nomatch none), fun _ none => (nomatch none),
      fun _ none => (nomatch none), fun _ none => (nomatch none)⟩
  | append_singleton references reference ih =>
    rw [List.foldl_append]
    exact selectChunk_ok ih reference

end Records

section Texts
variable [GraphText]

/-- The texts of the path pass validate_safe_graph_metadata. -/
def SafeTexts (path : GraphPathCandidate) : Prop :=
  ∀ place ∈ (toGraphPath path path.sourceChunkIds).texts, assertSafeText place = .ok ()

omit [GraphText] in
theorem toGraphPath_texts (path : GraphPathCandidate) {ids others : List Nat} (shown : ids ≠ [])
    (other : others ≠ []) : (toGraphPath path ids).texts = (toGraphPath path others).texts := by
  obtain ⟨id, rest, rfl⟩ := List.exists_cons_of_ne_nil shown
  obtain ⟨_, _, rfl⟩ := List.exists_cons_of_ne_nil other
  rfl

theorem assertSafeText_place {place other text : String}
    (safe : assertSafeText (place, text) = .ok ()) : assertSafeText (other, text) = .ok () := by
  unfold assertSafeText at safe ⊢
  split_ifs at safe ⊢
  rfl

theorem pathJson_ok {path : GraphPath} (safe : ∀ place ∈ path.texts, assertSafeText place = .ok ()) :
    path.pathJson = .ok path := by
  unfold GraphPath.pathJson
  rw [Fallible.forM_ok safe]
  rfl

theorem checked_ok {path : GraphPath} (safe : ∀ place ∈ path.texts, assertSafeText place = .ok ()) :
    path.scoreBreakdown.checked = .ok () := by
  have schema := safe ("score_breakdown.schema_version", path.scoreBreakdown.schemaVersion)
    (by simp [GraphPath.texts])
  have source := safe ("score_breakdown.retrieval_source", path.scoreBreakdown.retrievalSource)
    (by simp [GraphPath.texts])
  unfold PathScoreBreakdown.checked
  rw [assertSafeText_place schema, assertSafeText_place source]
  rfl

/-- The record of a path for some of its chunks. -/
structure RecordOf (retrievalRunId : Nat) (entry : GraphPathCandidate × List Nat)
    (record : GraphRetrievalPathCreate) : Prop where
  run : record.retrievalRunId = retrievalRunId
  path : record.pathJson = toGraphPath entry.1 entry.2
  scores : record.scoreBreakdownJson = (toGraphPath entry.1 entry.2).scoreBreakdown
  chunks : record.sourceChunkIdsJson = entry.2

variable {retrievalRunId : Nat} {path : GraphPathCandidate} {ids : List Nat}

theorem texts_safe (safe : SafeTexts path) (some_chunk : ids ≠ [])
    (inside : ids ⊆ path.sourceChunkIds) :
    ∀ place ∈ (toGraphPath path ids).texts, assertSafeText place = .ok () := by
  have others : path.sourceChunkIds ≠ [] := by
    obtain ⟨id, member⟩ := List.exists_mem_of_ne_nil ids some_chunk
    exact List.ne_nil_of_mem (inside member)
  rw [toGraphPath_texts path some_chunk others]
  exact safe

theorem record_exists (positiveRun : 0 < retrievalRunId) (safe : SafeTexts path)
    (positive : ∀ id ∈ path.sourceChunkIds, 0 < id) (some_chunk : ids ≠ [])
    (inside : ids ⊆ path.sourceChunkIds) : ∃ record,
      pathRecord retrievalRunId (path, ids) = .ok record ∧
        RecordOf retrievalRunId (path, ids) record := by
  have texts := texts_safe safe some_chunk inside
  have chunks : ∀ id ∈ ids, 0 < id := fun id member => positive id (inside member)
  refine ⟨⟨retrievalRunId, toGraphPath path ids, (toGraphPath path ids).scoreBreakdown, ids,
    positiveRun, chunks⟩, ?_, ⟨rfl, rfl, rfl, rfl⟩⟩
  unfold pathRecord
  dsimp only
  rw [pathJson_ok texts]
  dsimp only [bind, Except.bind]
  unfold newGraphRetrievalPathCreate
  rw [dif_pos positiveRun, pathJson_ok texts, checked_ok texts]
  dsimp only [bind, Except.bind]
  rw [dif_pos chunks]
  rfl

end Texts

section Claim
variable [GraphText]

/-- Path candidates as a search builds them. -/
structure BuiltPaths where
  paths : List GraphPathCandidate
  distinct : (paths.map (·.pathId)).Nodup
  scores : ∀ p ∈ paths, 0 ≤ p.pathScore ∧ p.pathScore ≤ 1
  single : ∀ p ∈ paths, p.sourceChunkIds.Nodup
  positive : ∀ p ∈ paths, ∀ id ∈ p.sourceChunkIds, 0 < id
  texts : ∀ p ∈ paths, SafeTexts p

/-- A kept candidate refers to the path. -/
def Referenced (candidates : List GraphSourceCandidate) (path : GraphPathCandidate) : Prop :=
  ∃ c ∈ candidates, path.pathId ∈ c.pathRefs

/-- What the records of the paths keep. -/
structure Recorded (paths : List GraphPathCandidate) (candidates : List GraphSourceCandidate)
    (retrievalRunId : Nat) (records : List GraphRetrievalPathCreate) : Prop where
  once : ∀ p ∈ paths, Referenced candidates p →
    (records.filter (·.pathJson.pathId = p.pathId)).length = 1
  only : ∀ r ∈ records, ∃ p ∈ paths, Referenced candidates p ∧
    r.pathJson = toGraphPath p r.sourceChunkIdsJson ∧ r.sourceChunkIdsJson ≠ [] ∧
      r.sourceChunkIdsJson.Nodup ∧ r.sourceChunkIdsJson ⊆ p.sourceChunkIds ∧
        r.sourceChunkIdsJson ⊆ candidates.map (·.documentChunkId)
  stored : ∀ items : List RetrievalRunItem,
    (∀ c ∈ candidates, ⟨retrievalRunId, c.documentChunkId⟩ ∈ items) →
      ∀ r ∈ records, createGraphRetrievalPath items r = .ok r

omit [GraphText] in
theorem mem_chunkReferences {candidates : List GraphSourceCandidate}
    {reference : Nat × GraphPathCandidate} : reference ∈ chunkReferences candidates ↔
      ∃ c ∈ candidates, reference.2 ∈ c.graphPathCandidates ∧
        c.documentChunkId ∈ reference.2.sourceChunkIds ∧ c.documentChunkId = reference.1 := by
  unfold chunkReferences
  simp only [List.mem_flatMap, List.mem_map, List.mem_filter, decide_eq_true_eq]
  constructor
  · rintro ⟨c, member, p, ⟨shown, through⟩, rfl⟩
    exact ⟨c, member, shown, through, rfl⟩
  · rintro ⟨c, member, shown, through, same⟩
    exact ⟨c, member, reference.2, ⟨shown, through⟩, by rw [same]⟩

variable (list : BuiltPaths) (topK maxSourceChunks : Nat)

omit [GraphText] in
theorem candidate_paths {paths : List GraphPathCandidate}
    (single : ∀ p ∈ paths, p.sourceChunkIds.Nodup) {topK maxSourceChunks : Nat}
    {c : GraphSourceCandidate} (member : c ∈ sourceCandidates paths topK maxSourceChunks) :
    c.pathRefs = c.graphPathCandidates.map (·.pathId) ∧
      ∀ p ∈ c.graphPathCandidates, p ∈ paths ∧ c.documentChunkId ∈ p.sourceChunkIds := by
  obtain ⟨d, inside, rank, rfl⟩ := mem_sourceCandidates member
  obtain ⟨id, _, rfl⟩ := (mem_allCandidates single).mp (ranked_subset inside)
  refine ⟨rfl, fun p shown => ?_⟩
  have through := (rankedPaths_perm _).mem_iff.mp (List.mem_of_mem_take shown)
  obtain ⟨there, chunk⟩ := List.mem_filter.mp through
  rw [decide_eq_true_eq] at chunk
  exact ⟨there, chunk⟩

omit [GraphText] in
theorem records_ids {retrievalRunId : Nat} {selected : SelectedChunks}
    {records : List GraphRetrievalPathCreate}
    (all : List.Forall₂ (RecordOf retrievalRunId) selected records) :
    records.map (·.pathJson.pathId) = selected.map (·.1.pathId) := by
  induction all with
  | nil => rfl
  | cons first _ ih =>
    rw [List.map_cons, List.map_cons, ih, first.path]
    rfl

omit [GraphText] in
theorem record_from {retrievalRunId : Nat} {selected : SelectedChunks}
    {records : List GraphRetrievalPathCreate}
    (all : List.Forall₂ (RecordOf retrievalRunId) selected records) :
    ∀ r ∈ records, ∃ entry ∈ selected, RecordOf retrievalRunId entry r := by
  induction all with
  | nil => exact fun r none => nomatch none
  | cons first _ ih =>
    intro r member
    rcases List.mem_cons.mp member with rfl | later
    · exact ⟨_, List.mem_cons_self, first⟩
    · obtain ⟨entry, inside, kind⟩ := ih r later
      exact ⟨entry, List.mem_cons_of_mem _ inside, kind⟩

/-- A record of safe texts for chunks of its run is stored as it is. -/
theorem create_stored {items : List RetrievalRunItem} {r : GraphRetrievalPathCreate}
    (chunks : ∀ id ∈ r.sourceChunkIdsJson, ⟨r.retrievalRunId, id⟩ ∈ items)
    (safe : ∀ place ∈ r.pathJson.texts, assertSafeText place = .ok ())
    (scores : r.scoreBreakdownJson = r.pathJson.scoreBreakdown) :
    createGraphRetrievalPath items r = .ok r := by
  have known : r.sourceChunkIdsJson.all
      (fun chunkId => (⟨r.retrievalRunId, chunkId⟩ : RetrievalRunItem) ∈ items) = true := by
    simpa using chunks
  have scored : r.scoreBreakdownJson.checked = .ok () := by
    rw [scores]
    exact checked_ok safe
  unfold createGraphRetrievalPath assertSourceChunksBelongToRetrievalRun
  rw [if_pos known, pathJson_ok safe, scored]
  rfl

/-- Exactly the referenced paths are recorded, once each, and their records can be stored. -/
theorem pathRecords_recorded {retrievalRunId : Nat} (positiveRun : 0 < retrievalRunId) :
    ∃ records, pathRecords retrievalRunId (sourceCandidates list.paths topK maxSourceChunks) =
      .ok records ∧
        Recorded list.paths (sourceCandidates list.paths topK maxSourceChunks) retrievalRunId
          records := by
  generalize shape : sourceCandidates list.paths topK maxSourceChunks = candidates
  have known : ∀ c ∈ candidates, c.pathRefs = c.graphPathCandidates.map (·.pathId) ∧
      ∀ p ∈ c.graphPathCandidates, p ∈ list.paths ∧ c.documentChunkId ∈ p.sourceChunkIds := by
    intro c member
    exact candidate_paths list.single (shape ▸ member)
  have one {p q : GraphPathCandidate} (first : p ∈ list.paths) (second : q ∈ list.paths)
      (same : p.pathId = q.pathId) : p = q :=
    List.inj_on_of_nodup_map list.distinct first second same
  have ok := selectChunks_ok (chunkReferences candidates)
  generalize fold : (chunkReferences candidates).foldl selectChunk [] = selected at ok
  have paths : ∀ entry ∈ selected, entry.1 ∈ list.paths ∧ Referenced candidates entry.1 := by
    intro entry member
    obtain ⟨reference, from_, same⟩ := ok.path entry member
    obtain ⟨c, there, shown, _, _⟩ := mem_chunkReferences.mp from_
    rw [same] at shown
    refine ⟨((known c there).2 _ shown).1, c, there, ?_⟩
    rw [(known c there).1]
    exact List.mem_map_of_mem shown
  have chunks : ∀ entry ∈ selected, entry.2 ⊆ entry.1.sourceChunkIds ∧
      entry.2 ⊆ candidates.map (·.documentChunkId) := by
    intro entry member
    constructor
    · intro id chunk
      obtain ⟨reference, from_, rfl, same⟩ := ok.from_ entry member id chunk
      obtain ⟨c, there, shown, through, key⟩ := mem_chunkReferences.mp from_
      rw [← one ((known c there).2 _ shown).1 (paths entry member).1 same, ← key]
      exact through
    · intro id chunk
      obtain ⟨reference, from_, rfl, _⟩ := ok.from_ entry member id chunk
      obtain ⟨c, there, _, _, key⟩ := mem_chunkReferences.mp from_
      rw [← key]
      exact List.mem_map_of_mem there
  have whole : selected.filter (!·.2.isEmpty) = selected := by
    apply List.filter_eq_self.mpr
    intro entry member
    simpa using (ok.chunks entry member).1
  have each : ∀ entry ∈ selected, ∃ record, pathRecord retrievalRunId entry = .ok record ∧
      RecordOf retrievalRunId entry record := by
    intro entry member
    exact record_exists positiveRun (list.texts entry.1 (paths entry member).1)
      (list.positive entry.1 (paths entry member).1) (ok.chunks entry member).1
        (chunks entry member).1
  obtain ⟨records, done, all⟩ := Fallible.mapM_each_ok each
  refine ⟨records, ?_, ?_, ?_, ?_⟩
  · rw [pathRecords, fold, whole]
    exact done
  · rintro p member ⟨c, there, shown⟩
    rw [(known c there).1] at shown
    obtain ⟨q, inside, same⟩ := List.mem_map.mp shown
    obtain ⟨entry, selected_, key⟩ := ok.all (c.documentChunkId, q)
      (mem_chunkReferences.mpr ⟨c, there, inside, ((known c there).2 q inside).2, rfl⟩)
    have ids := records_ids all
    have listed : p.pathId ∈ records.map (·.pathJson.pathId) := by
      rw [ids, ← same, ← key]
      exact List.mem_map_of_mem selected_
    have count := List.count_eq_one_of_mem (ids ▸ ok.distinct) listed
    rw [List.count_eq_countP, List.countP_map, List.countP_eq_length_filter] at count
    exact count
  · intro r member
    obtain ⟨entry, inside, record⟩ := record_from all r member
    refine ⟨entry.1, (paths entry inside).1, (paths entry inside).2, ?_⟩
    rw [record.chunks]
    exact ⟨record.path, (ok.chunks entry inside).1, (ok.chunks entry inside).2,
      (chunks entry inside).1, (chunks entry inside).2⟩
  · intro items run r member
    obtain ⟨entry, inside, record⟩ := record_from all r member
    apply create_stored
    · intro id chunk
      rw [record.chunks] at chunk
      obtain ⟨c, there, rfl⟩ := List.mem_map.mp ((chunks entry inside).2 chunk)
      rw [record.run]
      exact run c there
    · rw [record.path]
      exact texts_safe (list.texts _ (paths entry inside).1) (ok.chunks entry inside).1
        (chunks entry inside).1
    · rw [record.scores, record.path]

end Claim

section Examples

/-- A path from a start entity, with its id, label, chunks and score. -/
def mentionPath (pathId label : String) (sourceChunkIds : List Nat) (score : Rat) :
    GraphPathCandidate :=
  ⟨pathId, [1], [], [label], [], sourceChunkIds, 0, score, score, score, .postgres, [none], [], [],
    [], []⟩

def twoMentions : @BuiltPaths asciiGraphText :=
  let _ : GraphText := asciiGraphText
  { paths := [mentionPath "gp_1" "node" [7, 8] 1, mentionPath "gp_2" "node" [8] (1 / 2)]
    distinct := by decide
    scores := by decide +kernel
    single := by decide
    positive := by decide
    texts := by
      unfold SafeTexts
      decide +kernel }

end Examples

end RagProject.GraphSearch
