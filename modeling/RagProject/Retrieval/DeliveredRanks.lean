import RagProject.Lib.Stable
import RagProject.Retrieval.SearchPaths

/-! Which searches return their items in the order of the ranks, and the ranks without gaps. The
ranks are those of the visibility check; the reranker and the affinity to a source move candidates
and leave the ranks as they are. -/
namespace RagProject.Retrieval
open Python Documents Stable

/-- One, two and so on. -/
def RankedInOrder (ranks : List Nat) : Prop := ranks = List.range' 1 ranks.length

section Numbering
variable {filters : RetrievalFilters} {db : Db} {xs : List SearchedCandidate}

theorem finalCheck_ranks (hits : List SearchHit) :
    RankedInOrder ((finalCheckCandidates filters db hits).map (·.rankOrder)) := by
  have turn (entries : List (Nat × SearchHit)) (checked : List SearchedCandidate)
      (before : RankedInOrder (checked.map (·.rankOrder))) :
      RankedInOrder ((entries.foldl (checkHit filters db) checked).map (·.rankOrder)) := by
    induction entries generalizing checked with
    | nil => exact before
    | cons entry entries ih =>
      apply ih
      unfold checkHit
      split
      · exact before
      · unfold RankedInOrder at before ⊢
        rw [List.map_append, before, List.length_append, List.length_map, List.length_range',
          List.map_singleton, List.length_singleton, List.range'_concat, Nat.one_mul,
          Nat.add_comm 1]
  exact turn _ [] rfl

theorem RankedInOrder.increasing (ranked : RankedInOrder (xs.map (·.rankOrder))) :
    xs.Pairwise fun a b => a.rankOrder < b.rankOrder := by
  have sorted : (xs.map (·.rankOrder)).Pairwise (· < ·) := by
    rw [ranked]
    exact List.pairwise_lt_range'
  exact List.pairwise_map.mp sorted

theorem RankedInOrder.distinct (ranked : RankedInOrder (xs.map (·.rankOrder))) :
    (xs.map (·.rankOrder)).Nodup := by
  rw [ranked]
  exact List.nodup_range'

theorem RankedInOrder.take {ranks : List Nat} (ranked : RankedInOrder ranks) (n : Nat) :
    RankedInOrder (ranks.take n) := by
  unfold RankedInOrder at ranked ⊢
  rw [ranked, List.length_take, List.length_range']
  rcases Nat.le_total n ranks.length with within | beyond
  · rw [List.take_range'_of_length_ge within, Nat.min_eq_left within]
  · rw [List.take_range'_of_length_le beyond, Nat.min_eq_right beyond]

/-- Another list of as many candidates is ranked in order when it has the same ranks. -/
theorem RankedInOrder.same (ranked : RankedInOrder (xs.map (·.rankOrder)))
    {ys : List SearchedCandidate} (size : ys.length = xs.length) :
    RankedInOrder (ys.map (·.rankOrder)) ↔ ys.map (·.rankOrder) = xs.map (·.rankOrder) := by
  unfold RankedInOrder at ranked ⊢
  rw [ranked, List.length_map, List.length_map, size]

end Numbering

section Orders
variable [UnicodeTables]

/-- The candidate has as much affinity to the tokens of the query as the other one. -/
def AffinityOrder (query : String) (a b : SearchedCandidate) : Prop :=
  sourceAffinityScore b (sourceAffinityTokens query) ≤
    sourceAffinityScore a (sourceAffinityTokens query)

instance (query : String) : DecidableRel (AffinityOrder query) :=
  fun _ _ => Nat.decLe _ _

instance (query : String) : Std.Total (AffinityOrder query) := ⟨fun _ _ => Nat.le_total _ _⟩

instance (query : String) : IsTrans SearchedCandidate (AffinityOrder query) :=
  ⟨fun _ _ _ ab bc => Nat.le_trans bc ab⟩

theorem affinity_sorted (query : String) (candidates : List SearchedCandidate) :
    orderBySourceAffinity query candidates = candidates.insertionSort (AffinityOrder query) := by
  unfold orderBySourceAffinity
  simp only
  split
  · rename_i few
    rw [Bool.or_eq_true, List.isEmpty_iff, decide_eq_true_eq] at few
    refine (List.Pairwise.insertionSort_eq ?_).symm
    rcases few with none | short
    · apply List.pairwise_of_forall_mem_list
      intro a _ b _
      unfold AffinityOrder
      rw [none]
      exact Nat.le_refl _
    · rcases candidates with _ | ⟨c, _ | ⟨d, rest⟩⟩
      · exact .nil
      · exact List.pairwise_singleton _ _
      · rw [List.length_cons, List.length_cons] at short
        omega
  · split
    · rename_i flat
      have zero := List.all_eq_true.mp flat
      refine (List.Pairwise.insertionSort_eq ?_).symm
      apply List.pairwise_of_forall_mem_list
      intro a _ b member
      unfold AffinityOrder
      rw [beq_iff_eq.mp (zero b member)]
      exact Nat.zero_le _
    · rfl

/-- The order that a reranker gave to the chunk. -/
def rerankNumber (results : List Rag.RerankResult) (c : SearchedCandidate) : Nat :=
  ((results.find? (·.documentChunkId == c.chunk.documentChunkId)).map (·.rerankOrder)).getD 0

def RerankedBefore (results : List Rag.RerankResult) (a b : SearchedCandidate) : Prop :=
  rerankNumber results a ≤ rerankNumber results b

instance (results : List Rag.RerankResult) : DecidableRel (RerankedBefore results) :=
  fun _ _ => Nat.decLe _ _

instance (results : List Rag.RerankResult) : Std.Total (RerankedBefore results) :=
  ⟨fun _ _ => Nat.le_total _ _⟩

instance (results : List Rag.RerankResult) : IsTrans SearchedCandidate (RerankedBefore results) :=
  ⟨fun _ _ _ => Nat.le_trans⟩

omit [UnicodeTables] in
/-- Accepted results name each expected chunk. -/
theorem valid_named {expected : List Nat} {results : List Rag.RerankResult}
    (valid : Rag.rerankResultsValid expected results = true) :
    ∀ id ∈ expected, ∃ r ∈ results, r.documentChunkId = id := by
  unfold Rag.rerankResultsValid at valid
  simp only [Bool.and_eq_true, beq_iff_eq, List.all_eq_true, List.contains_iff_mem,
    decide_eq_true_eq] at valid
  obtain ⟨⟨⟨size, known⟩, once⟩, _⟩ := valid
  have inside : results.map (·.documentChunkId) ⊆ expected := by
    intro id member
    obtain ⟨r, there, rfl⟩ := List.mem_map.mp member
    exact known r there
  have all : (results.map (·.documentChunkId)).Perm expected := by
    apply (List.subperm_of_subset once inside).perm_of_length_le
    rw [List.length_map, size]
  intro id member
  exact List.mem_map.mp (all.mem_iff.mpr member)

omit [UnicodeTables] in
/-- Candidates that all have a result are sorted by its order. -/
theorem reranked_sorted {checked : List SearchedCandidate} {results : List Rag.RerankResult}
    (valid : Rag.rerankResultsValid (checked.map (·.chunk.documentChunkId)).dedup results = true) :
    (rerankedCandidates checked results).map (·.1) =
      checked.insertionSort (RerankedBefore results) := by
  have named := valid_named valid
  have result (c : SearchedCandidate) (member : c ∈ checked) : ∃ r : Rag.RerankResult,
      (results.map fun r => (r.documentChunkId,
        { r with rerankScore := min 1 (max 0 r.rerankScore) })).lookup c.chunk.documentChunkId =
          some r ∧ r.rerankOrder = rerankNumber results c := by
    obtain ⟨r, inside, same⟩ := named _ (List.mem_dedup.mpr (List.mem_map_of_mem member))
    clear valid named
    unfold rerankNumber
    induction results with
    | nil => cases inside
    | cons first results ih =>
      rw [List.map_cons, List.lookup_cons, List.find?_cons]
      by_cases here : first.documentChunkId = c.chunk.documentChunkId
      · rw [beq_iff_eq.mpr here, beq_iff_eq.mpr here.symm]
        exact ⟨_, rfl, rfl⟩
      · rw [beq_eq_false_iff_ne.mpr here, beq_eq_false_iff_ne.mpr (Ne.symm here)]
        rcases List.mem_cons.mp inside with rfl | later
        · exact absurd same here
        · exact ih later
  have _ : Nonempty Rag.RerankResult := ⟨⟨0, 0, 0⟩⟩
  choose! r found number using result
  have paired : (checked.filterMap fun c =>
      ((results.map fun r => (r.documentChunkId,
        { r with rerankScore := min 1 (max 0 r.rerankScore) })).lookup
          c.chunk.documentChunkId).map fun r => (c, r)) = checked.map fun c => (c, r c) := by
    have each : ∀ c ∈ checked, (((results.map fun r => (r.documentChunkId,
        { r with rerankScore := min 1 (max 0 r.rerankScore) })).lookup
          c.chunk.documentChunkId).map fun r => (c, r)) = some (c, r c) := by
      intro c member
      rw [found c member]
      rfl
    rw [List.filterMap_congr each, List.filterMap_eq_map']
  unfold rerankedCandidates
  simp only
  rw [paired, ← List.map_insertionSort (RerankedBefore results), List.map_map]
  · exact List.map_id _
  · intro a inA b inB
    unfold RerankedBefore
    rw [number a inA, number b inB]

end Orders

section Paths
variable (services : RetrievalServices) (request : SearchRequest) (db : Db)

def denseCandidates : List SearchedCandidate :=
  (services.vectorSearch request.query request.topK request.filters).elim []
    (finalCheckCandidates request.filters db)

variable [UnicodeTables]

/-- The path returns its candidates in the order of their ranks: the reranker keeps the order, and
the affinity to the query moves no candidate and cuts off the last ones only. -/
def RetrievalPath.Keeps : RetrievalPath → Prop
  | .dense _ => ∀ results ∈ rerankResults services request (denseCandidates services request db),
      (denseCandidates services request db).Pairwise (RerankedBefore results)
  | .sparse => True
  | .hybrid hybridSettings => ∀ checked ∈ hybridCandidates services request db hybridSettings,
      Leading (AffinityOrder request.query) request.topK checked

/-- An agentic retrieval sorts by affinity, by the reranker, and by affinity again. -/
def SearchPath.Keeps : SearchPath → Prop
  | .direct path => path.Keeps services request db
  | .agentic found _ =>
    if found.noContext then found.finalCandidates.Pairwise (AffinityOrder request.query)
    else ∀ results ∈ rerankResults services request
        (orderBySourceAffinity request.query found.finalCandidates),
      found.finalCandidates.Pairwise
        (Then (AffinityOrder request.query) (RerankedBefore results))
  | .graph found => visibleGraphCandidates request db found = [] →
      ∀ path ∈ found.fallback, path.Keeps services request db

variable {services request db} [Rounding] {display : Display} {settings : PipelineSettings}
variable {t t' : RunItems} {result : RetrievalPipelineResult}

omit [UnicodeTables] in
/-- The dense path ends without a candidate, or with accepted results. -/
theorem dense_answered {source : RetrievalSource}
    (done : retrieveAndRerank services display settings request db source t = .ok (result, t')) :
    denseCandidates services request db = [] ∨
      ∃ results, rerankResults services request (denseCandidates services request db) =
        some results ∧ Rag.rerankResultsValid ((denseCandidates services request db).map
          (·.chunk.documentChunkId)).dedup results = true := by
  unfold retrieveAndRerank at done
  unfold denseCandidates
  cases found : services.vectorSearch request.query request.topK request.filters with
  | none =>
    rw [found] at done
    cases done
  | some hits =>
    rw [found] at done
    simp only at done
    rw [Option.elim_some]
    split at done
    · rename_i none
      exact .inl none
    · split at done
      · cases done
      · rename_i results answered
        split at done
        · cases done
        · rename_i accepted
          rw [Bool.not_eq_true, Bool.not_eq_false'] at accepted
          exact .inr ⟨results, answered, accepted⟩

theorem dense_ranks {source : RetrievalSource}
    (done : retrieveAndRerank services display settings request db source t = .ok (result, t')) :
    RankedInOrder (((RetrievalPath.dense source).delivers services request db).map (·.rankOrder)) ↔
      (RetrievalPath.dense source).Keeps services request db := by
  have ranked : RankedInOrder ((denseCandidates services request db).map (·.rankOrder)) := by
    unfold denseCandidates
    cases services.vectorSearch request.query request.topK request.filters with
    | none => rfl
    | some hits => exact finalCheck_ranks hits
  show RankedInOrder (((rerankResults services request (denseCandidates services request db)).elim
    [] fun results => (rerankedCandidates (denseCandidates services request db) results).map
      (·.1)).map (·.rankOrder)) ↔ ∀ results ∈ rerankResults services request
        (denseCandidates services request db), _
  rcases dense_answered done with none | ⟨results, answered, valid⟩
  · rw [none]
    cases rerankResults services request [] with
    | none => simp [RankedInOrder]
    | some results => simp [RankedInOrder, rerankedCandidates]
  · rw [answered, Option.elim_some, reranked_sorted valid,
      ranked.same (List.length_insertionSort _ _), sort_fixed ranked.distinct]
    simp only [Option.mem_some_iff, forall_eq']

omit [Rounding] in
theorem hybrid_ranks (hybrid : HybridSettings) :
    RankedInOrder (((RetrievalPath.hybrid hybrid).delivers services request db).map
        (·.rankOrder)) ↔ (RetrievalPath.hybrid hybrid).Keeps services request db := by
  simp only [RetrievalPath.delivers, RetrievalPath.Keeps]
  cases found : hybridCandidates services request db hybrid with
  | none => simp [RankedInOrder]
  | some checked =>
    have ranked : RankedInOrder (checked.map (·.rankOrder)) := by
      unfold hybridCandidates at found
      simp only at found
      split at found
      · cases found
        exact finalCheck_ranks _
      · cases found
    have first : RankedInOrder ((checked.take request.topK).map (·.rankOrder)) := by
      rw [List.map_take]
      exact ranked.take _
    rw [Option.elim_some, affinity_sorted, first.same (by simp), take_sorted ranked.distinct]
    simp only [Option.mem_some_iff, forall_eq']

theorem direct_ranks {path : RetrievalPath}
    (done : path.run services display settings request db t = .ok (result, t')) :
    RankedInOrder ((path.delivers services request db).map (·.rankOrder)) ↔
      path.Keeps services request db := by
  cases path with
  | dense source => exact dense_ranks done
  | sparse =>
    simp only [RetrievalPath.delivers, RetrievalPath.Keeps, iff_true]
    cases services.sparseSearch request.query request.topK request.filters with
    | none => rfl
    | some hits => exact finalCheck_ranks hits
  | hybrid hybridSettings => exact hybrid_ranks hybridSettings

/-- An agentic retrieval ends without a candidate, without context, or with accepted results. -/
theorem agentic_answered {found : AgenticRetrievalResult}
    {summary : List SearchedCandidate → Nat → Option Number → RetrievalScoreSummary}
    (done : persistAgenticResult services display settings request found summary t =
      .ok (result, t')) :
    let final := orderBySourceAffinity request.query found.finalCandidates
    final = [] ∨ found.noContext = true ∨
      ∃ results, rerankResults services request final = some results ∧
        Rag.rerankResultsValid (final.map (·.chunk.documentChunkId)).dedup results = true := by
  unfold persistAgenticResult at done
  simp only at done
  split at done
  · rename_i none
    exact .inl none
  · split at done
    · rename_i noContext
      exact .inr (.inl noContext)
    · split at done
      · cases done
      · rename_i results answered
        split at done
        · cases done
        · rename_i accepted
          rw [Bool.not_eq_true, Bool.not_eq_false'] at accepted
          exact .inr (.inr ⟨results, answered, accepted⟩)

theorem agentic_ranks {found : AgenticRetrievalResult}
    {summary : List SearchedCandidate → Nat → Option Number → RetrievalScoreSummary}
    (done : persistAgenticResult services display settings request found summary t =
      .ok (result, t')) :
    RankedInOrder (((SearchPath.agentic found summary).delivers services request db).map
        (·.rankOrder)) ↔ (SearchPath.agentic found summary).Keeps services request db := by
  have ranked : RankedInOrder (found.finalCandidates.map (·.rankOrder)) := by
    unfold RankedInOrder
    rw [List.length_map]
    exact found.ranked
  have sorted := affinity_sorted request.query found.finalCandidates
  simp only [SearchPath.delivers, SearchPath.Keeps]
  by_cases noContext : found.noContext = true
  · rw [if_pos noContext, if_pos noContext, sorted, ranked.same (List.length_insertionSort _ _),
      sort_fixed ranked.distinct]
  · rw [if_neg noContext, if_neg noContext]
    rcases agentic_answered done with none | context | ⟨results, answered, valid⟩
    · have empty : found.finalCandidates = [] := by
        have size := List.length_insertionSort (AffinityOrder request.query) found.finalCandidates
        rw [← sorted, none] at size
        exact List.length_eq_zero_iff.mp size.symm
      rw [none, empty]
      cases rerankResults services request [] with
      | none => simp [RankedInOrder]
      | some results => simp [RankedInOrder, rerankedCandidates, affinity_nil]
    · exact absurd context noContext
    · rw [answered, Option.elim_some, affinity_sorted, reranked_sorted valid, sorted,
        ranked.same (by simp), lexicographic_fixed ranked.increasing]
      simp only [Option.mem_some_iff, forall_eq']

theorem graph_ranks {found : GraphSearchResult}
    (done : retrieveGraphOrBaseFallback services display settings request db found t =
      .ok (result, t')) :
    RankedInOrder (((SearchPath.graph found).delivers services request db).map (·.rankOrder)) ↔
      (SearchPath.graph found).Keeps services request db := by
  simp only [SearchPath.delivers, SearchPath.Keeps]
  by_cases visible : visibleGraphCandidates request db found = []
  · rw [if_neg (not_not.mpr visible)]
    simp only [visible, true_implies]
    cases fallback : found.fallback with
    | none => simp [RankedInOrder]
    | some path =>
      have ran : ∃ u r, path.run services display settings request db u = .ok r := by
        unfold retrieveGraphOrBaseFallback retrieveGraph at done
        simp only [visible, if_true, fallback, emptyResult] at done
        obtain ⟨r, ok, _⟩ := mapped_ok done
        exact ⟨t, r, ok⟩
      obtain ⟨u, ⟨r, u'⟩, ok⟩ := ran
      rw [Option.elim_some, direct_ranks ok]
      simp only [Option.mem_some_iff, forall_eq']
  · rw [if_pos visible]
    simp only [visible, false_implies, iff_true]
    unfold visibleGraphCandidates
    rw [List.map_take]
    exact (finalCheck_ranks _).take _

/-- The ranks of the returned candidates are one, two and so on exactly when the path keeps them. -/
theorem path_ranks {path : SearchPath}
    (done : path.run services display settings request db t = .ok (result, t')) :
    RankedInOrder ((path.delivers services request db).map (·.rankOrder)) ↔
      path.Keeps services request db := by
  cases path with
  | direct path => exact direct_ranks done
  | agentic found summary => exact agentic_ranks done
  | graph found => exact graph_ranks done

end Paths

section Search
variable (services : RetrievalServices) (display : Display) (settings : PipelineSettings)
variable (request : SearchRequest) (db : Db) [Rounding] [UnicodeTables]

/-- After a hit it is the cached ranks that count. -/
def SearchKeeps (cached : Option CachedRetrievalPayload) (path : SearchPath) (t : RunItems) : Prop :=
  match cached, cached.map fun payload =>
    hydrateCachedRetrievalResult display settings payload request.retrievalRunId request.filters db
      t with
  | some payload, some (.ok (some _, _)) => RankedInOrder (payload.items.map (·.rankOrder))
  | _, _ => path.Keeps services request db

variable {services display settings request db}

theorem search_ranks {cached : Option CachedRetrievalPayload} {path : SearchPath} {t t' : RunItems}
    {result : RetrievalPipelineResult}
    (done : search services display settings request db cached path t = .ok (result, t')) :
    RankedInOrder (result.items.map (·.rankOrder)) ↔
      SearchKeeps services display settings request db cached path t := by
  obtain ⟨entries, searched⟩ := search_searched done
  have ranks : result.items.map (·.rankOrder) =
      searchRanks services display settings request db cached path t := by
    rw [← searched.ranked, searched.items, List.map_map]
    unfold savedCandidates
    rw [List.map_map]
    conv_rhs => rw [← List.zipIdx_map_fst t.nextId entries, List.map_map]
    rfl
  rw [ranks]
  unfold search at done
  unfold searchRanks SearchKeeps
  cases cached with
  | none => exact path_ranks done
  | some payload =>
    rw [Option.map_some] at done ⊢
    cases hit : hydrateCachedRetrievalResult display settings payload request.retrievalRunId
        request.filters db t with
    | error failure =>
      rw [hit] at done
      exact path_ranks done
    | ok hydrated =>
      obtain ⟨found, u⟩ := hydrated
      rw [hit] at done
      cases found with
      | none => exact path_ranks done
      | some r => exact Iff.rfl

end Search

end RagProject.Retrieval
