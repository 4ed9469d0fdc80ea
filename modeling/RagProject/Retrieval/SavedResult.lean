import RagProject.Lib.Abreast
import RagProject.Retrieval.CacheJson

/-! What a retrieval path leaves: every path saves the same kind of rows for its ranked candidates,
which are rows of the final check. -/
namespace RagProject.Retrieval
open Python Documents Generation

section Checked
variable {filters : RetrievalFilters} {db : Db}

/-- The candidate holds the visible row of its chunk. -/
def HoldsRow (filters : RetrievalFilters) (db : Db) (c : CheckedRetrievalCandidate) : Prop :=
  ∃ row, visibleRow filters db c.chunk.documentChunkId = some row ∧ row.chunk = c.chunk ∧
    row.documentVersion = c.documentVersion ∧ row.logicalDocument = c.logicalDocument

theorem visibleRow_holds {id : Nat} {row : JoinedRow id} (found : visibleRow filters db id = some row)
    {c : CheckedRetrievalCandidate} (chunk : c.chunk = row.chunk)
    (version : c.documentVersion = row.documentVersion)
    (document : c.logicalDocument = row.logicalDocument) : HoldsRow filters db c := by
  have same : id = c.chunk.documentChunkId := by rw [chunk, row.sameChunk]
  subst same
  exact ⟨row, found, chunk.symm, version.symm, document.symm⟩

theorem finalCheck_holds {hits : List SearchHit} {c : SearchedCandidate}
    (member : c ∈ finalCheckCandidates filters db hits) :
    HoldsRow filters db c.toCheckedRetrievalCandidate := by
  have turn (entries : List (Nat × SearchHit)) (checked : List SearchedCandidate)
      (before : ∀ d ∈ checked, HoldsRow filters db d.toCheckedRetrievalCandidate) :
      ∀ d ∈ entries.foldl (checkHit filters db) checked,
        HoldsRow filters db d.toCheckedRetrievalCandidate := by
    induction entries generalizing checked with
    | nil => exact before
    | cons entry entries ih =>
      apply ih
      unfold checkHit
      split
      · exact before
      · rename_i row found
        intro d there
        rcases List.mem_append.mp there with old | new
        · exact before d old
        · cases List.mem_singleton.mp new
          exact visibleRow_holds found rfl rfl rfl
  exact turn _ [] (fun _ none => (List.not_mem_nil none).elim) c member

end Checked

section Ranked

/-- A candidate with what a reranker said of it. -/
structure RankedCandidate where
  candidate : SearchedCandidate
  rerankScore : Option Number
  rerankOrder : Option Nat

variable [Rounding] (display : Display) (source : RetrievalSource) (selectedCount : Nat)

def rankedEntry (e : RankedCandidate × Nat) : PipelineEntry where
  candidate := e.1.candidate
  input := itemInput display source e.1.candidate e.1.rerankScore e.1.rerankOrder e.2
    (e.2 ≤ selectedCount)
  rerankScore := e.1.rerankScore
  rerankOrder := e.1.rerankOrder
  selected := e.2 ≤ selectedCount
  sameChunk := rfl

def rankedEntries (ranked : List RankedCandidate) : List PipelineEntry :=
  (ranked.zipIdx 1).map (rankedEntry display source selectedCount)

variable {display source selectedCount}

theorem unranked_entries {input : SearchedCandidate → Nat → Bool → RetrievalRunItemInput}
    {same : ∀ c n b, (input c n b).documentChunkId = c.chunk.documentChunkId}
    (kind : ∀ c n b, input c n b = itemInput display source c none none n b)
    (candidates : List SearchedCandidate) :
    unrankedEntries input same candidates selectedCount =
      rankedEntries display source selectedCount (candidates.map fun c => ⟨c, none, none⟩) := by
  unfold unrankedEntries rankedEntries
  rw [List.zipIdx_map, List.map_map]
  apply List.map_congr_left
  intro e _
  simp only [Function.comp_apply, Prod.map, rankedEntry, kind, id]

def rankedPair (e : SearchedCandidate × Rag.RerankResult) : RankedCandidate where
  candidate := e.1
  rerankScore := some (.finite e.2.rerankScore)
  rerankOrder := some e.2.rerankOrder

theorem reranked_entries (ordered : List (SearchedCandidate × Rag.RerankResult)) :
    rerankedEntries display source ordered selectedCount =
      rankedEntries display source selectedCount (ordered.map rankedPair) := by
  unfold rerankedEntries rankedEntries
  rw [List.zipIdx_map, List.map_map]
  rfl

end Ranked

section Affinity
variable [UnicodeTables]

theorem affinity_mem {query : String} {candidates : List SearchedCandidate} {c : SearchedCandidate} :
    c ∈ orderBySourceAffinity query candidates ↔ c ∈ candidates := by
  unfold orderBySourceAffinity
  simp only
  split
  · exact Iff.rfl
  · split
    · exact Iff.rfl
    · exact List.mem_insertionSort _

end Affinity

section Paths
variable {services : RetrievalServices} {display : Display} {settings : PipelineSettings}
variable {request : SearchRequest} {db : Db} [Rounding]

/-- What a path did: its summary, and the rows of its ranked candidates unless there are none. -/
structure Retrieved (display : Display) (settings : PipelineSettings) (request : SearchRequest)
    (db : Db) (t t' : RunItems) (result : RetrievalPipelineResult) (source : RetrievalSource)
    (selectedCount : Nat) (ranked : List RankedCandidate) : Prop where
  holds : ∀ r ∈ ranked, HoldsRow request.filters db r.candidate.toCheckedRetrievalCandidate
  extra : ∃ hybrid, result.summary.extra = pathExtra hybrid
  saved : (ranked = [] ∧ result = emptyResult result.summary false ∧ t' = t) ∨
    savedResult display settings request (rankedEntries display source selectedCount ranked)
      selectedCount result.summary t = .ok (result, t')

theorem savedResult_summary {entries : List PipelineEntry} {selectedCount : Nat}
    {summary : RetrievalScoreSummary} {t t' : RunItems} {result : RetrievalPipelineResult}
    (done : savedResult display settings request entries selectedCount summary t = .ok (result, t')) :
    result.summary = summary := by
  unfold savedResult at done
  split at done
  · cases done
  · cases done
    rfl

theorem Retrieved.of_saved {t t' : RunItems} {result : RetrievalPipelineResult}
    {source : RetrievalSource} {selectedCount : Nat} {ranked : List RankedCandidate}
    {summary : RetrievalScoreSummary}
    (done : savedResult display settings request
      (rankedEntries display source selectedCount ranked) selectedCount summary t = .ok (result, t'))
    (holds : ∀ r ∈ ranked, HoldsRow request.filters db r.candidate.toCheckedRetrievalCandidate)
    (extra : ∃ hybrid, summary.extra = pathExtra hybrid) :
    Retrieved display settings request db t t' result source selectedCount ranked := by
  have same := savedResult_summary done
  refine ⟨holds, ?_, .inr ?_⟩
  · rw [same]
    exact extra
  · rw [same]
    exact done

theorem Retrieved.empty {t : RunItems} {summary : RetrievalScoreSummary} (source : RetrievalSource)
    (extra : ∃ hybrid, summary.extra = pathExtra hybrid) :
    Retrieved display settings request db t t (emptyResult summary false) source 0 [] :=
  ⟨fun _ none => (List.not_mem_nil none).elim, extra, .inl ⟨rfl, rfl, rfl⟩⟩

theorem reranked_mem {checked : List SearchedCandidate} {results : List Rag.RerankResult}
    {e : SearchedCandidate × Rag.RerankResult} (member : e ∈ rerankedCandidates checked results) :
    e.1 ∈ checked := by
  obtain ⟨c, inside, paired⟩ := List.mem_filterMap.mp ((List.mem_insertionSort _).mp member)
  obtain ⟨_, _, rfl⟩ := Option.map_eq_some_iff.mp paired
  exact inside

theorem dense_retrieved {source : RetrievalSource} {t t' : RunItems}
    {result : RetrievalPipelineResult}
    (done : retrieveAndRerank services display settings request db source t = .ok (result, t')) :
    ∃ selectedCount ranked,
      Retrieved display settings request db t t' result source selectedCount ranked := by
  unfold retrieveAndRerank at done
  simp only at done
  split at done
  · cases done
  · rename_i hits _
    split at done
    · cases done
      exact ⟨0, [], .empty source ⟨none, rfl⟩⟩
    · split at done
      · cases done
      · split at done
        · cases done
        · rename_i results _ _
          generalize finalCheck : finalCheckCandidates request.filters db hits = checked at done
          rw [reranked_entries] at done
          refine ⟨_, _, .of_saved done (fun r member => ?_) ⟨none, rfl⟩⟩
          obtain ⟨e, there, rfl⟩ := List.mem_map.mp member
          exact finalCheck_holds (finalCheck ▸ reranked_mem there)

theorem unranked_retrieved {source : RetrievalSource} {t t' : RunItems}
    {result : RetrievalPipelineResult} {candidates : List SearchedCandidate} {selectedCount : Nat}
    {summary : RetrievalScoreSummary}
    {input : SearchedCandidate → Nat → Bool → RetrievalRunItemInput}
    {same : ∀ c n b, (input c n b).documentChunkId = c.chunk.documentChunkId}
    (done : savedResult display settings request (unrankedEntries input same candidates selectedCount)
      selectedCount summary t = .ok (result, t'))
    (kind : ∀ c n b, input c n b = itemInput display source c none none n b)
    (holds : ∀ c ∈ candidates, HoldsRow request.filters db c.toCheckedRetrievalCandidate)
    (extra : ∃ hybrid, summary.extra = pathExtra hybrid) :
    Retrieved display settings request db t t' result source selectedCount
      (candidates.map fun c => ⟨c, none, none⟩) := by
  rw [unranked_entries kind] at done
  refine .of_saved done (fun r member => ?_) extra
  obtain ⟨c, there, rfl⟩ := List.mem_map.mp member
  exact holds c there

theorem sparse_retrieved {t t' : RunItems} {result : RetrievalPipelineResult}
    (done : retrieveSparse services display settings request db t = .ok (result, t')) :
    ∃ selectedCount ranked,
      Retrieved display settings request db t t' result .sparse selectedCount ranked := by
  unfold retrieveSparse at done
  simp only at done
  split at done
  · cases done
  · split at done
    · cases done
      exact ⟨0, [], .empty .sparse ⟨none, rfl⟩⟩
    · exact ⟨_, _, unranked_retrieved done (fun _ _ _ => rfl) (fun _ => finalCheck_holds)
        ⟨none, rfl⟩⟩

theorem hybrid_retrieved [UnicodeTables] {hybrid : HybridSettings} {t t' : RunItems}
    {result : RetrievalPipelineResult}
    (done : retrieveHybrid services display settings request db hybrid t = .ok (result, t')) :
    ∃ selectedCount ranked,
      Retrieved display settings request db t t' result .hybrid selectedCount ranked := by
  unfold retrieveHybrid at done
  simp only at done
  split at done
  · split at done
    · cases done
      exact ⟨0, [], .empty .hybrid ⟨some (_, hybrid.fusionMethod), rfl⟩⟩
    · refine ⟨_, _, unranked_retrieved done (fun _ _ _ => rfl) (fun c member => ?_)
        ⟨some (_, hybrid.fusionMethod), rfl⟩⟩
      exact finalCheck_holds (affinity_mem.mp (List.mem_of_mem_take member))
  · cases done

theorem path_retrieved [UnicodeTables] {path : RetrievalPath} {t t' : RunItems}
    {result : RetrievalPipelineResult}
    (done : path.run services display settings request db t = .ok (result, t')) :
    ∃ source selectedCount ranked,
      Retrieved display settings request db t t' result source selectedCount ranked := by
  cases path with
  | dense source => exact ⟨source, dense_retrieved done⟩
  | sparse => exact ⟨.sparse, sparse_retrieved done⟩
  | hybrid hybridSettings => exact ⟨.hybrid, hybrid_retrieved done⟩

end Paths

end RagProject.Retrieval
