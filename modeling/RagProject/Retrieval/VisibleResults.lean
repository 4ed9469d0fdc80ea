import RagProject.Retrieval.SamePrompt
import RagProject.Retrieval.SearchPaths

/-! What a search returns is visible when it returns: of a chunk within the filter, of a ready and
active version, of an active document. It adds rows for these chunks and leaves all others. -/
namespace RagProject.Retrieval
open Python Documents Generation

section Results
variable {filters : RetrievalFilters} {db : Db} [Rounding] {display : Display}
variable {settings : PipelineSettings}

/-- All parts of the result are of visible chunks, with the rows that these have now. -/
structure VisibleResult (filters : RetrievalFilters) (db : Db) (result : RetrievalPipelineResult) :
    Prop where
  items : ∀ item ∈ result.items, Visible filters db item.documentChunkId
  selected : ∀ c ∈ result.selectedCandidates, HoldsRow filters db c.toCheckedRetrievalCandidate
  citations : ∀ source ∈ result.citationSources, Visible filters db source.documentChunkId
  context : ∀ ref ∈ result.contextCandidates, HoldsRow filters db ref.candidate

omit [Rounding] in
theorem HoldsRow.visible {c : CheckedRetrievalCandidate} (holds : HoldsRow filters db c) :
    Visible filters db c.chunk.documentChunkId := by
  obtain ⟨row, found, _⟩ := holds
  unfold Visible
  rw [found]
  rfl

omit [Rounding] in
theorem VisibleResult.empty (summary : RetrievalScoreSummary) (noContext : Bool) :
    VisibleResult filters db (emptyResult summary noContext) where
  items _ none := (List.not_mem_nil none).elim
  selected _ none := (List.not_mem_nil none).elim
  citations _ none := (List.not_mem_nil none).elim
  context _ none := (List.not_mem_nil none).elim

theorem pipelineResult_visible {saved selected : List SavedCandidate}
    (holds : ∀ s ∈ saved, HoldsRow filters db s.entry.candidate.toCheckedRetrievalCandidate)
    (fewer : selected ⊆ saved) (summary : RetrievalScoreSummary) (noContext : Bool) :
    VisibleResult filters db (pipelineResult display settings summary saved selected noContext) where
  items item member := by
    obtain ⟨s, inside, rfl⟩ := List.mem_map.mp member
    exact (holds s inside).visible
  selected c member := by
    obtain ⟨s, inside, rfl⟩ := List.mem_map.mp member
    exact holds s (fewer inside)
  citations source member := by
    obtain ⟨⟨s, i⟩, inside, rfl⟩ := List.mem_map.mp member
    exact (holds s (fewer (List.fst_mem_of_mem_zipIdx inside))).visible
  context ref member := by
    obtain ⟨⟨s, i⟩, inside, rfl⟩ := List.mem_map.mp member
    exact holds s (List.fst_mem_of_mem_zipIdx inside)

omit [Rounding] in
theorem saved_holds {entries : List PipelineEntry}
    (holds : ∀ e ∈ entries, HoldsRow filters db e.candidate.toCheckedRetrievalCandidate)
    (run next : Nat) : ∀ s ∈ savedCandidates run next entries,
      HoldsRow filters db s.entry.candidate.toCheckedRetrievalCandidate := by
  intro s member
  obtain ⟨⟨e, id⟩, inside, rfl⟩ := List.mem_map.mp member
  exact holds e (List.fst_mem_of_mem_zipIdx inside)

end Results

section Paths
variable {services : RetrievalServices} {display : Display} {settings : PipelineSettings}
variable {request : SearchRequest} {db : Db} [Rounding] {t t' : RunItems}
variable {result : RetrievalPipelineResult}

theorem savedResult_visible {entries : List PipelineEntry} {selectedCount : Nat}
    {summary : RetrievalScoreSummary}
    (holds : ∀ e ∈ entries, HoldsRow request.filters db e.candidate.toCheckedRetrievalCandidate)
    (done : savedResult display settings request entries selectedCount summary t = .ok (result, t')) :
    VisibleResult request.filters db result := by
  unfold savedResult at done
  split at done
  · cases done
  · cases done
    exact pipelineResult_visible (saved_holds holds _ _) (List.take_subset _ _) _ _

variable [UnicodeTables]

omit [UnicodeTables] in
theorem agenticEntries_holds {resultOf : SearchedCandidate → Option Rag.RerankResult}
    {ordered : List SearchedCandidate} {selectedCount : Nat}
    (holds : ∀ c ∈ ordered, HoldsRow request.filters db c.toCheckedRetrievalCandidate) :
    ∀ e ∈ agenticEntries display resultOf ordered selectedCount,
      HoldsRow request.filters db e.candidate.toCheckedRetrievalCandidate := by
  intro e member
  obtain ⟨⟨c, i⟩, inside, rfl⟩ := List.mem_map.mp member
  exact holds c (List.fst_mem_of_mem_zipIdx inside)

theorem direct_visible {path : RetrievalPath}
    (done : path.run services display settings request db t = .ok (result, t')) :
    VisibleResult request.filters db result := by
  obtain ⟨source, selectedCount, ranked, retrieved⟩ := path_retrieved done
  rw [retrieved.parts.2]
  exact pipelineResult_visible (saved_holds (fun e => retrieved.entry_holds) _ _)
    (List.take_subset _ _) _ _

/-- The merged candidates of an agentic retrieval passed the visibility check of their searches. -/
theorem agentic_visible {found : AgenticRetrievalResult}
    {summary : List SearchedCandidate → Nat → Option Number → RetrievalScoreSummary}
    (merged : ∀ c ∈ found.finalCandidates,
      HoldsRow request.filters db c.toCheckedRetrievalCandidate)
    (done : persistAgenticResult services display settings request found summary t =
      .ok (result, t')) : VisibleResult request.filters db result := by
  have final : ∀ c ∈ orderBySourceAffinity request.query found.finalCandidates,
      HoldsRow request.filters db c.toCheckedRetrievalCandidate :=
    fun c member => merged c (affinity_mem.mp member)
  unfold persistAgenticResult at done
  simp only at done
  split at done
  · cases done
    exact .empty _ _
  · split at done
    · unfold withNoContext at done
      obtain ⟨⟨inner, _⟩, saved, shape⟩ := mapped_ok done
      cases shape
      obtain ⟨items, selected, citations, context⟩ :=
        savedResult_visible (agenticEntries_holds final) saved
      exact ⟨items, selected, citations, context⟩
    · split at done
      · cases done
      · split at done
        · cases done
        · refine savedResult_visible (agenticEntries_holds fun c member => ?_) done
          obtain ⟨pair, inside, rfl⟩ := List.mem_map.mp (affinity_mem.mp member)
          exact final _ (reranked_mem inside)

theorem graph_visible {found : GraphSearchResult}
    (done : retrieveGraphOrBaseFallback services display settings request db found t =
      .ok (result, t')) : VisibleResult request.filters db result := by
  have nodes {u : RunItems} {r : RetrievalPipelineResult}
      (ok : retrieveGraph display settings request db found t = .ok (r, u)) :
      VisibleResult request.filters db r := by
    unfold retrieveGraph at ok
    simp only at ok
    split at ok
    · cases ok
      exact .empty _ _
    · refine savedResult_visible (fun e member => ?_) ok
      obtain ⟨⟨c, i⟩, inside, rfl⟩ := List.mem_map.mp member
      exact finalCheck_holds (List.mem_of_mem_take (List.fst_mem_of_mem_zipIdx inside))
  unfold retrieveGraphOrBaseFallback at done
  split at done
  · cases done
  · rename_i r u ok
    split at done
    · obtain ⟨⟨inner, _⟩, ran, shape⟩ := mapped_ok done
      cases shape
      obtain ⟨items, selected, citations, context⟩ := direct_visible ran
      exact ⟨items, selected, citations, context⟩
    · cases done
      exact nodes ok

/-- A hit is checked again: its chunks are visible now. -/
theorem hydrated_visible {payload : CachedRetrievalPayload} {run : Nat} {filters : RetrievalFilters}
    (done : hydrateCachedRetrievalResult display settings payload run filters db t =
      .ok (some result, t')) : VisibleResult filters db result := by
  unfold hydrateCachedRetrievalResult at done
  split at done
  · cases done
  · split at done
    · cases done
      exact .empty _ _
    · simp only at done
      split at done
      · cases done
      · rename_i all
        split at done
        · cases done
        · rename_i within
          have tests := tests_iff.mp ⟨not_not.mp all, Bool.not_eq_true _ ▸ within⟩
          split at done
          · cases done
          · rename_i hydrated read
            split at done
            · cases done
            · cases done
              refine pipelineResult_visible (saved_holds ?_ _ _) (List.filter_subset_self _) _ _
              intro e member
              obtain ⟨h, inside, rfl⟩ := List.mem_map.mp member
              obtain ⟨item, there, found⟩ := Fallible.mapM_mem read h inside
              obtain ⟨row, joined, rfl⟩ := Option.map_eq_some_iff.mp found
              obtain ⟨same, again, inFilter⟩ := visible_iff.mp
                (tests _ (List.mem_dedup.mpr (List.mem_map_of_mem there)))
              rw [joined] at again
              cases again
              exact visibleRow_holds (Option.filter_eq_some_iff.mpr ⟨joined, inFilter⟩) rfl rfl rfl

/-- What a search may merge from other searches has passed their check. -/
def SearchPath.Checked (request : SearchRequest) (db : Db) : SearchPath → Prop
  | .agentic found _ => ∀ c ∈ found.finalCandidates,
      HoldsRow request.filters db c.toCheckedRetrievalCandidate
  | _ => True

theorem path_visible {path : SearchPath} (checked : path.Checked request db)
    (done : path.run services display settings request db t = .ok (result, t')) :
    VisibleResult request.filters db result := by
  cases path with
  | direct path => exact direct_visible done
  | agentic found summary => exact agentic_visible checked done
  | graph found => exact graph_visible done

theorem search_visible {cached : Option CachedRetrievalPayload} {path : SearchPath}
    (checked : path.Checked request db)
    (done : search services display settings request db cached path t = .ok (result, t')) :
    VisibleResult request.filters db result := by
  unfold search at done
  cases cached with
  | none => exact path_visible checked done
  | some payload =>
    rw [Option.map_some] at done
    split at done
    · rename_i hit
      cases done
      exact hydrated_visible (Option.some.inj hit)
    · exact path_visible checked done

/-- The new rows are those of the returned items, in their order; all other rows stay. -/
structure RowsAdded (request : SearchRequest) (db : Db) (t t' : RunItems)
    (result : RetrievalPipelineResult) (rows : List RetrievalRunItem) : Prop where
  added : t'.rows = t.rows ++ rows
  run : ∀ row ∈ rows, row.retrievalRunId = request.retrievalRunId ∧
    Visible request.filters db row.documentChunkId
  items : rows.map (fun row => (row.retrievalRunItemId, row.documentChunkId)) =
    result.items.map fun item => (item.retrievalRunItemId, item.documentChunkId)

omit [Rounding] [UnicodeTables] in
theorem entry_rows (run next : Nat) (entries : List PipelineEntry) :
    (((entries.map (·.input)).zipIdx next).map fun e => savedItem run e.2 e.1) =
      (savedCandidates run next entries).map (·.savedItem) := by
  unfold savedCandidates
  rw [List.map_map, List.zipIdx_map, List.map_map]
  rfl

/-- A search returns visible chunks only, found by any path or read from the cache, and adds only
their rows. -/
theorem search_returns_visible (services : RetrievalServices) (display : Display)
    (settings : PipelineSettings) (request : SearchRequest) (db : Db)
    (cached : Option CachedRetrievalPayload) (path : SearchPath) (t t' : RunItems)
    (result : RetrievalPipelineResult) (checked : path.Checked request db)
    (done : search services display settings request db cached path t = .ok (result, t')) :
    VisibleResult request.filters db result ∧ ∃ rows, RowsAdded request db t t' result rows := by
  have visible := search_visible checked done
  obtain ⟨entries, searched⟩ := search_searched done
  have items : ((savedCandidates request.retrievalRunId t.nextId entries).map (·.savedItem)).map
        (fun row => (row.retrievalRunItemId, row.documentChunkId)) =
      result.items.map fun item => (item.retrievalRunItemId, item.documentChunkId) := by
    rw [searched.items, List.map_map, List.map_map]
    apply List.map_congr_left
    intro s _
    exact Prod.ext rfl s.sameChunk
  refine ⟨visible, (savedCandidates request.retrievalRunId t.nextId entries).map (·.savedItem), ?_,
    fun row member => ⟨?_, ?_⟩, items⟩
  · rw [saveItems_rows searched.saved, entry_rows]
  · rw [← entry_rows] at member
    obtain ⟨e, _, rfl⟩ := List.mem_map.mp member
    rfl
  · have there := List.mem_map_of_mem (f := fun row : RetrievalRunItem =>
      (row.retrievalRunItemId, row.documentChunkId)) member
    rw [items] at there
    obtain ⟨item, inside, same⟩ := List.mem_map.mp there
    have chunk : item.documentChunkId = row.documentChunkId := congrArg Prod.snd same
    rw [← chunk]
    exact visible.items item inside

end Paths

section Meals

theorem meals_visible :
    let _ : UnicodeTables := asciiTables
    let _ : Rounding := exactRounding
    ∃ result t', search mealServices mealDisplay ⟨240, 240⟩ mealRequest mealDb none
        (.direct .sparse) ⟨[], 1⟩ = .ok (result, t') ∧ result.items ≠ [] ∧
      VisibleResult mealRequest.filters mealDb result := by
  intro _ _
  obtain ⟨⟨result, t'⟩, run, checked⟩ := Fallible.ok_with
    (r := search mealServices mealDisplay ⟨240, 240⟩ mealRequest mealDb none (.direct .sparse)
      ⟨[], 1⟩)
    (p := fun r : RetrievalPipelineResult × RunItems => decide (r.1.items ≠ [])) (by decide +kernel)
  have visible := search_returns_visible mealServices mealDisplay ⟨240, 240⟩ mealRequest mealDb none
    (.direct .sparse) ⟨[], 1⟩ t' result trivial run
  exact ⟨result, t', run, of_decide_eq_true checked, visible.1⟩

end Meals

end RagProject.Retrieval
