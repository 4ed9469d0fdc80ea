import RagProject.Retrieval.CacheHit

/-! The searches that an evaluation may ask: besides the three direct paths the end of an agentic
retrieval (services/rag_service.py) and the search of the graph with its fallback
(services/graph_rag_service.py), each behind the cache. -/
namespace RagProject.Retrieval
open Python Documents Generation

section Definitions

/-- What the agentic loop or an orchestrator found: merged candidates with the ranks from one. -/
structure AgenticRetrievalResult where
  finalCandidates : List SearchedCandidate
  noContext : Bool
  ranked : finalCandidates.map (·.rankOrder) = List.range' 1 finalCandidates.length

/-- _agentic_item_source. -/
def agenticItemSource (candidate : SearchedCandidate) : RetrievalSource :=
  let source := Dict.get candidate.payload "agentic_primary_source"
  if source = some (.str RetrievalSource.sparse.value) then .sparse
  else if source = some (.str RetrievalSource.hybrid.value) then .hybrid
  else if source = some (.str RetrievalSource.fallbackDense.value) then .fallbackDense
  else .dense

/-- The candidates of a graph search, and what it does when none of them is visible. -/
structure GraphSearchResult where
  graphCandidates : List SearchHit
  summary : (checkedCandidates : List SearchedCandidate) → (selectedCount : Nat) →
    RetrievalScoreSummary
  fallback : Option RetrievalPath
  fallbackSummary : RetrievalScoreSummary → RetrievalScoreSummary

variable (services : RetrievalServices) (display : Display) (settings : PipelineSettings)
variable (request : SearchRequest) (db : Db) [Rounding]

def agenticEntries (resultOf : SearchedCandidate → Option Rag.RerankResult)
    (ordered : List SearchedCandidate) (selectedCount : Nat) : List PipelineEntry :=
  (ordered.zipIdx 1).map fun e =>
    let rerankScore := (resultOf e.1).map fun r => Number.finite r.rerankScore
    let rerankOrder := (resultOf e.1).map (·.rerankOrder)
    { candidate := e.1
      input := itemInput display (agenticItemSource e.1) e.1 rerankScore rerankOrder e.2
        (e.2 ≤ selectedCount)
      rerankScore := rerankScore
      rerankOrder := rerankOrder
      selected := e.2 ≤ selectedCount
      sameChunk := rfl }

def withNoContext (done : Except RetrievalFailure (RetrievalPipelineResult × RunItems)) :
    Except RetrievalFailure (RetrievalPipelineResult × RunItems) :=
  done.map fun r => ({ r.1 with noContext := true }, r.2)

/-- rerank_by_chunk_id. -/
def resultOfChunk (pairs : List (SearchedCandidate × Rag.RerankResult)) (c : SearchedCandidate) :
    Option Rag.RerankResult :=
  (pairs.find? (·.1.chunk.documentChunkId == c.chunk.documentChunkId)).map (·.2)

variable [UnicodeTables]

/-- _persist_agentic_result; the summary is a parameter. -/
def persistAgenticResult (found : AgenticRetrievalResult)
    (summary : List SearchedCandidate → Nat → Option Number → RetrievalScoreSummary)
    (t : RunItems) : Except RetrievalFailure (RetrievalPipelineResult × RunItems) :=
  let final := orderBySourceAffinity request.query found.finalCandidates
  if final = [] then .ok (emptyResult (summary [] 0 none) true, t)
  else if found.noContext then
    withNoContext (savedResult display settings request
      (agenticEntries display (fun _ => none) final 0) 0 (summary final 0 none) t)
  else
    let expected := (final.map (·.chunk.documentChunkId)).dedup
    match services.rerank request.query (final.map fun c =>
      ⟨c.chunk.documentChunkId, c.chunk.contentText, c.retrievalScore⟩) with
    | none => .error .rerank
    | some results =>
      if !Rag.rerankResultsValid expected results then .error .rerank
      else
        let pairs := rerankedCandidates final results
        let ordered := orderBySourceAffinity request.query (pairs.map (·.1))
        let selectedCount := min request.rerankTopN ordered.length
        let top1 := (ordered.head?.bind (resultOfChunk pairs)).map fun r =>
          Number.finite r.rerankScore
        savedResult display settings request
          (agenticEntries display (resultOfChunk pairs) ordered selectedCount) selectedCount
          (summary final selectedCount top1) t

def graphRunItemInput (candidate : SearchedCandidate) : (finalRank : Nat) →
    (selectedFlag : Bool) → RetrievalRunItemInput :=
  itemInput display .graph candidate none none

/-- The candidates of the graph that are shown. -/
def visibleGraphCandidates (found : GraphSearchResult) : List SearchedCandidate :=
  (finalCheckCandidates request.filters db found.graphCandidates).take request.topK

/-- _retrieve_graph. -/
def retrieveGraph (found : GraphSearchResult) (t : RunItems) :
    Except RetrievalFailure (RetrievalPipelineResult × RunItems) :=
  let visible := visibleGraphCandidates request db found
  let selectedCount := min request.rerankTopN visible.length
  if visible = [] then .ok (emptyResult (found.summary [] 0) true, t)
  else
    savedResult display settings request
      (unrankedEntries (graphRunItemInput display) (fun _ _ _ => rfl) visible selectedCount)
      selectedCount (found.summary visible selectedCount) t

/-- _retrieve_graph_or_base_fallback. -/
def retrieveGraphOrBaseFallback (found : GraphSearchResult) (t : RunItems) :
    Except RetrievalFailure (RetrievalPipelineResult × RunItems) :=
  match retrieveGraph display settings request db found t with
  | .error e => .error e
  | .ok (result, t') =>
    match result.noContext, found.fallback with
    | true, some path =>
      (path.run services display settings request db t').map fun r =>
        ({ r.1 with summary := found.fallbackSummary r.1.summary }, r.2)
    | _, _ => .ok (result, t')

/-- What the reranker is asked, and what it answers. -/
def rerankResults (candidates : List SearchedCandidate) : Option (List Rag.RerankResult) :=
  services.rerank request.query (candidates.map fun c =>
    ⟨c.chunk.documentChunkId, c.chunk.contentText, c.retrievalScore⟩)

/-- The checked candidates of the hybrid search. -/
def hybridCandidates (hybrid : HybridSettings) : Option (List SearchedCandidate) :=
  let candidateLimit := min (request.topK * hybrid.candidateMultiplier) 50
  match (if hybrid.usesDense then
      services.vectorSearch request.query candidateLimit request.filters else some []),
    (if hybrid.usesSparse then
      services.sparseSearch request.query candidateLimit request.filters else some []) with
  | some denseCandidates, some sparseCandidates =>
    some (finalCheckCandidates request.filters db
      (services.fuse denseCandidates sparseCandidates hybrid.fusionMethod candidateLimit))
  | _, _ => none

/-- What a search does that finds nothing in the cache. -/
inductive SearchPath where
  | direct (path : RetrievalPath)
  | agentic (found : AgenticRetrievalResult)
      (summary : List SearchedCandidate → Nat → Option Number → RetrievalScoreSummary)
  | graph (found : GraphSearchResult)

def SearchPath.run (t : RunItems) : SearchPath →
    Except RetrievalFailure (RetrievalPipelineResult × RunItems)
  | .direct path => path.run services display settings request db t
  | .agentic found summary => persistAgenticResult services display settings request found summary t
  | .graph found => retrieveGraphOrBaseFallback services display settings request db found t

/-- The candidates in the order of the returned items. -/
def RetrievalPath.delivers : RetrievalPath → List SearchedCandidate
  | .dense _ =>
    let checked := (services.vectorSearch request.query request.topK request.filters).elim []
      (finalCheckCandidates request.filters db)
    (rerankResults services request checked).elim [] fun results =>
      (rerankedCandidates checked results).map (·.1)
  | .sparse => (services.sparseSearch request.query request.topK request.filters).elim []
      (finalCheckCandidates request.filters db)
  | .hybrid hybridSettings =>
    (hybridCandidates services request db hybridSettings).elim [] fun checked =>
      (orderBySourceAffinity request.query checked).take request.topK

def SearchPath.delivers : SearchPath → List SearchedCandidate
  | .direct path => path.delivers services request db
  | .agentic found _ =>
    let final := orderBySourceAffinity request.query found.finalCandidates
    if found.noContext then final
    else (rerankResults services request final).elim [] fun results =>
      orderBySourceAffinity request.query ((rerankedCandidates final results).map (·.1))
  | .graph found =>
    let visible := visibleGraphCandidates request db found
    if visible ≠ [] then visible
    else found.fallback.elim [] fun path => path.delivers services request db

def SearchPath.isGraph : SearchPath → Bool
  | .graph _ => true
  | _ => false

/-- Which of the returned items, counted from zero, a path selects. -/
def SearchPath.selects (request : SearchRequest) : SearchPath → Nat → Bool
  | .agentic found _, i => !found.noContext && decide (i < request.rerankTopN)
  | _, i => i < request.rerankTopN

/-- A hit that cannot be used is undone, and the search goes on without it. -/
def search (cached : Option CachedRetrievalPayload) (path : SearchPath) (t : RunItems) :
    Except RetrievalFailure (RetrievalPipelineResult × RunItems) :=
  match cached.map fun payload =>
    hydrateCachedRetrievalResult display settings payload request.retrievalRunId request.filters db
      t with
  | some (.ok (some result, t')) => .ok (result, t')
  | _ => path.run services display settings request db t

/-- The items that a search selects: after a hit, those that the cached search selected. -/
def searchSelects (cached : Option CachedRetrievalPayload) (path : SearchPath) (t : RunItems)
    (i : Nat) : Bool :=
  match cached, cached.map fun payload =>
    hydrateCachedRetrievalResult display settings payload request.retrievalRunId request.filters db
      t with
  | some payload, some (.ok (some _, _)) => payload.items[i]?.any (·.selectedFlag)
  | _, _ => path.selects request i

/-- The ranks of the returned items: after a hit, those that were cached. -/
def searchRanks (cached : Option CachedRetrievalPayload) (path : SearchPath) (t : RunItems) :
    List Nat :=
  match cached, cached.map fun payload =>
    hydrateCachedRetrievalResult display settings payload request.retrievalRunId request.filters db
      t with
  | some payload, some (.ok (some _, _)) => payload.items.map (·.rankOrder)
  | _, _ => (path.delivers services request db).map (·.rankOrder)

end Definitions

section Saving
variable {retrievalRunId : Nat} {inputs : List RetrievalRunItemInput} {t t' : RunItems}

/-- The rows of a run take the next ids. -/
theorem saveItems_rows (saved : saveItems retrievalRunId inputs t = .ok t') :
    t' = ⟨t.rows ++ (inputs.zipIdx t.nextId).map fun e => savedItem retrievalRunId e.2 e.1,
      t.nextId + inputs.length⟩ := by
  induction inputs generalizing t with
  | nil =>
    cases saved
    simp
  | cons input inputs ih =>
    unfold saveItems at saved
    rw [List.foldlM_cons] at saved
    obtain ⟨next, first, rest⟩ := Fallible.bind_ok saved
    obtain ⟨_, _, rfl⟩ := insertItem_ok first
    rw [ih rest]
    simp [List.zipIdx_cons, Nat.add_assoc, Nat.add_comm 1]

end Saving

section Rows
variable {services : RetrievalServices} {display : Display} {settings : PipelineSettings}
variable {request : SearchRequest} {db : Db} [Rounding] {t t' : RunItems}
variable {result : RetrievalPipelineResult} {selects : Nat → Bool}

/-- The entries mark the selected ones, in their rows as well. -/
structure Marked (selects : Nat → Bool) (entries : List PipelineEntry) : Prop where
  flags : ∀ e ∈ entries, e.input.selectedFlag = e.selected
  selected : ∀ i e, entries[i]? = some e → e.selected = selects i

/-- What a search did: the rows of its entries are saved, and an item is returned for each. -/
structure Searched (display : Display) (settings : PipelineSettings) (retrievalRunId : Nat)
    (t t' : RunItems) (result : RetrievalPipelineResult) (selects : Nat → Bool) (ranks : List Nat)
    (entries : List PipelineEntry) : Prop extends Marked selects entries where
  saved : saveItems retrievalRunId (entries.map (·.input)) t = .ok t'
  items : result.items =
    (savedCandidates retrievalRunId t.nextId entries).map (responseItem display settings)
  ranked : entries.map (·.candidate.rankOrder) = ranks

theorem Searched.empty (summary : RetrievalScoreSummary) (noContext : Bool) (run : Nat)
    (t : RunItems) (selects : Nat → Bool) {delivered : List SearchedCandidate}
    (none : delivered = []) :
    Searched display settings run t t (emptyResult summary noContext) selects
      (delivered.map (·.rankOrder)) [] where
  flags _ none := (List.not_mem_nil none).elim
  selected _ _ none := by cases none
  saved := rfl
  items := rfl
  ranked := by rw [none]; rfl

theorem Searched.of_saved {entries : List PipelineEntry} {selectedCount : Nat}
    {summary : RetrievalScoreSummary} {ranks : List Nat}
    (done : savedResult display settings request entries selectedCount summary t = .ok (result, t'))
    (marked : Marked selects entries) (ranked : entries.map (·.candidate.rankOrder) = ranks) :
    Searched display settings request.retrievalRunId t t' result selects ranks entries := by
  unfold savedResult at done
  split at done
  · cases done
  · rename_i saved
    cases done
    exact ⟨marked, saved, rfl, ranked⟩

omit [Rounding] in
theorem numbered_ranks {A : Type} {entry : A × Nat → PipelineEntry}
    (candidate : A → SearchedCandidate) (same : ∀ e, (entry e).candidate = candidate e.1)
    (ranked : List A) : ((ranked.zipIdx 1).map entry).map (·.candidate.rankOrder) =
      (ranked.map candidate).map (·.rankOrder) := by
  conv_rhs => rw [← List.zipIdx_map_fst 1 ranked]
  simp only [List.map_map, Function.comp_def, same]

omit [Rounding] in
/-- Entries made of numbered candidates mark the first ones. -/
theorem Marked.numbered {A : Type} {entry : A × Nat → PipelineEntry} {ranked : List A}
    {rerankTopN : Nat}
    (marks : ∀ e, (entry e).selected = decide (e.2 ≤ min rerankTopN ranked.length))
    (flags : ∀ e, (entry e).input.selectedFlag = (entry e).selected) :
    Marked (fun i => decide (i < rerankTopN)) ((ranked.zipIdx 1).map entry) := by
  constructor
  · intro e member
    obtain ⟨a, _, rfl⟩ := List.mem_map.mp member
    exact flags a
  · intro i e found
    rw [List.getElem?_map, List.getElem?_zipIdx] at found
    cases there : ranked[i]? with
    | none =>
      rw [there] at found
      cases found
    | some a =>
      obtain ⟨inside, _⟩ := List.getElem?_eq_some_iff.mp there
      rw [there] at found
      cases found
      have bound : 1 + i ≤ min rerankTopN ranked.length ↔ i < rerankTopN := by omega
      rw [marks]
      exact decide_eq_decide.mpr bound

variable [UnicodeTables]

/-- The end of the dense path. -/
theorem dense_saved {source : RetrievalSource}
    (done : retrieveAndRerank services display settings request db source t = .ok (result, t')) :
    let delivered := (RetrievalPath.dense source).delivers services request db
    delivered = [] ∧ t' = t ∧ (∃ summary, result = emptyResult summary false) ∨
      ∃ ordered summary, delivered = ordered.map (·.1) ∧
        savedResult display settings request
          (rerankedEntries display source ordered (min request.rerankTopN ordered.length))
          (min request.rerankTopN ordered.length) summary t = .ok (result, t') := by
  unfold retrieveAndRerank at done
  simp only [RetrievalPath.delivers]
  cases found : services.vectorSearch request.query request.topK request.filters with
  | none =>
    rw [found] at done
    cases done
  | some hits =>
    rw [found] at done
    simp only at done
    split at done
    · rename_i none
      cases done
      refine .inl ⟨?_, rfl, _, rfl⟩
      simp only [Option.elim_some, none]
      cases rerankResults services request [] <;> rfl
    · split at done
      · cases done
      · rename_i results answered
        split at done
        · cases done
        · refine .inr ⟨_, _, ?_, done⟩
          have asked : rerankResults services request
              (finalCheckCandidates request.filters db hits) = some results := answered
          simp only [Option.elim_some, asked]

theorem dense_searched {source : RetrievalSource}
    (done : retrieveAndRerank services display settings request db source t = .ok (result, t')) :
    ∃ entries, Searched display settings request.retrievalRunId t t' result
      (fun i => decide (i < request.rerankTopN))
      (((RetrievalPath.dense source).delivers services request db).map (·.rankOrder)) entries := by
  rcases dense_saved done with ⟨none, rfl, summary, rfl⟩ | ⟨ordered, summary, delivered, saved⟩
  · exact ⟨[], .empty _ _ _ _ _ none⟩
  · rw [delivered]
    refine ⟨_, .of_saved saved (.numbered (fun _ => rfl) fun _ => rfl) ?_⟩
    unfold rerankedEntries
    refine numbered_ranks (fun pair => pair.1) ?_ ordered
    exact fun _ => rfl

theorem sparse_searched
    (done : retrieveSparse services display settings request db t = .ok (result, t')) :
    ∃ entries, Searched display settings request.retrievalRunId t t' result
      (fun i => decide (i < request.rerankTopN))
      ((RetrievalPath.sparse.delivers services request db).map (·.rankOrder)) entries := by
  unfold retrieveSparse at done
  simp only [RetrievalPath.delivers]
  cases found : services.sparseSearch request.query request.topK request.filters with
  | none =>
    rw [found] at done
    cases done
  | some hits =>
    rw [found] at done
    simp only at done
    split at done
    · rename_i none
      cases done
      exact ⟨[], .empty _ _ _ _ _ none⟩
    · exact ⟨_, .of_saved done (.numbered (fun _ => rfl) fun _ => rfl)
        ((numbered_ranks id (fun _ => rfl) _).trans (by rw [List.map_id]; rfl))⟩

theorem hybrid_searched {hybrid : HybridSettings}
    (done : retrieveHybrid services display settings request db hybrid t = .ok (result, t')) :
    ∃ entries, Searched display settings request.retrievalRunId t t' result
      (fun i => decide (i < request.rerankTopN))
      (((RetrievalPath.hybrid hybrid).delivers services request db).map (·.rankOrder))
      entries := by
  unfold retrieveHybrid at done
  simp only at done
  split at done
  · rename_i denseHits sparseHits dense sparse
    have checked : hybridCandidates services request db hybrid =
        some (finalCheckCandidates request.filters db (services.fuse denseHits sparseHits
          hybrid.fusionMethod (min (request.topK * hybrid.candidateMultiplier) 50))) := by
      simp only [hybridCandidates, dense, sparse]
    simp only [RetrievalPath.delivers, checked, Option.elim_some]
    split at done
    · rename_i none
      cases done
      exact ⟨[], .empty _ _ _ _ _ none⟩
    · exact ⟨_, .of_saved done (.numbered (fun _ => rfl) fun _ => rfl)
        ((numbered_ranks id (fun _ => rfl) _).trans (by rw [List.map_id]))⟩
  · cases done

theorem direct_searched {path : RetrievalPath}
    (done : path.run services display settings request db t = .ok (result, t')) :
    ∃ entries, Searched display settings request.retrievalRunId t t' result
      (fun i => decide (i < request.rerankTopN))
      ((path.delivers services request db).map (·.rankOrder)) entries := by
  cases path with
  | dense source => exact dense_searched done
  | sparse => exact sparse_searched done
  | hybrid hybridSettings => exact hybrid_searched done

omit [Rounding] [UnicodeTables] in
theorem mapped_ok {f : RetrievalPipelineResult × RunItems → RetrievalPipelineResult × RunItems}
    {done : Except RetrievalFailure (RetrievalPipelineResult × RunItems)}
    (mapped : done.map f = .ok (result, t')) : ∃ r, done = .ok r ∧ f r = (result, t') := by
  cases done with
  | error e => cases mapped
  | ok r => exact ⟨r, rfl, Except.ok.inj mapped⟩

omit [Rounding] in
theorem affinity_nil (query : String) : orderBySourceAffinity query [] = [] := by
  unfold orderBySourceAffinity
  simp

theorem agentic_searched {found : AgenticRetrievalResult}
    {summary : List SearchedCandidate → Nat → Option Number → RetrievalScoreSummary}
    (done : persistAgenticResult services display settings request found summary t =
      .ok (result, t')) :
    ∃ entries, Searched display settings request.retrievalRunId t t' result
      (fun i => !found.noContext && decide (i < request.rerankTopN))
      (((SearchPath.agentic found summary).delivers services request db).map (·.rankOrder))
      entries := by
  unfold persistAgenticResult at done
  simp only at done
  simp only [SearchPath.delivers]
  split at done
  · rename_i none
    cases done
    refine ⟨[], .empty _ _ _ _ _ ?_⟩
    rw [none]
    cases found.noContext with
    | true => rfl
    | false =>
      cases answered : rerankResults services request [] with
      | none => rfl
      | some results => exact affinity_nil _
  · split at done
    · rename_i noContext
      unfold withNoContext at done
      obtain ⟨⟨inner, _⟩, saved, shape⟩ := mapped_ok done
      cases shape
      have marked : Marked (fun i => decide (i < 0)) (agenticEntries display (fun _ => none)
          (orderBySourceAffinity request.query found.finalCandidates) 0) :=
        .numbered (fun e => by rw [Nat.zero_min]) fun _ => rfl
      have ranks : (agenticEntries display (fun _ => none)
          (orderBySourceAffinity request.query found.finalCandidates) 0).map
            (·.candidate.rankOrder) = _ := numbered_ranks id (fun _ => rfl) _
      obtain ⟨⟨flags, selected⟩, rows, items, _⟩ := Searched.of_saved saved marked rfl
      rw [noContext, if_pos rfl]
      refine ⟨_, ⟨flags, fun i e there => ?_⟩, rows, items, ?_⟩
      · rw [selected i e there]
        rfl
      · rw [List.map_id] at ranks
        exact ranks
    · rename_i context
      rw [Bool.not_eq_true] at context
      split at done
      · cases done
      · rename_i results answered
        split at done
        · cases done
        · have asked : rerankResults services request
              (orderBySourceAffinity request.query found.finalCandidates) = some results := answered
          refine ⟨_, .of_saved done ?_ ?_⟩
          · rw [context]
            exact .numbered (fun _ => rfl) fun _ => rfl
          · rw [context, asked]
            exact (numbered_ranks id (fun _ => rfl) _).trans
              (by rw [List.map_id]; rfl)

theorem graph_searched {found : GraphSearchResult}
    (done : retrieveGraphOrBaseFallback services display settings request db found t =
      .ok (result, t')) :
    ∃ entries, Searched display settings request.retrievalRunId t t' result
      (fun i => decide (i < request.rerankTopN))
      (((SearchPath.graph found).delivers services request db).map (·.rankOrder)) entries := by
  have rows {u : RunItems} {r : RetrievalPipelineResult}
      (found_ok : retrieveGraph display settings request db found t = .ok (r, u)) :
      (∃ entries, Searched display settings request.retrievalRunId t u r
          (fun i => decide (i < request.rerankTopN))
          ((visibleGraphCandidates request db found).map (·.rankOrder)) entries) ∧
        (r.noContext = true ↔ visibleGraphCandidates request db found = []) ∧
        (r.noContext = true → u = t) := by
    unfold retrieveGraph at found_ok
    simp only at found_ok
    split at found_ok
    · rename_i none
      cases found_ok
      exact ⟨⟨[], .empty _ _ _ _ _ none⟩, ⟨fun _ => none, fun _ => rfl⟩, fun _ => rfl⟩
    · rename_i some_visible
      refine ⟨⟨_, Searched.of_saved found_ok (.numbered (fun _ => rfl) fun _ => rfl)
        ((numbered_ranks id (fun _ => rfl) _).trans (by rw [List.map_id]))⟩, ?_⟩
      unfold savedResult at found_ok
      split at found_ok
      · cases found_ok
      · cases found_ok
        exact ⟨⟨fun none => absurd none Bool.false_ne_true, fun none => absurd none some_visible⟩,
          fun none => absurd none Bool.false_ne_true⟩
  unfold retrieveGraphOrBaseFallback at done
  simp only [SearchPath.delivers]
  split at done
  · cases done
  · rename_i r u found_ok
    obtain ⟨⟨entries, searched⟩, empty_iff, same⟩ := rows found_ok
    split at done
    · rename_i path empty fallback
      rw [same empty] at done
      obtain ⟨⟨inner, _⟩, ran, shape⟩ := mapped_ok done
      cases shape
      obtain ⟨others, marked, saved, items, ranked⟩ := direct_searched ran
      rw [if_neg (not_not.mpr (empty_iff.mp empty)), fallback]
      exact ⟨others, marked, saved, items, ranked⟩
    · rename_i unused
      cases done
      by_cases visible : visibleGraphCandidates request db found = []
      · cases fallback : found.fallback with
        | some path => exact absurd fallback (unused path (empty_iff.mpr visible))
        | none =>
          rw [visible] at searched
          rw [if_neg (not_not.mpr visible)]
          exact ⟨entries, searched⟩
      · rw [if_pos visible]
        exact ⟨entries, searched⟩

theorem path_searched {path : SearchPath}
    (done : path.run services display settings request db t = .ok (result, t')) :
    ∃ entries, Searched display settings request.retrievalRunId t t' result (path.selects request)
      ((path.delivers services request db).map (·.rankOrder)) entries := by
  cases path with
  | direct path => exact direct_searched done
  | agentic found summary => exact agentic_searched done
  | graph found => exact graph_searched done

theorem hydrated_searched {payload : CachedRetrievalPayload} {run : Nat}
    {filters : RetrievalFilters}
    (done : hydrateCachedRetrievalResult display settings payload run filters db t =
      .ok (some result, t')) :
    ∃ entries, Searched display settings run t t' result
      (fun i => payload.items[i]?.any (·.selectedFlag)) (payload.items.map (·.rankOrder))
      entries := by
  unfold hydrateCachedRetrievalResult at done
  split at done
  · cases done
  · split at done
    · rename_i none
      cases done
      have nothing : ([] : List SearchedCandidate) = [] := rfl
      rw [none]
      exact ⟨[], .empty _ _ _ _ _ nothing⟩
    · simp only at done
      split at done
      · cases done
      · split at done
        · cases done
        · split at done
          · cases done
          · rename_i hydrated read
            have same : hydrated.map (·.item) = payload.items :=
              Fallible.mapM_key read fun item _ h found => by
                obtain ⟨row, _, rfl⟩ := Option.map_eq_some_iff.mp found
                rfl
            have ranks : ∀ h ∈ hydrated, h.candidate.rankOrder = h.item.rankOrder := by
              intro h member
              obtain ⟨item, _, found⟩ := Fallible.mapM_mem read h member
              obtain ⟨row, _, rfl⟩ := Option.map_eq_some_iff.mp found
              rfl
            split at done
            · cases done
            · rename_i saved
              cases done
              refine ⟨_, ⟨fun e member => ?_, fun i e there => ?_⟩, saved, rfl, ?_⟩
              · obtain ⟨h, _, rfl⟩ := List.mem_map.mp member
                rfl
              · rw [List.getElem?_map] at there
                obtain ⟨h, at_h, rfl⟩ := Option.map_eq_some_iff.mp there
                rw [← same, List.getElem?_map, at_h]
                rfl
              · rw [← same, List.map_map, List.map_map]
                exact List.map_congr_left ranks

theorem search_searched {cached : Option CachedRetrievalPayload} {path : SearchPath}
    (done : search services display settings request db cached path t = .ok (result, t')) :
    ∃ entries, Searched display settings request.retrievalRunId t t' result
      (searchSelects display settings request db cached path t)
      (searchRanks services display settings request db cached path t) entries := by
  unfold search at done
  unfold searchSelects searchRanks
  cases cached with
  | none => exact path_searched done
  | some payload =>
    rw [Option.map_some] at done ⊢
    cases hit : hydrateCachedRetrievalResult display settings payload request.retrievalRunId
        request.filters db t with
    | error failure =>
      rw [hit] at done
      exact path_searched done
    | ok hydrated =>
      obtain ⟨found, u⟩ := hydrated
      rw [hit] at done
      cases found with
      | none => exact path_searched done
      | some r =>
        cases done
        exact hydrated_searched hit

end Rows

end RagProject.Retrieval
