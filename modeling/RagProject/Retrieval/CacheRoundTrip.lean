import RagProject.Retrieval.CacheHit

/-! A retrieval that is stored, read back and hydrated: the same result, but for the ids of its
rows and the payloads of the search. -/
namespace RagProject.Retrieval
open Python Documents Generation Context

section Same

structure SameCandidate (c c' : SearchedCandidate) : Prop where
  shown : shown c'.toCheckedRetrievalCandidate = shown c.toCheckedRetrievalCandidate
  score : c'.retrievalScore = c.retrievalScore
  rank : c'.rankOrder = c.rankOrder
  payload : c'.payload = []

/-- The same context candidate, where the row with an id has become the row with another. -/
structure SameRef (rename : Nat → Nat) (r r' : ContextCandidateRef) : Prop where
  row : r'.runItemId = rename r.runItemId
  shown : shown r'.candidate = shown r.candidate
  score : r'.candidate.retrievalScore = r.candidate.retrievalScore
  rankOrder : r'.candidate.rankOrder = r.candidate.rankOrder
  rank : r'.rank = r.rank
  rerankScore : r'.rerankScore = r.rerankScore
  rerankOrder : r'.rerankOrder = r.rerankOrder
  citationCandidate : r'.citationCandidate = r.citationCandidate
  source : r'.savedItem.retrievalSource = r.savedItem.retrievalSource

structure SameHit (rename : Nat → Nat) (result hit : RetrievalPipelineResult) : Prop where
  summary : hit.summary = result.summary
  items : hit.items = result.items.map fun item =>
    { item with retrievalRunItemId := rename item.retrievalRunItemId }
  selected : List.Forall₂ SameCandidate result.selectedCandidates hit.selectedCandidates
  citations : hit.citationSources = result.citationSources.map fun source =>
    { source with retrievalRunItemId := rename source.retrievalRunItemId }
  context : List.Forall₂ (SameRef rename) result.contextCandidates hit.contextCandidates
  noContext : hit.noContext = result.noContext

/-- Every score of the result is finite, and the scores of its candidates have six decimals at
most. -/
structure SixDecimalScores [Rounding] (result : RetrievalPipelineResult) : Prop where
  candidates : ∀ ref ∈ result.contextCandidates,
    SixDecimals ref.candidate.retrievalScore ∧ ∀ s ∈ ref.rerankScore, SixDecimals s
  top1 : ∀ n ∈ result.summary.top1RetrievalScore, n ≠ .nonFinite
  top3 : ∀ n ∈ result.summary.top3AvgRetrievalScore, n ≠ .nonFinite
  rerank : ∀ n ∈ result.summary.top1RerankScore, n ≠ .nonFinite

end Same

section Results
variable [UnicodeTables] [Rounding] {display : Display} {settings : PipelineSettings}
variable {rename : Nat → Nat}

structure SameSaved (rename : Nat → Nat) (s s' : SavedCandidate) : Prop where
  entry : SameEntry s.entry s'.entry
  row : s'.savedItem.retrievalRunItemId = rename s.savedItem.retrievalRunItemId
  source : s'.savedItem.retrievalSource = s.savedItem.retrievalSource

omit [UnicodeTables] [Rounding] in
theorem saved_same {entries entries' : List PipelineEntry}
    (same : List.Forall₂ SameEntry entries entries') (run run' m n : Nat) :
    List.Forall₂ (SameSaved fun k => n + (k - m)) (savedCandidates run m entries)
      (savedCandidates run' n entries') := by
  unfold savedCandidates
  rw [List.forall₂_map_left_iff, List.forall₂_map_right_iff]
  refine (Abreast.zipIdx same m n).imp ?_
  rintro ⟨e, k⟩ ⟨e', k'⟩ ⟨entry, i, rfl, rfl⟩
  refine ⟨entry, ?_, ?_⟩
  · change n + i = n + (m + i - m)
    omega
  · have alike := entry.alike
    change some _ = some _
    rw [alike]

omit [UnicodeTables] in
theorem responseItem_same {s s' : SavedCandidate} (same : SameSaved rename s s') :
    responseItem display settings s' =
      { responseItem display settings s with
        retrievalRunItemId := rename s.savedItem.retrievalRunItemId } := by
  have chunk := congrArg ShownRows.chunk same.entry.shown
  simp only [shown] at chunk
  unfold responseItem
  simp only [same.entry.shown, same.entry.score, same.entry.rank, same.entry.rerankScore,
    same.entry.rerankOrder, same.entry.selected, same.row, chunk]

omit [UnicodeTables] [Rounding] in
theorem contextRef_same {s s' : SavedCandidate} (same : SameSaved rename s s') (rank : Nat) :
    SameRef rename (contextRef s rank) (contextRef s' rank) :=
  ⟨same.row, same.entry.shown, same.entry.score, same.entry.rank, rfl, same.entry.rerankScore,
    same.entry.rerankOrder, same.entry.selected, same.source⟩

omit [UnicodeTables] [Rounding] in
theorem citationSource_same {r r' : ContextCandidateRef} (same : SameRef rename r r')
    (localId : Nat) :
    citationSource display.labels settings.citationPreviewMaxChars r' localId =
      { citationSource display.labels settings.citationPreviewMaxChars r localId with
        retrievalRunItemId := rename r.runItemId } := by
  have chunk := congrArg ShownRows.chunk same.shown
  simp only [shown] at chunk
  unfold citationSource Display.labels
  simp only [same.shown, same.row, chunk]

omit [UnicodeTables] in
theorem pipelineResult_same {summary : RetrievalScoreSummary}
    {saved saved' selected selected' : List SavedCandidate}
    (same : List.Forall₂ (SameSaved rename) saved saved')
    (chosen : List.Forall₂ (SameSaved rename) selected selected') (noContext : Bool) :
    SameHit rename (pipelineResult display settings summary saved selected noContext)
      (pipelineResult display settings summary saved' selected' noContext) := by
  refine ⟨rfl, ?_, ?_, ?_, ?_, rfl⟩
  · simp only [pipelineResult, List.map_map]
    exact (Abreast.map_eq same fun s s' there => (responseItem_same there).symm).symm
  · simp only [pipelineResult, List.forall₂_map_left_iff, List.forall₂_map_right_iff]
    exact chosen.imp fun s s' there =>
      ⟨there.entry.shown, there.entry.score, there.entry.rank, there.entry.payload⟩
  · simp only [pipelineResult, List.map_map]
    refine (Abreast.map_eq (Abreast.zipIdx chosen 1 1) ?_).symm
    rintro ⟨s, i⟩ ⟨s', j⟩ ⟨there, k, rfl, rfl⟩
    exact (citationSource_same (contextRef_same there (1 + k)) (1 + k)).symm
  · simp only [pipelineResult, List.forall₂_map_left_iff, List.forall₂_map_right_iff]
    refine (Abreast.zipIdx same 1 1).imp ?_
    rintro ⟨s, i⟩ ⟨s', j⟩ ⟨there, k, rfl, rfl⟩
    exact contextRef_same there (1 + k)

end Results

section Storing
variable [UnicodeTables] [Rounding] {display : Display} {settings : PipelineSettings}
variable {request : SearchRequest} {db db' : Db} {t t' : RunItems}
variable {result : RetrievalPipelineResult} {source : RetrievalSource} {selectedCount : Nat}
variable {ranked : List RankedCandidate}

omit [UnicodeTables] in
theorem Retrieved.parts
    (retrieved : Retrieved display settings request db t t' result source selectedCount ranked) :
    let entries := rankedEntries display source selectedCount ranked
    let saved := savedCandidates request.retrievalRunId t.nextId entries
    saveItems request.retrievalRunId (entries.map (·.input)) t = .ok t' ∧
      result = pipelineResult display settings result.summary saved (saved.take selectedCount)
        false := by
  rcases retrieved.saved with ⟨rfl, shape, rfl⟩ | done
  · refine ⟨rfl, shape.trans ?_⟩
    simp only [rankedEntries, savedCandidates, List.zipIdx_nil, List.map_nil, List.take_nil]
    rfl
  · unfold savedResult at done
    split at done
    · cases done
    · rename_i saved
      obtain ⟨same, rows⟩ := Prod.mk.inj (Except.ok.inj done)
      exact ⟨rows ▸ saved, same.symm⟩

omit [Rounding] in
/-- No path puts a reason of the graph into its summary. -/
theorem path_not_transient {summary : RetrievalScoreSummary}
    (extra : ∃ hybrid, summary.extra = pathExtra hybrid) (str : Value → String) :
    hasTransientGraphReason str summary.modelDump = false := by
  obtain ⟨hybrid, extra⟩ := extra
  have none : graphReasonCodes summary.modelDump = [] := by
    unfold graphReasonCodes RetrievalScoreSummary.modelDump
    rw [extra]
    cases hybrid with
    | none =>
      simp only [pathExtra, List.append_nil, List.flatMap_cons, List.flatMap_nil, get_cons, get_nil,
        String.reduceEq, if_false]
    | some entry =>
      simp only [pathExtra, List.cons_append, List.nil_append, List.append_nil, List.flatMap_cons,
        List.flatMap_nil, get_cons, get_nil, String.reduceEq, if_false]
  unfold hasTransientGraphReason
  rw [none]
  rfl

omit [Rounding] in
theorem saved_items (run m : Nat) (entries : List PipelineEntry) :
    ((savedCandidates run m entries).map (·.savedItem)).map
      (fun row => reread (cacheItemFromRunItem row)) = entries.map itemOf := by
  unfold savedCandidates
  rw [List.map_map, List.map_map]
  conv_rhs => rw [← List.zipIdx_map_fst m entries, List.map_map]
  rfl

omit [UnicodeTables] in
theorem ranked_path {e : PipelineEntry}
    (member : e ∈ rankedEntries display source selectedCount ranked)
    (six : SixDecimals e.candidate.retrievalScore ∧ ∀ s ∈ e.rerankScore, SixDecimals s) :
    PathEntry display source e := by
  obtain ⟨⟨r, i⟩, _, rfl⟩ := List.mem_map.mp member
  exact ⟨⟨i, rfl⟩, six.1, six.2⟩

omit [UnicodeTables] in
theorem Retrieved.entry_holds
    (retrieved : Retrieved display settings request db t t' result source selectedCount ranked)
    {e : PipelineEntry} (member : e ∈ rankedEntries display source selectedCount ranked) :
    HoldsRow request.filters db e.candidate.toCheckedRetrievalCandidate := by
  obtain ⟨⟨r, i⟩, there, rfl⟩ := List.mem_map.mp member
  exact retrieved.holds r (List.fst_mem_of_mem_zipIdx there)

omit [UnicodeTables] [Rounding] in
/-- Every entry is in the context. -/
theorem entry_ref {entries : List PipelineEntry} {e : PipelineEntry} (member : e ∈ entries)
    (run m : Nat) :
    ∃ ref ∈ ((savedCandidates run m entries).zipIdx 1).map fun s => contextRef s.1 s.2,
      ref.candidate = e.candidate.toCheckedRetrievalCandidate ∧ ref.rerankScore = e.rerankScore := by
  rw [← List.zipIdx_map_fst m entries] at member
  obtain ⟨⟨first, i⟩, there, rfl⟩ := List.mem_map.mp member
  have row : ⟨first, savedItem run i first.input, first.sameChunk⟩ ∈
      savedCandidates run m entries := List.mem_map.mpr ⟨(first, i), there, rfl⟩
  rw [← List.zipIdx_map_fst 1 (savedCandidates run m entries)] at row
  obtain ⟨⟨_, k⟩, inside, same⟩ := List.mem_map.mp row
  subst same
  exact ⟨_, List.mem_map.mpr ⟨_, inside, rfl⟩, rfl, rfl⟩

omit [UnicodeTables] in
/-- The flags of the saved rows mark the first ones. -/
theorem selected_prefix (run m : Nat) :
    (savedCandidates run m (rankedEntries display source selectedCount ranked)).filter
        (·.entry.selected) =
      (savedCandidates run m (rankedEntries display source selectedCount ranked)).take
        selectedCount := by
  apply Abreast.filter_prefix
  intro i inside
  simp only [savedCandidates, rankedEntries, List.getElem_map, List.getElem_zipIdx, rankedEntry]
  congr 1
  exact propext ⟨fun h => by omega, fun h => by omega⟩

omit [UnicodeTables] in
theorem Retrieved.context
    (retrieved : Retrieved display settings request db t t' result source selectedCount ranked) :
    result.contextCandidates = ((savedCandidates request.retrievalRunId t.nextId
      (rankedEntries display source selectedCount ranked)).zipIdx 1).map
        fun e => contextRef e.1 e.2 := by
  rw [retrieved.parts.2]
  rfl

/-- What is known of an entry of a path: its scores, its rows, and that it could be saved. -/
structure EntryOk (display : Display) (source : RetrievalSource) (db : Db) (e : PipelineEntry) :
    Prop where
  path : PathEntry display source e
  joined : Joined db e.candidate.chunk e.candidate.documentVersion e.candidate.logicalDocument
  accepted : Accepted e.input

omit [UnicodeTables] in
theorem Retrieved.entry_ok
    (retrieved : Retrieved display settings request db t t' result source selectedCount ranked)
    (six : SixDecimalScores result) {e : PipelineEntry}
    (member : e ∈ rankedEntries display source selectedCount ranked) : EntryOk display source db e := by
  obtain ⟨ref, there, candidate, rerank⟩ := entry_ref member request.retrievalRunId t.nextId
  have scores := six.candidates ref (retrieved.context ▸ there)
  rw [candidate, rerank] at scores
  exact ⟨ranked_path member scores, (retrieved.entry_holds member).joined,
    (saveItems_ok retrieved.parts.1).1 _ (List.mem_map_of_mem member)⟩

/-- What is read back of the payload of a path. -/
def storedPayload (query : String) (strategy : RetrievalStrategy) (summary : RetrievalScoreSummary)
    (entries : List PipelineEntry) : CachedRetrievalPayload where
  schemaVersion := retrievalCacheSchemaVersion
  queryHash := Sha256.hexDigest query
  strategyType := strategy.value
  retrievalScoreSummary := summary.modelDump
  items := entries.map itemOf
  noContext := false

theorem stored_payload
    (retrieved : Retrieved display settings request db t t' result source selectedCount ranked)
    (six : SixDecimalScores result) (positive : ∀ c ∈ db.chunks, 0 < c.documentChunkId)
    {strategy : RetrievalStrategy} (cacheable : isCacheableRetrievalStrategy strategy = true)
    (str : Value → String) :
    ∃ payload, cachePayloadFromResult str result (Sha256.hexDigest request.query) strategy.value
        request.retrievalRunId t' = some payload ∧
      CachedRetrievalPayload.fromJson payload.toJson = some (storedPayload request.query strategy
        result.summary (rankedEntries display source selectedCount ranked)) := by
  have listed := fun e => retrieved.entry_ok six (e := e)
  have rows : result.contextCandidates.map (·.savedItem) =
      (savedCandidates request.retrievalRunId t.nextId
        (rankedEntries display source selectedCount ranked)).map (·.savedItem) := by
    rw [retrieved.context, List.map_map]
    conv_rhs => rw [← List.zipIdx_map_fst 1 (savedCandidates _ _ _), List.map_map]
    rfl
  have good : ∀ row ∈ result.contextCandidates.map (·.savedItem),
      GoodItem (cacheItemFromRunItem row) := by
    rw [rows]
    intro row member
    obtain ⟨_, there, rfl⟩ := List.mem_map.mp member
    obtain ⟨⟨e, i⟩, inside, rfl⟩ := List.mem_map.mp there
    have ok := listed e (List.fst_mem_of_mem_zipIdx inside)
    exact good_item ok.path ok.accepted (positive _ ok.joined.stored)
  have none_missing : ((result.contextCandidates.map (·.savedItem)).isEmpty &&
      !result.items.isEmpty) = false := by
    rw [rows, retrieved.parts.2]
    simp only [pipelineResult, List.isEmpty_map]
    exact Bool.and_not_self _
  have path : PathSummary result.summary := ⟨retrieved.extra, six.top1, six.top3, six.rerank⟩
  have noContext : result.noContext = false := by
    rw [retrieved.parts.2]
    rfl
  refine ⟨payloadFromRunItems (Sha256.hexDigest request.query) strategy.value
    result.summary.modelDump (result.contextCandidates.map (·.savedItem)) false, ?_, ?_⟩
  · unfold cachePayloadFromResult
    simp only [path_not_transient retrieved.extra str, none_missing, Bool.false_eq_true, if_false,
      noContext]
  · rw [fromJson_toJson path cacheable good (safeHash_hexDigest _)]
    unfold storedPayload
    rw [← saved_items request.retrievalRunId t.nextId, ← rows, List.map_map]

theorem hit_of_stored
    (retrieved : Retrieved display settings request db t t' result source selectedCount ranked)
    (six : SixDecimalScores result) (texts : SameTexts db db')
    (visible : ∀ ref ∈ result.contextCandidates,
      Visible request.filters db' ref.candidate.chunk.documentChunkId)
    {run : Nat} {s : RunItems} (fresh : ∀ row ∈ s.rows, row.retrievalRunId ≠ run)
    (strategy : RetrievalStrategy) :
    ∃ hit s', hydrateCachedRetrievalResult display settings (storedPayload request.query strategy
        result.summary (rankedEntries display source selectedCount ranked)) run request.filters db' s =
          .ok (some hit, s') ∧
      SameHit (fun k => s.nextId + (k - t.nextId)) result hit := by
  obtain ⟨saved, shape⟩ := retrieved.parts
  have path : PathSummary result.summary := ⟨retrieved.extra, six.top1, six.top3, six.rerank⟩
  have listed := fun e => retrieved.entry_ok six (e := e)
  have flags : (savedCandidates request.retrievalRunId t.nextId
      (rankedEntries display source selectedCount ranked)).filter (·.entry.selected) =
        (savedCandidates request.retrievalRunId t.nextId
          (rankedEntries display source selectedCount ranked)).take selectedCount :=
    selected_prefix _ _
  have shown : ∀ e ∈ rankedEntries display source selectedCount ranked,
      Visible request.filters db' e.candidate.chunk.documentChunkId := by
    intro e member
    obtain ⟨ref, there, candidate, _⟩ := entry_ref member request.retrievalRunId t.nextId
    have seen := visible ref (retrieved.context ▸ there)
    rwa [candidate] at seen
  clear retrieved visible
  generalize rankedEntries display source selectedCount ranked = entries at *
  rw [← flags] at shape
  by_cases none : entries = []
  · subst none
    refine ⟨emptyResult result.summary false, s, ?_, ?_⟩
    · unfold hydrateCachedRetrievalResult storedPayload
      simp only [ofFields_modelDump path, List.map_nil, if_true]
    · rw [shape]
      exact pipelineResult_same .nil .nil false
  · have items : (storedPayload request.query strategy result.summary entries).items ≠ [] := by
      simpa [storedPayload] using none
    have seen : ∀ item ∈ (storedPayload request.query strategy result.summary entries).items,
        Visible request.filters db' item.documentChunkId := by
      intro item member
      obtain ⟨e, there, rfl⟩ := List.mem_map.mp member
      rw [itemOf_path (listed e there).path]
      exact shown e there
    obtain ⟨hydrated, all, hydrates⟩ :=
      hydrate_visible display settings run s (ofFields_modelDump path) items seen
    have same : List.Forall₂ SameEntry entries (hydrated.map hydratedEntry) := by
      rw [List.forall₂_map_right_iff]
      have each := Abreast.of_mapM all
      unfold storedPayload at each
      rw [List.forall₂_map_left_iff] at each
      exact ((List.forall₂_and_left entries hydrated).mpr ⟨listed, each⟩).imp fun e h both =>
        hydrated_same texts both.1.path both.1.joined both.2
    obtain ⟨s', again⟩ := save_again saved
      (List.forall₂_map_left_iff.mpr (List.forall₂_map_right_iff.mpr
        (same.imp fun _ _ both => both.alike))) fresh
    refine ⟨_, s', hydrates s' again, ?_⟩
    rw [shape]
    have rowsSame := saved_same same request.retrievalRunId run t.nextId s.nextId
    exact pipelineResult_same rowsSame
      (Abreast.filter rowsSame fun _ _ both => both.entry.selected.symm) false

end Storing

end RagProject.Retrieval
