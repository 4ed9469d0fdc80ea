import RagProject.Context.Redactor
import RagProject.Lib.Sha256
import RagProject.Retrieval.Pipeline

/-! The payload of a cached retrieval (rag/retrieval_cache.py): made of a result, written as JSON,
read back and hydrated. The paths of Pipeline store no graph paths, and nothing reads the time of
storing and the lifetime in a payload. -/
namespace RagProject.Retrieval
open Python Documents Generation Context

section Payload

structure CachedRetrievalItem where
  documentChunkId : Nat
  retrievalScore : Number
  rerankScore : Option Number
  rankOrder : Nat
  rerankOrder : Option Nat
  selectedFlag : Bool
  retrievalSource : String
  scoreBreakdownJson : Option Dict
  deriving DecidableEq, Repr

structure CachedRetrievalPayload where
  schemaVersion : String
  queryHash : String
  strategyType : String
  retrievalScoreSummary : Dict
  items : List CachedRetrievalItem
  noContext : Bool
  deriving DecidableEq, Repr

def retrievalCacheSchemaVersion : String := "rag.retrieval_cache.v1"

inductive RetrievalStrategy where
  | dense | sparse | hybrid | graph | multiQueryDense | multiQueryHybrid | metadataFiltered
  | versionAware | agenticRouter | llmToolOrchestrator | langchainAgentic | langgraphAgentic
  | fallbackDense
  deriving DecidableEq, Repr

def RetrievalStrategy.value : RetrievalStrategy → String
  | .dense => "dense"
  | .sparse => "sparse"
  | .hybrid => "hybrid"
  | .graph => "graph"
  | .multiQueryDense => "multi_query_dense"
  | .multiQueryHybrid => "multi_query_hybrid"
  | .metadataFiltered => "metadata_filtered"
  | .versionAware => "version_aware"
  | .agenticRouter => "agentic_router"
  | .llmToolOrchestrator => "llm_tool_orchestrator"
  | .langchainAgentic => "langchain_agentic"
  | .langgraphAgentic => "langgraph_agentic"
  | .fallbackDense => "fallback_dense"

def isCacheableRetrievalStrategy (strategy : RetrievalStrategy) : Bool :=
  [.dense, .sparse, .hybrid, .graph].contains strategy

end Payload

section Summary

def optionalValue {A : Type} (value : A → Value) : Option A → Value
  | none => .none
  | some a => value a

def numberValue : Number → Value
  | .finite q => .float q
  | .nonFinite => .none

/-- model_dump. -/
def RetrievalScoreSummary.modelDump (summary : RetrievalScoreSummary) : Dict := [
  ("requested_top_k", .int summary.requestedTopK),
  ("qdrant_candidate_count", .int summary.qdrantCandidateCount),
  ("sparse_candidate_count", optionalValue .int summary.sparseCandidateCount),
  ("post_filter_candidate_count", .int summary.postFilterCandidateCount),
  ("selected_count", .int summary.selectedCount),
  ("excluded_by_rdb_check_count", .int summary.excludedByRdbCheckCount),
  ("top1_retrieval_score", optionalValue numberValue summary.top1RetrievalScore),
  ("top3_avg_retrieval_score", optionalValue numberValue summary.top3AvgRetrievalScore),
  ("top1_rerank_score", optionalValue numberValue summary.top1RerankScore)] ++ summary.extra

def summaryFields : List String :=
  ["requested_top_k", "qdrant_candidate_count", "sparse_candidate_count",
    "post_filter_candidate_count", "selected_count", "excluded_by_rdb_check_count",
    "top1_retrieval_score", "top3_avg_retrieval_score", "top1_rerank_score"]

/-- An int field; a string of digits, which no payload holds, is left out. -/
def intField : Value → Option Int
  | .int n => some n
  | .bool b => some (if b then 1 else 0)
  | .float q => if q.den = 1 then some q.num else none
  | _ => none

def floatField : Value → Option Number
  | .int n => some (.finite n)
  | .bool b => some (.finite (if b then 1 else 0))
  | .float q => some (.finite q)
  | _ => none

/-- A field that may be missing or null. -/
def optionalField {A : Type} (read : Value → Option A) (value : Option Value) :
    Option (Option A) :=
  match value with
  | none | some .none => some none
  | some value => (read value).map some

/-- RetrievalScoreSummary(**fields), or a validation error. -/
def RetrievalScoreSummary.ofFields (fields : Dict) : Option RetrievalScoreSummary := do
  let required := fun name => (Dict.get fields name).bind intField
  let optional := fun name => optionalField floatField (Dict.get fields name)
  some
    { requestedTopK := ← required "requested_top_k"
      qdrantCandidateCount := ← required "qdrant_candidate_count"
      sparseCandidateCount :=
        ← optionalField intField (Dict.get fields "sparse_candidate_count")
      postFilterCandidateCount := ← required "post_filter_candidate_count"
      selectedCount := ← required "selected_count"
      excludedByRdbCheckCount := ← required "excluded_by_rdb_check_count"
      top1RetrievalScore := ← optional "top1_retrieval_score"
      top3AvgRetrievalScore := ← optional "top3_avg_retrieval_score"
      top1RerankScore := ← optional "top1_rerank_score"
      extra := fields.filter fun e => !summaryFields.contains e.1 }

end Summary

section Json
variable [UnicodeTables] [Rounding]

/-- TraceRedactor.safe_dict. -/
def safeDict (fields : Dict) : Dict := redactEntries [] fields

/-- _cache_item_from_run_item. -/
def cacheItemFromRunItem (item : RetrievalRunItem) : CachedRetrievalItem where
  documentChunkId := item.documentChunkId
  retrievalScore := item.retrievalScore
  rerankScore := item.rerankScore
  rankOrder := item.rankOrder
  rerankOrder := item.rerankOrder
  selectedFlag := item.selectedFlag
  retrievalSource := item.retrievalSource.getD ""
  scoreBreakdownJson := some (safeDict (item.scoreBreakdownJson.getD []))

def payloadFromRunItems (queryHash strategyType : String) (retrievalScoreSummary : Dict)
    (items : List RetrievalRunItem) (noContext : Bool) : CachedRetrievalPayload where
  schemaVersion := retrievalCacheSchemaVersion
  queryHash := queryHash
  strategyType := strategyType
  retrievalScoreSummary := safeDict retrievalScoreSummary
  items := items.map cacheItemFromRunItem
  noContext := noContext

def itemJson (item : CachedRetrievalItem) : Dict := [
  ("document_chunk_id", .int item.documentChunkId),
  ("retrieval_score", numberValue (roundScore item.retrievalScore)),
  ("rerank_score", optionalValue numberValue (item.rerankScore.map roundScore)),
  ("rank_order", .int item.rankOrder),
  ("rerank_order", optionalValue (fun n => .int (n : Nat)) item.rerankOrder),
  ("selected_flag", .bool item.selectedFlag),
  ("retrieval_source", .str (safeString 50 item.retrievalSource)),
  ("score_breakdown_json",
    optionalValue (fun breakdown => .dict (safeDict breakdown)) item.scoreBreakdownJson)]

/-- to_json. -/
def CachedRetrievalPayload.toJson (payload : CachedRetrievalPayload) : Dict := [
  ("schema_version", .str payload.schemaVersion),
  ("query_hash", .str payload.queryHash),
  ("strategy_type", .str payload.strategyType),
  ("retrieval_score_summary", .dict (safeDict payload.retrievalScoreSummary)),
  ("items", .list (payload.items.map fun item => .dict (itemJson item))),
  ("no_context", .bool payload.noContext)]

def safeHash : Value → Option String
  | .str s =>
    let normalized := lower (strip s.toList)
    if normalized.length = 64 && normalized.all ("0123456789abcdef".toList.contains ·) then
      some (String.ofList normalized)
    else none
  | _ => none

def safeStringField (maxLength : Nat) : Value → Option String
  | .str s => if safeString maxLength s = "" then none else some (safeString maxLength s)
  | _ => none

def safeDictField : Value → Option Dict
  | .dict fields => some (safeDict fields)
  | _ => none

def safeScore : Value → Option Number
  | .int n => some (roundScore (.finite n))
  | .float q => some (roundScore (.finite q))
  | _ => none

/-- _cached_item_from_json. -/
def cachedItemFromJson : Value → Option CachedRetrievalItem
  | .dict fields => do
    let field := Dict.get fields
    some
      { documentChunkId := ← (field "document_chunk_id").bind Value.positiveInt
        retrievalScore := ← (field "retrieval_score").bind safeScore
        rerankScore := (field "rerank_score").bind safeScore
        rankOrder := ← (field "rank_order").bind Value.positiveInt
        rerankOrder := (field "rerank_order").bind Value.positiveInt
        selectedFlag := (field "selected_flag").any Value.truthy
        retrievalSource := ← (field "retrieval_source").bind (safeStringField 50)
        scoreBreakdownJson := (field "score_breakdown_json").bind safeDictField }
  | _ => none

/-- from_json. -/
def CachedRetrievalPayload.fromJson (fields : Dict) : Option CachedRetrievalPayload :=
  let field := Dict.get fields
  if field "schema_version" ≠ some (.str retrievalCacheSchemaVersion) then none
  else do
    let queryHash ← (field "query_hash").bind safeHash
    let strategyType ← (field "strategy_type").bind (safeStringField 50)
    let summary ← (field "retrieval_score_summary").bind safeDictField
    match field "items" with
    | some (.list rawItems) =>
      let items ← rawItems.mapM cachedItemFromJson
      some ⟨retrievalCacheSchemaVersion, queryHash, strategyType, summary, items,
        (field "no_context").any Value.truthy⟩
    | _ => none

end Json

section Storing
variable [UnicodeTables]

def graphReasonCodes (summary : Dict) : List Value :=
  (["graph_reason_codes", "graph_fallback_reason_codes"].flatMap fun name =>
    match Dict.get summary name with
    | some (.list codes) => codes
    | _ => []) ++
  ["fallback_reason", "graph_fallback_reason"].flatMap fun name =>
    match Dict.get summary name with
    | some (.str code) => [.str code]
    | _ => []

def nonCacheableCodes : List String :=
  ["graph_store_provider_unavailable", "neo4j_connection_failed", "neo4j_driver_unavailable",
    "neo4j_not_configured", "neo4j_projection_empty", "neo4j_projection_incomplete",
    "neo4j_query_failed", "neo4j_to_postgres_fallback", "neo4j_unavailable"]

/-- _has_transient_graph_reason, with str(code) of a code. -/
def hasTransientGraphReason (str : Value → String) (summary : Dict) : Bool :=
  let codes := (graphReasonCodes summary).map str
  codes.any (nonCacheableCodes.contains ·) ||
    codes.any fun code => ["timeout", "error", "failed", "failure"].any fun marker =>
      contains (lower code.toList) marker.toList

/-- list_items_for_run. -/
def listItemsForRun (retrievalRunId : Nat) (t : RunItems) : List RetrievalRunItem :=
  (t.rows.filter (·.retrievalRunId == retrievalRunId)).insertionSort
    fun a b => a.rankOrder < b.rankOrder ∨
      (a.rankOrder = b.rankOrder ∧ a.retrievalRunItemId ≤ b.retrievalRunItemId)

/-- _cache_payload_from_result. -/
def cachePayloadFromResult (str : Value → String) (result : RetrievalPipelineResult)
    (queryHash strategyType : String) (retrievalRunId : Nat) (t : RunItems) :
    Option CachedRetrievalPayload :=
  let summary := result.summary.modelDump
  if hasTransientGraphReason str summary then none
  else
    let ordered := result.contextCandidates.map (·.savedItem)
    let items := if ordered.isEmpty && !result.items.isEmpty then listItemsForRun retrievalRunId t
      else ordered
    some (payloadFromRunItems queryHash strategyType summary items result.noContext)

end Storing

section Hydration

/-- A cached item with its candidate of now. -/
structure HydratedItem where
  item : CachedRetrievalItem
  candidate : SearchedCandidate
  sameChunk : candidate.chunk.documentChunkId = item.documentChunkId

/-- A hit has no search behind it: the payload of a candidate is empty. -/
def hydrateItem (modality : String) (db : Db) (item : CachedRetrievalItem) : Option HydratedItem :=
  (joinedRow modality db item.documentChunkId).map fun row =>
    { item := item
      candidate :=
        { chunk := row.chunk
          documentVersion := row.documentVersion
          logicalDocument := row.logicalDocument
          retrievalScore := item.retrievalScore
          rankOrder := item.rankOrder
          payload := [] }
      sameChunk := row.sameChunk }

variable [UnicodeTables] [Rounding]

def hydratedEntry (h : HydratedItem) : PipelineEntry where
  candidate := h.candidate
  input :=
    { documentChunkId := h.item.documentChunkId
      retrievalScore := roundScore h.item.retrievalScore
      rerankScore := h.item.rerankScore.map roundScore
      rankOrder := h.item.rankOrder
      rerankOrder := h.item.rerankOrder
      selectedFlag := h.item.selectedFlag
      retrievalSource := some h.item.retrievalSource
      scoreBreakdownJson := h.item.scoreBreakdownJson.map safeDict }
  rerankScore := h.item.rerankScore
  rerankOrder := h.item.rerankOrder
  selected := h.item.selectedFlag
  sameChunk := h.sameChunk.symm

inductive HydrationFailure where
  | summary
  | constraint (name : String)
  deriving DecidableEq, Repr

variable (display : Display) (settings : PipelineSettings)

/-- _hydrate_cached_retrieval_result. -/
def hydrateCachedRetrievalResult (payload : CachedRetrievalPayload) (retrievalRunId : Nat)
    (filters : RetrievalFilters) (db : Db) (t : RunItems) :
    Except HydrationFailure (Option RetrievalPipelineResult × RunItems) :=
  match RetrievalScoreSummary.ofFields payload.retrievalScoreSummary with
  | none => .error .summary
  | some summary =>
    if payload.items = [] then .ok (some (emptyResult summary payload.noContext), t)
    else
      let orderedIds := payload.items.map (·.documentChunkId)
      let documentIds := orderedIds.dedup.filterMap fun id =>
        (joinedRow filters.modality db id).map (·.logicalDocument.logicalDocumentId)
      if documentIds.length ≠ orderedIds.dedup.length then .ok (none, t)
      else if !filters.logicalDocumentIds.isEmpty &&
          documentIds.any (!filters.logicalDocumentIds.contains ·) then .ok (none, t)
      else
        match payload.items.mapM (hydrateItem filters.modality db) with
        | none => .ok (none, t)
        | some hydrated =>
          let entries := hydrated.map hydratedEntry
          match saveItems retrievalRunId (entries.map (·.input)) t with
          | .error constraint => .error (.constraint constraint)
          | .ok t' =>
            let saved := savedCandidates retrievalRunId t.nextId entries
            .ok (some (pipelineResult display settings summary saved
              (saved.filter (·.entry.selected)) payload.noContext), t')

end Hydration

end RagProject.Retrieval
