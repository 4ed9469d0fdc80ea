import RagProject.Documents.Approval
import RagProject.Graph.Projection
import RagProject.Ingest.Transactions
import RagProject.Lib.Interleaving

/-! GraphIndexBuildHandler as a sequence of transactions over the graph tables, run by any number
of workers. Between two steps of a worker, leases expire, jobs are acquired again, and documents
are approved and archived. -/
namespace RagProject.Graph
open Python KeepFirst Jobs Documents Interleaving

section Payload

structure GraphIndexJobPayload where
  documentVersionId : Nat
  graphIndexRunId : Option Nat
  deriving DecidableEq, Repr

def literalField (payload : Dict) (key value : String) : Bool :=
  (Dict.get payload key).all (· == .str value)

variable [GraphText]

def optionalLabel (payload : Dict) (key : String) (minLength : Nat) : Bool :=
  match Dict.get payload key with
  | none | some .none => true
  | some (.str text) => minLength ≤ text.length && text.length ≤ 80 &&
      (validateSafeGraphLabel 80 text).isOk
  | _ => false

/-- GraphIndexJobPayload.model_validate; the extractor labels are checked and not kept. -/
def graphIndexJobPayload (payload : Dict) : Option GraphIndexJobPayload :=
  match (Dict.get payload "document_version_id").bind Value.positiveInt,
      (Dict.get payload "graph_index_run_id").getD .none with
  | some documentVersionId, runId =>
    if literalField payload "job_type" "graph_index_build" &&
        (runId == .none || runId.positiveInt.isSome) &&
        optionalLabel payload "extractor_type" 1 && optionalLabel payload "extractor_version" 0 &&
        literalField payload "reindex_policy" "replace_existing" then
      some ⟨documentVersionId, runId.positiveInt⟩
    else none
  | none, _ => none

/-- The payload of a job, when it is addressed to the version that it names. -/
def graphIndexRequest (job : Job) : Option GraphIndexJobPayload :=
  (graphIndexJobPayload (job.payloadJson.getD [])).filter fun payload =>
    job.targetType = some "document_version" ∧ job.targetId = some payload.documentVersionId

end Payload

section Prepare

structure GraphIndexBuildSnapshot where
  graphIndexRunId : Nat
  documentVersionId : Nat
  chunks : List DocumentChunk
  deriving DecidableEq, Repr

def listChunksForGraphIndex (documentVersionId : Nat) (db : Db) : List DocumentChunk :=
  (db.chunksOf documentVersionId).insertionSort fun a b =>
    a.chunkIndex < b.chunkIndex ∨
      (a.chunkIndex = b.chunkIndex ∧ a.documentChunkId ≤ b.documentChunkId)

/-- The run that prepare_index_build works on: the one it is given, or a new one. -/
def selectRun (documentVersionId : Nat) (graphIndexRunId : Option Nat) (jobId : Nat) (now : Time)
    (db : GraphDb) : Except GraphError (GraphDb × GraphIndexRun) :=
  match graphIndexRunId with
  | none => .ok (createGraphIndexRun db documentVersionId (some jobId) now)
  | some runId =>
    match getGraphIndexRun db runId with
    | none => .error .resourceNotFound
    | some run =>
      if run.documentVersionId = some documentVersionId then .ok (db, run) else .error .value

/-- A queued run starts, a running one goes on, and a run without a job takes this one. -/
def startRun (jobId : Nat) (now : Time) (run : GraphIndexRun) :
    Except GraphError GraphIndexRun :=
  let attached := { run with jobId := some (run.jobId.getD jobId) }
  match run.status with
  | .queued => .ok (graphRunRunning now attached)
  | .running => .ok attached
  | _ => .error .value

def prepareIndexBuild (documentVersionId : Nat) (graphIndexRunId : Option Nat) (jobId : Nat)
    (now : Time) (db : GraphDb) : Except GraphError (GraphDb × GraphIndexBuildSnapshot) :=
  match db.docs.getVersionById documentVersionId with
  | none => .error .resourceNotFound
  | some version => do
    checkThat (version.status == .ready) .value
    let (db, run) ← selectRun documentVersionId graphIndexRunId jobId now db
    let started ← startRun jobId now run
    return (setGraphRun db run.graphIndexRunId fun _ => started,
      ⟨run.graphIndexRunId, documentVersionId, listChunksForGraphIndex documentVersionId db.docs⟩)

/-- How _prepare ends: with the result of the job, with a run that had succeeded before, with a
snapshot to extract from, or with an exception. All but the third leave the tables as they are. -/
inductive Prepared where
  | refused (errorCode : String)
  | succeeded (graphIndexRunId : Nat)
  | snapshot (db : GraphDb) (snapshot : GraphIndexBuildSnapshot)
  | raised (error : GraphError)

def ownershipError (jobId : Nat) (worker : String) (db : GraphDb) : Option GraphError :=
  match assertOwnership jobId worker db.docs.jobs with
  | .ok _ => none
  | .error _ => some .leaseLost

def prepareBuild (payload : GraphIndexJobPayload) (graphIndexRunId : Option Nat) (jobId : Nat)
    (worker : String) (now : Time) (db : GraphDb) : Prepared :=
  match prepareIndexBuild payload.documentVersionId graphIndexRunId jobId now db with
  | .error error => .raised error
  | .ok (prepared, snapshot) =>
    match ownershipError jobId worker db with
    | some error => .raised error
    | none => .snapshot prepared snapshot

def prepareTransaction (payload : GraphIndexJobPayload) (jobId : Nat) (worker : String)
    (now : Time) (db : GraphDb) : Prepared :=
  match payload.graphIndexRunId with
  | none => prepareBuild payload none jobId worker now db
  | some runId =>
    match getGraphIndexRun db runId with
    | none => .refused "graph_index_run_not_found"
    | some run =>
      if run.documentVersionId ≠ some payload.documentVersionId then .refused "validation_error"
      else match run.status with
      | .succeeded =>
        match ownershipError jobId worker db with
        | some error => .raised error
        | none => .succeeded runId
      | .failed => prepareBuild payload none jobId worker now db
      | .queued | .running => prepareBuild payload (some runId) jobId worker now db
      | .cancelled | .skipped => .refused "graph_index_run_not_ready"

end Prepare

section Persist
variable [GraphText]

/-- One turn of the loop of _upsert_entities, with the entity map searched from its head. -/
structure EntityWrite where
  key : EntityKey
  canonicalName : String
  entityType : String
  aliases : List String
  deriving DecidableEq, Repr

def aliasesOf (mentions : List EntityMentionCandidate) (key : EntityKey) : List String :=
  (((mentions.filter (·.entityKey == key)).flatMap (·.aliases)).dedup).insertionSort
    fun a b => a ≤ b

def entityWrites (mentions : List EntityMentionCandidate) : List EntityWrite :=
  (keepFirst EntityMentionCandidate.entityKey [] mentions).map fun m =>
    ⟨m.entityKey, m.canonicalName, m.entityType, aliasesOf mentions m.entityKey⟩

abbrev EntityMap := List (EntityKey × Nat)

def upsertEntity (now : Time) (state : GraphDb × EntityMap) (write : EntityWrite) :
    Except GraphError (GraphDb × EntityMap) :=
  match state.2.lookup write.key with
  | none => do
    let (db, id) ← createEntity write.canonicalName write.entityType write.aliases now state.1
    return (db, (write.key, id) :: state.2)
  | some id => do
    let db ← mergeEntityAliases id write.aliases now state.1
    return (db, state.2)

def upsertEntities (mentions : List EntityMentionCandidate) (now : Time) (db : GraphDb) :
    Except GraphError (GraphDb × EntityMap) :=
  let writes := entityWrites mentions
  writes.foldlM (upsertEntity now) (db, listEntitiesByKeys (writes.map (·.key)) db.entities)

def mentionItem (entityMap : EntityMap) (allowedChunkIds : List Nat) (m : EntityMentionCandidate) :
    Except GraphError (Option GraphEntityMention) := do
  checkThat (allowedChunkIds.contains m.documentChunkId) .value
  match entityMap.lookup m.entityKey with
  | none => return none
  | some graphEntityId => do
    checkHash m.mentionTextHash
    checkThat (0 ≤ m.mentionOffsetStart && m.mentionOffsetStart ≤ m.mentionOffsetEnd) .value
    checkConfidence m.confidence
    return some ⟨0, graphEntityId, m.documentChunkId, m.documentVersionId, m.mentionTextHash,
      m.mentionOffsetStart, m.mentionOffsetEnd, m.confidence⟩

def persistMentions (mentions : List EntityMentionCandidate) (entityMap : EntityMap)
    (documentVersionId : Nat) (allowedChunkIds : List Nat) (db : GraphDb) :
    Except GraphError (GraphDb × Nat) := do
  let items ← mentions.mapM (mentionItem entityMap allowedChunkIds)
  let db ← createEntityMentionsForVersion documentVersionId items.reduceOption db
  return (db, items.reduceOption.length)

def relationItem (entityMap : EntityMap) (allowedChunkIds : List Nat) (r : RelationCandidate) :
    Except GraphError (Option GraphRelation) := do
  checkThat (allowedChunkIds.contains r.sourceDocumentChunkId) .value
  match entityMap.lookup r.sourceKey, entityMap.lookup r.targetKey with
  | some sourceEntityId, some targetEntityId => do
    let relationType ← labelField 120 r.relationType
    let relationLabel ← labelField 120 r.relationLabel
    checkConfidence r.confidence
    checkHash r.evidenceTextHash
    checkThat (sourceEntityId != targetEntityId) .value
    return some ⟨0, sourceEntityId, targetEntityId, relationType, relationLabel, r.confidence,
      r.sourceDocumentChunkId, r.evidenceTextHash⟩
  | _, _ => return none

def persistRelations (relations : List RelationCandidate) (entityMap : EntityMap)
    (allowedChunkIds : List Nat) (db : GraphDb) : Except GraphError (GraphDb × Nat) := do
  let items ← relations.mapM (relationItem entityMap allowedChunkIds)
  let db ← createRelations items.reduceOption db
  return (db, items.reduceOption.length)

def mergeMetadata (metadata : Dict) (run : GraphIndexRun) : GraphIndexRun :=
  { run with
    metadataJson := metadata.foldl (fun d field => Dict.set d field.1 field.2) run.metadataJson }

def retryableFailed : String := "graph_extraction_llm_retryable_failed"

def partialCompleted : String := "graph_extraction_llm_partial_completed"

def partialRebuildSkipped : String := "graph_extraction_llm_partial_rebuild_skipped"

def partialMetadata : Dict :=
  [("extractor_result_code", .str partialRebuildSkipped),
   ("partial_result_code", .str partialCompleted), ("retryable", .bool true)]

/-- The branch that replaces the rows of the version. -/
def replaceArtifacts (snapshot : GraphIndexBuildSnapshot) (result : GraphExtractionResult)
    (now : Time) (db : GraphDb) : Except GraphError GraphDb := do
  let allowedChunkIds := snapshot.chunks.map (·.documentChunkId)
  let db := deleteIndexArtifactsForDocumentVersion db snapshot.documentVersionId
  let (db, entityMap) ← upsertEntities result.entityMentions now db
  let (db, mentionCount) ← persistMentions result.entityMentions entityMap
    snapshot.documentVersionId allowedChunkIds db
  let (db, relationCount) ← persistRelations result.relations entityMap allowedChunkIds db
  let entityIds := result.entityMentions.filterMap fun m => entityMap.lookup m.entityKey
  return setGraphRun db snapshot.graphIndexRunId
    (graphRunSucceeded entityIds.dedup.length relationCount mentionCount now)

/-- persist_extraction_result: the tables it leaves, and the error code of a run that it fails. -/
def persistExtractionResult (snapshot : GraphIndexBuildSnapshot) (result : GraphExtractionResult)
    (now : Time) (db : GraphDb) : Except GraphError (GraphDb × Option String) :=
  match getGraphIndexRun db snapshot.graphIndexRunId,
      db.docs.getVersionById snapshot.documentVersionId with
  | none, _ => .error .resourceNotFound
  | some run, version => do
    checkThat (run.status == .running) .value
    let db := setGraphRun db snapshot.graphIndexRunId (mergeMetadata result.metadataJson)
    match version with
    | none => .error .resourceNotFound
    | some version => do
      checkThat (version.status == .ready) .value
      if extractorResultCode result = some retryableFailed then
        return (setGraphRun db snapshot.graphIndexRunId
          (graphRunFailed retryableFailed "Graph LLM extraction failed retryably." now),
          some retryableFailed)
      else if extractorResultCode result = some partialCompleted ∧
          documentVersionHasGraphArtifacts db snapshot.documentVersionId then
        return (setGraphRun db snapshot.graphIndexRunId fun run =>
          graphRunFailed partialRebuildSkipped
            "Graph LLM partial rebuild skipped to preserve existing index." now
            (mergeMetadata partialMetadata run), some partialRebuildSkipped)
      else do
        let db ← replaceArtifacts snapshot result now db
        return (db, none)

end Persist

end RagProject.Graph
