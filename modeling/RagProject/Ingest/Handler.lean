import RagProject.Documents.Approval
import RagProject.Ingest.Transactions
import RagProject.Lib.Batches
import RagProject.Lib.Interleaving
import RagProject.Qdrant.Points

/-! DocumentIngestHandler (workers/handlers/document_ingest_handler.py) for one job, as the steps of
any number of workers. Each transaction, each read and each call of Qdrant is one step. A worker runs
one handler at a time, and may do so after its lease is gone. -/
namespace RagProject.Ingest
open Python Jobs Documents Qdrant Batches

section Transactions

structure ExtractedDocument where
  pages : List ExtractedPage
  pageCount : Option Nat
  extractorName : String
  extractorVersion : String
  deriving DecidableEq, Repr

def ExtractedDocument.textCharCount (document : ExtractedDocument) : Nat :=
  document.pages.foldl (fun n page => n + page.text.length) 0

/-- _VersionSnapshot: the row of a version, and what was read with it. -/
structure VersionSnapshot where
  version : DocumentVersion
  logicalDocumentStatus : DocumentStatus
  isActive : Bool
  existingChunkIds : List Nat
  deriving DecidableEq, Repr

/-- The version that a job is about. -/
def ingestTarget (context : JobExecutionContext) : Option Nat :=
  match (Dict.get context.payload "document_version_id").bind Value.positiveInt with
  | none => none
  | some id =>
    if context.targetType = some "document_version" ∧ context.targetId = some id then some id
    else none

/-- The payload names no document, or that of the version. -/
def namesDocument (payload : Dict) (logicalDocumentId : Nat) : Bool :=
  match Dict.get payload "logical_document_id" with
  | none | some .none => true
  | some value => value.positiveInt == some logicalDocumentId

section Tables
variable (context : JobExecutionContext) (documentVersionId : Nat) (now : Time) (db : Db)

/-- _prepare_version: the committed database with the snapshot, or with the code of a refusal. -/
def prepareVersion : Except IngestError (Db × Except String VersionSnapshot) :=
  match db.getVersionById documentVersionId with
  | none => .ok (db, .error "document_version_not_found")
  | some version =>
    match db.getDocument version.logicalDocumentId with
    | none => .ok (db, .error "document_version_not_found")
    | some document =>
      if !namesDocument context.payload version.logicalDocumentId then
        .ok (db, .error "validation_error")
      else if document.status = .archived ∨ version.status = .archived then
        if version.status ≠ .archived then do
          assertOwner context db
          let db ← markVersionFailed documentVersionId "document_version_not_ingestable" now db
          return (db, .error "document_version_not_ingestable")
        else .ok (db, .error "document_version_not_ingestable")
      else
        let snapshot : VersionSnapshot :=
          { version := version
            logicalDocumentStatus := document.status
            isActive := version.isActive || evaluationActivationRequested context.payload
            existingChunkIds := chunkIdsByDocumentVersion documentVersionId db }
        if version.status ≠ .ready then do
          assertOwner context db
          let db ← resetVersionForIngest documentVersionId now db
          return (db, .ok snapshot)
        else .ok (db, .ok snapshot)

/-- How the transaction of _store_chunks can end without a commit. -/
inductive StoreError where
  | missing | notIngestable | leaseLost | failed
  deriving DecidableEq, Repr

/-- The transaction of _store_chunks. -/
def storeChunks (document : ExtractedDocument) (chunks : List Chunk) (nextChunkId : Nat) :
    Except StoreError Db :=
  match db.getVersionById documentVersionId with
  | none => .error .missing
  | some version =>
    match db.getDocument version.logicalDocumentId with
    | none => .error .missing
    | some logicalDocument =>
      if logicalDocument.status = .archived ∨ version.status = .archived then
        .error .notIngestable
      else
        match assertOwner context db with
        | .error _ => .error .leaseLost
        | .ok () =>
          match bulkInsertChunks chunks nextChunkId now (deleteChunks documentVersionId now db) with
          | .error _ => .error .failed
          | .ok db =>
            if db.countChunks documentVersionId ≠ chunks.length then .error .failed
            else
              match updateIngestMetadata documentVersionId document.pageCount
                  document.extractorName document.extractorVersion now db with
              | .error _ => .error .failed
              | .ok db => .ok db

/-- The transaction of _mark_failed_after_cleanup. -/
def markFailedAfterCleanup (errorCode : String) (withChunks : Bool) : Except IngestError Db :=
  match db.getVersionById documentVersionId with
  | none => .ok db
  | some version =>
    if version.status = .archived then .ok db
    else do
      assertOwner context db
      let db := if withChunks then deleteChunks documentVersionId now db else db
      markVersionFailed documentVersionId errorCode now db

/-- list_chunks_for_embedding. -/
def listChunksForEmbedding : List DocumentChunk :=
  (db.chunksOf documentVersionId).insertionSort fun a b =>
    a.chunkIndex < b.chunkIndex ∨ (a.chunkIndex = b.chunkIndex ∧
      a.documentChunkId ≤ b.documentChunkId)

end Tables
end Transactions

section States

/-- How far the handler of a worker has come. -/
inductive IngestPhase where
  | arrived
  | cleaning (snapshot : VersionSnapshot)
  | cleaned (snapshot : VersionSnapshot)
  | extracting (snapshot : VersionSnapshot)
  | storing (snapshot : VersionSnapshot) (document : ExtractedDocument) (chunks : List Chunk)
  | stored (snapshot : VersionSnapshot)
  | indexing (snapshot : VersionSnapshot) (chunks : List DocumentChunk)
      (batch : List DocumentChunk) (rest : List (List DocumentChunk))
  | finishing (chunks : List DocumentChunk)
  | dropping (chunks : List DocumentChunk)
  /-- With the codes of the except clauses that still wait for an error. -/
  | failing (errorCode : String) (waiting : List String)
  | removing (errorCode : String) (chunkIds : List Nat)
  | marking (errorCode : String) (withChunks : Bool)
  deriving DecidableEq, Repr

structure IngestState where
  db : Db
  /-- The sequence of the chunk ids. -/
  nextChunkId : Nat
  points : Collection
  workers : String → Option IngestPhase

namespace IngestState
variable (s : IngestState) (worker : String)

def park (phase : IngestPhase) : IngestState :=
  { s with workers := fun w => if w = worker then some phase else s.workers w }

/-- The handler has returned, or its worker is gone. -/
def leave : IngestState :=
  { s with workers := fun w => if w = worker then none else s.workers w }

end IngestState

/-- What the world answers to a step. -/
inductive IngestAnswer where
  | done
  | extracted (document : ExtractedDocument)
  /-- An error, and the points that a call of Qdrant reached all the same. -/
  | failed (errorCode : String) (waiting : List String) (reached : List Nat)
  deriving DecidableEq, Repr

structure IngestClock where
  readyAt : Time
  activatedAt : Time
  now : Time
  deriving DecidableEq, Repr

end States

section Steps

/-- The job, the settings and the payload of a point. -/
structure IngestTask where
  job : JobExecutionContext
  documentVersionId : Nat
  target : ingestTarget job = some documentVersionId
  chunking : ChunkingConfig
  maxExtractedTextChars : Nat
  upsertBatchSize : Nat
  positive : 0 < upsertBatchSize
  payloadOf : VersionSnapshot → DocumentChunk → Dict

variable [UnicodeTables] (task : IngestTask)

def IngestTask.context (worker : String) : JobExecutionContext :=
  { task.job with workerInstanceId := worker }

def IngestTask.point (snapshot : VersionSnapshot) (chunk : DocumentChunk) : Point :=
  ⟨.num chunk.documentChunkId, task.payloadOf snapshot chunk⟩

/-- What follows the cleanup of the existing artifacts. -/
def startExtraction (snapshot : VersionSnapshot) : IngestPhase :=
  if snapshot.version.storageKey.isNone then .failing "storage_file_missing" []
  else .extracting snapshot

namespace IngestState
variable (s : IngestState) (worker : String) (clock : IngestClock)

/-- The points that a deletion reached. -/
def deleteReached (chunkIds reached : List Nat) : IngestState :=
  { s with points := deletePoints (chunkIds.filter (· ∈ reached)) s.points }

/-- cleanup_document_points. -/
def cleanupPoints (chunkIds : List Nat) : IngestState :=
  { s with points := cleanup task.documentVersionId chunkIds s.points }

/-- The next step of a handler, when the world answers that it is done. -/
def advance : IngestPhase → IngestState
  | .arrived =>
    match prepareVersion (task.context worker) task.documentVersionId clock.now s.db with
    | .error _ => s.leave worker
    | .ok (db, .error _) => { s with db := db }.leave worker
    | .ok (db, .ok snapshot) =>
      let s := { s with db := db }
      if snapshot.version.status = .ready then s.leave worker
      else if snapshot.existingChunkIds.isEmpty then s.park worker (startExtraction snapshot)
      else s.park worker (.cleaning snapshot)
  | .cleaning snapshot =>
    (s.cleanupPoints task snapshot.existingChunkIds).park worker (.cleaned snapshot)
  | .cleaned snapshot =>
    match assertOwner (task.context worker) s.db with
    | .error _ => s.leave worker
    | .ok () =>
      { s with db := deleteChunks task.documentVersionId clock.now s.db }.park worker
        (startExtraction snapshot)
  -- An extraction is done with its document.
  | .extracting _ => s
  | .storing snapshot document chunks =>
    match storeChunks (task.context worker) task.documentVersionId clock.now s.db document chunks
        s.nextChunkId with
    | .ok db =>
      { s with db := db, nextChunkId := s.nextChunkId + chunks.length }.park worker
        (.stored snapshot)
    | .error .missing | .error .leaseLost => s.leave worker
    | .error .notIngestable => s.park worker (.failing "document_version_not_ingestable"
      ["document_chunk_insert_failed", "internal_error"])
    | .error .failed =>
      { s with nextChunkId := s.nextChunkId + chunks.length }.park worker
        (.failing "document_chunk_insert_failed" ["internal_error"])
  | .stored snapshot =>
    let chunks := listChunksForEmbedding task.documentVersionId s.db
    match batches task.upsertBatchSize chunks with
    | [] => s.park worker (.failing "embedding_empty_result" ["internal_error"])
    | batch :: rest => s.park worker (.indexing snapshot chunks batch rest)
  | .indexing snapshot chunks batch rest =>
    let s := { s with points := upsertPoints (batch.map (task.point snapshot)) s.points }
    match rest with
    | [] => s.park worker (.finishing chunks)
    | batch :: rest => s.park worker (.indexing snapshot chunks batch rest)
  | .finishing chunks =>
    match finalizeVersion (task.context worker) task.documentVersionId chunks.length clock.readyAt
        clock.activatedAt clock.now s.db with
    | .ok db => { s with db := db }.leave worker
    | .error .leaseLost => s.leave worker
    | .error .failed => s.park worker (.dropping chunks)
  | .dropping chunks =>
    (s.cleanupPoints task (chunks.map (·.documentChunkId))).park worker
      (.marking "document_ready_update_failed" true)
  | .failing errorCode _ =>
    let chunkIds := chunkIdsByDocumentVersion task.documentVersionId s.db
    if chunkIds.isEmpty then s.park worker (.marking errorCode true)
    else s.park worker (.removing errorCode chunkIds)
  | .removing errorCode chunkIds =>
    (s.cleanupPoints task chunkIds).park worker (.marking errorCode true)
  | .marking errorCode withChunks =>
    match markFailedAfterCleanup (task.context worker) task.documentVersionId clock.now s.db
        errorCode withChunks with
    | .ok db => { s with db := db }.leave worker
    | .error _ => s.leave worker

/-- _extract and _chunk. -/
def extracted (document : ExtractedDocument) : IngestPhase → IngestState
  | .extracting snapshot =>
    if task.maxExtractedTextChars < document.textCharCount then
      s.park worker (.failing "text_extraction_failed" ["internal_error"])
    else
      match chunk task.chunking task.documentVersionId document.pages with
      | .error .noChunksCreated => s.park worker (.failing "no_chunks_created" [])
      | .ok chunks => s.park worker (.storing snapshot document chunks)
  | _ => s

/-- The next step of a handler, when it fails. -/
def broken (errorCode : String) (waiting : List String) (reached : List Nat) :
    IngestPhase → IngestState
  | .arrived | .marking _ _ => s.leave worker
  | .cleaning snapshot =>
    (s.deleteReached snapshot.existingChunkIds reached).park worker
      (.marking "qdrant_cleanup_failed" false)
  | .cleaned _ => s.park worker (.marking "ingest_cleanup_failed" true)
  | .extracting _ => s.park worker (.failing errorCode waiting)
  | .storing _ _ chunks =>
    { s with nextChunkId := s.nextChunkId + chunks.length }.park worker
      (.failing "document_chunk_insert_failed" ["internal_error"])
  | .stored _ => s.park worker (.failing "internal_error" [])
  | .indexing snapshot _ batch _ =>
    let some := batch.filter (·.documentChunkId ∈ reached)
    { s with points := upsertPoints (some.map (task.point snapshot)) s.points }.park worker
      (.failing errorCode ["internal_error"])
  | .finishing chunks => s.park worker (.dropping chunks)
  | .dropping chunks =>
    (s.deleteReached (chunks.map (·.documentChunkId)) reached).park worker
      (.marking "document_ready_update_failed" false)
  | .failing _ [] => s.leave worker
  | .failing _ (next :: later) => s.park worker (.failing next later)
  | .removing code chunkIds =>
    (s.deleteReached chunkIds reached).park worker (.marking code false)

def answered (answer : IngestAnswer) (phase : IngestPhase) : IngestState :=
  match answer with
  | .done => s.advance task worker clock phase
  | .extracted document => s.extracted task worker document phase
  | .failed errorCode waiting reached => s.broken task worker errorCode waiting reached phase

end IngestState

inductive IngestAction where
  | acquire (worker : String) (enabledJobTypes supportedJobTypes : Option (List String))
      (leaseDuration : Time) (batchSize : Nat) (lockedRows : List Nat) (now : Time)
  | lease (call : LeaseCall)
  | begin (worker : String)
  | proceed (worker : String) (answer : IngestAnswer) (clock : IngestClock)
  | crash (worker : String)
  | approve (request : Request) (logicalDocumentId documentVersionId : Nat)
  | archive (request : Request) (logicalDocumentId : Nat)

/-- A worker acquires jobs only between its handlers; the other lease calls come from its heartbeat,
from the end of a handler and from outside. -/
def ingestStep (s : IngestState) : IngestAction → Option IngestState
  | .acquire worker enabled supported leaseDuration batchSize lockedRows now =>
    if (s.workers worker).isNone then
      let call := LeaseCall.acquireJobs worker enabled supported leaseDuration batchSize lockedRows now
      some { s with db := { s.db with jobs := call.commit s.db.jobs } }
    else none
  | .lease (.acquireJobs ..) => none
  | .lease call => some { s with db := { s.db with jobs := call.commit s.db.jobs } }
  | .begin worker => if (s.workers worker).isNone then some (s.park worker .arrived) else none
  | .proceed worker answer clock => (s.workers worker).map (s.answered task worker clock answer)
  | .crash worker => some (s.leave worker)
  | .approve request logicalDocumentId documentVersionId =>
    match approveVersion request logicalDocumentId documentVersionId s.db with
    | .ok (db, _) => some { s with db := db }
    | .error _ => some s
  | .archive request logicalDocumentId =>
    match archiveDocument request logicalDocumentId s.db with
    | .ok (db, _) => some { s with db := db }
    | .error _ => some s

end Steps
end RagProject.Ingest
