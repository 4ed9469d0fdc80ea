import RagProject.Documents.Store
import RagProject.Ingest.Chunking

/-! The transactions of the ingest handler, over the writes of DocumentRepository that they
are made of. A transaction returns the database it commits; after an error it is rolled back. -/
namespace RagProject.Ingest
open Python Jobs Documents

structure JobExecutionContext where
  jobId : Nat
  jobType : String
  targetType : Option String
  targetId : Option Nat
  payload : Dict
  workerInstanceId : String
  deriving DecidableEq, Repr

def contextFromJob (job : Job) (workerInstanceId : String) : JobExecutionContext :=
  ⟨job.jobId, job.jobType, job.targetType, job.targetId, job.payloadJson.getD [], workerInstanceId⟩

/-- A lost lease ends the handler; every other exception is caught where it is raised. -/
inductive IngestError where
  | leaseLost
  | failed
  deriving DecidableEq, Repr

section Repository

/-- _version_is_retrieval_visible. The session does not flush before it: it sees the rows of
the last flush. -/
def versionIsRetrievalVisible (documentVersionId : Nat) (db : Db) : Bool :=
  db.versions.any fun v => v.documentVersionId == documentVersionId && v.status == .ready &&
    v.isActive && (db.getDocument v.logicalDocumentId).any (·.status == .active)

def touchIf (visible : Bool) (updatedAt : Time) (db : Db) : Db :=
  if visible then db.touchRetrievalCacheCorpusMarker updatedAt else db

/-- One flushed UPDATE of a version row, with the marker when the row was visible before it. -/
def writeVersion (documentVersionId : Nat) (updatedAt : Time)
    (values : DocumentVersion → DocumentVersion) (db : Db) : Except IngestError Db :=
  let visible := versionIsRetrievalVisible documentVersionId db
  match updateVersionRow (documentVersionId, values) db.versions with
  | .error _ => .error .failed
  | .ok versions => .ok (touchIf visible updatedAt { db with versions := versions })

def resetVersionForIngest (documentVersionId : Nat) (updatedAt : Time) : Db → Except IngestError Db :=
  writeVersion documentVersionId updatedAt fun v =>
    { v with
      status := .processing, errorCode := none, pageCount := none, extractorName := none
      extractorVersion := none, updatedAt := updatedAt }

def markVersionFailed (documentVersionId : Nat) (errorCode : String) (updatedAt : Time) :
    Db → Except IngestError Db :=
  writeVersion documentVersionId updatedAt fun v =>
    { v with
      status := .failed, errorCode := some errorCode, pageCount := none, extractorName := none
      extractorVersion := none, updatedAt := updatedAt }

def markVersionReady (documentVersionId : Nat) (updatedAt : Time) : Db → Except IngestError Db :=
  writeVersion documentVersionId updatedAt fun v =>
    { v with status := .ready, errorCode := none, updatedAt := updatedAt }

/-- update_ingest_metadata has no part in the marker. -/
def updateIngestMetadata (documentVersionId : Nat) (pageCount : Option Nat)
    (extractorName extractorVersion : String) (updatedAt : Time) (db : Db) :
    Except IngestError Db :=
  let values (v : DocumentVersion) : DocumentVersion :=
    { v with
      pageCount := pageCount, extractorName := some extractorName
      extractorVersion := some extractorVersion, status := .processing, errorCode := none
      updatedAt := updatedAt }
  match updateVersionRow (documentVersionId, values) db.versions with
  | .error _ => .error .failed
  | .ok versions => .ok { db with versions := versions }

/-- chunk_ids_by_document_version. -/
def chunkIdsByDocumentVersion (documentVersionId : Nat) (db : Db) : List Nat :=
  (((db.chunksOf documentVersionId).insertionSort fun a b =>
    a.chunkIndex < b.chunkIndex ∨ (a.chunkIndex = b.chunkIndex ∧
      a.documentChunkId ≤ b.documentChunkId))).map (·.documentChunkId)

def deleteChunks (documentVersionId : Nat) (now : Time) (db : Db) : Db :=
  touchIf (versionIsRetrievalVisible documentVersionId db) now
    { db with chunks := db.chunks.filter (·.documentVersionId != documentVersionId) }

def chunkRow (createdAt : Time) (documentChunkId : Nat) (chunk : Chunk) : DocumentChunk :=
  { documentChunkId := documentChunkId
    documentVersionId := chunk.documentVersionId
    chunkIndex := chunk.chunkIndex
    chunkHash := chunk.chunkHash
    contentText := chunk.contentText
    tokenCount := some chunk.tokenCount
    charCount := some chunk.charCount
    pageFrom := chunk.pageFrom
    pageTo := chunk.pageTo
    sectionTitle := chunk.sectionTitle
    metadataJson := chunk.metadataJson
    modality := chunk.modality
    createdAt := createdAt }

/-- uq_document_chunks_version_index. -/
def ChunkIndexUnique (chunks : List DocumentChunk) : Prop :=
  (chunks.map fun c => (c.documentVersionId, c.chunkIndex)).Nodup

instance (chunks : List DocumentChunk) : Decidable (ChunkIndexUnique chunks) :=
  inferInstanceAs (Decidable (List.Nodup _))

/-- The rows take the next ids of the sequence, which are not used again after a rollback or
a deletion. -/
def bulkInsertChunks (chunks : List Chunk) (nextChunkId : Nat) (now : Time) (db : Db) :
    Except IngestError Db :=
  let rows := (chunks.zipIdx nextChunkId).map fun entry => chunkRow now entry.2 entry.1
  let stored := { db with chunks := db.chunks ++ rows }
  if ChunkIndexUnique stored.chunks then
    .ok (touchIf (chunks.any fun c => versionIsRetrievalVisible c.documentVersionId db) now stored)
  else .error .failed

end Repository

section Handler

def assertOwner (context : JobExecutionContext) (db : Db) : Except IngestError Unit :=
  match assertOwnership context.jobId context.workerInstanceId db.jobs with
  | .ok _ => .ok ()
  | .error _ => .error .leaseLost

/-- _evaluation_activation_requested. -/
def evaluationActivationRequested (payload : Dict) : Bool :=
  Dict.get payload "evaluation_corpus_activate" == some (.bool true) &&
    ((Dict.get payload "evaluation_dataset_id").bind Value.positiveInt).isSome

variable [UnicodeTables]

/-- The graph job of a version that became ready; nobody asked for it. -/
def createReadyGraphJob (documentVersionId : Nat) (now : Time) (db : Db) : Except IngestError Db :=
  if db.graphIndexingEnabled then
    match (Enqueue.graphIndexBuild documentVersionId db.graphExtractor).payload with
    | .ok payload => .ok (db.createJob fun jobId => newJob jobId "graph_index_build"
        (some "document_version") (some documentVersionId) (some payload) none 80 now).1
    | .error _ => .error .failed
  else .ok db

/-- The activation of an evaluation corpus. -/
def activateIfRequested (context : JobExecutionContext) (version : DocumentVersion)
    (activatedAt : Time) (db : Db) : Except IngestError Db :=
  if evaluationActivationRequested context.payload then
    match setActiveVersion version.logicalDocumentId version activatedAt db with
    | .ok (db, _) => .ok db
    | .error _ => .error .failed
  else .ok db

/-- The transaction of _mark_version_ready. -/
def finalizeVersion (context : JobExecutionContext) (documentVersionId expectedChunkCount : Nat)
    (readyAt activatedAt now : Time) (db : Db) : Except IngestError Db :=
  match db.getVersionById documentVersionId with
  | none => .error .failed
  | some version =>
    match db.getDocument version.logicalDocumentId with
    | none => .error .failed
    | some document =>
      if document.status = .archived ∨ version.status = .archived then .error .failed
      else do
        assertOwner context db
        if db.countChunks documentVersionId ≠ expectedChunkCount then .error .failed
        else
          let db ← markVersionReady documentVersionId readyAt db
          let db ← activateIfRequested context version activatedAt db
          createReadyGraphJob documentVersionId now db

end Handler

end RagProject.Ingest
