import RagProject.Rag.CacheCoherence
import RagProject.Lib.Pending
import RagProject.Lib.Serial
import RagProject.Lib.Sha256

/-! The corpus marker under transactions of DocumentRepository and JobService in a session that
does not flush before a query: a query sees the rows of the last flush, and not the objects that
were changed since. -/
namespace RagProject.Rag
open Python Jobs Documents Ingest

section Session

/-- The rows of the last flush, and the changed objects that wait for the next one. -/
structure CorpusSession where
  db : Db
  documents : Pending.Writes Nat LogicalDocument
  versions : Pending.Writes Nat DocumentVersion

namespace CorpusSession

def flush (s : CorpusSession) : Except String CorpusSession := do
  let versions ← flushVersions s.versions s.db.versions
  let documents := s.db.documents.map fun d => Pending.written s.documents d.logicalDocumentId d
  return ⟨{ s.db with documents := documents, versions := versions }, [], []⟩

def touch (updatedAt : Time) (s : CorpusSession) : Except String CorpusSession :=
  flush { s with db := s.db.touchRetrievalCacheCorpusMarker updatedAt }

def touchIf (visible : Bool) (updatedAt : Time) (s : CorpusSession) : Except String CorpusSession :=
  if visible then s.touch updatedAt else .ok s

def write (documentVersionId : Nat) (values : DocumentVersion → DocumentVersion)
    (s : CorpusSession) : CorpusSession :=
  { s with versions := Pending.stage documentVersionId values s.versions }

def writeDocument (logicalDocumentId : Nat) (values : LogicalDocument → LogicalDocument)
    (s : CorpusSession) : CorpusSession :=
  { s with documents := Pending.stage logicalDocumentId values s.documents }

/-- The object of a version row. -/
def version (documentVersionId : Nat) (s : CorpusSession) : Option DocumentVersion :=
  (s.db.getVersionById documentVersionId).map (Pending.written s.versions documentVersionId)

end CorpusSession

end Session

section Operations

def sessionDeleteChunks (documentVersionId : Nat) (now : Time) (s : CorpusSession) :
    Except String CorpusSession :=
  let wasVisible := versionIsRetrievalVisible documentVersionId s.db
  let chunks := s.db.chunks.filter (·.documentVersionId != documentVersionId)
  CorpusSession.touchIf wasVisible now { s with db := { s.db with chunks := chunks } }

def sessionBulkInsertChunks (chunks : List DocumentChunk) (now : Time) (s : CorpusSession) :
    Except String CorpusSession :=
  if chunks.isEmpty then .ok s
  else if !chunks.all fun c => (s.db.getVersionById c.documentVersionId).isSome then
    .error "document_chunks_document_version_id_fkey"
  else if ¬ChunkIndexUnique (s.db.chunks ++ chunks) then .error "uq_document_chunks_version_index"
  else do
    let visible := chunks.any fun c => versionIsRetrievalVisible c.documentVersionId s.db
    let s ← CorpusSession.touchIf visible now
      { s with db := { s.db with chunks := s.db.chunks ++ chunks } }
    s.flush

/-- A write that takes a version from the searches. -/
def sessionWithdraw (documentVersionId : Nat) (updatedAt : Time)
    (values : DocumentVersion → DocumentVersion) (s : CorpusSession) :
    Except String CorpusSession := do
  let wasVisible := versionIsRetrievalVisible documentVersionId s.db
  let s ← (s.write documentVersionId values).touchIf wasVisible updatedAt
  s.flush

def resetValues (updatedAt : Time) (v : DocumentVersion) : DocumentVersion :=
  { v with
    status := .processing, errorCode := none, pageCount := none, extractorName := none
    extractorVersion := none, updatedAt := updatedAt }

def sessionResetVersionForIngest (documentVersionId : Nat) (updatedAt : Time) :
    CorpusSession → Except String CorpusSession :=
  sessionWithdraw documentVersionId updatedAt (resetValues updatedAt)

def failedValues (errorCode : String) (updatedAt : Time) (v : DocumentVersion) : DocumentVersion :=
  { v with
    status := .failed, errorCode := some errorCode, pageCount := none, extractorName := none
    extractorVersion := none, updatedAt := updatedAt }

def sessionMarkVersionFailed (documentVersionId : Nat) (errorCode : String) (updatedAt : Time) :
    CorpusSession → Except String CorpusSession :=
  sessionWithdraw documentVersionId updatedAt (failedValues errorCode updatedAt)

def readyValues (updatedAt : Time) (v : DocumentVersion) : DocumentVersion :=
  { v with status := .ready, errorCode := none, updatedAt := updatedAt }

/-- Asks after the change, which the query does not see. -/
def sessionMarkVersionReady (documentVersionId : Nat) (updatedAt : Time) (s : CorpusSession) :
    Except String CorpusSession := do
  let s := s.write documentVersionId (readyValues updatedAt)
  let visible := versionIsRetrievalVisible documentVersionId s.db
  let s ← s.touchIf visible updatedAt
  s.flush

def sessionSetActiveVersion (logicalDocumentId documentVersionId : Nat) (updatedAt : Time)
    (s : CorpusSession) : Except String CorpusSession := do
  let s := match s.db.activeVersion logicalDocumentId with
    | some active =>
      if active.documentVersionId ≠ documentVersionId then
        s.write active.documentVersionId (deactivate updatedAt)
      else s
    | none => s
  let s ← (s.write documentVersionId (activate updatedAt)).touch updatedAt
  s.flush

def archivedValues (archivedAt : Time) (d : LogicalDocument) : LogicalDocument :=
  { d with status := .archived, archivedAt := some archivedAt, updatedAt := archivedAt }

def sessionArchiveDocument (logicalDocumentId : Nat) (archivedAt : Time) (s : CorpusSession) :
    Except String CorpusSession := do
  let active := s.db.versions.filter fun v => v.logicalDocumentId == logicalDocumentId && v.isActive
  let s := active.foldl (fun s v => s.write v.documentVersionId (deactivate archivedAt))
    (s.writeDocument logicalDocumentId (archivedValues archivedAt))
  let s ← s.touch archivedAt
  s.flush

def retryValues (now : Time) (v : DocumentVersion) : DocumentVersion :=
  { v with status := .processing, errorCode := none, isActive := false, updatedAt := now }

/-- _prepare_document_ingest_retry, which reads the object and leaves its changes to the next
flush. -/
def sessionPrepareDocumentIngestRetry (job : Job) (now : Time) (s : CorpusSession) :
    Except String CorpusSession :=
  if job.jobType ≠ "document_ingest" ∨ job.targetType ≠ some "document_version" then .ok s
  else match job.targetId with
    | none => .error "resource_not_found"
    | some documentVersionId =>
      match s.version documentVersionId with
      | none => .error "resource_not_found"
      | some version =>
        if version.status ≠ .failed then .ok s
        else .ok <| (s.write documentVersionId (retryValues now)).writeDocument
          version.logicalDocumentId fun d => { d with updatedAt := now }

inductive CorpusOperation where
  | deleteChunks (documentVersionId : Nat) (now : Time)
  | bulkInsertChunks (chunks : List DocumentChunk) (now : Time)
  | resetVersionForIngest (documentVersionId : Nat) (updatedAt : Time)
  | markVersionFailed (documentVersionId : Nat) (errorCode : String) (updatedAt : Time)
  | markVersionReady (documentVersionId : Nat) (updatedAt : Time)
  | setActiveVersion (logicalDocumentId documentVersionId : Nat) (updatedAt : Time)
  | archiveDocument (logicalDocumentId : Nat) (archivedAt : Time)
  | prepareDocumentIngestRetry (job : Job) (now : Time)

def CorpusOperation.reading : CorpusOperation → Time
  | .deleteChunks _ now | .bulkInsertChunks _ now | .resetVersionForIngest _ now
  | .markVersionFailed _ _ now | .markVersionReady _ now | .setActiveVersion _ _ now
  | .archiveDocument _ now | .prepareDocumentIngestRetry _ now => now

def CorpusOperation.run (s : CorpusSession) : CorpusOperation → Except String CorpusSession
  | .deleteChunks documentVersionId now => sessionDeleteChunks documentVersionId now s
  | .bulkInsertChunks chunks now => sessionBulkInsertChunks chunks now s
  | .resetVersionForIngest documentVersionId now =>
    sessionResetVersionForIngest documentVersionId now s
  | .markVersionFailed documentVersionId errorCode now =>
    sessionMarkVersionFailed documentVersionId errorCode now s
  | .markVersionReady documentVersionId now => sessionMarkVersionReady documentVersionId now s
  | .setActiveVersion logicalDocumentId documentVersionId now =>
    sessionSetActiveVersion logicalDocumentId documentVersionId now s
  | .archiveDocument logicalDocumentId now => sessionArchiveDocument logicalDocumentId now s
  | .prepareDocumentIngestRetry job now => sessionPrepareDocumentIngestRetry job now s

/-- The database after a transaction: an error rolls it back. -/
def commit (db : Db) (operations : List CorpusOperation) : Db :=
  match operations.foldlM CorpusOperation.run ⟨db, [], []⟩ with
  | .error _ => db
  | .ok s =>
    match s.flush with
    | .error _ => db
    | .ok s => s.db

end Operations

section Marker

def hashNone : String := String.ofList (List.replicate 64 '0')

def markerSettingKey : String := "rag.retrieval_cache.corpus_marker"

/-- The JSON text that _hash_json makes of the marker row: the value holds the time of the row. -/
def markerPayload (modality : String) (updatedAt : Time) : String :=
  let time := Serial.quoted (Serial.isoformat updatedAt)
  "\x7b\"modality\":" ++ Serial.quoted modality ++ ",\"scope\":\"active_corpus_marker\"" ++
    ",\"setting_key\":" ++ Serial.quoted markerSettingKey ++
    ",\"setting_value\":\x7b\"updated_at\":" ++ time ++ ",\"version\":1\x7d" ++
    ",\"updated_at\":" ++ time ++ "\x7d"

/-- _active_corpus_marker. -/
def activeCorpusMarker (modality : String) (db : Db) : String :=
  match db.corpusMarker with
  | none => hashNone
  | some updatedAt => Sha256.hexDigest (markerPayload modality updatedAt)

/-- The chunks of ready and active versions of active documents. -/
def visibleChunks (db : Db) : List DocumentChunk :=
  db.chunks.filter fun c => versionIsRetrievalVisible c.documentVersionId db

end Marker

end RagProject.Rag
