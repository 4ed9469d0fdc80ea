import RagProject.Jobs.Lease
import RagProject.Jobs.Payloads

/-! Documents, versions and chunks as rows, the database they share with the jobs, and
the parts of DocumentRepository that read and write them. -/
namespace RagProject.Documents
open Python Jobs

inductive DocumentStatus where
  | active | archived
  deriving DecidableEq, Repr

def DocumentStatus.value : DocumentStatus → String
  | .active => "active"
  | .archived => "archived"

inductive VersionStatus where
  | processing | ready | failed | archived
  deriving DecidableEq, Repr

def VersionStatus.value : VersionStatus → String
  | .processing => "processing"
  | .ready => "ready"
  | .failed => "failed"
  | .archived => "archived"

structure LogicalDocument where
  logicalDocumentId : Nat
  ownerUserId : Nat
  title : String
  status : DocumentStatus
  archivedAt : Option Time
  createdAt : Time
  updatedAt : Time
  deriving DecidableEq, Repr

structure DocumentVersion where
  documentVersionId : Nat
  logicalDocumentId : Nat
  versionNo : Nat
  contentHash : String
  status : VersionStatus
  isActive : Bool
  errorCode : Option String
  fileName : String
  mimeType : String
  fileSizeBytes : Nat
  storageKey : Option String
  metadataJson : Option Dict
  pageCount : Option Nat
  extractorName : Option String
  extractorVersion : Option String
  createdBy : Nat
  createdAt : Time
  updatedAt : Time
  deriving DecidableEq, Repr

structure DocumentChunk where
  documentChunkId : Nat
  documentVersionId : Nat
  chunkIndex : Nat
  chunkHash : String
  contentText : String
  tokenCount : Option Nat
  charCount : Option Nat
  pageFrom : Option Int
  pageTo : Option Int
  sectionTitle : Option String
  metadataJson : Option Dict
  modality : String
  createdAt : Time
  deriving DecidableEq, Repr

def DocumentVersion.checks (v : DocumentVersion) : List (String × Bool) := [
  ("ck_document_versions_version_no", 1 ≤ v.versionNo),
  ("ck_document_versions_active_ready_only", !v.isActive || v.status == .ready),
  ("ck_document_versions_error_code_by_status", (v.status == .failed) == v.errorCode.isSome)]

def DocumentVersion.violation (v : DocumentVersion) : Option String :=
  (v.checks.find? fun check => !check.2).map Prod.fst

/-- ux_document_versions_one_active. -/
def OneActive (versions : List DocumentVersion) : Prop :=
  ((versions.filter (·.isActive)).map (·.logicalDocumentId)).Nodup

instance (versions : List DocumentVersion) : Decidable (OneActive versions) :=
  inferInstanceAs (Decidable (List.Nodup _))

/-- The tables and the three settings that the transactions below read or write. -/
structure Db where
  documents : List LogicalDocument
  versions : List DocumentVersion
  chunks : List DocumentChunk
  jobs : List Job
  nextJobId : Nat
  corpusMarker : Option Time
  graphIndexing : Option Value
  graphExtractor : Option Value
  deriving DecidableEq, Repr

namespace Db
variable (db : Db)

def getDocument (logicalDocumentId : Nat) : Option LogicalDocument :=
  Table.row LogicalDocument.logicalDocumentId db.documents logicalDocumentId

def getVersionById (documentVersionId : Nat) : Option DocumentVersion :=
  Table.row DocumentVersion.documentVersionId db.versions documentVersionId

def getVersion (logicalDocumentId documentVersionId : Nat) : Option DocumentVersion :=
  db.versions.find? fun v =>
    v.logicalDocumentId == logicalDocumentId && v.documentVersionId == documentVersionId

/-- list_versions without pagination. -/
def listVersions (logicalDocumentId : Nat) : List DocumentVersion :=
  (db.versions.filter (·.logicalDocumentId == logicalDocumentId)).insertionSort
    fun a b => b.versionNo ≤ a.versionNo

def chunksOf (documentVersionId : Nat) : List DocumentChunk :=
  db.chunks.filter (·.documentVersionId == documentVersionId)

def countChunks (documentVersionId : Nat) : Nat := (db.chunksOf documentVersionId).length

def activeVersion (logicalDocumentId : Nat) : Option DocumentVersion :=
  db.versions.find? fun v => v.logicalDocumentId == logicalDocumentId && v.isActive

def touchRetrievalCacheCorpusMarker (updatedAt : Time) : Db :=
  { db with corpusMarker := some updatedAt }

def touchDocument (logicalDocumentId : Nat) (updatedAt : Time) : Db :=
  { db with documents := db.documents.map fun d =>
      if d.logicalDocumentId = logicalDocumentId then { d with updatedAt := updatedAt } else d }

def graphIndexingEnabled : Bool :=
  match db.graphIndexing with
  | none => true
  | some value => value == .bool true

/-- create_job: the row takes the next id. -/
def createJob (row : Nat → Job) : Db × Nat :=
  ({ db with jobs := db.jobs ++ [row db.nextJobId], nextJobId := db.nextJobId + 1 }, db.nextJobId)

end Db

/-- One UPDATE of a version row, with the constraints that are checked before the next one. -/
def updateVersionRow (row : Nat × (DocumentVersion → DocumentVersion))
    (versions : List DocumentVersion) : Except String (List DocumentVersion) :=
  let rows := versions.map fun v => if v.documentVersionId = row.1 then row.2 v else v
  match (rows.filter (·.documentVersionId == row.1)).findSome? (·.violation) with
  | some constraint => .error constraint
  | none => if OneActive rows then .ok rows else .error "ux_document_versions_one_active"

/-- A flush emits the pending updates by ascending primary key. -/
def flushVersions (dirty : List (Nat × (DocumentVersion → DocumentVersion)))
    (versions : List DocumentVersion) : Except String (List DocumentVersion) :=
  (dirty.insertionSort fun a b => a.1 ≤ b.1).foldlM (fun rows row => updateVersionRow row rows)
    versions

def activate (updatedAt : Time) (v : DocumentVersion) : DocumentVersion :=
  { v with isActive := true, updatedAt := updatedAt }

def deactivate (updatedAt : Time) (v : DocumentVersion) : DocumentVersion :=
  { v with isActive := false, updatedAt := updatedAt }

/-- set_active_version: the version that was active, and the database after the flush. -/
def setActiveVersion (logicalDocumentId : Nat) (version : DocumentVersion) (updatedAt : Time)
    (db : Db) : Except String (Db × Option Nat) := do
  let active := db.activeVersion logicalDocumentId
  let previous := match active with
    | some a => if a.documentVersionId ≠ version.documentVersionId
        then [(a.documentVersionId, deactivate updatedAt)] else []
    | none => []
  let versions ← flushVersions (previous ++ [(version.documentVersionId, activate updatedAt)])
    db.versions
  let db := { db with versions := versions }
  return (db.touchRetrievalCacheCorpusMarker updatedAt, active.map (·.documentVersionId))

/-- archive_document of the repository: the document and its active versions. -/
def archiveDocumentRows (logicalDocumentId : Nat) (archivedAt : Time) (db : Db) :
    Except String Db := do
  let dirty := (db.versions.filter fun v =>
    v.logicalDocumentId == logicalDocumentId && v.isActive).map
      fun v => (v.documentVersionId, deactivate archivedAt)
  let versions ← flushVersions dirty db.versions
  let documents := db.documents.map fun d => if d.logicalDocumentId = logicalDocumentId then
    { d with status := .archived, archivedAt := some archivedAt, updatedAt := archivedAt } else d
  let db := { db with documents := documents, versions := versions }
  return db.touchRetrievalCacheCorpusMarker archivedAt

/-- What the constraints of the schema keep. -/
structure Db.Ok (db : Db) : Prop where
  documentIds : (db.documents.map (·.logicalDocumentId)).Nodup
  versionIds : (db.versions.map (·.documentVersionId)).Nodup
  documentPositive : ∀ d ∈ db.documents, 0 < d.logicalDocumentId
  positive : ∀ v ∈ db.versions, 0 < v.documentVersionId
  accepted : ∀ v ∈ db.versions, v.violation = none
  oneActive : OneActive db.versions
  jobs : TableOk db.jobs
  fresh : ∀ j ∈ db.jobs, j.jobId < db.nextJobId

/-- The constraints hold with other jobs in the jobs table. -/
theorem Db.Ok.withJobs {db : Db} (ok : db.Ok) {jobs : List Job} (table : TableOk jobs)
    (fresh : ∀ j ∈ jobs, j.jobId < db.nextJobId) : Db.Ok { db with jobs := jobs } :=
  ⟨ok.documentIds, ok.versionIds, ok.documentPositive, ok.positive, ok.accepted, ok.oneActive,
    table, fresh⟩

theorem Db.Ok.lease [UnicodeTables] {db : Db} (ok : db.Ok) (call : LeaseCall) :
    Db.Ok { db with jobs := call.commit db.jobs } := by
  obtain ⟨g, rows, effect⟩ := commit_rows call db.jobs ok.jobs.distinct
  refine ok.withJobs (commit_ok call ok.jobs) fun j' member => ?_
  rw [rows] at member
  obtain ⟨j, old, rfl⟩ := List.mem_map.mp member
  rw [(effect j old).sameId]
  exact ok.fresh j old

theorem version_checks {v : DocumentVersion} (accepted : v.violation = none) :
    1 ≤ v.versionNo ∧ (v.isActive = true → v.status = .ready) ∧
      (v.status = .failed ↔ v.errorCode.isSome = true) := by
  simp only [DocumentVersion.violation, Option.map_eq_none_iff, List.find?_eq_none,
    DocumentVersion.checks, List.forall_mem_cons, List.not_mem_nil, false_imp_iff, implies_true,
    and_true, Bool.not_eq_true', Bool.not_eq_false, decide_eq_true_eq] at accepted
  obtain ⟨versionNo, ready, code⟩ := accepted
  refine ⟨versionNo, fun active => by simpa [active] using ready, ?_⟩
  cases status : v.status <;> cases errorCode : v.errorCode <;> simp [status, errorCode] at code ⊢

theorem version_accepted {v : DocumentVersion} (versionNo : 1 ≤ v.versionNo)
    (ready : v.isActive = true → v.status = .ready)
    (code : v.status = .failed ↔ v.errorCode.isSome = true) : v.violation = none := by
  have second : (!v.isActive || v.status == .ready) = true := by
    cases active : v.isActive with
    | false => rfl
    | true => simp [ready active]
  have third : ((v.status == .failed) == v.errorCode.isSome) = true := by
    rw [beq_iff_eq, Bool.eq_iff_iff, beq_iff_eq]
    exact code
  simp [DocumentVersion.violation, DocumentVersion.checks, versionNo, second, third]

theorem oneActive_iff {versions : List DocumentVersion}
    (distinct : (versions.map (·.documentVersionId)).Nodup) :
    OneActive versions ↔ ∀ v ∈ versions, ∀ w ∈ versions, v.isActive = true → w.isActive = true →
      v.logicalDocumentId = w.logicalDocumentId → v.documentVersionId = w.documentVersionId :=
  Table.nodup_filter_map_iff distinct

/-- The database with more jobs in it, each new, queued and under its own id. -/
structure Enqueued (db : Db) (extra : List Job) (db' : Db) : Prop where
  tables : db' = { db with jobs := db.jobs ++ extra, nextJobId := db.nextJobId + extra.length }
  ids : extra.map (·.jobId) = List.range' db.nextJobId extra.length
  queued : ∀ j ∈ extra, j.status = .queued ∧ j.violation = none

theorem Enqueued.refl (db : Db) : Enqueued db [] db := by
  refine ⟨by simp, rfl, ?_⟩
  intro j member
  cases member

theorem Enqueued.trans {db db' db'' : Db} {extra extra' : List Job} (first : Enqueued db extra db')
    (second : Enqueued db' extra' db'') : Enqueued db (extra ++ extra') db'' := by
  have tables := first.tables
  subst tables
  refine ⟨?_, ?_, ?_⟩
  · rw [second.tables]
    simp [Nat.add_assoc]
  · rw [List.map_append, first.ids, second.ids, List.length_append, List.range'_append_1]
  · intro j member
    rcases List.mem_append.mp member with h | h
    · exact first.queued j h
    · exact second.queued j h

theorem enqueued_createJob (db : Db) {row : Nat → Job}
    (sameId : (row db.nextJobId).jobId = db.nextJobId)
    (queued : (row db.nextJobId).status = .queued)
    (accepted : (row db.nextJobId).violation = none) :
    Enqueued db [row db.nextJobId] (db.createJob row).1 := by
  refine ⟨rfl, by simp [sameId], ?_⟩
  intro j member
  cases List.mem_singleton.mp member
  exact ⟨queued, accepted⟩

/-- New jobs keep the jobs table in order. -/
theorem Enqueued.jobs_ok {db db' : Db} {extra : List Job} (enqueued : Enqueued db extra db')
    (ok : TableOk db.jobs) (fresh : ∀ j ∈ db.jobs, j.jobId < db.nextJobId) :
    TableOk db'.jobs ∧ ∀ j ∈ db'.jobs, j.jobId < db'.nextJobId := by
  have numbered := Table.append_numbered ok.distinct fresh enqueued.ids
  rw [enqueued.tables]
  refine ⟨⟨numbered.1, ?_, ?_⟩, numbered.2⟩
  · intro j member
    rcases List.mem_append.mp member with h | h
    · exact ok.accepted j h
    · exact (enqueued.queued j h).2
  · intro j member terminal
    rcases List.mem_append.mp member with h | h
    · exact ok.expiry j h terminal
    · simp [(enqueued.queued j h).1, JobStatus.terminal] at terminal

end RagProject.Documents
