import RagProject.Documents.Store
import RagProject.Lib.Interleaving

/-! upload_document, ingest_url and add_version of DocumentService: a version is written to the
database and its file to the object storage, call by call. Every call may raise, before or after it
took effect, and the calls of several requests interleave. -/
namespace RagProject.Documents
open Python Jobs Interleaving

section Requests

/-- What create_version is given, but for the document and the version number. -/
structure StoredUpload where
  fileName : String
  mimeType : String
  fileSizeBytes : Nat
  contentHash : String
  storageKey : String
  metadataJson : Option Dict
  createdBy : Nat
  deriving DecidableEq, Repr

inductive UploadOperation where
  | uploadDocument (title : String) (file : StoredUpload)
  | ingestUrl (title : String) (file : StoredUpload)
  | addVersion (logicalDocumentId : Nat) (file : StoredUpload)
  deriving DecidableEq, Repr

def UploadOperation.file : UploadOperation → StoredUpload
  | .uploadDocument _ file | .ingestUrl _ file | .addVersion _ file => file

inductive UploadCall where
  | prepare | createLogicalDocument
  | getDocument | validate | getVersionByHash | maxVersionNo | touchDocument
  | createVersion | saveBytes | createIngestJob | audit | commit
  | refresh (object : String)
  | respond | rollback | delete
  deriving DecidableEq, Repr

/-- A call returns, raises without an effect, or raises after it took effect. -/
inductive Outcome where
  | returns | raises | raisesAfter
  deriving DecidableEq, Repr

structure UploadEvent where
  request : Nat
  call : UploadCall
  outcome : Outcome
  now : Time
  deriving DecidableEq, Repr

end Requests

section World

/-- The rows that a transaction has inserted. -/
structure UploadRows where
  document : Option LogicalDocument
  version : DocumentVersion
  deriving DecidableEq, Repr

/-- The committed rows, the objects of the storage by key, and which request has locked or inserted
a document. The ids come from sequences. -/
structure UploadWorld where
  documents : List LogicalDocument
  versions : List DocumentVersion
  objects : List String
  locks : List (Nat × Nat)
  nextDocumentId : Nat
  nextVersionId : Nat
  deriving DecidableEq, Repr

namespace UploadWorld
variable (w : UploadWorld)

def versionsOf (logicalDocumentId : Nat) : List DocumentVersion :=
  w.versions.filter (·.logicalDocumentId == logicalDocumentId)

def maxVersionNo (logicalDocumentId : Nat) : Nat :=
  ((w.versionsOf logicalDocumentId).map (·.versionNo)).foldr max 0

def getVersionByHash (logicalDocumentId : Nat) (contentHash : String) : Option DocumentVersion :=
  (w.versionsOf logicalDocumentId).find? (·.contentHash == contentHash)

def lock (logicalDocumentId request : Nat) : UploadWorld :=
  { w with locks := w.locks ++ [(logicalDocumentId, request)] }

/-- A transaction ends. -/
def release (request : Nat) : UploadWorld :=
  { w with locks := w.locks.filter (·.2 != request) }

/-- The next document id, for a row that only its own transaction sees. -/
def allocate (request : Nat) : UploadWorld :=
  { w.lock w.nextDocumentId request with nextDocumentId := w.nextDocumentId + 1 }

def commit (rows : UploadRows) (request : Nat) : UploadWorld :=
  { w.release request with
    documents := w.documents ++ rows.document.toList
    versions := w.versions ++ [rows.version] }

def saveBytes (storageKey : String) : UploadWorld :=
  { w with objects := if storageKey ∈ w.objects then w.objects else w.objects ++ [storageKey] }

def delete (storageKey : String) : UploadWorld :=
  { w with objects := w.objects.filter (· != storageKey) }

end UploadWorld

/-- create_logical_document. -/
def newDocument (logicalDocumentId createdBy : Nat) (title : String) (now : Time) :
    LogicalDocument where
  logicalDocumentId := logicalDocumentId
  ownerUserId := createdBy
  title := title
  status := .active
  archivedAt := none
  createdAt := now
  updatedAt := now

/-- create_version. -/
def newVersion (file : StoredUpload) (documentVersionId logicalDocumentId versionNo : Nat)
    (now : Time) : DocumentVersion where
  documentVersionId := documentVersionId
  logicalDocumentId := logicalDocumentId
  versionNo := versionNo
  contentHash := file.contentHash
  status := .processing
  isActive := false
  errorCode := none
  fileName := file.fileName
  mimeType := file.mimeType
  fileSizeBytes := file.fileSizeBytes
  storageKey := some file.storageKey
  metadataJson := file.metadataJson
  pageCount := none
  extractorName := none
  extractorVersion := none
  createdBy := file.createdBy
  createdAt := now
  updatedAt := now

end World

section Operation

/-- Where a request is. A list holds the calls that come before the next one of interest; `failing`
is the handler of an exception, with storage_saved and committed. -/
inductive UploadPhase where
  | start
  | prepared
  | locked (logicalDocumentId : Nat)
  | validated (logicalDocumentId : Nat)
  | matched (rest : List UploadCall)
  | hashed (logicalDocumentId : Nat)
  | numbered (document : Option LogicalDocument) (logicalDocumentId versionNo : Nat)
  | written (rows : UploadRows) (rest : List UploadCall)
  | saved (rows : UploadRows) (rest : List UploadCall)
  | committed (rest : List UploadCall)
  | failing (saved committed : Bool)
  | deleting
  | ended
  | undeleted
  deriving DecidableEq, Repr

abbrev UploadResult := UploadPhase × UploadWorld

/-- What a call leaves: where the request goes on and what the call did, if it did. -/
def attempt (outcome : Outcome) (next handler : UploadPhase) (before after : UploadWorld) :
    UploadResult :=
  match outcome with
  | .returns => (next, after)
  | .raises => (handler, before)
  | .raisesAfter => (handler, after)

def failed : UploadPhase := .failing false false

/-- The unique constraints of document_versions. -/
def violatesUnique (w : UploadWorld) (v : DocumentVersion) : Bool :=
  (w.versionsOf v.logicalDocumentId).any fun u =>
    u.versionNo == v.versionNo || u.contentHash == v.contentHash

def touches : UploadOperation → List UploadCall
  | .addVersion _ _ => [.touchDocument]
  | _ => []

def refreshes : UploadOperation → List UploadCall
  | .addVersion _ _ => [.refresh "version", .refresh "job"]
  | _ => [.refresh "document", .refresh "version", .refresh "job"]

/-- One call of a request. -/
def transition (operation : UploadOperation) (e : UploadEvent) (phase : UploadPhase)
    (w : UploadWorld) : Option UploadResult :=
  let file := operation.file
  match phase with
  | .start =>
    match operation with
    | .addVersion logicalDocumentId _ =>
      if e.call ≠ .getDocument then none
      else match Table.row LogicalDocument.logicalDocumentId w.documents logicalDocumentId with
        | none => some (attempt e.outcome failed failed w w)
        | some document =>
          -- a locked row makes the request wait
          if logicalDocumentId ∈ w.locks.map Prod.fst then none
          else
            let next := if document.status = .archived then failed else .locked logicalDocumentId
            some (attempt e.outcome next failed w (w.lock logicalDocumentId e.request))
    | _ => if e.call = .prepare then some (attempt e.outcome .prepared .ended w w) else none
  | .prepared =>
    match operation with
    | .addVersion _ _ => none
    | .uploadDocument title _ | .ingestUrl title _ =>
      if e.call ≠ .createLogicalDocument then none
      else
        let document := newDocument w.nextDocumentId file.createdBy title e.now
        some (attempt e.outcome (.numbered (some document) w.nextDocumentId 1) failed w
          (w.allocate e.request))
  | .locked logicalDocumentId =>
    if e.call = .validate then some (attempt e.outcome (.validated logicalDocumentId) failed w w)
    else none
  | .validated logicalDocumentId =>
    if e.call ≠ .getVersionByHash then none
    else
      let next := match w.getVersionByHash logicalDocumentId file.contentHash with
        | some _ => .matched [.audit]
        | none => .hashed logicalDocumentId
      some (attempt e.outcome next failed w w)
  | .matched (call :: rest) =>
    if e.call = call then some (attempt e.outcome (.matched rest) failed w w) else none
  | .matched [] =>
    if e.call = .commit then some (attempt e.outcome .ended failed w (w.release e.request)) else none
  | .hashed logicalDocumentId =>
    if e.call ≠ .maxVersionNo then none
    else
      let versionNo := w.maxVersionNo logicalDocumentId + 1
      some (attempt e.outcome (.numbered none logicalDocumentId versionNo) failed w w)
  | .numbered document logicalDocumentId versionNo =>
    if e.call ≠ .createVersion then none
    else
      let version := newVersion file w.nextVersionId logicalDocumentId versionNo e.now
      let next := if violatesUnique w version then failed
        else .written ⟨document, version⟩ (touches operation)
      some (attempt e.outcome next failed w { w with nextVersionId := w.nextVersionId + 1 })
  | .written rows (call :: rest) =>
    if e.call = call then some (attempt e.outcome (.written rows rest) failed w w) else none
  | .written rows [] =>
    if e.call = .saveBytes then
      some (attempt e.outcome (.saved rows [.createIngestJob, .audit]) failed w
        (w.saveBytes file.storageKey))
    else none
  | .saved rows (call :: rest) =>
    if e.call = call then some (attempt e.outcome (.saved rows rest) (.failing true false) w w)
    else none
  | .saved rows [] =>
    if e.call = .commit then
      some (attempt e.outcome (.committed (refreshes operation)) (.failing true false) w
        (w.commit rows e.request))
    else none
  | .committed (call :: rest) =>
    if e.call = call then some (attempt e.outcome (.committed rest) (.failing true true) w w)
    else none
  | .committed [] =>
    if e.call = .respond then some (attempt e.outcome .ended .ended w w) else none
  | .failing saved committed =>
    if e.call = .rollback then
      some (attempt e.outcome (if saved && !committed then .deleting else .ended) .ended w
        (w.release e.request))
    else none
  | .deleting =>
    -- an exception of the deletion is suppressed
    if e.call = .delete then
      some (attempt e.outcome .ended .undeleted w (w.delete file.storageKey))
    else none
  | .ended | .undeleted => none

structure UploadSystem where
  world : UploadWorld
  phases : Nat → UploadPhase

def UploadSystem.step (operations : Nat → UploadOperation) (s : UploadSystem) (e : UploadEvent) :
    Option UploadSystem :=
  (transition (operations e.request) e (s.phases e.request) s.world).map fun result =>
    ⟨result.2, Function.update s.phases e.request result.1⟩

end Operation

end RagProject.Documents
