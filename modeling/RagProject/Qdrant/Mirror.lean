import RagProject.Documents.Approval
import RagProject.Lib.Interleaving
import RagProject.Qdrant.Points

/-! Mirror jobs: approvals and archivals commit to the database and enqueue one job each,
and any number of workers copy the rows of a document into the payloads of its points. A
worker reads all versions at once and then writes version by version. -/
namespace RagProject.Qdrant
open Python Jobs Documents Interleaving

structure VersionMirrorSnapshot where
  documentVersionId : Nat
  logicalDocumentStatus : String
  documentVersionStatus : String
  isActive : Bool
  chunkCount : Nat
  deriving DecidableEq, Repr

/-- What handle takes from its job: the action, the document and perhaps a version. -/
structure MirrorRequest where
  action : String
  logicalDocumentId : Nat
  documentVersionId : Option Nat
  deriving DecidableEq, Repr

def mirrorRequest (job : Job) : Option MirrorRequest :=
  let payload := job.payloadJson.getD []
  match Dict.get payload "mirror_action", (Dict.get payload "logical_document_id").bind
      Value.positiveInt, (Dict.get payload "document_version_id").getD .none with
  | some (.str action), some logicalDocumentId, version =>
    if action ∈ ["sync_payload", "mark_inactive"] ∧
        (version = .none ∨ version.positiveInt.isSome) ∧
        job.targetType = some "logical_document" ∧ job.targetId = some logicalDocumentId then
      some ⟨action, logicalDocumentId, version.positiveInt⟩
    else none
  | _, _, _ => none

def snapshotOf (db : Db) (document : LogicalDocument) (v : DocumentVersion) :
    VersionMirrorSnapshot :=
  ⟨v.documentVersionId, document.status.value, v.status.value, v.isActive,
    db.countChunks v.documentVersionId⟩

/-- _load_snapshots, apart from the ownership check. -/
def loadSnapshots (request : MirrorRequest) (db : Db) : Option (List VersionMirrorSnapshot) :=
  match db.getDocument request.logicalDocumentId with
  | none => none
  | some document =>
    let versions := db.listVersions request.logicalDocumentId
    if request.documentVersionId.all fun id => versions.any (·.documentVersionId == id) then
      some (versions.map (snapshotOf db document))
    else none

def syncDocumentPayload (snapshot : VersionMirrorSnapshot) : Collection → Collection :=
  setPayloadByDocumentVersion snapshot.documentVersionId
    (syncFields snapshot.logicalDocumentStatus snapshot.documentVersionStatus snapshot.isActive)

/-- A worker in the handler: its job, the snapshots not yet written, the number written. -/
structure SyncRun where
  jobId : Nat
  request : MirrorRequest
  remaining : List VersionMirrorSnapshot
  synced : Nat
  deriving DecidableEq, Repr

/-- A worker runs one handler at a time; none is between two jobs. -/
structure MirrorSystem where
  db : Db
  points : Collection
  runs : String → Option SyncRun

inductive MirrorAction where
  | approve (request : Request) (logicalDocumentId documentVersionId : Nat)
  | archive (request : Request) (logicalDocumentId : Nat)
  | lease (call : LeaseCall)
  | begin (worker : String) (jobId : Nat)
  | sync (worker : String)
  | abandon (worker : String)
  | finish (worker : String) (leaseDuration renewedAt finishedAt : Time)

namespace MirrorSystem

def setRun (s : MirrorSystem) (worker : String) (run : Option SyncRun) : MirrorSystem :=
  { s with runs := fun w => if w = worker then run else s.runs w }

/-- A worker acquires jobs between two handler runs, and a mirror job succeeds through the
handler only. -/
def permits (s : MirrorSystem) : LeaseCall → Bool
  | .acquireJobs worker _ _ _ _ _ _ => (s.runs worker).isNone
  | .markSucceeded jobId _ _ _ =>
    (getJob s.db.jobs jobId).all (·.jobType != "qdrant_mirror_update")
  | _ => true

variable [UnicodeTables]

def step (s : MirrorSystem) : MirrorAction → Option MirrorSystem
  | .approve request logicalDocumentId documentVersionId =>
    match approveVersion request logicalDocumentId documentVersionId s.db with
    | .ok (db, _) => some { s with db := db }
    | .error _ => some s
  | .archive request logicalDocumentId =>
    match archiveDocument request logicalDocumentId s.db with
    | .ok (db, _) => some { s with db := db }
    | .error _ => some s
  | .lease call =>
    if s.permits call then some { s with db := { s.db with jobs := call.commit s.db.jobs } }
    else none
  | .begin worker jobId =>
    match s.runs worker, getJob s.db.jobs jobId with
    | none, some job =>
      if ownedBy jobId worker job && job.jobType == "qdrant_mirror_update" then
        (mirrorRequest job).bind fun request => (loadSnapshots request s.db).map fun snapshots =>
          s.setRun worker (some ⟨jobId, request, snapshots, 0⟩)
      else none
    | _, _ => none
  | .sync worker =>
    match s.runs worker with
    | some ⟨jobId, request, snapshot :: rest, synced⟩ =>
      if snapshot.chunkCount = 0 then
        some (s.setRun worker (some ⟨jobId, request, rest, synced⟩))
      else
        some { s.setRun worker (some ⟨jobId, request, rest, synced + 1⟩) with
          points := syncDocumentPayload snapshot s.points }
    | _ => none
  | .abandon worker => some (s.setRun worker none)
  | .finish worker leaseDuration renewedAt finishedAt =>
    match s.runs worker with
    | some ⟨jobId, request, [], synced⟩ =>
      let result : Dict := [("logical_document_id", .int request.logicalDocumentId),
        ("mirror_action", .str request.action), ("synced_version_count", .int synced)]
      match storeSucceeded jobId worker leaseDuration renewedAt finishedAt result s.db.jobs with
      | .ok jobs => some { s.setRun worker none with db := { s.db with jobs := jobs } }
      | .error _ => some (s.setRun worker none)
    | _ => none

end MirrorSystem

/-- The payload has the triple of the row. -/
def Agrees (db : Db) (p : Point) (v : DocumentVersion) : Prop :=
  ∀ document, db.getDocument v.logicalDocumentId = some document →
    ∀ field ∈ syncFields document.status.value v.status.value v.isActive,
      Dict.get p.payload field.1 = some field.2

/-- The snapshot is what a read of the row would return now, and will be written. -/
def Fresh (db : Db) (snapshot : VersionMirrorSnapshot) (v : DocumentVersion) : Prop :=
  snapshot.documentVersionId = v.documentVersionId ∧ snapshot.chunkCount ≠ 0 ∧
    snapshot.documentVersionStatus = v.status.value ∧ snapshot.isActive = v.isActive ∧
    ∀ document, db.getDocument v.logicalDocumentId = some document →
      snapshot.logicalDocumentStatus = document.status.value

/-- An unfinished mirror job that still has to bring the points of a version up to date: its
owner, if it has read the versions, holds a current snapshot that is not written yet. -/
structure Covers (s : MirrorSystem) (v : DocumentVersion) (job : Job) : Prop where
  member : job ∈ s.db.jobs
  mirror : job.jobType = "qdrant_mirror_update"
  document : ∃ request, mirrorRequest job = some request ∧
    request.logicalDocumentId = v.logicalDocumentId
  unfinished : leaseOf job ≠ .closed
  pending : ∀ worker run, s.runs worker = some run → run.jobId = job.jobId →
    leaseOf job = .held worker → ∃ snapshot ∈ run.remaining, Fresh s.db snapshot v

/-- The condition: a snapshot of the document that is no longer current is written only while
an unfinished job covers its version. -/
def StaleWritesCovered (logicalDocumentId : Nat) (s : MirrorSystem) : MirrorAction → Prop
  | .sync worker => ∀ run snapshot rest, s.runs worker = some run →
      run.remaining = snapshot :: rest → snapshot.chunkCount ≠ 0 →
      ∀ v ∈ s.db.versions, v.logicalDocumentId = logicalDocumentId →
        v.documentVersionId = snapshot.documentVersionId → ¬Fresh s.db snapshot v →
        ∃ job, Covers s v job
  | _ => True

theorem carries_sync (snapshot : VersionMirrorSnapshot) (p : Point) (v : Nat) :
    Point.carries v { p with payload := update p.payload (syncFields snapshot.logicalDocumentStatus
      snapshot.documentVersionStatus snapshot.isActive) } = p.carries v := by
  unfold Point.carries
  rw [get_update_other]
  simp [syncFields]

theorem carries_unique {p : Point} {v w : Nat} (hv : p.carries v = true) (hw : p.carries w = true) :
    v = w := by
  simp only [Point.carries, beq_iff_eq] at hv hw
  rw [hv] at hw
  have same : (v : Int) = w := by simpa using hw
  omega

/-- A write of one version: its points get the triple, the others keep their payload. -/
theorem mem_sync {snapshot : VersionMirrorSnapshot} {points : Collection} {p' : Point}
    (member : p' ∈ syncDocumentPayload snapshot points) :
    ∃ p ∈ points, (∀ v, p'.carries v = p.carries v) ∧
      (p.carries snapshot.documentVersionId = true → ∀ field ∈ syncFields
        snapshot.logicalDocumentStatus snapshot.documentVersionStatus snapshot.isActive,
        Dict.get p'.payload field.1 = some field.2) ∧
      (p.carries snapshot.documentVersionId = false → p' = p) := by
  obtain ⟨p, old, rfl⟩ := List.mem_map.mp member
  refine ⟨p, old, ?_⟩
  by_cases hit : p.carries snapshot.documentVersionId = true
  · simp only [hit, if_true]
    refine ⟨fun v => carries_sync snapshot p v, fun _ => ?_, fun miss => by cases miss⟩
    exact get_update (by simp [syncFields]) p.payload
  · simp [hit]

theorem mem_listVersions {db : Db} {logicalDocumentId : Nat} {v : DocumentVersion} :
    v ∈ db.listVersions logicalDocumentId ↔
      v ∈ db.versions ∧ v.logicalDocumentId = logicalDocumentId := by
  simp [Db.listVersions, List.mem_insertionSort]

theorem listVersions_distinct {db : Db} (ok : db.Ok) (logicalDocumentId : Nat) :
    ((db.listVersions logicalDocumentId).map (·.documentVersionId)).Nodup := by
  have sorted := List.perm_insertionSort (fun a b : DocumentVersion => b.versionNo ≤ a.versionNo)
    (db.versions.filter (·.logicalDocumentId == logicalDocumentId))
  rw [Db.listVersions, (sorted.map _).nodup_iff]
  exact ok.versionIds.sublist (List.filter_sublist.map _)

theorem loadSnapshots_some {request : MirrorRequest} {db : Db}
    {snapshots : List VersionMirrorSnapshot} (loaded : loadSnapshots request db = some snapshots) :
    ∃ document, db.getDocument request.logicalDocumentId = some document ∧
      snapshots = (db.listVersions request.logicalDocumentId).map (snapshotOf db document) := by
  unfold loadSnapshots at loaded
  split at loaded
  · cases loaded
  · rename_i document found
    refine ⟨document, found, ?_⟩
    dsimp only at loaded
    split at loaded
    · exact (Option.some.inj loaded).symm
    · cases loaded

theorem mirrorRequest_target {job : Job} {request : MirrorRequest}
    (parsed : mirrorRequest job = some request) :
    job.targetId = some request.logicalDocumentId := by
  unfold mirrorRequest at parsed
  dsimp only at parsed
  split at parsed
  · split at parsed
    · rename_i condition
      cases parsed
      exact condition.2.2.2
    · cases parsed
  · cases parsed

/-- The columns that a lease call leaves alone decide what the handler is asked to do. -/
theorem mirrorRequest_content {job job' : Job} (same : job'.content = job.content) :
    mirrorRequest job' = mirrorRequest job := by
  simp only [Job.content, Prod.mk.injEq] at same
  obtain ⟨_, _, _, targetType, targetId, payload, _⟩ := same
  unfold mirrorRequest
  rw [targetType, targetId, payload]

/-- The rows of one document are the same in both databases, up to what no payload shows. -/
structure SameRows (logicalDocumentId : Nat) (db db' : Db) : Prop where
  versions : ∀ v, v.logicalDocumentId = logicalDocumentId → v ∈ db'.versions → v ∈ db.versions
  document : ∀ d', db'.getDocument logicalDocumentId = some d' →
    ∃ d, db.getDocument logicalDocumentId = some d ∧ d.status = d'.status

theorem SameRows.refl (logicalDocumentId : Nat) (db : Db) : SameRows logicalDocumentId db db :=
  ⟨fun _ _ member => member, fun d' found => ⟨d', found, rfl⟩⟩

theorem SameRows.agrees {db db' : Db} {v : DocumentVersion} {p : Point}
    (same : SameRows v.logicalDocumentId db db') (agrees : Agrees db p v) : Agrees db' p v := by
  intro document found
  obtain ⟨d, foundOld, status⟩ := same.document document found
  rw [← status]
  exact agrees d foundOld

theorem SameRows.fresh {db db' : Db} {v : DocumentVersion} {snapshot : VersionMirrorSnapshot}
    (same : SameRows v.logicalDocumentId db db') (fresh : Fresh db snapshot v) :
    Fresh db' snapshot v := by
  obtain ⟨id, chunks, status, active, document⟩ := fresh
  refine ⟨id, chunks, status, active, fun d' found => ?_⟩
  obtain ⟨d, foundOld, same⟩ := same.document d' found
  rw [← same]
  exact document d foundOld

/-- A job goes on covering a version when it stays unfinished and its owner's run keeps what is
current. -/
theorem Covers.carry {s s' : MirrorSystem} {v : DocumentVersion} {job job' : Job}
    (covers : Covers s v job) (member : job' ∈ s'.db.jobs) (content : job'.content = job.content)
    (unfinished : leaseOf job' ≠ .closed) (same : SameRows v.logicalDocumentId s.db s'.db)
    (runs : ∀ worker run', s'.runs worker = some run' → run'.jobId = job.jobId →
      leaseOf job' = .held worker → ∃ run, s.runs worker = some run ∧ run.jobId = job.jobId ∧
        leaseOf job = .held worker ∧ ∀ snapshot ∈ run.remaining, Fresh s.db snapshot v →
          snapshot ∈ run'.remaining) : Covers s' v job' := by
  have id : job'.jobId = job.jobId := congrArg Prod.fst content
  have jobType : job'.jobType = job.jobType := congrArg (·.2.1) content
  refine ⟨member, jobType.trans covers.mirror, ?_, unfinished, ?_⟩
  · rw [mirrorRequest_content content]
    exact covers.document
  · intro worker run' running ofJob held
    obtain ⟨run, old, oldJob, oldHeld, kept⟩ := runs worker run' running (ofJob.trans id) held
    obtain ⟨snapshot, pending, fresh⟩ := covers.pending worker run old oldJob oldHeld
    exact ⟨snapshot, kept snapshot pending fresh, same.fresh fresh⟩

/-- Every point of the document shows its row, or a job still has to see to it. -/
def Settled (logicalDocumentId : Nat) (s : MirrorSystem) : Prop :=
  ∀ p ∈ s.points, ∀ v ∈ s.db.versions, v.logicalDocumentId = logicalDocumentId →
    p.carries v.documentVersionId = true → Agrees s.db p v ∨ ∃ job, Covers s v job

structure MirrorSystem.Ok (s : MirrorSystem) : Prop where
  db : s.db.Ok
  distinct : ∀ worker run, s.runs worker = some run →
    (run.remaining.map (·.documentVersionId)).Nodup
  known : ∀ worker run, s.runs worker = some run → run.jobId < s.db.nextJobId
  backed : ∀ p ∈ s.points, ∀ v ∈ s.db.versions, p.carries v.documentVersionId = true →
    s.db.countChunks v.documentVersionId ≠ 0

def MirrorOf (logicalDocumentId : Nat) (job : Job) : Prop :=
  job.jobType = "qdrant_mirror_update" ∧ job.targetId = some logicalDocumentId

/-- A mirror job of the document ended without success. -/
def Lost (logicalDocumentId : Nat) (s : MirrorSystem) : Prop :=
  ∃ job ∈ s.db.jobs, MirrorOf logicalDocumentId job ∧
    (job.status = .failed ∨ job.status = .canceled)

/-- No mirror job of the document has been enqueued from the given id on. Without an id, the
run began with its points settled. -/
def Untouched (logicalDocumentId : Nat) (base : Option Nat) (s : MirrorSystem) : Prop :=
  ∃ first, base = some first ∧
    ∀ job ∈ s.db.jobs, first ≤ job.jobId → ¬MirrorOf logicalDocumentId job

structure MirrorInvariant (logicalDocumentId : Nat) (base : Option Nat) (s : MirrorSystem) :
    Prop where
  ok : s.Ok
  points : Lost logicalDocumentId s ∨ Untouched logicalDocumentId base s ∨
    Settled logicalDocumentId s

section
variable [UnicodeTables]

theorem mirrorRequest_approve (request : Request) {logicalDocumentId documentVersionId : Nat}
    (documentPositive : 0 < logicalDocumentId) (versionPositive : 0 < documentVersionId)
    (jobId : Nat) :
    mirrorRequest (mirrorJob request logicalDocumentId
      (approvePayload request logicalDocumentId documentVersionId) jobId) =
      some ⟨"sync_payload", logicalDocumentId, some documentVersionId⟩ := by
  have stored (field : String) (listed : field ∉ droppedFields) :=
    @stored_field _ (.approveVersion logicalDocumentId documentVersionId request.userId)
      (approvePayload request logicalDocumentId documentVersionId) rfl field listed
  have action := stored "mirror_action" (by decide)
  have document := stored "logical_document_id" (by decide)
  have version := stored "document_version_id" (by decide)
  simp only [mirrorRequest, mirrorJob, newJob, Option.getD_some, action, document, version]
  simp [approvePayload, get_cons, positiveInt_cast, documentPositive, versionPositive]

theorem mirrorRequest_archive (request : Request) {logicalDocumentId : Nat}
    (documentPositive : 0 < logicalDocumentId) (jobId : Nat) :
    mirrorRequest (mirrorJob request logicalDocumentId
      (archivePayload request logicalDocumentId) jobId) =
      some ⟨"mark_inactive", logicalDocumentId, none⟩ := by
  have stored (field : String) (listed : field ∉ droppedFields) :=
    @stored_field _ (.archiveDocument logicalDocumentId request.userId)
      (archivePayload request logicalDocumentId) rfl field listed
  have action := stored "mirror_action" (by decide)
  have document := stored "logical_document_id" (by decide)
  have version := stored "document_version_id" (by decide)
  simp only [mirrorRequest, mirrorJob, newJob, Option.getD_some, action, document, version]
  simp [archivePayload, get_cons, get_nil, positiveInt_cast, positiveInt_none, documentPositive]

/-- What an approval and an archival have in common for the mirror. -/
structure Transacted (logicalDocumentId : Nat) (db db' : Db) : Prop where
  ok : db'.Ok
  others : ∀ other, other ≠ logicalDocumentId → SameRows other db db'
  versions : ∀ v' ∈ db'.versions, ∃ v ∈ db.versions, v'.documentVersionId = v.documentVersionId
  chunks : db'.chunks = db.chunks
  nextJobId : db.nextJobId < db'.nextJobId
  jobs : ∃ job graphs, db'.jobs = db.jobs ++ job :: graphs ∧ job.jobId = db.nextJobId ∧
    MirrorOf logicalDocumentId job ∧ job.status = .queued ∧
    (∃ request, mirrorRequest job = some request ∧
      request.logicalDocumentId = logicalDocumentId) ∧
    ∀ graph ∈ graphs, graph.jobType = "graph_index_build"

omit [UnicodeTables] in
theorem getDocument_map {db db' : Db} {g : LogicalDocument → LogicalDocument}
    (documents : db'.documents = db.documents.map g)
    (sameId : ∀ d ∈ db.documents, (g d).logicalDocumentId = d.logicalDocumentId) (id : Nat) :
    db'.getDocument id = (db.getDocument id).map g := by
  unfold Db.getDocument
  rw [documents]
  exact Table.row_map sameId id

omit [UnicodeTables] in
/-- Rows of other documents pass through a transaction that maps rows by their document. -/
theorem sameRows_of_map {db db' : Db} {logicalDocumentId : Nat}
    {g : LogicalDocument → LogicalDocument} {f : DocumentVersion → DocumentVersion}
    (documents : db'.documents = db.documents.map g) (versions : db'.versions = db.versions.map f)
    (sameId : ∀ d ∈ db.documents, (g d).logicalDocumentId = d.logicalDocumentId)
    (sameDocument : ∀ v ∈ db.versions, (f v).logicalDocumentId = v.logicalDocumentId)
    (others : ∀ d ∈ db.documents, d.logicalDocumentId ≠ logicalDocumentId → g d = d)
    (otherVersions : ∀ v ∈ db.versions, v.logicalDocumentId ≠ logicalDocumentId → f v = v) :
    ∀ other, other ≠ logicalDocumentId → SameRows other db db' := by
  intro other apart
  constructor
  · intro v' ofOther member
    rw [versions] at member
    obtain ⟨v, old, rfl⟩ := List.mem_map.mp member
    rw [sameDocument v old] at ofOther
    rw [otherVersions v old (fun h => apart (ofOther.symm.trans h))]
    exact old
  · intro d' found
    rw [getDocument_map documents sameId] at found
    obtain ⟨d, old, rfl⟩ := Option.map_eq_some_iff.mp found
    obtain ⟨member, id⟩ := Table.mem_of_row old
    refine ⟨d, old, ?_⟩
    rw [others d member (fun h => apart (id.symm.trans h))]

theorem approved_transacted {db db' : Db} {request : Request} {document : LogicalDocument}
    {version : DocumentVersion} {logicalDocumentId documentVersionId : Nat} (ok : db.Ok)
    (foundDocument : db.getDocument logicalDocumentId = some document)
    (foundVersion : db.getVersion logicalDocumentId documentVersionId = some version)
    (ready : version.status = .ready)
    (effect : Approved request logicalDocumentId documentVersionId db db') :
    Transacted logicalDocumentId db db' := by
  obtain ⟨member, sameDocument, sameVersion⟩ := getVersion_some foundVersion
  obtain ⟨documentMember, documentId⟩ := Table.mem_of_row foundDocument
  have positive := ok.documentPositive document documentMember
  rw [documentId] at positive
  have versionPositive := ok.positive version member
  rw [sameVersion] at versionPositive
  obtain ⟨graphs, jobs, graph⟩ := effect.jobs
  refine ⟨?_, ?_, ?_, effect.chunks, effect.nextJobId, _, graphs, jobs, rfl, ⟨rfl, rfl⟩, rfl,
    ⟨_, mirrorRequest_approve request positive versionPositive _, rfl⟩, graph⟩
  · subst sameDocument sameVersion
    exact effect.ok ok member ready
  · refine sameRows_of_map effect.documents effect.versions (fun d _ => ?_)
      (fun v _ => activated_document _ _ _ v) (fun d _ other => if_neg other) fun v hv other => ?_
    · split <;> rfl
    · unfold activated
      rw [if_neg, if_neg fun h => other h.1]
      intro chosen
      have row := Table.unique ok.versionIds hv member (chosen.trans sameVersion.symm)
      exact other (row ▸ sameDocument)
  · rw [effect.versions]
    intro v' hv
    obtain ⟨v, old, rfl⟩ := List.mem_map.mp hv
    exact ⟨v, old, activated_id _ _ _ v⟩

theorem archived_transacted {db db' : Db} {request : Request} {document : LogicalDocument}
    {logicalDocumentId : Nat} (ok : db.Ok)
    (foundDocument : db.getDocument logicalDocumentId = some document)
    (effect : Archived request logicalDocumentId db db') : Transacted logicalDocumentId db db' := by
  obtain ⟨documentMember, documentId⟩ := Table.mem_of_row foundDocument
  have positive := ok.documentPositive document documentMember
  rw [documentId] at positive
  obtain ⟨graphs, jobs, graph⟩ := effect.jobs
  refine ⟨effect.ok ok, ?_, ?_, effect.chunks, effect.nextJobId, _, graphs, jobs, rfl, ⟨rfl, rfl⟩,
    rfl, ⟨_, mirrorRequest_archive request positive _, rfl⟩, graph⟩
  · refine sameRows_of_map effect.documents effect.versions (fun d _ => ?_)
      (fun v _ => withdrawn_document _ _ v) (fun d _ other => if_neg other) fun v _ other => ?_
    · split <;> rfl
    · exact if_neg fun h => other h.1
  · rw [effect.versions]
    intro v' hv
    obtain ⟨v, old, rfl⟩ := List.mem_map.mp hv
    exact ⟨v, old, withdrawn_id _ _ v⟩

omit [UnicodeTables] in
/-- A transaction of the document covers all its versions; one of another document changes
nothing of what is covered. -/
theorem invariant_transact {s : MirrorSystem} {db' : Db} {logicalDocumentId other : Nat}
    {base : Option Nat}
    (inv : MirrorInvariant logicalDocumentId base s) (tx : Transacted other s.db db') :
    MirrorInvariant logicalDocumentId base { s with db := db' } := by
  obtain ⟨job, graphs, jobs, jobId, mirror, queued, parsed, graph⟩ := tx.jobs
  have old (j : Job) (member : j ∈ s.db.jobs) : j ∈ db'.jobs := by
    rw [jobs]
    exact List.mem_append_left _ member
  refine ⟨⟨tx.ok, inv.ok.distinct, ?_, ?_⟩, ?_⟩
  · intro worker run running
    exact (inv.ok.known worker run running).trans tx.nextJobId
  · intro p hp v' hv carried
    obtain ⟨v, oldVersion, same⟩ := tx.versions v' hv
    rw [same] at carried ⊢
    have chunks := inv.ok.backed p hp v oldVersion carried
    unfold Db.countChunks Db.chunksOf at chunks ⊢
    rwa [tx.chunks]
  · by_cases own : other = logicalDocumentId
    · subst own
      right; right
      intro p _ v _ ofDocument _
      refine .inr ⟨job, ?_, mirror.1, ?_, ?_, ?_⟩
      · rw [jobs]
        exact List.mem_append_right _ List.mem_cons_self
      · obtain ⟨request, h, document⟩ := parsed
        exact ⟨request, h, document.trans ofDocument.symm⟩
      · simp [leaseOf, queued]
      · intro worker run running same
        have := inv.ok.known worker run running
        omega
    · have rows := tx.others logicalDocumentId fun h => own h.symm
      rcases inv.points with ⟨j, member, ofDocument, ended⟩ | ⟨first, since, untouched⟩ | settled
      · exact .inl ⟨j, old j member, ofDocument, ended⟩
      · refine .inr (.inl ⟨first, since, fun j member later ofDocument => ?_⟩)
        rw [jobs] at member
        rcases List.mem_append.mp member with h | h
        · exact untouched j h later ofDocument
        · rcases List.mem_cons.mp h with rfl | h
          · have same := mirror.2.symm.trans ofDocument.2
            exact own (Option.some.inj same)
          · have wrong := (graph j h).symm.trans ofDocument.1
            exact absurd wrong (by decide)
      · refine .inr (.inr fun p hp v hv ofDocument carried => ?_)
        subst ofDocument
        have oldVersion := rows.versions v rfl hv
        rcases settled p hp v oldVersion rfl carried with agrees | ⟨j, covers⟩
        · exact .inl (rows.agrees agrees)
        · refine .inr ⟨j, covers.carry (old j covers.member) rfl covers.unfinished rows ?_⟩
          intro worker run running same held
          exact ⟨run, running, same, held, fun _ h _ => h⟩

/-- A permitted lease call leaves a covering job covering, or ends it without success. -/
theorem covers_lease {s : MirrorSystem} {call : LeaseCall} (permitted : s.permits call = true)
    {v : DocumentVersion} {job job' : Job} (covers : Covers s v job)
    (ok : s.db.Ok) (member : job' ∈ call.commit s.db.jobs)
    (effect : RowEffect call s.db.jobs job job') :
    Covers { s with db := { s.db with jobs := call.commit s.db.jobs } } v job' ∨
      job'.status = .failed ∨ job'.status = .canceled := by
  by_cases closed : leaseOf job' = .closed
  · right
    rcases ended_of_closed closed with done | ended
    · exfalso
      rcases effect.succeeded done with before | ⟨worker, result, now, same⟩
      · exact covers.unfinished (closed_of_ended (by simp [before, JobStatus.terminal]))
      · rw [same] at permitted
        simp [MirrorSystem.permits, getJob_of_mem ok.jobs.distinct covers.member,
          covers.mirror] at permitted
    · exact ended
  · left
    refine covers.carry member effect.content closed ⟨fun _ _ h => h, fun d h => ⟨d, h, rfl⟩⟩ ?_
    intro worker run running ofJob held
    refine ⟨run, running, ofJob, ?_, fun _ h _ => h⟩
    rcases effect.held covers.unfinished held with before | ⟨_, _, _, _, _, _, rfl⟩
    · exact before
    · have free : (s.runs worker).isNone = true := permitted
      rw [running] at free
      cases free

theorem invariant_lease {s : MirrorSystem} {call : LeaseCall} {logicalDocumentId : Nat}
    {base : Option Nat}
    (inv : MirrorInvariant logicalDocumentId base s) (permitted : s.permits call = true) :
    MirrorInvariant logicalDocumentId base
      { s with db := { s.db with jobs := call.commit s.db.jobs } } := by
  obtain ⟨g, rows, effect⟩ := commit_rows call s.db.jobs inv.ok.db.jobs.distinct
  have image (j : Job) (member : j ∈ s.db.jobs) : g j ∈ call.commit s.db.jobs := by
    rw [rows]
    exact List.mem_map_of_mem member
  have sameMirror (j : Job) (member : j ∈ s.db.jobs) :
      MirrorOf logicalDocumentId (g j) ↔ MirrorOf logicalDocumentId j := by
    have content := (effect j member).content
    simp only [Job.content, Prod.mk.injEq] at content
    simp [MirrorOf, content.2.1, content.2.2.2.2.1]
  have db := inv.ok.db
  refine ⟨⟨⟨db.documentIds, db.versionIds, db.documentPositive, db.positive, db.accepted,
    db.oneActive, commit_ok call db.jobs, ?_⟩, inv.ok.distinct, inv.ok.known, inv.ok.backed⟩, ?_⟩
  · intro j' member
    simp only [rows] at member
    obtain ⟨j, old, rfl⟩ := List.mem_map.mp member
    rw [(effect j old).sameId]
    exact db.fresh j old
  · rcases inv.points with ⟨j, member, ofDocument, ended⟩ | ⟨first, since, untouched⟩ | settled
    · refine .inl ⟨g j, image j member, (sameMirror j member).mpr ofDocument, ?_⟩
      rcases (effect j member).change with same | ⟨active, _⟩
      · rw [same]
        exact ended
      · rcases ended with h | h <;> simp [h, JobStatus.active] at active
    · refine .inr (.inl ⟨first, since, fun j' member later ofDocument => ?_⟩)
      simp only [rows] at member
      obtain ⟨j, old, rfl⟩ := List.mem_map.mp member
      rw [(effect j old).sameId] at later
      exact untouched j old later ((sameMirror j old).mp ofDocument)
    · by_cases lost : ∃ j ∈ s.db.jobs, MirrorOf logicalDocumentId j ∧
          ((g j).status = .failed ∨ (g j).status = .canceled)
      · obtain ⟨j, member, ofDocument, ended⟩ := lost
        exact .inl ⟨g j, image j member, (sameMirror j member).mpr ofDocument, ended⟩
      · refine .inr (.inr fun p hp v hv ofDocument carried => ?_)
        rcases settled p hp v hv ofDocument carried with agrees | ⟨j, covers⟩
        · exact .inl agrees
        · rcases covers_lease permitted covers db (image j covers.member)
            (effect j covers.member) with still | ended
          · exact .inr ⟨g j, still⟩
          · obtain ⟨request, parsed, document⟩ := covers.document
            have target := mirrorRequest_target parsed
            rw [document, ofDocument] at target
            exact absurd ⟨j, covers.member, ⟨covers.mirror, target⟩, ended⟩ lost

omit [UnicodeTables] in
/-- A read covers every version of the document that has points. -/
theorem invariant_begin {s : MirrorSystem} {logicalDocumentId jobId : Nat}
    {base : Option Nat} {worker : String}
    {job : Job} {request : MirrorRequest} {snapshots : List VersionMirrorSnapshot}
    (inv : MirrorInvariant logicalDocumentId base s)
    (found : getJob s.db.jobs jobId = some job) (parsed : mirrorRequest job = some request)
    (loaded : loadSnapshots request s.db = some snapshots) :
    MirrorInvariant logicalDocumentId base
      (s.setRun worker (some ⟨jobId, request, snapshots, 0⟩)) := by
  obtain ⟨document, foundDocument, rfl⟩ := loadSnapshots_some loaded
  obtain ⟨jobMember, jobId_eq⟩ := getJob_mem found
  have ok := inv.ok
  refine ⟨⟨ok.db, ?_, ?_, ok.backed⟩, ?_⟩
  · intro w run running
    simp only [MirrorSystem.setRun] at running
    split at running
    · cases running
      rw [List.map_map]
      exact listVersions_distinct ok.db request.logicalDocumentId
    · exact ok.distinct w run running
  · intro w run running
    simp only [MirrorSystem.setRun] at running
    split at running
    · cases running
      exact jobId_eq ▸ ok.db.fresh job jobMember
    · exact ok.known w run running
  · rcases inv.points with lost | untouched | settled
    · exact .inl lost
    · exact .inr (.inl untouched)
    · refine .inr (.inr fun p hp v hv ofDocument carried => ?_)
      rcases settled p hp v hv ofDocument carried with agrees | ⟨j, covers⟩
      · exact .inl agrees
      · refine .inr ⟨j, covers.member, covers.mirror, covers.document, covers.unfinished, ?_⟩
        intro w run running ofJob held
        simp only [MirrorSystem.setRun] at running
        split at running
        · cases running
          obtain ⟨jobRequest, jobParsed, sameDocument⟩ := covers.document
          have row : j = job := Table.unique ok.db.jobs.distinct covers.member jobMember
            (ofJob.symm.trans jobId_eq.symm)
          rw [row, parsed] at jobParsed
          cases jobParsed
          refine ⟨snapshotOf s.db document v,
            List.mem_map_of_mem (mem_listVersions.mpr ⟨hv, sameDocument.symm⟩), rfl,
            ok.backed p hp v hv carried, rfl, rfl, fun d hd => ?_⟩
          rw [← sameDocument] at hd
          cases foundDocument.symm.trans hd
          rfl
        · exact covers.pending w run running ofJob held

omit [UnicodeTables] in
/-- Taking a snapshot that is not current off a run uncovers nothing. -/
theorem covers_tail {s : MirrorSystem} {worker : String} {jobId synced n : Nat}
    {request : MirrorRequest} {snapshot : VersionMirrorSnapshot}
    {rest : List VersionMirrorSnapshot} {v : DocumentVersion} {job : Job} {points : Collection}
    (running : s.runs worker = some ⟨jobId, request, snapshot :: rest, synced⟩)
    (other : ¬Fresh s.db snapshot v) (covers : Covers s v job) :
    Covers { s.setRun worker (some ⟨jobId, request, rest, n⟩) with points := points } v job := by
  refine covers.carry covers.member rfl covers.unfinished (SameRows.refl _ _) ?_
  intro w run' running' ofJob held
  simp only [MirrorSystem.setRun] at running'
  split at running'
  · rename_i same
    cases running'
    subst same
    refine ⟨_, running, ofJob, held, fun pending member fresh => ?_⟩
    rcases List.mem_cons.mp member with rfl | later
    · exact absurd fresh other
    · exact later
  · exact ⟨run', running', ofJob, held, fun _ h _ => h⟩

omit [UnicodeTables] in
theorem ok_tail {s : MirrorSystem} (ok : s.Ok) {worker : String} {jobId synced n : Nat}
    {request : MirrorRequest} {snapshot : VersionMirrorSnapshot}
    {rest : List VersionMirrorSnapshot}
    (running : s.runs worker = some ⟨jobId, request, snapshot :: rest, synced⟩) :
    (s.setRun worker (some ⟨jobId, request, rest, n⟩)).Ok := by
  refine ⟨ok.db, ?_, ?_, ok.backed⟩
  · intro w run running'
    simp only [MirrorSystem.setRun] at running'
    split at running'
    · cases running'
      exact (List.nodup_cons.mp (ok.distinct worker _ running)).2
    · exact ok.distinct w run running'
  · intro w run running'
    simp only [MirrorSystem.setRun] at running'
    split at running'
    · cases running'
      exact ok.known worker ⟨jobId, request, snapshot :: rest, synced⟩ running
    · exact ok.known w run running'

omit [UnicodeTables] in
theorem invariant_skip {s : MirrorSystem} {worker : String} {jobId synced logicalDocumentId : Nat}
    {base : Option Nat} {request : MirrorRequest} {snapshot : VersionMirrorSnapshot}
    {rest : List VersionMirrorSnapshot} (inv : MirrorInvariant logicalDocumentId base s)
    (running : s.runs worker = some ⟨jobId, request, snapshot :: rest, synced⟩)
    (empty : snapshot.chunkCount = 0) :
    MirrorInvariant logicalDocumentId base
      (s.setRun worker (some ⟨jobId, request, rest, synced⟩)) := by
  refine ⟨ok_tail inv.ok running, ?_⟩
  rcases inv.points with lost | untouched | settled
  · exact .inl lost
  · exact .inr (.inl untouched)
  · refine .inr (.inr fun p hp v hv ofDocument carried => ?_)
    rcases settled p hp v hv ofDocument carried with agrees | ⟨j, covers⟩
    · exact .inl agrees
    · exact .inr ⟨j, covers_tail running (fun fresh => fresh.2.1 empty) covers⟩

omit [UnicodeTables] in
/-- A write brings a version up to date, or is stale and somebody covers the version. -/
theorem invariant_sync {s : MirrorSystem} {worker : String} {jobId synced logicalDocumentId : Nat}
    {base : Option Nat} {request : MirrorRequest} {snapshot : VersionMirrorSnapshot}
    {rest : List VersionMirrorSnapshot} (inv : MirrorInvariant logicalDocumentId base s)
    (running : s.runs worker = some ⟨jobId, request, snapshot :: rest, synced⟩)
    (counted : snapshot.chunkCount ≠ 0)
    (covered : StaleWritesCovered logicalDocumentId s (.sync worker)) :
    MirrorInvariant logicalDocumentId base
      { s.setRun worker (some ⟨jobId, request, rest, synced + 1⟩) with
        points := syncDocumentPayload snapshot s.points } := by
  have tail := ok_tail (n := synced + 1) inv.ok running
  refine ⟨⟨tail.db, tail.distinct, tail.known, ?_⟩, ?_⟩
  · intro p' hp' v hv carried
    obtain ⟨p, hp, same, _⟩ := mem_sync hp'
    exact inv.ok.backed p hp v hv (by rw [← same]; exact carried)
  · rcases inv.points with lost | untouched | settled
    · exact .inl lost
    · exact .inr (.inl untouched)
    · refine .inr (.inr fun p' hp' v hv ofDocument carried' => ?_)
      obtain ⟨p, hp, same, written, kept⟩ := mem_sync hp'
      have carried : p.carries v.documentVersionId = true := by
        rw [← same]
        exact carried'
      by_cases hit : v.documentVersionId = snapshot.documentVersionId
      · by_cases fresh : Fresh s.db snapshot v
        · left
          obtain ⟨_, _, status, active, document⟩ := fresh
          intro d found
          rw [← status, ← active, ← document d found]
          exact written (hit ▸ carried)
        · obtain ⟨j, covers⟩ := covered _ snapshot rest running rfl counted v hv ofDocument hit fresh
          exact .inr ⟨j, covers_tail running fresh covers⟩
      · have miss : p.carries snapshot.documentVersionId = false := by
          cases h : p.carries snapshot.documentVersionId with
          | false => rfl
          | true => exact absurd (carries_unique carried h) hit
        rw [kept miss]
        rcases settled p hp v hv ofDocument carried with agrees | ⟨j, covers⟩
        · exact .inl agrees
        · exact .inr ⟨j, covers_tail running (fun fresh => hit fresh.1.symm) covers⟩

omit [UnicodeTables] in
theorem ok_idle {s : MirrorSystem} (ok : s.Ok) (worker : String) : (s.setRun worker none).Ok := by
  refine ⟨ok.db, ?_, ?_, ok.backed⟩
  · intro w run running
    simp only [MirrorSystem.setRun] at running
    split at running
    · cases running
    · exact ok.distinct w run running
  · intro w run running
    simp only [MirrorSystem.setRun] at running
    split at running
    · cases running
    · exact ok.known w run running

omit [UnicodeTables] in
theorem invariant_abandon {s : MirrorSystem} {logicalDocumentId : Nat} {base : Option Nat}
    (inv : MirrorInvariant logicalDocumentId base s) (worker : String) :
    MirrorInvariant logicalDocumentId base (s.setRun worker none) := by
  refine ⟨ok_idle inv.ok worker, ?_⟩
  rcases inv.points with lost | untouched | settled
  · exact .inl lost
  · exact .inr (.inl untouched)
  · refine .inr (.inr fun p hp v hv ofDocument carried => ?_)
    rcases settled p hp v hv ofDocument carried with agrees | ⟨j, covers⟩
    · exact .inl agrees
    · refine .inr ⟨j, covers.carry covers.member rfl covers.unfinished (SameRows.refl _ _) ?_⟩
      intro w run running ofJob held
      simp only [MirrorSystem.setRun] at running
      split at running
      · cases running
      · exact ⟨run, running, ofJob, held, fun _ h _ => h⟩

/-- A job that finishes had nothing left to write, so it covered nothing. -/
theorem invariant_finish {s : MirrorSystem} {worker : String} {jobId synced logicalDocumentId : Nat}
    {base : Option Nat} {request : MirrorRequest} {leaseDuration renewedAt finishedAt : Time}
    {result : Dict} {jobs : List Job} (inv : MirrorInvariant logicalDocumentId base s)
    (running : s.runs worker = some ⟨jobId, request, [], synced⟩)
    (stored : storeSucceeded jobId worker leaseDuration renewedAt finishedAt result s.db.jobs =
      .ok jobs) :
    MirrorInvariant logicalDocumentId base
      { s.setRun worker none with db := { s.db with jobs := jobs } } := by
  obtain ⟨table, _, g, rfl, effect⟩ := storeSucceeded_ok inv.ok.db.jobs stored
  have db := inv.ok.db
  have idle := ok_idle inv.ok worker
  have sameMirror (j : Job) (member : j ∈ s.db.jobs) :
      MirrorOf logicalDocumentId (g j) ↔ MirrorOf logicalDocumentId j := by
    have content := (effect j member).1
    simp only [Job.content, Prod.mk.injEq] at content
    simp [MirrorOf, content.2.1, content.2.2.2.2.1]
  have sameId (j : Job) (member : j ∈ s.db.jobs) : (g j).jobId = j.jobId :=
    congrArg Prod.fst (effect j member).1
  refine ⟨⟨⟨db.documentIds, db.versionIds, db.documentPositive, db.positive, db.accepted,
    db.oneActive, table, ?_⟩, idle.distinct, idle.known, idle.backed⟩, ?_⟩
  · intro j' member
    obtain ⟨j, old, rfl⟩ := List.mem_map.mp member
    rw [sameId j old]
    exact db.fresh j old
  · rcases inv.points with ⟨j, member, ofDocument, ended⟩ | ⟨first, since, untouched⟩ | settled
    · refine .inl ⟨g j, List.mem_map_of_mem member, (sameMirror j member).mpr ofDocument, ?_⟩
      have outcome := (effect j member).2
      split at outcome
      · rename_i owned
        have status := (ownedBy_iff.mp owned).2.1
        rcases ended with h | h <;> cases status.symm.trans h
      · rw [outcome]
        exact ended
    · refine .inr (.inl ⟨first, since, fun j' member later ofDocument => ?_⟩)
      obtain ⟨j, old, rfl⟩ := List.mem_map.mp member
      rw [sameId j old] at later
      exact untouched j old later ((sameMirror j old).mp ofDocument)
    · refine .inr (.inr fun p hp v hv ofDocument carried => ?_)
      rcases settled p hp v hv ofDocument carried with agrees | ⟨j, covers⟩
      · exact .inl agrees
      · right
        have outcome := (effect j covers.member).2
        split at outcome
        · rename_i owned
          obtain ⟨snapshot, pending, _⟩ := covers.pending worker _ running
            (ownedBy_iff.mp owned).1.symm (leaseOf_owned owned)
          cases pending
        · refine ⟨j, covers.carry (List.mem_map.mpr ⟨j, covers.member, outcome⟩) rfl
            covers.unfinished ⟨fun _ _ h => h, fun d h => ⟨d, h, rfl⟩⟩ ?_⟩
          intro w run running ofJob held
          simp only [MirrorSystem.setRun] at running
          split at running
          · cases running
          · exact ⟨run, running, ofJob, held, fun _ h _ => h⟩

theorem invariant_step {s s' : MirrorSystem} {action : MirrorAction}
    {logicalDocumentId : Nat} {base : Option Nat} (inv : MirrorInvariant logicalDocumentId base s)
    (covered : StaleWritesCovered logicalDocumentId s action)
    (done : s.step action = some s') : MirrorInvariant logicalDocumentId base s' := by
  cases action with
  | approve request document version =>
    simp only [MirrorSystem.step] at done
    split at done
    · rename_i db' response approved
      cases done
      rcases approveVersion_ok inv.ok.db approved with
        rfl | ⟨_, _, foundDocument, _, foundVersion, ready, effect⟩
      · exact inv
      · exact invariant_transact inv (approved_transacted inv.ok.db foundDocument
          foundVersion ready effect)
    · cases done
      exact inv
  | archive request document =>
    simp only [MirrorSystem.step] at done
    split at done
    · rename_i db' response archived
      cases done
      rcases archiveDocument_ok inv.ok.db archived with rfl | ⟨_, foundDocument, _, effect⟩
      · exact inv
      · exact invariant_transact inv (archived_transacted inv.ok.db foundDocument effect)
    · cases done
      exact inv
  | lease call =>
    simp only [MirrorSystem.step] at done
    split at done
    · rename_i permitted
      cases done
      exact invariant_lease inv permitted
    · cases done
  | begin worker jobId =>
    simp only [MirrorSystem.step] at done
    split at done
    · rename_i job _ found
      split at done
      · obtain ⟨request, parsed, rest⟩ := Option.bind_eq_some_iff.mp done
        obtain ⟨snapshots, loaded, rfl⟩ := Option.map_eq_some_iff.mp rest
        exact invariant_begin inv found parsed loaded
      · cases done
    · cases done
  | sync worker =>
    simp only [MirrorSystem.step] at done
    split at done
    · rename_i jobId request snapshot rest synced running
      split at done
      · rename_i empty
        cases done
        exact invariant_skip inv running empty
      · rename_i counted
        cases done
        exact invariant_sync inv running counted covered
    · cases done
  | abandon worker =>
    cases done
    exact invariant_abandon inv worker
  | finish worker leaseDuration renewedAt finishedAt =>
    simp only [MirrorSystem.step] at done
    split at done
    · rename_i jobId request synced running
      split at done
      · rename_i jobs stored
        cases done
        exact invariant_finish inv running stored
      · cases done
        exact invariant_abandon inv worker
    · cases done

/-- A state in which no handler runs, with chunks for every version that has points. -/
structure MirrorStart (s : MirrorSystem) : Prop where
  db : s.db.Ok
  idle : ∀ worker, s.runs worker = none
  backed : ∀ p ∈ s.points, ∀ v ∈ s.db.versions, p.carries v.documentVersionId = true →
    s.db.countChunks v.documentVersionId ≠ 0

/-- Convergence, over every run in which stale writes are covered: once every mirror job of the
document has succeeded, each of its points shows the row of its version. -/
theorem mirror_converges (logicalDocumentId : Nat) (start final : MirrorSystem)
    (actions : List MirrorAction) (initial : MirrorStart start)
    (run : Run MirrorSystem.step (StaleWritesCovered logicalDocumentId) start actions final)
    (transacted : (∃ job ∈ final.db.jobs, start.db.nextJobId ≤ job.jobId ∧
        MirrorOf logicalDocumentId job) ∨
      ∀ p ∈ start.points, ∀ v ∈ start.db.versions, v.logicalDocumentId = logicalDocumentId →
        p.carries v.documentVersionId = true → Agrees start.db p v)
    (quiet : ∀ job ∈ final.db.jobs, MirrorOf logicalDocumentId job → job.status = .succeeded) :
    ∀ p ∈ final.points, ∀ v ∈ final.db.versions, v.logicalDocumentId = logicalDocumentId →
      p.carries v.documentVersionId = true → Agrees final.db p v := by
  have ok : start.Ok := by
    refine ⟨initial.db, ?_, ?_, initial.backed⟩ <;>
    · intro worker run running
      rw [initial.idle worker] at running
      cases running
  have one (base : Option Nat) (s : MirrorSystem) (action : MirrorAction) (t : MirrorSystem)
      (inv : MirrorInvariant logicalDocumentId base s)
      (covered : StaleWritesCovered logicalDocumentId s action) (done : s.step action = some t) :
      MirrorInvariant logicalDocumentId base t := invariant_step inv covered done
  have settled : Settled logicalDocumentId final := by
    rcases transacted with ⟨job, member, later, ofDocument⟩ | agree
    · have fresh : Untouched logicalDocumentId (some start.db.nextJobId) start := by
        refine ⟨_, rfl, fun j old newer => ?_⟩
        have := initial.db.fresh j old
        omega
      have inv := run.preserves (one (some start.db.nextJobId)) ⟨ok, .inr (.inl fresh)⟩
      rcases inv.points with ⟨j, lost, mirror, ended⟩ | ⟨first, since, untouched⟩ | settled
      · rw [quiet j lost mirror] at ended
        rcases ended with h | h <;> cases h
      · cases since
        exact absurd ofDocument (untouched job member later)
      · exact settled
    · have start_settled : Settled logicalDocumentId start :=
        fun p hp v hv h carried => .inl (agree p hp v hv h carried)
      have inv := run.preserves (one none) ⟨ok, .inr (.inr start_settled)⟩
      rcases inv.points with ⟨j, lost, mirror, ended⟩ | ⟨first, since, _⟩ | settled
      · rw [quiet j lost mirror] at ended
        rcases ended with h | h <;> cases h
      · cases since
      · exact settled
  intro p hp v hv ofDocument carried
  rcases settled p hp v hv ofDocument carried with agrees | ⟨job, covers⟩
  · exact agrees
  · obtain ⟨request, parsed, document⟩ := covers.document
    have target := mirrorRequest_target parsed
    rw [document, ofDocument] at target
    have done := quiet job covers.member ⟨covers.mirror, target⟩
    exact absurd (closed_of_ended (by simp [done, JobStatus.terminal])) covers.unfinished

end

/-- The next write of the worker is of a snapshot that is still current. -/
def writesCurrent (s : MirrorSystem) : MirrorAction → Bool
  | .sync worker => (s.runs worker).all fun run => run.remaining.head?.all fun snapshot =>
      s.db.versions.all fun v => v.documentVersionId != snapshot.documentVersionId ||
        (s.db.getDocument v.logicalDocumentId).any fun document =>
          snapshot == snapshotOf s.db document v
  | _ => true

theorem covered_of_current (logicalDocumentId : Nat) (s : MirrorSystem) (action : MirrorAction)
    (current : writesCurrent s action = true) : StaleWritesCovered logicalDocumentId s action := by
  cases action with
  | sync worker =>
    intro run snapshot rest running pending counted v hv _ same stale
    exfalso
    simp only [writesCurrent, running, Option.all_some, pending, List.head?_cons,
      List.all_eq_true, Bool.or_eq_true, bne_iff_ne, ne_eq] at current
    rcases current v hv with other | row
    · exact other same
    · obtain ⟨document, found, same_snapshot⟩ := (Option.any_eq_true _ _).mp row
      have eq := beq_iff_eq.mp same_snapshot
      refine stale ⟨same.symm, counted, by rw [eq]; rfl, by rw [eq]; rfl, fun d hd => ?_⟩
      rw [found] at hd
      cases hd
      rw [eq]
      rfl
  | _ => trivial

/-- One document with one version, its chunk and the point of the chunk, before any approval. -/
def mirrorStart : MirrorSystem where
  db :=
    { documents := [⟨1, 1, "handbook", .active, none, 0, 0⟩]
      versions := [⟨1, 1, 1, "", .ready, false, none, "handbook.md", "text/markdown", 1, none, none,
        none, none, none, 1, 0, 0⟩]
      chunks := [⟨1, 1, 0, "", "text", none, none, none, none, none, none, "text", 0⟩]
      jobs := []
      nextJobId := 1
      corpusMarker := none
      graphIndexing := some (.bool false)
      graphExtractor := none }
  points := [⟨.num 1, [("document_version_id", .int 1), ("is_active", .bool false),
    ("logical_document_status", .str "active"), ("document_version_status", .str "ready")]⟩]
  runs _ := none

/-- One approval, mirrored by one worker: the run meets the condition and its point agrees. -/
theorem mirror_converges_approval :
    let _ : UnicodeTables := asciiTables
    ∃ final, exec (guarded MirrorSystem.step writesCurrent) mirrorStart
        [.approve ⟨1, 10, 10⟩ 1 1, .lease (.acquireJobs "a" none none 60 1 [] 11), .begin "a" 1,
          .sync "a", .finish "a" 60 12 12] = some final ∧
      ∀ p ∈ final.points, ∀ v ∈ final.db.versions, v.logicalDocumentId = 1 →
        p.carries v.documentVersionId = true → Agrees final.db p v := by
  intro _
  have completes : (exec (guarded MirrorSystem.step writesCurrent) mirrorStart
      [.approve ⟨1, 10, 10⟩ 1 1, .lease (.acquireJobs "a" none none 60 1 [] 11), .begin "a" 1,
        .sync "a", .finish "a" 60 12 12]).any (fun s =>
      s.db.jobs.map (fun job => (job.jobId, job.jobType, job.targetId, job.status)) ==
        [(1, "qdrant_mirror_update", some 1, .succeeded)]) = true := by
    decide +kernel
  obtain ⟨final, done, jobs⟩ := (Option.any_eq_true _ _).mp completes
  have row : ∀ job ∈ final.db.jobs, job.jobId = 1 ∧ job.jobType = "qdrant_mirror_update" ∧
      job.targetId = some 1 ∧ job.status = .succeeded := by
    intro job member
    have image := List.mem_map_of_mem (f := fun job : Job =>
      (job.jobId, job.jobType, job.targetId, job.status)) member
    rw [beq_iff_eq.mp jobs] at image
    simpa using image
  have some_job : final.db.jobs ≠ [] := by
    intro empty
    simp [empty] at jobs
  obtain ⟨job, member⟩ := List.exists_mem_of_ne_nil _ some_job
  refine ⟨final, done, mirror_converges 1 mirrorStart final _ ⟨⟨by decide, by decide, by decide,
    by decide, by decide, by decide, ⟨by decide, by simp [mirrorStart], by simp [mirrorStart]⟩,
    by simp [mirrorStart]⟩, fun _ => rfl, by decide⟩
    (run_of_guarded (covered_of_current 1) done) (.inl ⟨job, member, ?_, ?_⟩) ?_⟩
  · rw [(row job member).1]
    decide
  · exact ⟨(row job member).2.1, (row job member).2.2.1⟩
  · intro j hj _
    exact (row j hj).2.2.2

/-- Two workers: the first reads after the approval and writes after the second, which has read
and written after the archival. -/
def overtakenRun : List MirrorAction :=
  [.approve ⟨1, 10, 10⟩ 1 1, .lease (.acquireJobs "a" none none 60 1 [] 11), .begin "a" 1,
   .archive ⟨1, 12, 12⟩ 1, .lease (.acquireJobs "b" none none 60 1 [] 13), .begin "b" 2,
   .sync "b", .finish "b" 60 14 14, .sync "a", .finish "a" 60 15 15]

/-- Both jobs have succeeded and the point is active although its document is archived. -/
theorem overtaken_write_stays :
    let _ : UnicodeTables := asciiTables
    (exec MirrorSystem.step mirrorStart overtakenRun).any fun s =>
      s.db.jobs.map (·.status) == [.succeeded, .succeeded] &&
      s.db.documents.all (·.status == .archived) && s.db.versions.all (!·.isActive) &&
      s.points.all fun p => p.carries 1 &&
        Dict.get p.payload "is_active" == some (.bool true) &&
        Dict.get p.payload "logical_document_status" == some (.str "active") := by
  decide +kernel

end RagProject.Qdrant
