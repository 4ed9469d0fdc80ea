import RagProject.Ingest.Handler
import RagProject.Lib.Fallible
import RagProject.Rag.CacheCoherence

/-! What the transactions around an ingest do to the rows of its version, and to the ownership of its
job. -/
namespace RagProject.Ingest
open Python Jobs Documents

section Views
variable {db db' db'' : Db}

def VersionReady (documentVersionId : Nat) (db : Db) : Prop :=
  ∃ v, db.getVersionById documentVersionId = some v ∧ v.status = .ready

def rowIds (documentVersionId : Nat) (db : Db) : List Nat :=
  (db.chunksOf documentVersionId).map (·.documentChunkId)

def Owns (jobId : Nat) (worker : String) (db : Db) : Prop :=
  db.jobs.any (ownedBy jobId worker) = true

structure JobsOk (db : Db) : Prop where
  distinct : (db.jobs.map Job.jobId).Nodup
  fresh : ∀ j ∈ db.jobs, j.jobId < db.nextJobId

theorem owns_one {jobId : Nat} {worker other : String} (ok : JobsOk db)
    (owns : Owns jobId worker db) (too : Owns jobId other db) : worker = other := by
  obtain ⟨j, member, owned⟩ := List.any_eq_true.mp owns
  obtain ⟨k, memberToo, ownedToo⟩ := List.any_eq_true.mp too
  obtain ⟨id, _, holder⟩ := ownedBy_iff.mp owned
  obtain ⟨idToo, _, holderToo⟩ := ownedBy_iff.mp ownedToo
  have same := Table.unique ok.distinct member memberToo (id.trans idToo.symm)
  rw [same, holderToo] at holder
  exact (Option.some.inj holder).symm

theorem assertOwner_iff {context : JobExecutionContext} :
    assertOwner context db = .ok () ↔ Owns context.jobId context.workerInstanceId db := by
  unfold assertOwner assertOwnership Owns
  by_cases owned : db.jobs.any (ownedBy context.jobId context.workerInstanceId) = true
  · simp only [owned, if_true]
  · rw [if_neg owned]
    constructor
    · intro same
      cases same
    · exact fun foreign => absurd foreign owned

/-- More jobs, none of them taken. -/
structure Grown (db db' : Db) : Prop where
  ok : JobsOk db → JobsOk db'
  owns : ∀ jobId worker, Owns jobId worker db' ↔ Owns jobId worker db

theorem Grown.of_same (jobs : db'.jobs = db.jobs) (next : db'.nextJobId = db.nextJobId) :
    Grown db db' := by
  refine ⟨fun ok => ⟨?_, ?_⟩, fun jobId worker => ?_⟩
  · rw [jobs]
    exact ok.distinct
  · rw [jobs, next]
    exact ok.fresh
  · unfold Owns
    rw [jobs]

theorem Grown.trans (first : Grown db db') (second : Grown db' db'') : Grown db db'' :=
  ⟨fun ok => second.ok (first.ok ok), fun jobId worker =>
    (second.owns jobId worker).trans (first.owns jobId worker)⟩

theorem createJob_grown {row : Nat → Job} (sameId : (row db.nextJobId).jobId = db.nextJobId)
    (queued : (row db.nextJobId).status = .queued) : Grown db (db.createJob row).1 := by
  refine ⟨fun ok => ⟨?_, fun j member => ?_⟩, fun jobId worker => ?_⟩
  · refine Table.append_distinct ok.distinct fun j member same => ?_
    have fresh := ok.fresh j member
    omega
  · rcases List.mem_append.mp member with old | new
    · exact Nat.lt_succ_of_lt (ok.fresh j old)
    · cases List.mem_singleton.mp new
      rw [sameId]
      exact Nat.lt_succ_self _
  · unfold Owns
    simp [Db.createJob, List.any_append, ownedBy, queued]

/-- A step that leaves the chunk rows and makes no version ready. -/
structure Framed (db db' : Db) : Prop where
  chunks : db'.chunks = db.chunks
  ready : ∀ id, VersionReady id db' → VersionReady id db
  jobs : Grown db db'

theorem Framed.refl (db : Db) : Framed db db := ⟨rfl, fun _ ready => ready, .of_same rfl rfl⟩

theorem Framed.trans (first : Framed db db') (second : Framed db' db'') : Framed db db'' :=
  ⟨second.chunks.trans first.chunks, fun id ready => first.ready id (second.ready id ready),
    first.jobs.trans second.jobs⟩

theorem Framed.rowIds (framed : Framed db db') (documentVersionId : Nat) :
    rowIds documentVersionId db' = rowIds documentVersionId db := by
  unfold Ingest.rowIds Db.chunksOf
  rw [framed.chunks]

theorem framed_jobs (jobs : Grown db db') (chunks : db'.chunks = db.chunks)
    (versions : db'.versions = db.versions) : Framed db db' := by
  refine ⟨chunks, fun id ready => ?_, jobs⟩
  unfold VersionReady Db.getVersionById at ready ⊢
  rwa [versions] at ready

end Views

section Versions
variable {db db' : Db} {documentVersionId : Nat} {values : DocumentVersion → DocumentVersion}

/-- An update of one version row that keeps its id, as the other reads see it. -/
structure Written (documentVersionId : Nat) (values : DocumentVersion → DocumentVersion)
    (versions rows : List DocumentVersion) : Prop where
  row : ∀ id, Table.row DocumentVersion.documentVersionId rows id =
    (Table.row DocumentVersion.documentVersionId versions id).map fun v =>
      if v.documentVersionId = documentVersionId then values v else v

theorem updateVersionRow_written {versions rows : List DocumentVersion}
    (done : updateVersionRow (documentVersionId, values) versions = .ok rows)
    (sameId : ∀ v, (values v).documentVersionId = v.documentVersionId) :
    Written documentVersionId values versions rows := by
  refine ⟨fun id => ?_⟩
  rw [(Rag.updateVersionRow_ok done).1]
  refine Table.row_map (fun v _ => ?_) id
  split
  · exact sameId v
  · rfl

theorem written_ready {versions rows : List DocumentVersion}
    (written : Written documentVersionId values versions rows)
    (sameStatus : ∀ v, (values v).status = v.status) (id : Nat)
    (ready : ∃ v, Table.row DocumentVersion.documentVersionId rows id = some v ∧ v.status = .ready) :
    ∃ v, Table.row DocumentVersion.documentVersionId versions id = some v ∧ v.status = .ready := by
  obtain ⟨v, found, ready⟩ := ready
  rw [written.row] at found
  obtain ⟨old, there, rfl⟩ := Option.map_eq_some_iff.mp found
  refine ⟨old, there, ?_⟩
  split at ready
  · exact (sameStatus old).symm.trans ready
  · exact ready

/-- The row itself has the new status. -/
theorem written_unready {versions rows : List DocumentVersion}
    (written : Written documentVersionId values versions rows)
    (unready : ∀ v, (values v).status ≠ .ready) :
    ¬∃ v, Table.row DocumentVersion.documentVersionId rows documentVersionId = some v ∧
      v.status = .ready := by
  rintro ⟨v, found, ready⟩
  rw [written.row] at found
  obtain ⟨old, there, rfl⟩ := Option.map_eq_some_iff.mp found
  rw [if_pos (Table.mem_of_row there).2] at ready
  exact unready old ready

theorem writeVersion_ok {now : Time}
    (done : writeVersion documentVersionId now values db = .ok db')
    (sameId : ∀ v, (values v).documentVersionId = v.documentVersionId) :
    Written documentVersionId values db.versions db'.versions ∧ db'.chunks = db.chunks ∧
      db'.jobs = db.jobs ∧ db'.nextJobId = db.nextJobId := by
  unfold writeVersion at done
  dsimp only at done
  split at done
  · cases done
  · rename_i rows updated
    cases done
    have written := updateVersionRow_written updated sameId
    unfold touchIf
    split <;> exact ⟨written, rfl, rfl, rfl⟩

/-- A write after which the version is not ready. -/
theorem writeVersion_unready {now : Time}
    (done : writeVersion documentVersionId now values db = .ok db')
    (sameId : ∀ v, (values v).documentVersionId = v.documentVersionId)
    (unready : ∀ v, (values v).status ≠ .ready) :
    ¬VersionReady documentVersionId db' ∧ db'.chunks = db.chunks ∧ Grown db db' := by
  obtain ⟨written, chunks, jobs, next⟩ := writeVersion_ok done sameId
  exact ⟨written_unready written unready, chunks, .of_same jobs next⟩

theorem flushVersions_ready {dirty : List (Nat × (DocumentVersion → DocumentVersion))}
    {versions rows : List DocumentVersion}
    (keeps : ∀ row ∈ dirty, ∀ v, (row.2 v).documentVersionId = v.documentVersionId ∧
      (row.2 v).status = v.status)
    (done : flushVersions dirty versions = .ok rows) (id : Nat)
    (ready : ∃ v, Table.row DocumentVersion.documentVersionId rows id = some v ∧ v.status = .ready) :
    ∃ v, Table.row DocumentVersion.documentVersionId versions id = some v ∧ v.status = .ready := by
  unfold flushVersions at done
  have sorted : ∀ row ∈ dirty.insertionSort fun a b => a.1 ≤ b.1, ∀ v,
      (row.2 v).documentVersionId = v.documentVersionId ∧ (row.2 v).status = v.status :=
    fun row member => keeps row ((List.mem_insertionSort _).mp member)
  generalize dirty.insertionSort (fun a b => a.1 ≤ b.1) = flushed at done sorted
  induction flushed generalizing versions with
  | nil =>
    cases done
    exact ready
  | cons row flushed ih =>
    rw [List.foldlM_cons] at done
    obtain ⟨next, update, rest⟩ := Fallible.bind_ok done
    have here := sorted row List.mem_cons_self
    exact written_ready (updateVersionRow_written update fun v => (here v).1)
      (fun v => (here v).2) id
      (ih rest fun later member => sorted later (List.mem_cons_of_mem _ member))

theorem setActiveVersion_framed {logicalDocumentId : Nat} {version : DocumentVersion} {now : Time}
    {previous : Option Nat}
    (done : setActiveVersion logicalDocumentId version now db = .ok (db', previous)) :
    Framed db db' := by
  unfold setActiveVersion at done
  obtain ⟨versions, flushed, last⟩ := Fallible.bind_ok done
  cases last
  refine ⟨rfl, fun id ready => flushVersions_ready ?_ flushed id ready, .of_same rfl rfl⟩
  intro row member v
  rcases List.mem_append.mp member with replaced | chosen
  · split at replaced
    · split at replaced
      · cases List.mem_singleton.mp replaced
        exact ⟨rfl, rfl⟩
      · cases replaced
    · cases replaced
  · cases List.mem_singleton.mp chosen
    exact ⟨rfl, rfl⟩

theorem archiveDocumentRows_framed {logicalDocumentId : Nat} {now : Time}
    (done : archiveDocumentRows logicalDocumentId now db = .ok db') : Framed db db' := by
  unfold archiveDocumentRows at done
  obtain ⟨versions, flushed, last⟩ := Fallible.bind_ok done
  cases last
  refine ⟨rfl, fun id ready => flushVersions_ready ?_ flushed id ready, .of_same rfl rfl⟩
  intro row member v
  obtain ⟨w, _, rfl⟩ := List.mem_map.mp member
  exact ⟨rfl, rfl⟩

end Versions

section Requests
variable {db db' : Db} {request : Request} {logicalDocumentId : Nat}

theorem touchDocument_framed (db : Db) (id : Nat) (now : Time) :
    Framed db (db.touchDocument id now) := framed_jobs (.of_same rfl rfl) rfl rfl

variable [UnicodeTables]

theorem newJob_framed (db : Db) {jobType : String} {targetType : Option String}
    {targetId : Option Nat} {payload : Option Dict} {createdBy : Option Nat} {priority : Int}
    {now : Time} : Framed db (db.createJob fun jobId =>
      newJob jobId jobType targetType targetId payload createdBy priority now).1 :=
  framed_jobs (createJob_grown rfl rfl) rfl rfl

theorem createGraphIndexJob_framed {id : Nat} (done : createGraphIndexJob request id db = .ok db') :
    Framed db db' := by
  unfold createGraphIndexJob at done
  split at done
  · split at done
    · cases done
      exact newJob_framed db
    · cases done
  · cases done
    exact .refl _

theorem createGraphIndexJobs_framed {ids : List Nat}
    (done : createGraphIndexJobs request ids db = .ok db') : Framed db db' := by
  unfold createGraphIndexJobs at done
  induction ids generalizing db with
  | nil =>
    cases done
    exact .refl _
  | cons id ids ih =>
    rw [List.foldlM_cons] at done
    obtain ⟨next, first, rest⟩ := Fallible.bind_ok done
    exact (createGraphIndexJob_framed first).trans (ih rest)

theorem approveVersion_framed {documentVersionId : Nat} {response : ApproveResponse}
    (done : approveVersion request logicalDocumentId documentVersionId db = .ok (db', response)) :
    Framed db db' := by
  unfold approveVersion at done
  split at done
  · cases done
  · cases done
  dsimp only at done
  split at done
  · cases done
  split at done
  · cases done
    exact .refl db
  split at done
  · cases done
  split at done
  · cases done
  rename_i mid previous activated
  obtain ⟨last, enqueued, rest⟩ := Fallible.bind_ok done
  cases rest
  exact ((setActiveVersion_framed activated).trans (newJob_framed mid)).trans
    ((createGraphIndexJobs_framed enqueued).trans (touchDocument_framed _ _ _))

theorem archiveDocument_framed {response : ArchiveResponse}
    (done : archiveDocument request logicalDocumentId db = .ok (db', response)) : Framed db db' := by
  unfold archiveDocument at done
  split at done
  · cases done
  dsimp only at done
  split at done
  · cases done
    exact .refl db
  split at done
  · cases done
  rename_i mid archived
  obtain ⟨last, enqueued, rest⟩ := Fallible.bind_ok done
  cases rest
  exact ((archiveDocumentRows_framed archived).trans (newJob_framed mid)).trans
    (createGraphIndexJobs_framed enqueued)

/-- A lease call leaves the owner, or gives the job to the worker that acquires it. -/
theorem lease_owns (call : LeaseCall) (ok : JobsOk db) {jobId : Nat} {worker : String}
    (owns : Owns jobId worker { db with jobs := call.commit db.jobs }) :
    Owns jobId worker db ∨ ∃ enabled supported lease batch locked now,
      call = .acquireJobs worker enabled supported lease batch locked now := by
  obtain ⟨g, rows, effect⟩ := commit_rows call db.jobs ok.distinct
  unfold Owns at owns ⊢
  rw [rows] at owns
  obtain ⟨row, member, owned⟩ := List.any_eq_true.mp owns
  obtain ⟨j, old, rfl⟩ := List.mem_map.mp member
  have held := leaseOf_owned owned
  have unfinished : leaseOf j ≠ .closed := fun closed => by
    have moved := (effect j old).lease
    rw [closed, held] at moved
    cases event : call.event db.jobs j.jobId <;> rw [event] at moved <;>
      simp [Lease.step] at moved
  rcases (effect j old).held unfinished held with before | taken
  · refine .inl (List.any_eq_true.mpr ⟨j, old, ownedBy_iff.mpr ⟨?_, ?_⟩⟩)
    · exact (effect j old).sameId.symm.trans (ownedBy_iff.mp owned).1
    · unfold leaseOf at before
      split at before
      · cases before
      · rename_i status holder
        cases before
        exact ⟨status, holder⟩
      · cases before
      · cases before
  · exact .inr taken

theorem lease_ok (call : LeaseCall) (ok : JobsOk db) :
    JobsOk { db with jobs := call.commit db.jobs } := by
  obtain ⟨g, rows, effect⟩ := commit_rows call db.jobs ok.distinct
  refine ⟨?_, fun row member => ?_⟩
  · dsimp only
    rw [rows, Table.map_keys fun j member => (effect j member).sameId]
    exact ok.distinct
  · dsimp only at member
    rw [rows] at member
    obtain ⟨j, old, rfl⟩ := List.mem_map.mp member
    rw [(effect j old).sameId]
    exact ok.fresh j old

end Requests

section Handler
variable {db db' : Db} {context : JobExecutionContext} {documentVersionId : Nat} {now : Time}

theorem touchIf_framed (visible : Bool) (now : Time) (db : Db) : Framed db (touchIf visible now db) := by
  unfold touchIf
  split
  · exact framed_jobs (.of_same rfl rfl) rfl rfl
  · exact .refl db

/-- Without the chunks of the version. -/
theorem deleteChunks_rows (documentVersionId : Nat) (now : Time) (db : Db) :
    rowIds documentVersionId (deleteChunks documentVersionId now db) = [] ∧
      (deleteChunks documentVersionId now db).versions = db.versions ∧
      Grown db (deleteChunks documentVersionId now db) := by
  have rows : rowIds documentVersionId
      { db with chunks := db.chunks.filter (·.documentVersionId != documentVersionId) } = [] := by
    simp [rowIds, Db.chunksOf, List.filter_filter]
  unfold deleteChunks touchIf
  split
  · exact ⟨rows, rfl, .of_same rfl rfl⟩
  · exact ⟨rows, rfl, .of_same rfl rfl⟩

variable (documentVersionId) in
theorem bulkInsertChunks_rows {chunks : List Chunk} {nextChunkId : Nat}
    (done : bulkInsertChunks chunks nextChunkId now db = .ok db') :
    (∀ id ∈ rowIds documentVersionId db', id ∈ rowIds documentVersionId db ∨
      nextChunkId ≤ id ∧ id < nextChunkId + chunks.length) ∧
      db'.versions = db.versions ∧ Grown db db' := by
  unfold bulkInsertChunks at done
  dsimp only at done
  split at done
  · cases done
    have rows (id : Nat) (member : id ∈ rowIds documentVersionId ({ db with
        chunks := db.chunks ++ ((chunks.zipIdx nextChunkId).map fun entry =>
          chunkRow now entry.2 entry.1) } : Db)) : id ∈ rowIds documentVersionId db ∨
        nextChunkId ≤ id ∧ id < nextChunkId + chunks.length := by
      obtain ⟨row, inside, rfl⟩ := List.mem_map.mp member
      obtain ⟨there, same⟩ := List.mem_filter.mp inside
      rcases List.mem_append.mp there with old | new
      · exact .inl (List.mem_map_of_mem (List.mem_filter.mpr ⟨old, same⟩))
      · obtain ⟨⟨chunk, i⟩, entry, rfl⟩ := List.mem_map.mp new
        obtain ⟨low, high, _⟩ := List.mem_zipIdx entry
        exact .inr ⟨low, high⟩
    unfold touchIf
    split
    · exact ⟨rows, rfl, .of_same rfl rfl⟩
    · exact ⟨rows, rfl, .of_same rfl rfl⟩
  · cases done

theorem mem_chunkIds {id : Nat} : id ∈ chunkIdsByDocumentVersion documentVersionId db ↔
    id ∈ rowIds documentVersionId db := by
  unfold chunkIdsByDocumentVersion rowIds
  simp only [List.mem_map, List.mem_insertionSort]

theorem mem_chunksForEmbedding {id : Nat} :
    id ∈ (listChunksForEmbedding documentVersionId db).map (·.documentChunkId) ↔
      id ∈ rowIds documentVersionId db := by
  unfold listChunksForEmbedding rowIds
  simp only [List.mem_map, List.mem_insertionSort]

/-- A transaction of the owner after which the version is not ready. -/
structure Unready (context : JobExecutionContext) (documentVersionId : Nat) (db db' : Db) : Prop where
  owner : Owns context.jobId context.workerInstanceId db
  unready : ¬VersionReady documentVersionId db'
  jobs : Grown db db'

/-- What the preparation commits: nothing, when it refuses or the version is ready already, or a
reset of the owner. -/
theorem prepareVersion_ok {result : Except String VersionSnapshot}
    (done : prepareVersion context documentVersionId now db = .ok (db', result)) :
    (db' = db ∧ ∀ snapshot, result = .ok snapshot → snapshot.version.status = .ready) ∨
    (Unready context documentVersionId db db' ∧ db'.chunks = db.chunks ∧
      ∀ snapshot, result = .ok snapshot →
        snapshot.existingChunkIds = chunkIdsByDocumentVersion documentVersionId db) := by
  unfold prepareVersion at done
  split at done
  · cases done
    exact .inl ⟨rfl, fun _ refused => by cases refused⟩
  rename_i version found
  split at done
  · cases done
    exact .inl ⟨rfl, fun _ refused => by cases refused⟩
  split at done
  · cases done
    exact .inl ⟨rfl, fun _ refused => by cases refused⟩
  split at done
  · split at done
    · obtain ⟨_, owner, done⟩ := Fallible.bind_ok done
      obtain ⟨marked, written, done⟩ := Fallible.bind_ok done
      cases done
      obtain ⟨unready, chunks, jobs⟩ := writeVersion_unready written (fun _ => rfl)
        fun _ => VersionStatus.noConfusion
      exact .inr ⟨⟨assertOwner_iff.mp owner, unready, jobs⟩, chunks,
        fun _ refused => by cases refused⟩
    · cases done
      exact .inl ⟨rfl, fun _ refused => by cases refused⟩
  dsimp only at done
  split at done
  · obtain ⟨_, owner, done⟩ := Fallible.bind_ok done
    obtain ⟨marked, written, done⟩ := Fallible.bind_ok done
    cases done
    obtain ⟨unready, chunks, jobs⟩ := writeVersion_unready written (fun _ => rfl)
      fun _ => VersionStatus.noConfusion
    refine .inr ⟨⟨assertOwner_iff.mp owner, unready, jobs⟩, chunks, fun snapshot same => ?_⟩
    cases same
    rfl
  · rename_i ready
    cases done
    refine .inl ⟨rfl, fun snapshot same => ?_⟩
    cases same
    exact not_not.mp ready

/-- The stored chunks take fresh ids, and the old rows of the version are gone. -/
theorem storeChunks_ok {document : ExtractedDocument} {chunks : List Chunk} {nextChunkId : Nat}
    (done : storeChunks context documentVersionId now db document chunks nextChunkId = .ok db') :
    Unready context documentVersionId db db' ∧ ∀ id ∈ rowIds documentVersionId db',
      nextChunkId ≤ id ∧ id < nextChunkId + chunks.length := by
  unfold storeChunks at done
  split at done
  · cases done
  split at done
  · cases done
  split at done
  · cases done
  split at done
  · cases done
  rename_i owner
  split at done
  · cases done
  rename_i inserted insertion
  split at done
  · cases done
  split at done
  · cases done
  rename_i last updated
  cases done
  obtain ⟨emptied, _, without⟩ := deleteChunks_rows documentVersionId now db
  obtain ⟨rows, _, grown⟩ := bulkInsertChunks_rows documentVersionId insertion
  unfold updateIngestMetadata at updated
  dsimp only at updated
  split at updated
  · cases updated
  rename_i versions update
  cases updated
  have written := updateVersionRow_written update fun _ => rfl
  refine ⟨⟨assertOwner_iff.mp owner, written_unready written fun _ => VersionStatus.noConfusion,
    (without.trans grown).trans (.of_same rfl rfl)⟩, fun id member => ?_⟩
  rcases rows id member with old | new
  · rw [emptied] at old
    cases old
  · exact new

theorem markFailed_ok {errorCode : String} {withChunks : Bool}
    (done : markFailedAfterCleanup context documentVersionId now db errorCode withChunks = .ok db') :
    db' = db ∨ Unready context documentVersionId db db' ∧
      ∀ id ∈ rowIds documentVersionId db', id ∈ rowIds documentVersionId db := by
  unfold markFailedAfterCleanup at done
  split at done
  · cases done
    exact .inl rfl
  split at done
  · cases done
    exact .inl rfl
  obtain ⟨_, owner, done⟩ := Fallible.bind_ok done
  obtain ⟨unready, chunks, jobs⟩ := writeVersion_unready done (fun _ => rfl)
    fun _ => VersionStatus.noConfusion
  obtain ⟨emptied, _, without⟩ := deleteChunks_rows documentVersionId now db
  have rows : rowIds documentVersionId db' = rowIds documentVersionId
      (if withChunks then deleteChunks documentVersionId now db else db) := by
    unfold rowIds Db.chunksOf
    rw [chunks]
  refine .inr ⟨⟨assertOwner_iff.mp owner, unready, ?_⟩, fun id member => ?_⟩
  · cases withChunks with
    | true => exact without.trans jobs
    | false => exact jobs
  · rw [rows] at member
    cases withChunks with
    | true =>
      rw [if_pos rfl, emptied] at member
      cases member
    | false => exact member

/-- The transaction that makes a version ready is one of the owner, and leaves the chunks. -/
theorem finalizeVersion_ok [UnicodeTables] {expectedChunkCount : Nat} {readyAt activatedAt : Time}
    (done : finalizeVersion context documentVersionId expectedChunkCount readyAt activatedAt now db =
      .ok db') :
    Owns context.jobId context.workerInstanceId db ∧ db'.chunks = db.chunks ∧ Grown db db' := by
  unfold finalizeVersion at done
  split at done
  · cases done
  split at done
  · cases done
  split at done
  · cases done
  obtain ⟨_, owner, done⟩ := Fallible.bind_ok done
  split at done
  · cases done
  obtain ⟨marked, written, done⟩ := Fallible.bind_ok done
  obtain ⟨activated, activation, done⟩ := Fallible.bind_ok done
  obtain ⟨_, chunks, jobs, next⟩ := writeVersion_ok written fun _ => rfl
  have second : Framed marked activated := by
    unfold activateIfRequested at activation
    split at activation
    · split at activation
      · rename_i set
        cases activation
        exact setActiveVersion_framed set
      · cases activation
    · cases activation
      exact .refl _
  have third : Framed activated db' := by
    unfold createReadyGraphJob at done
    split at done
    · split at done
      · rw [← Except.ok.inj done]
        exact newJob_framed _
      · cases done
    · cases done
      exact .refl _
  have later := second.trans third
  exact ⟨assertOwner_iff.mp owner, later.chunks.trans chunks, (Grown.of_same jobs next).trans later.jobs⟩

end Handler
end RagProject.Ingest
