import RagProject.Graph.Persisted
import RagProject.Graph.Workers

/-! What one step of the graph workers can do, said once. -/
namespace RagProject.Graph
open Python Jobs Documents Interleaving Fallible

section Transactions

structure RunsOk (db : GraphDb) : Prop where
  distinct : (db.runs.map (·.graphIndexRunId)).Nodup
  fresh : ∀ r ∈ db.runs, r.graphIndexRunId < db.nextRunId

def GraphRunStatus.open (status : GraphRunStatus) : Prop := status = .queued ∨ status = .running

theorem GraphRunStatus.open_of_not_terminal {status : GraphRunStatus}
    (h : status.terminal = false) : status.open := by
  cases status <;> simp [GraphRunStatus.terminal, GraphRunStatus.open] at h ⊢

/-- The run of a committed preparation: a new one, or the run of the payload, taken up. -/
inductive RunPrepared (payload : GraphIndexJobPayload) (jobId : Nat) (db : GraphDb) :
    GraphDb → Nat → Prop where
  | created (run : GraphIndexRun) : run.graphIndexRunId = db.nextRunId → run.status = .running →
      run.jobId = some jobId → run.documentVersionId = some payload.documentVersionId →
      RunPrepared payload jobId db
        { db with runs := db.runs ++ [run], nextRunId := db.nextRunId + 1 } db.nextRunId
  | resumed (old run : GraphIndexRun) : payload.graphIndexRunId = some old.graphIndexRunId →
      getGraphIndexRun db old.graphIndexRunId = some old → old.status.open →
      old.documentVersionId = some payload.documentVersionId →
      run.graphIndexRunId = old.graphIndexRunId → run.status = .running →
      run.jobId = some (old.jobId.getD jobId) → run.documentVersionId = old.documentVersionId →
      RunPrepared payload jobId db (setGraphRun db old.graphIndexRunId fun _ => run)
        old.graphIndexRunId

structure PrepareEffect (payload : GraphIndexJobPayload) (jobId : Nat) (worker : String)
    (db db' : GraphDb) (snapshot : GraphIndexBuildSnapshot) : Prop where
  version : snapshot.documentVersionId = payload.documentVersionId
  chunks : snapshot.chunks = listChunksForGraphIndex payload.documentVersionId db.docs
  owned : ∃ j ∈ db.docs.jobs, ownedBy jobId worker j = true
  run : RunPrepared payload jobId db db' snapshot.graphIndexRunId

theorem owned_of_no_error {jobId : Nat} {worker : String} {db : GraphDb}
    (none : ownershipError jobId worker db = none) :
    ∃ j ∈ db.docs.jobs, ownedBy jobId worker j = true := by
  unfold ownershipError assertOwnership at none
  by_cases any : db.docs.jobs.any (ownedBy jobId worker) = true
  · exact List.any_eq_true.mp any
  · rw [if_neg any] at none
    cases none

theorem lost_of_error {jobId : Nat} {worker : String} {db : GraphDb} {error : GraphError}
    (some : ownershipError jobId worker db = some error) : error = .leaseLost := by
  unfold ownershipError at some
  split at some
  · cases some
  · exact (Option.some.inj some).symm

theorem startRun_ok {jobId : Nat} {now : Time} {run started : GraphIndexRun}
    (done : startRun jobId now run = .ok started) : run.status.open ∧
      started.graphIndexRunId = run.graphIndexRunId ∧ started.status = .running ∧
      started.jobId = some (run.jobId.getD jobId) ∧
      started.documentVersionId = run.documentVersionId := by
  unfold startRun at done
  dsimp only at done
  split at done
  · rename_i queued
    cases done
    exact ⟨.inl queued, rfl, rfl, rfl, rfl⟩
  · rename_i running
    cases done
    exact ⟨.inr running, rfl, running, rfl, rfl⟩
  · cases done

theorem prepareIndexBuild_ok {payload : GraphIndexJobPayload} {chosen : Option Nat} {jobId : Nat}
    {now : Time} {db db' : GraphDb} {snapshot : GraphIndexBuildSnapshot} (runs : RunsOk db)
    (from_payload : ∀ r, chosen = some r → payload.graphIndexRunId = some r)
    (done : prepareIndexBuild payload.documentVersionId chosen jobId now db = .ok (db', snapshot)) :
    snapshot.documentVersionId = payload.documentVersionId ∧
      snapshot.chunks = listChunksForGraphIndex payload.documentVersionId db.docs ∧
      RunPrepared payload jobId db db' snapshot.graphIndexRunId := by
  unfold prepareIndexBuild at done
  split at done
  · cases done
  · obtain ⟨_, _, done⟩ := bind_ok done
    obtain ⟨⟨mid, run⟩, selected, done⟩ := bind_ok done
    obtain ⟨started, start, done⟩ := bind_ok done
    cases done
    obtain ⟨was_open, id, running, job, version⟩ := startRun_ok start
    cases chosen with
    | none =>
      cases selected
      refine ⟨rfl, rfl, ?_⟩
      have untouched : (db.runs.map fun r =>
          if r.graphIndexRunId = db.nextRunId then started else r) = db.runs := by
        conv_rhs => rw [← List.map_id db.runs]
        refine List.map_congr_left fun r member => if_neg ?_
        have := runs.fresh r member
        omega
      have tables : setGraphRun (createGraphIndexRun db payload.documentVersionId (some jobId)
          now).1 db.nextRunId (fun _ => started) =
          { db with runs := db.runs ++ [started], nextRunId := db.nextRunId + 1 } := by
        simp [setGraphRun, createGraphIndexRun, untouched]
      exact tables ▸ .created started id running job version
    | some runId =>
      simp only [selectRun] at selected
      split at selected
      · cases selected
      · rename_i old found
        split at selected
        · rename_i sameVersion
          cases selected
          have oldId := (Table.mem_of_row found).2
          refine ⟨rfl, rfl, .resumed run started ?_ ?_ was_open sameVersion id running job version⟩
          · rw [from_payload runId rfl, oldId]
          · rw [oldId]
            exact found
        · cases selected

theorem prepareBuild_snapshot {payload : GraphIndexJobPayload} {chosen : Option Nat} {jobId : Nat}
    {worker : String} {now : Time} {db db' : GraphDb} {snapshot : GraphIndexBuildSnapshot}
    (runs : RunsOk db) (from_payload : ∀ r, chosen = some r → payload.graphIndexRunId = some r)
    (done : prepareBuild payload chosen jobId worker now db = .snapshot db' snapshot) :
    PrepareEffect payload jobId worker db db' snapshot := by
  unfold prepareBuild at done
  split at done
  · cases done
  · rename_i prepared built
    split at done
    · cases done
    · rename_i unlost
      cases done
      obtain ⟨version, chunks, run⟩ := prepareIndexBuild_ok runs from_payload built
      exact ⟨version, chunks, owned_of_no_error unlost, run⟩

theorem prepareTransaction_snapshot {payload : GraphIndexJobPayload} {jobId : Nat}
    {worker : String} {now : Time} {db db' : GraphDb} {snapshot : GraphIndexBuildSnapshot}
    (runs : RunsOk db)
    (done : prepareTransaction payload jobId worker now db = .snapshot db' snapshot) :
    PrepareEffect payload jobId worker db db' snapshot := by
  unfold prepareTransaction at done
  split at done
  · exact prepareBuild_snapshot runs (fun _ h => by cases h) done
  · rename_i runId given
    split at done
    · cases done
    · split at done
      · cases done
      · split at done
        · split at done <;> cases done
        · exact prepareBuild_snapshot runs (fun _ h => by cases h) done
        · exact prepareBuild_snapshot runs (fun r h => by cases h; exact given) done
        · exact prepareBuild_snapshot runs (fun r h => by cases h; exact given) done
        · cases done
        · cases done

theorem prepareBuild_not_succeeded {payload : GraphIndexJobPayload} {chosen : Option Nat}
    {jobId runId : Nat} {worker : String} {now : Time} {db : GraphDb} :
    prepareBuild payload chosen jobId worker now db ≠ .succeeded runId := by
  intro done
  unfold prepareBuild at done
  split at done
  · cases done
  · split at done <;> cases done

/-- The payload names a run of its version that had succeeded. -/
theorem prepareTransaction_succeeded {payload : GraphIndexJobPayload} {jobId runId : Nat}
    {worker : String} {now : Time} {db : GraphDb}
    (done : prepareTransaction payload jobId worker now db = .succeeded runId) :
    ∃ run, getGraphIndexRun db runId = some run ∧ run.status = .succeeded := by
  unfold prepareTransaction at done
  split at done
  · exact absurd done prepareBuild_not_succeeded
  · split at done
    · cases done
    · rename_i run found
      split at done
      · cases done
      · split at done
        · rename_i succeeded
          split at done
          · cases done
          · cases done
            exact ⟨run, found, succeeded⟩
        all_goals first
          | exact absurd done prepareBuild_not_succeeded
          | cases done

theorem failRunTransaction_ok {runId jobId : Nat} {code worker : String} {now : Time}
    {db db' : GraphDb} (done : failRunTransaction runId code jobId worker now db = .ok db') :
    (db' = db ∧ ∀ run, getGraphIndexRun db runId = some run → run.status.terminal = true) ∨
      ((∃ run, getGraphIndexRun db runId = some run ∧ run.status.open) ∧
        (∃ j ∈ db.docs.jobs, ownedBy jobId worker j = true) ∧ RunFailed runId db db' code) := by
  unfold failRunTransaction at done
  split at done
  · rename_i missing
    cases done
    exact .inl ⟨rfl, fun run found => by rw [missing] at found; cases found⟩
  · rename_i run found
    split at done
    · rename_i closed
      cases done
      refine .inl ⟨rfl, fun other same => ?_⟩
      rw [found] at same
      cases same
      exact closed
    · rename_i unclosed
      split at done
      · cases done
      · rename_i unlost
        cases done
        refine .inr ⟨⟨run, found, GraphRunStatus.open_of_not_terminal (by simpa using unclosed)⟩,
          owned_of_no_error unlost, _, rfl, fun _ => ⟨rfl, rfl, rfl, rfl, rfl⟩⟩

end Transactions

section Runs

theorem getGraphIndexRun_set (db : GraphDb) (runId : Nat) (g : GraphIndexRun → GraphIndexRun)
    (sameId : ∀ run, run.graphIndexRunId = runId → (g run).graphIndexRunId = run.graphIndexRunId)
    (id : Nat) : getGraphIndexRun (setGraphRun db runId g) id =
      (getGraphIndexRun db id).map fun r => if r.graphIndexRunId = runId then g r else r := by
  refine Table.row_map (fun r _ => ?_) id
  split
  · rename_i hit
    exact sameId r hit
  · rfl

/-- The run of a replacement, with the number of rows of each kind. -/
theorem Replaced.run [GraphText] {snapshot : GraphIndexBuildSnapshot}
    {result : GraphExtractionResult} {now : Time} {db db' : GraphDb}
    {entity : EntityKey → Option Nat} {mentionRows : List GraphEntityMention}
    {relationRows : List GraphRelation} {run : GraphIndexRun}
    (replaced : Replaced snapshot result now (setGraphRun db snapshot.graphIndexRunId
      (mergeMetadata result.metadataJson)) db' entity mentionRows relationRows)
    (found : getGraphIndexRun db snapshot.graphIndexRunId = some run) :
    ∃ last, getGraphIndexRun db' snapshot.graphIndexRunId = some last ∧
      last = graphRunSucceeded
        (result.entityMentions.filterMap fun m => entity m.entityKey).dedup.length
        relationRows.length mentionRows.length now (mergeMetadata result.metadataJson run) := by
  obtain ⟨entities, next, tables⟩ := replaced.tables
  have runs : db'.runs = (setGraphRun (setGraphRun db snapshot.graphIndexRunId
      (mergeMetadata result.metadataJson)) snapshot.graphIndexRunId (graphRunSucceeded
      (result.entityMentions.filterMap fun m => entity m.entityKey).dedup.length
      relationRows.length mentionRows.length now)).runs := by rw [tables]
  refine ⟨_, ?_, rfl⟩
  rw [getGraphIndexRun, runs,
    setGraphRun_twice (f := mergeMetadata result.metadataJson) db _ fun _ => rfl]
  refine (getGraphIndexRun_set db _
    (graphRunSucceeded _ _ _ now ∘ mergeMetadata result.metadataJson) (fun _ _ => rfl) _).trans ?_
  rw [found]
  simp only [Option.map_some, (Table.mem_of_row found).2, if_true]
  rfl

end Runs

section Steps

/-- How a worker goes on when no table changes. -/
inductive Moves [GraphText] (db : GraphDb) : BuildPhase → BuildPhase → Prop where
  | refused (payload : GraphIndexJobPayload) (code : String) :
      Moves db (.prepare payload) (.done (.failed code))
  | unready (payload : GraphIndexJobPayload) (runId : Nat) (code : String) :
      payload.graphIndexRunId = some runId → Moves db (.prepare payload) (.failRun runId code)
  | succeeded (payload : GraphIndexJobPayload) (result : Dict) :
      Moves db (.prepare payload) (.project payload.documentVersionId result)
  | extracted (snapshot : GraphIndexBuildSnapshot) (result : GraphExtractionResult) :
      Moves db (.extract snapshot) (.persist snapshot (dedupeResult result))
  | unextracted (snapshot : GraphIndexBuildSnapshot) (code : String) :
      Moves db (.extract snapshot) (.failRun snapshot.graphIndexRunId code)
  | unpersisted (snapshot : GraphIndexBuildSnapshot) (result : GraphExtractionResult)
      (code : String) : Moves db (.persist snapshot result) (.failRun snapshot.graphIndexRunId code)
  | unfailed (runId : Nat) (code : String) :
      Moves db (.failRun runId code) (.done (.failed code))
  | loaded (documentVersionId : Nat) (rows : ProjectionRows) (result : Dict) :
      loadProjectionRows documentVersionId db = .ok rows →
      Moves db (.project documentVersionId result) (.projecting documentVersionId rows result)
  | unloaded (documentVersionId : Nat) (error : GraphError) (result : Dict) :
      loadProjectionRows documentVersionId db = .error error →
      Moves db (.project documentVersionId result) (.done (.succeeded result))
  | raised (phase : BuildPhase) (code : String) : Moves db phase (.done (.failed code))

/-- The worker of a step in the handler that writes nothing to Neo4j. -/
def GraphAction.mover : GraphAction → Option String
  | .write _ => none
  | action => action.worker

theorem worker_of_mover {action : GraphAction} {worker : String}
    (moves : action.mover = some worker) : action.worker = some worker := by
  cases action with
  | write => cases moves
  | _ => exact moves

/-- One step, by what it changes. -/
inductive Stepped [GraphText] (s : GraphSystem) : GraphAction → GraphSystem → Prop where
  | unchanged (action : GraphAction) : Stepped s action s
  | approved (request : Request) (logicalDocumentId documentVersionId : Nat) (docs : Db)
      (response : ApproveResponse) :
      approveVersion request logicalDocumentId documentVersionId s.db.docs = .ok (docs, response) →
      Stepped s (.approve request logicalDocumentId documentVersionId)
        { s with db := { s.db with docs := docs } }
  | archived (request : Request) (logicalDocumentId : Nat) (docs : Db)
      (response : ArchiveResponse) :
      archiveDocument request logicalDocumentId s.db.docs = .ok (docs, response) →
      Stepped s (.archive request logicalDocumentId) { s with db := { s.db with docs := docs } }
  | leased (call : LeaseCall) : s.permits call = true →
      Stepped s (.lease call) { s with db := { s.db with docs := { s.db.docs with
        jobs := call.commit s.db.docs.jobs } } }
  | began (worker : String) (job : Job) (phase : BuildPhase) : s.builds worker = none →
      getJob s.db.docs.jobs job.jobId = some job → ownedBy job.jobId worker job = true →
      job.jobType = "graph_index_build" →
      ((∃ payload, graphIndexRequest job = some payload ∧ phase = .prepare payload) ∨
        ∃ code, phase = .done (.failed code)) →
      Stepped s (.begin worker job.jobId) (s.setBuild worker (some ⟨job.jobId, none, phase⟩))
  | prepared (worker : String) (now : Time) (fault : Option GraphError) (build : BuildRun)
      (payload : GraphIndexJobPayload) (db : GraphDb) (snapshot : GraphIndexBuildSnapshot) :
      s.builds worker = some build → build.phase = .prepare payload →
      PrepareEffect payload build.jobId worker s.db db snapshot →
      Stepped s (.prepare worker now fault) { s.setBuild worker (some
        ⟨build.jobId, some snapshot.graphIndexRunId, .extract snapshot⟩) with db := db }
  | moved (action : GraphAction) (worker : String) (build : BuildRun) (phase : BuildPhase) :
      action.mover = some worker → s.builds worker = some build → Moves s.db build.phase phase →
      Stepped s action (s.moveTo worker build (some phase))
  | left (action : GraphAction) (worker : String) : action.mover = some worker →
      Stepped s action (s.setBuild worker none)
  | runFailed (action : GraphAction) (worker : String) (build : BuildRun) (runId : Nat)
      (code : String) (db : GraphDb) : action.mover = some worker → s.builds worker = some build →
      (build.phase = .failRun runId code ∨ ∃ snapshot result,
        build.phase = .persist snapshot result ∧ snapshot.graphIndexRunId = runId) →
      (∃ run, getGraphIndexRun s.db runId = some run ∧ run.status.open) →
      (∃ j ∈ s.db.docs.jobs, ownedBy build.jobId worker j = true) → RunFailed runId s.db db code →
      Stepped s action { s.moveTo worker build (some (.done (.failed code))) with db := db }
  | replaced (worker : String) (now : Time) (fault : Option GraphError) (build : BuildRun)
      (snapshot : GraphIndexBuildSnapshot) (result : GraphExtractionResult) (db : GraphDb)
      (entity : EntityKey → Option Nat) (mentionRows : List GraphEntityMention)
      (relationRows : List GraphRelation) (resultJson : Dict) : s.builds worker = some build →
      build.phase = .persist snapshot result →
      (∃ run, getGraphIndexRun s.db snapshot.graphIndexRunId = some run ∧ run.status = .running) →
      (∃ j ∈ s.db.docs.jobs, ownedBy build.jobId worker j = true) →
      Replaced snapshot result now (setGraphRun s.db snapshot.graphIndexRunId
        (mergeMetadata result.metadataJson)) db entity mentionRows relationRows →
      Stepped s (.persist worker now fault) { s.moveTo worker build (some
        (.project snapshot.documentVersionId resultJson)) with db := db }
  | wrote (worker : String) (build : BuildRun) (documentVersionId : Nat) (rows : ProjectionRows)
      (result : Dict) : s.builds worker = some build →
      build.phase = .projecting documentVersionId rows result →
      Stepped s (.write worker) { s.moveTo worker build (some (.done (.succeeded result))) with
        neo := replaceDocumentVersionProjection documentVersionId rows s.neo }
  | finished (worker : String) (leaseDuration renewedAt finishedAt : Time) (build : BuildRun)
      (result : JobHandlerResult) (jobs : List Job) : s.builds worker = some build →
      build.phase = .done result →
      storeTerminalResult build.jobId worker leaseDuration renewedAt finishedAt result
        s.db.docs.jobs = .ok jobs →
      Stepped s (.finish worker leaseDuration renewedAt finishedAt) { s.setBuild worker none with
        db := { s.db with docs := { s.db.docs with jobs := jobs } } }

variable [GraphText]

theorem prepareStep_stepped {s : GraphSystem} {worker : String} {build : BuildRun}
    {payload : GraphIndexJobPayload} (runs : RunsOk s.db) (now : Time) (fault : Option GraphError)
    (there : s.builds worker = some build) (phase : build.phase = .prepare payload) :
    Stepped s (.prepare worker now fault) (s.prepareStep worker build payload now fault) := by
  unfold GraphSystem.prepareStep
  split
  · exact .moved _ worker build _ rfl there (phase ▸ .refused payload _)
  · rename_i runId found
    cases fault with
    | some error => cases found
    | none =>
      obtain ⟨run, row, _⟩ := prepareTransaction_succeeded found
      rw [row]
      exact .moved _ worker build _ rfl there (phase ▸ .succeeded payload _)
  · rename_i db snapshot made
    cases fault with
    | some error => cases made
    | none =>
      exact .prepared worker now none build payload db snapshot there phase
        (prepareTransaction_snapshot runs made)
  · rename_i error _
    cases error with
    | leaseLost => exact .left _ worker rfl
    | resourceNotFound => exact .moved _ worker build _ rfl there (phase ▸ .refused payload _)
    | other => exact .moved _ worker build _ rfl there (phase ▸ .refused payload _)
    | value =>
      unfold GraphSystem.afterPrepareError
      cases given : payload.graphIndexRunId with
      | none => exact .moved _ worker build _ rfl there (phase ▸ .refused payload _)
      | some runId => exact .moved _ worker build _ rfl there (phase ▸ .unready payload runId _ given)

theorem persistStep_stepped {s : GraphSystem} {worker : String} {build : BuildRun}
    {snapshot : GraphIndexBuildSnapshot} {result : GraphExtractionResult}
    (entities : EntitiesOk s.db) (now : Time) (fault : Option GraphError)
    (there : s.builds worker = some build) (phase : build.phase = .persist snapshot result) :
    Stepped s (.persist worker now fault)
      (s.persistStep worker build snapshot result now fault) := by
  have inverted {db : GraphDb} {outcome : Option String}
      (done : fault.elim (GraphSystem.persistTransaction snapshot result build.jobId
        worker now s.db) .error =
        .ok (db, outcome)) : (∃ j ∈ s.db.docs.jobs, ownedBy build.jobId worker j = true) ∧
      persistExtractionResult snapshot result now s.db = .ok (db, outcome) := by
    cases fault with
    | some error => cases done
    | none =>
      simp only [Option.elim_none, GraphSystem.persistTransaction] at done
      split at done
      · cases done
      · rename_i unlost
        exact ⟨owned_of_no_error unlost, done⟩
  unfold GraphSystem.persistStep
  split
  · rename_i error _
    cases error with
    | leaseLost => exact .left _ worker rfl
    | _ => exact .moved _ worker build _ rfl there (phase ▸ .unpersisted snapshot result _)
  · rename_i db code done
    obtain ⟨owned, persisted⟩ := inverted done
    obtain ⟨⟨run, found, running⟩, _, failed⟩ := persistExtractionResult_ok entities persisted
    exact .runFailed _ worker build _ code db rfl there (.inr ⟨snapshot, result, phase, rfl⟩)
      ⟨run, found, .inr running⟩ owned failed
  · rename_i db done
    obtain ⟨owned, persisted⟩ := inverted done
    obtain ⟨⟨run, found, running⟩, _, entity, mentionRows, relationRows, replaced⟩ :=
      persistExtractionResult_ok entities persisted
    obtain ⟨last, row, _⟩ := replaced.run found
    rw [row]
    exact .replaced worker now fault build snapshot result db entity mentionRows relationRows _
      there phase ⟨run, found, running⟩ owned replaced

theorem failRunStep_stepped {s : GraphSystem} {worker code : String} {build : BuildRun}
    {runId : Nat} (now : Time) (fault : Option GraphError)
    (there : s.builds worker = some build) (phase : build.phase = .failRun runId code) :
    Stepped s (.failRun worker now fault) (s.failRunStep worker build runId code now fault) := by
  unfold GraphSystem.failRunStep
  split
  · exact .left _ worker rfl
  · exact .moved _ worker build _ rfl there (phase ▸ .unfailed runId code)
  · rename_i db done
    cases fault with
    | some error => cases done
    | none =>
      rcases failRunTransaction_ok done with ⟨rfl, _⟩ | ⟨unclosed, owned, failed⟩
      · exact .moved _ worker build _ rfl there (phase ▸ .unfailed runId code)
      · exact .runFailed _ worker build runId code db rfl there (.inl phase) unclosed owned failed

/-- Inversion of the step function. -/
theorem stepped {s t : GraphSystem} {action : GraphAction} (runs : RunsOk s.db)
    (entities : EntitiesOk s.db) (done : s.step action = some t) : Stepped s action t := by
  cases action with
  | approve request document version =>
    simp only [GraphSystem.step] at done
    split at done <;> cases done
    · rename_i docs response approved
      exact .approved request document version docs response approved
    · exact .unchanged _
  | archive request document =>
    simp only [GraphSystem.step] at done
    split at done <;> cases done
    · rename_i docs response archived
      exact .archived request document docs response archived
    · exact .unchanged _
  | lease call =>
    simp only [GraphSystem.step] at done
    split at done
    · rename_i permitted
      cases done
      exact .leased call permitted
    · cases done
  | begin worker jobId =>
    simp only [GraphSystem.step] at done
    split at done
    · rename_i job idle found
      split at done
      · rename_i condition
        cases done
        obtain ⟨owned, graph⟩ := Bool.and_eq_true_iff.mp condition
        obtain rfl := (getJob_mem found).2
        refine .began worker job _ idle found owned (beq_iff_eq.mp graph) ?_
        split
        · rename_i payload parsed
          exact .inl ⟨payload, parsed, rfl⟩
        · exact .inr ⟨_, rfl⟩
      · cases done
    · cases done
  | prepare worker now fault =>
    simp only [GraphSystem.step] at done
    split at done
    · rename_i build there
      split at done
      · rename_i payload phase
        cases done
        exact prepareStep_stepped runs now fault there phase
      · cases done
    · cases done
  | extract worker result =>
    simp only [GraphSystem.step] at done
    split at done
    · rename_i build there
      split at done
      · rename_i snapshot phase
        cases done
        cases result with
        | some result => exact .moved _ worker build _ rfl there (phase ▸ .extracted snapshot result)
        | none => exact .moved _ worker build _ rfl there (phase ▸ .unextracted snapshot _)
      · cases done
    · cases done
  | persist worker now fault =>
    simp only [GraphSystem.step] at done
    split at done
    · rename_i build there
      split at done
      · rename_i snapshot result phase
        cases done
        exact persistStep_stepped entities now fault there phase
      · cases done
    · cases done
  | failRun worker now fault =>
    simp only [GraphSystem.step] at done
    split at done
    · rename_i build there
      split at done
      · rename_i runId code phase
        cases done
        exact failRunStep_stepped now fault there phase
      · cases done
    · cases done
  | load worker =>
    simp only [GraphSystem.step] at done
    split at done
    · rename_i build there
      split at done
      · rename_i version result phase
        cases done
        split
        · rename_i rows loaded
          exact .moved _ worker build _ rfl there (phase ▸ .loaded version rows result loaded)
        · rename_i error failed
          exact .moved _ worker build _ rfl there (phase ▸ .unloaded version error result failed)
      · cases done
    · cases done
  | write worker =>
    simp only [GraphSystem.step] at done
    split at done
    · rename_i build there
      split at done
      · rename_i version rows result phase
        cases done
        exact .wrote worker build version rows result there phase
      · cases done
    · cases done
  | raise worker =>
    simp only [GraphSystem.step] at done
    split at done
    · rename_i build there
      split at done
      · cases done
      · cases done
        exact .moved _ worker build _ rfl there (.raised _ _)
    · cases done
  | abandon worker =>
    cases done
    exact .left _ worker rfl
  | finish worker lease renewed finished =>
    simp only [GraphSystem.step] at done
    split at done
    · rename_i build there
      split at done
      · rename_i result phase
        split at done
        · rename_i jobs stored
          cases done
          exact .finished worker lease renewed finished build result jobs there phase stored
        · cases done
          exact .left _ worker rfl
      · cases done
    · cases done

end Steps

end RagProject.Graph
