import RagProject.Graph.Steps

/-! Index builds replace the rows of a version as a whole: over every run of the workers, a
transaction that leaves its run failed keeps all rows, and one that leaves it succeeded makes the
rows of the version those of its own extraction result. -/
namespace RagProject.Graph
open Python KeepFirst Jobs Documents Interleaving Fallible

section Result
variable [UnicodeTables]

def Deduped (result : GraphExtractionResult) : Prop :=
  (result.entityMentions.map mentionKey).Nodup ∧ (result.relations.map relationKey).Nodup

theorem deduped_dedupeResult (result : GraphExtractionResult) : Deduped (dedupeResult result) :=
  ⟨keepFirst_distinct _ _, keepFirst_distinct _ _⟩

end Result

def BuildPhase.snapshot : BuildPhase → Option GraphIndexBuildSnapshot
  | .extract snapshot | .persist snapshot _ => some snapshot
  | _ => none

/-- The moves of a run: queued to running, running to succeeded, and to failed from either. -/
def GraphRunStatus.Moves (before after : GraphRunStatus) : Prop :=
  after = before ∨ (before = .queued ∧ after = .running) ∨
    (before = .running ∧ after = .succeeded) ∨ (before.open ∧ after = .failed)

section Invariant
variable [GraphText]

/-- A snapshot that a worker holds: the chunks of its version, and a run of its version. -/
structure Held (db : GraphDb) (snapshot : GraphIndexBuildSnapshot) : Prop where
  chunks : snapshot.chunks = listChunksForGraphIndex snapshot.documentVersionId db.docs
  run : ∃ run, getGraphIndexRun db snapshot.graphIndexRunId = some run ∧
    run.documentVersionId = some snapshot.documentVersionId

structure GraphSystem.Ok (s : GraphSystem) : Prop where
  docs : s.db.docs.Ok
  chunks : (s.db.docs.chunks.map (·.documentChunkId)).Nodup
  runs : RunsOk s.db
  entities : EntitiesOk s.db
  held : ∀ worker build snapshot, s.builds worker = some build →
    build.phase.snapshot = some snapshot → Held s.db snapshot
  deduped : ∀ worker build snapshot result, s.builds worker = some build →
    build.phase = .persist snapshot result → Deduped result

/-- No worker is in the handler, and the tables keep the constraints of the schema. -/
structure GraphStart (s : GraphSystem) : Prop where
  docs : s.db.docs.Ok
  chunks : (s.db.docs.chunks.map (·.documentChunkId)).Nodup
  runs : RunsOk s.db
  entities : EntitiesOk s.db
  idle : ∀ worker, s.builds worker = none

theorem GraphStart.ok {s : GraphSystem} (start : GraphStart s) : s.Ok := by
  refine ⟨start.docs, start.chunks, start.runs, start.entities, ?_, ?_⟩
  · intro worker build snapshot there
    rw [start.idle worker] at there
    cases there
  · intro worker build snapshot result there
    rw [start.idle worker] at there
    cases there

/-- What happens to one run row in a step that does not complete it. -/
inductive RunChange (before after : Option GraphIndexRun) : Prop where
  | same : after = before → RunChange before after
  | created (run : GraphIndexRun) : before = none → after = some run → run.status = .running →
      RunChange before after
  | started (old run : GraphIndexRun) : before = some old → after = some run →
      old.status.open → run.status = .running → run.documentVersionId = old.documentVersionId →
      RunChange before after
  | failed (old run : GraphIndexRun) : before = some old → after = some run → old.status.open →
      run.status = .failed → run.documentVersionId = old.documentVersionId →
      RunChange before after

/-- The completion of a run. -/
structure RunClosed (before after : Option GraphIndexRun) : Prop where
  rows : ∃ old run, before = some old ∧ after = some run ∧ old.status = .running ∧
    run.status = .succeeded ∧ run.documentVersionId = old.documentVersionId

omit [GraphText] in
theorem runChange_prepared {payload : GraphIndexJobPayload} {jobId runId : Nat} {db db' : GraphDb}
    (runs : RunsOk db) (prepared : RunPrepared payload jobId db db' runId) (id : Nat) :
    RunChange (getGraphIndexRun db id) (getGraphIndexRun db' id) ∧
      (id = runId → ∃ run, getGraphIndexRun db' id = some run ∧
        run.documentVersionId = some payload.documentVersionId) := by
  cases prepared with
  | created run runId running _ version =>
    by_cases hit : id = db.nextRunId
    · have none : getGraphIndexRun db id = none := by
        refine List.find?_eq_none.mpr fun r member => ?_
        have := runs.fresh r member
        simp only [beq_iff_eq]
        omega
      have new : getGraphIndexRun { db with
          runs := db.runs ++ [run], nextRunId := db.nextRunId + 1 } id = some run := by
        rw [hit, ← runId]
        refine Table.row_append_new fun r member => ?_
        have := runs.fresh r member
        omega
      exact ⟨.created run none new running, fun _ => ⟨run, new, version⟩⟩
    · exact ⟨.same (Table.row_append_other fun same => hit (same.symm.trans runId)),
        fun same => absurd same hit⟩
  | resumed old run _ found wasOpen sameVersion runId running _ version =>
    have set := getGraphIndexRun_set db old.graphIndexRunId (fun _ => run)
      (fun r hit => runId.trans hit.symm) id
    by_cases hit : id = old.graphIndexRunId
    · rw [hit] at set ⊢
      simp only [found, Option.map_some, if_true] at set
      exact ⟨.started old run found set wasOpen running version,
        fun _ => ⟨run, set, version.trans sameVersion⟩⟩
    · refine ⟨.same (set.trans ?_), fun same => absurd same hit⟩
      cases row : getGraphIndexRun db id with
      | none => rfl
      | some r =>
        have other : r.graphIndexRunId ≠ old.graphIndexRunId := by
          rw [(Table.mem_of_row row).2]
          exact hit
        rw [Option.map_some, if_neg other]

omit [GraphText] in
theorem runChange_failed {runId : Nat} {code : String} {db db' : GraphDb} {run : GraphIndexRun}
    (found : getGraphIndexRun db runId = some run) (unclosed : run.status.open)
    (failed : RunFailed runId db db' code) (id : Nat) :
    RunChange (getGraphIndexRun db id) (getGraphIndexRun db' id) := by
  obtain ⟨g, rfl, same⟩ := failed.tables
  have set := getGraphIndexRun_set db runId g (fun r _ => (same r).1) id
  cases row : getGraphIndexRun db id with
  | none =>
    rw [row] at set
    exact .same set
  | some r =>
    rw [row, Option.map_some] at set
    by_cases hit : id = runId
    · subst hit
      cases found.symm.trans row
      rw [if_pos (Table.mem_of_row row).2] at set
      exact .failed run _ rfl set unclosed (same run).2.1 (same run).2.2.1
    · rw [if_neg fun h => hit ((Table.mem_of_row row).2.symm.trans h)] at set
      exact .same set

/-- A replacement completes its run and leaves the others. -/
theorem runs_replaced {snapshot : GraphIndexBuildSnapshot} {result : GraphExtractionResult}
    {now : Time} {db db' : GraphDb} {entity : EntityKey → Option Nat}
    {mentionRows : List GraphEntityMention} {relationRows : List GraphRelation}
    {run : GraphIndexRun} (found : getGraphIndexRun db snapshot.graphIndexRunId = some run)
    (running : run.status = .running)
    (replaced : Replaced snapshot result now (setGraphRun db snapshot.graphIndexRunId
      (mergeMetadata result.metadataJson)) db' entity mentionRows relationRows) :
    RunClosed (getGraphIndexRun db snapshot.graphIndexRunId)
        (getGraphIndexRun db' snapshot.graphIndexRunId) ∧
      ∀ id, id ≠ snapshot.graphIndexRunId → getGraphIndexRun db' id = getGraphIndexRun db id := by
  obtain ⟨last, foundLast, eq⟩ := replaced.run found
  refine ⟨⟨run, last, found, foundLast, running, by rw [eq]; rfl, by rw [eq]; rfl⟩, ?_⟩
  intro id hit
  obtain ⟨entities, next, tables⟩ := replaced.tables
  have row : getGraphIndexRun db' id = getGraphIndexRun (setGraphRun (setGraphRun db
      snapshot.graphIndexRunId (mergeMetadata result.metadataJson)) snapshot.graphIndexRunId
      (graphRunSucceeded (result.entityMentions.filterMap fun m => entity m.entityKey).dedup.length
        relationRows.length mentionRows.length now)) id := by
    rw [tables]
    rfl
  have outer := getGraphIndexRun_set (setGraphRun db snapshot.graphIndexRunId
    (mergeMetadata result.metadataJson)) snapshot.graphIndexRunId (graphRunSucceeded
      (result.entityMentions.filterMap fun m => entity m.entityKey).dedup.length
      relationRows.length mentionRows.length now) (fun _ _ => rfl) id
  have inner := getGraphIndexRun_set db snapshot.graphIndexRunId
    (mergeMetadata result.metadataJson) (fun _ _ => rfl) id
  rw [row, outer, inner]
  cases found' : getGraphIndexRun db id with
  | none => rfl
  | some r =>
    have other : r.graphIndexRunId ≠ snapshot.graphIndexRunId := by
      rw [(Table.mem_of_row found').2]
      exact hit
    simp only [Option.map_some, if_neg other]

/-- Every step changes each run row in one of the listed ways. -/
theorem runs_changed {s t : GraphSystem} {action : GraphAction} (ok : s.Ok)
    (step : Stepped s action t) (id : Nat) :
    RunChange (getGraphIndexRun s.db id) (getGraphIndexRun t.db id) ∨
      RunClosed (getGraphIndexRun s.db id) (getGraphIndexRun t.db id) := by
  cases step with
  | prepared worker now fault build payload db snapshot there phase effect =>
    exact .inl (runChange_prepared ok.runs effect.run id).1
  | runFailed _ worker build runId code db acts there phase unclosed owned failed =>
    obtain ⟨run, found, unclosed⟩ := unclosed
    exact .inl (runChange_failed found unclosed failed id)
  | replaced worker now fault build snapshot result db entity mentionRows relationRows json there
      phase running owned replaced =>
    obtain ⟨run, found, running⟩ := running
    obtain ⟨closed, others⟩ := runs_replaced found running replaced
    by_cases hit : id = snapshot.graphIndexRunId
    · subst hit
      exact .inr closed
    · exact .inl (.same (others id hit))
  | _ => exact .inl (.same rfl)

theorem storeTerminalResult_ok {jobId : Nat} {worker : String}
    {leaseDuration renewedAt finishedAt : Time} {result : JobHandlerResult} {jobs jobs' : List Job}
    (ok : TableOk jobs)
    (done : storeTerminalResult jobId worker leaseDuration renewedAt finishedAt result jobs =
      .ok jobs') :
    TableOk jobs' ∧ (∃ j ∈ jobs, ownedBy jobId worker j = true) ∧
      ∃ g : Job → Job, jobs' = jobs.map g ∧ ∀ j ∈ jobs, (g j).content = j.content ∧
        (if ownedBy jobId worker j then
          (g j).status = match result with
            | .succeeded _ => .succeeded
            | .failed _ => .failed
        else g j = j) := by
  cases result with
  | succeeded json => exact storeSucceeded_ok ok done
  | failed code => exact storeFailed_ok ok done

omit [GraphText] in
theorem runsOk_set {db : GraphDb} {runId : Nat} {g : GraphIndexRun → GraphIndexRun}
    (ok : RunsOk db)
    (same : ∀ run, run.graphIndexRunId = runId → (g run).graphIndexRunId = run.graphIndexRunId) :
    RunsOk (setGraphRun db runId g) := by
  have ids (r : GraphIndexRun) : (if r.graphIndexRunId = runId then g r else r).graphIndexRunId =
      r.graphIndexRunId := by
    split
    · rename_i hit
      exact same r hit
    · rfl
  constructor
  · simp only [setGraphRun]
    rw [Table.map_keys fun r _ => ids r]
    exact ok.distinct
  · intro r' member
    obtain ⟨r, old, rfl⟩ := List.mem_map.mp member
    rw [ids r]
    exact ok.fresh r old

omit [GraphText] in
theorem RunPrepared.tables {payload : GraphIndexJobPayload} {jobId runId : Nat} {db db' : GraphDb}
    (prepared : RunPrepared payload jobId db db' runId) :
    db'.docs = db.docs ∧ db'.entities = db.entities ∧ db'.nextEntityId = db.nextEntityId ∧
      db'.mentions = db.mentions ∧ db'.relations = db.relations ∧
      db'.nextMentionId = db.nextMentionId ∧ db'.nextRelationId = db.nextRelationId := by
  cases prepared <;> exact ⟨rfl, rfl, rfl, rfl, rfl, rfl, rfl⟩

omit [GraphText] in
theorem RunPrepared.runsOk {payload : GraphIndexJobPayload} {jobId runId : Nat} {db db' : GraphDb}
    (prepared : RunPrepared payload jobId db db' runId) (ok : RunsOk db) : RunsOk db' := by
  cases prepared with
  | created run runId =>
    refine ⟨Table.append_distinct ok.distinct fun r member => ?_, ?_⟩
    · have := ok.fresh r member
      omega
    · intro r member
      rcases List.mem_append.mp member with old | new
      · exact Nat.lt_succ_of_lt (ok.fresh r old)
      · cases List.mem_singleton.mp new
        exact runId ▸ Nat.lt_succ_self _
  | resumed old run _ _ _ _ runId => exact runsOk_set ok fun _ hit => runId.trans hit.symm

theorem docs_stepped {s t : GraphSystem} {action : GraphAction} (ok : s.Ok)
    (step : Stepped s action t) :
    t.db.docs.Ok ∧ t.db.docs.chunks = s.db.docs.chunks := by
  cases step with
  | approved request document version docs response done =>
    rcases approveVersion_ok ok.docs done with rfl | ⟨_, row, _, _, found, ready, effect⟩
    · exact ⟨ok.docs, rfl⟩
    · obtain ⟨member, rfl, rfl⟩ := getVersion_some found
      exact ⟨effect.ok ok.docs member ready, effect.chunks⟩
  | archived request document docs response done =>
    rcases archiveDocument_ok ok.docs done with rfl | ⟨_, _, _, effect⟩
    · exact ⟨ok.docs, rfl⟩
    · exact ⟨effect.ok ok.docs, effect.chunks⟩
  | leased call permitted => exact ⟨ok.docs.lease call, rfl⟩
  | finished worker lease renewed finished build result jobs there phase stored =>
    obtain ⟨table, _, g, rfl, effect⟩ := storeTerminalResult_ok ok.docs.jobs stored
    refine ⟨ok.docs.withJobs table fun j' member => ?_, rfl⟩
    obtain ⟨j, old, rfl⟩ := List.mem_map.mp member
    rw [show (g j).jobId = j.jobId from congrArg Prod.fst (effect j old).1]
    exact ok.docs.fresh j old
  | prepared worker now fault build payload db snapshot there phase effect =>
    have same := effect.run.tables.1
    exact ⟨same ▸ ok.docs, congrArg _ same⟩
  | runFailed _ worker build runId code db acts there phase unclosed owned failed =>
    obtain ⟨g, rfl, _⟩ := failed.tables
    exact ⟨ok.docs, rfl⟩
  | replaced worker now fault build snapshot result db entity mentionRows relationRows json there
      phase running owned replaced =>
    obtain ⟨entities, next, rfl⟩ := replaced.tables
    exact ⟨ok.docs, rfl⟩
  | _ => exact ⟨ok.docs, rfl⟩

theorem runs_stepped {s t : GraphSystem} {action : GraphAction} (ok : s.Ok)
    (step : Stepped s action t) : RunsOk t.db ∧ EntitiesOk t.db := by
  cases step with
  | prepared worker now fault build payload db snapshot there phase effect =>
    obtain ⟨_, entities, next, _⟩ := effect.run.tables
    refine ⟨effect.run.runsOk ok.runs, ?_⟩
    constructor
    · rw [entities]
      exact ok.entities.distinct
    · rw [entities, next]
      exact ok.entities.fresh
  | runFailed _ worker build runId code db acts there phase unclosed owned failed =>
    obtain ⟨g, rfl, same⟩ := failed.tables
    exact ⟨runsOk_set ok.runs fun r _ => (same r).1, ⟨ok.entities.distinct, ok.entities.fresh⟩⟩
  | replaced worker now fault build snapshot result db entity mentionRows relationRows json there
      phase running owned replaced =>
    have merged : RunsOk (setGraphRun s.db snapshot.graphIndexRunId
        (mergeMetadata result.metadataJson)) := runsOk_set ok.runs fun _ _ => rfl
    have closed : RunsOk (setGraphRun (setGraphRun s.db snapshot.graphIndexRunId
        (mergeMetadata result.metadataJson)) snapshot.graphIndexRunId (graphRunSucceeded
        (result.entityMentions.filterMap fun m => entity m.entityKey).dedup.length
        relationRows.length mentionRows.length now)) := runsOk_set merged fun _ _ => rfl
    have entities := replaced.entities
    obtain ⟨rows, next, rfl⟩ := replaced.tables
    exact ⟨⟨closed.distinct, closed.fresh⟩, entities⟩
  | _ => exact ⟨⟨ok.runs.distinct, ok.runs.fresh⟩, ⟨ok.entities.distinct, ok.entities.fresh⟩⟩

omit [GraphText] in
theorem setBuild_some {s : GraphSystem} {worker w : String} {new : Option BuildRun}
    {build : BuildRun} (there : (s.setBuild worker new).builds w = some build) :
    (w = worker ∧ new = some build) ∨ s.builds w = some build := by
  simp only [GraphSystem.setBuild] at there
  split at there
  · rename_i same
    exact .inl ⟨same, there⟩
  · exact .inr there

/-- Where the phase of a worker comes from: it had it before, it moved there, it has just been
given a snapshot, or it holds none. -/
theorem phase_stepped {s t : GraphSystem} {action : GraphAction} (step : Stepped s action t)
    {w : String} {build : BuildRun} (there : t.builds w = some build) :
    s.builds w = some build ∨
      (∃ old, s.builds w = some old ∧ Moves s.db old.phase build.phase) ∨
      (∃ payload snapshot, PrepareEffect payload build.jobId w s.db t.db snapshot ∧
        build.phase = .extract snapshot) ∨ build.phase.snapshot = none := by
  cases step with
  | began worker job phase idle found owned graph start =>
    rcases setBuild_some there with ⟨rfl, new⟩ | old
    · cases new
      right; right; right
      rcases start with ⟨payload, _, rfl⟩ | ⟨code, rfl⟩ <;> rfl
    · exact .inl old
  | prepared worker now fault run payload db snapshot old phase effect =>
    rcases setBuild_some there with ⟨rfl, new⟩ | old
    · cases new
      exact .inr (.inr (.inl ⟨payload, snapshot, effect, rfl⟩))
    · exact .inl old
  | moved _ worker run phase acts old moves =>
    rcases setBuild_some there with ⟨rfl, new⟩ | kept
    · cases new
      exact .inr (.inl ⟨run, old, moves⟩)
    · exact .inl kept
  | left _ worker =>
    rcases setBuild_some there with ⟨rfl, new⟩ | kept
    · cases new
    · exact .inl kept
  | runFailed _ worker run runId code db acts old phase unclosed owned failed =>
    rcases setBuild_some there with ⟨rfl, new⟩ | kept
    · cases new
      exact .inr (.inr (.inr rfl))
    · exact .inl kept
  | replaced worker now fault run snapshot result db entity mentionRows relationRows json old phase
      running owned replaced =>
    rcases setBuild_some there with ⟨rfl, new⟩ | kept
    · cases new
      exact .inr (.inr (.inr rfl))
    · exact .inl kept
  | wrote worker run version rows result old phase =>
    rcases setBuild_some there with ⟨rfl, new⟩ | kept
    · cases new
      exact .inr (.inr (.inr rfl))
    · exact .inl kept
  | finished worker lease renewed finished run result jobs old phase stored =>
    rcases setBuild_some there with ⟨rfl, new⟩ | kept
    · cases new
    · exact .inl kept
  | _ => exact .inl there

/-- A run stays a run of its version, and moves as the status column allows. -/
theorem run_stepped {s t : GraphSystem} {action : GraphAction} (ok : s.Ok)
    (step : Stepped s action t) {id : Nat} {old : GraphIndexRun}
    (row : getGraphIndexRun s.db id = some old) :
    ∃ run, getGraphIndexRun t.db id = some run ∧
      run.documentVersionId = old.documentVersionId ∧ old.status.Moves run.status := by
  rcases runs_changed ok step id with change | ⟨was, run, eq, new, running, succeeded, version⟩
  · cases change with
    | same eq => exact ⟨old, eq.trans row, rfl, .inl rfl⟩
    | created run none =>
      rw [row] at none
      cases none
    | started was run eq new unclosed running version =>
      cases eq.symm.trans row
      refine ⟨run, new, version, ?_⟩
      rcases unclosed with queued | already
      · exact .inr (.inl ⟨queued, running⟩)
      · exact .inl (running.trans already.symm)
    | failed was run eq new unclosed failed version =>
      cases eq.symm.trans row
      exact ⟨run, new, version, .inr (.inr (.inr ⟨unclosed, failed⟩))⟩
  · cases eq.symm.trans row
    exact ⟨run, new, version, .inr (.inr (.inl ⟨running, succeeded⟩))⟩

theorem Held.carry {s t : GraphSystem} {action : GraphAction} (ok : s.Ok)
    (step : Stepped s action t) {snapshot : GraphIndexBuildSnapshot} (held : Held s.db snapshot) :
    Held t.db snapshot := by
  have chunks := (docs_stepped ok step).2
  obtain ⟨run, found, version⟩ := held.run
  obtain ⟨run', found', same, _⟩ := run_stepped ok step found
  refine ⟨?_, run', found', same.trans version⟩
  rw [held.chunks]
  unfold listChunksForGraphIndex Db.chunksOf
  rw [chunks]

theorem step_ok {s t : GraphSystem} {action : GraphAction} (ok : s.Ok)
    (done : s.step action = some t) : t.Ok := by
  have step := stepped ok.runs ok.entities done
  obtain ⟨docs, chunks⟩ := docs_stepped ok step
  obtain ⟨runs, entities⟩ := runs_stepped ok step
  refine ⟨docs, chunks ▸ ok.chunks, runs, entities, ?_, ?_⟩
  · intro worker build snapshot there holds
    rcases phase_stepped step there with old | ⟨old, was, moves⟩ | ⟨payload, made, effect, phase⟩ |
      none
    · exact (ok.held worker build snapshot old holds).carry ok step
    · have kept : old.phase.snapshot = some snapshot := by
        generalize old.phase = before at moves
        generalize build.phase = phase at moves holds
        cases moves <;> first
          | exact holds
          | cases holds
      exact (ok.held worker old snapshot was kept).carry ok step
    · rw [phase] at holds
      cases holds
      refine ⟨?_, ?_⟩
      · rw [effect.chunks, effect.version, effect.run.tables.1]
      · obtain ⟨run, found, version⟩ := (runChange_prepared ok.runs effect.run _).2 rfl
        exact ⟨run, found, effect.version ▸ version⟩
    · rw [none] at holds
      cases holds
  · intro worker build snapshot result there phase
    rcases phase_stepped step there with old | ⟨old, was, moves⟩ | ⟨payload, made, _, other⟩ | none
    · exact ok.deduped worker build snapshot result old phase
    · rw [phase] at moves
      generalize old.phase = before at moves
      cases moves with
      | extracted => exact deduped_dedupeResult _
    · rw [phase] at other
      cases other
    · rw [phase] at none
      cases none

end Invariant

section Rows
variable [GraphText]

/-- The rows of a version are those of a result, entity by entity, with the counts of the run. -/
structure IndexedBy (result : GraphExtractionResult) (documentVersionId : Nat)
    (run : GraphIndexRun) (db : GraphDb) (entity : EntityKey → Option Nat) : Prop where
  deduped : Deduped result
  mentioned : ∀ m ∈ result.entityMentions, (entity m.entityKey).isSome
  keyed : ∀ key, (entity key).isSome → (∃ m ∈ result.entityMentions, m.entityKey = key) ∨
    key ∈ normalizedKeys (result.entityMentions.map (·.entityKey))
  named : ∀ key id, entity key = some id → ∃ row ∈ db.entities, row.graphEntityId = id ∧
    Names result.entityMentions key row
  injective : ∀ key other id, entity key = some id → entity other = some id → key = other
  mentions : (db.mentionsOf documentVersionId).map (·.columns) =
    result.entityMentions.map (mentionRow entity)
  relations : (db.relationsOf documentVersionId).map (·.columns) =
    result.relations.filterMap (relationRowOf entity)
  mentionCount : run.mentionCount = (db.mentionsOf documentVersionId).length
  relationCount : run.relationCount = (db.relationsOf documentVersionId).length
  entityCount : run.entityCount =
    ((db.mentionsOf documentVersionId).map (·.graphEntityId)).dedup.length

omit [GraphText] in
theorem mem_chunkIds {db : GraphDb} {documentVersionId id : Nat} :
    id ∈ db.chunkIds documentVersionId ↔ ∃ c ∈ db.docs.chunks,
      c.documentVersionId = documentVersionId ∧ c.documentChunkId = id := by
  simp [GraphDb.chunkIds, Db.chunksOf, and_assoc]

omit [GraphText] in
theorem chunk_version {db : GraphDb} (distinct : (db.docs.chunks.map (·.documentChunkId)).Nodup)
    {v w id : Nat} (first : id ∈ db.chunkIds v) (second : id ∈ db.chunkIds w) : v = w := by
  obtain ⟨c, member, rfl, sameId⟩ := mem_chunkIds.mp first
  obtain ⟨d, member', rfl, sameId'⟩ := mem_chunkIds.mp second
  rw [Table.unique distinct member member' (sameId.trans sameId'.symm)]

omit [GraphText] in
theorem Held.chunk_placed {db : GraphDb} {snapshot : GraphIndexBuildSnapshot}
    (held : Held db snapshot) {id : Nat} (member : id ∈ snapshot.chunks.map (·.documentChunkId)) :
    id ∈ db.chunkIds snapshot.documentVersionId := by
  rw [held.chunks] at member
  obtain ⟨c, inside, rfl⟩ := List.mem_map.mp member
  exact List.mem_map_of_mem ((List.mem_insertionSort _).mp inside)

variable {snapshot : GraphIndexBuildSnapshot} {result : GraphExtractionResult} {now : Time}
  {db base db' : GraphDb} {entity : EntityKey → Option Nat}
  {mentionRows : List GraphEntityMention} {relationRows : List GraphRelation}

/-- The rows of the version are the new ones; those of other versions stay. -/
theorem Replaced.mentionsOf (replaced : Replaced snapshot result now db db' entity mentionRows
    relationRows) (v : Nat) :
    db'.mentionsOf v = if v = snapshot.documentVersionId then mentionRows else db.mentionsOf v := by
  obtain ⟨entities, next, tables⟩ := replaced.tables
  have mentions : db'.mentions = db.mentions.filter
      (·.documentVersionId != snapshot.documentVersionId) ++ mentionRows := by rw [tables]
  unfold GraphDb.mentionsOf
  rw [mentions, List.filter_append, List.filter_filter]
  split
  · rename_i same
    have old : db.mentions.filter (fun m => m.documentVersionId == v &&
        m.documentVersionId != snapshot.documentVersionId) = [] := by
      refine List.filter_eq_nil_iff.mpr fun m _ => ?_
      simp [same]
    have new : mentionRows.filter (·.documentVersionId == v) = mentionRows := by
      refine List.filter_eq_self.mpr fun m member => ?_
      simp [same, (replaced.mentionsPlaced m member).1]
    rw [old, new, List.nil_append]
  · rename_i other
    have new : mentionRows.filter (·.documentVersionId == v) = [] := by
      refine List.filter_eq_nil_iff.mpr fun m member => ?_
      simp [(replaced.mentionsPlaced m member).1, Ne.symm other]
    rw [new, List.append_nil]
    refine List.filter_congr fun m _ => ?_
    by_cases hit : m.documentVersionId = v
    · simp [hit, other]
    · simp [hit]

theorem Replaced.relationsOf
    (replaced : Replaced snapshot result now db db' entity mentionRows relationRows)
    (distinct : (db.docs.chunks.map (·.documentChunkId)).Nodup)
    (placed : ∀ id ∈ snapshot.chunks.map (·.documentChunkId),
      id ∈ db.chunkIds snapshot.documentVersionId) (v : Nat) :
    db'.relationsOf v =
      if v = snapshot.documentVersionId then relationRows else db.relationsOf v := by
  obtain ⟨entities, next, tables⟩ := replaced.tables
  have relations : db'.relations = (db.relations.filter fun r =>
      !(db.chunkIds snapshot.documentVersionId).contains r.sourceDocumentChunkId) ++
        relationRows := by rw [tables]; rfl
  have chunkIds : db'.chunkIds v = db.chunkIds v := by rw [tables]; rfl
  unfold GraphDb.relationsOf
  rw [relations, chunkIds, List.filter_append, List.filter_filter]
  split
  · rename_i same
    have old : db.relations.filter (fun r => (db.chunkIds v).contains r.sourceDocumentChunkId &&
        !(db.chunkIds snapshot.documentVersionId).contains r.sourceDocumentChunkId) = [] := by
      refine List.filter_eq_nil_iff.mpr fun r _ => ?_
      simp [same]
    have new : relationRows.filter (fun r => (db.chunkIds v).contains r.sourceDocumentChunkId) =
        relationRows := by
      refine List.filter_eq_self.mpr fun r member => ?_
      simp [same, placed _ (replaced.relationsPlaced r member)]
    rw [old, new, List.nil_append]
  · rename_i other
    have new : relationRows.filter (fun r => (db.chunkIds v).contains r.sourceDocumentChunkId) =
        [] := by
      refine List.filter_eq_nil_iff.mpr fun r member => ?_
      have inside := placed _ (replaced.relationsPlaced r member)
      simp only [List.contains_eq_mem, decide_eq_true_eq]
      exact fun hit => other (chunk_version distinct hit inside)
    rw [new, List.append_nil]
    refine List.filter_congr fun r _ => ?_
    by_cases hit : r.sourceDocumentChunkId ∈ db.chunkIds v
    · have apart : r.sourceDocumentChunkId ∉ db.chunkIds snapshot.documentVersionId :=
        fun inside => other (chunk_version distinct hit inside)
      simp [hit, apart]
    · simp [hit]

theorem entityWrites_keys (mentions : List EntityMentionCandidate) {key : EntityKey}
    (listed : key ∈ normalizedKeys ((entityWrites mentions).map (·.key))) :
    key ∈ normalizedKeys (mentions.map (·.entityKey)) := by
  unfold normalizedKeys at listed ⊢
  obtain ⟨k, member, made⟩ := List.mem_filterMap.mp listed
  refine List.mem_filterMap.mpr ⟨k, ?_, made⟩
  obtain ⟨w, inside, rfl⟩ := List.mem_map.mp member
  obtain ⟨m, there, same, _⟩ := entityWrites_of_mention inside
  exact List.mem_map.mpr ⟨m, there, same⟩

theorem Replaced.indexed {run : GraphIndexRun} (deduped : Deduped result)
    (distinct : (base.docs.chunks.map (·.documentChunkId)).Nodup) (held : Held base snapshot)
    (replaced : Replaced snapshot result now (setGraphRun base snapshot.graphIndexRunId
      (mergeMetadata result.metadataJson)) db' entity mentionRows relationRows)
    (counts : run.entityCount =
      (result.entityMentions.filterMap fun m => entity m.entityKey).dedup.length ∧
      run.relationCount = relationRows.length ∧ run.mentionCount = mentionRows.length) :
    IndexedBy result snapshot.documentVersionId run db' entity := by
  have mentions := replaced.mentionsOf snapshot.documentVersionId
  have placed : ∀ id ∈ snapshot.chunks.map (·.documentChunkId), id ∈ (setGraphRun base
      snapshot.graphIndexRunId (mergeMetadata result.metadataJson)).chunkIds
        snapshot.documentVersionId := fun _ member => held.chunk_placed member
  have relations := replaced.relationsOf distinct placed snapshot.documentVersionId
  rw [if_pos rfl] at mentions relations
  refine ⟨deduped, replaced.mentioned,
    fun key hit => (replaced.keyed key hit).imp_right (entityWrites_keys _), replaced.named,
    replaced.injective, ?_, ?_, ?_, ?_, ?_⟩
  · rw [mentions]
    exact replaced.mentions
  · rw [relations]
    exact replaced.relations
  · rw [mentions]
    exact counts.2.2
  · rw [relations]
    exact counts.2.1
  · have ids : mentionRows.map (·.graphEntityId) =
        result.entityMentions.filterMap fun m => entity m.entityKey := by
      calc mentionRows.map (·.graphEntityId)
          = (mentionRows.map (·.columns)).map (·.graphEntityId) := by
            rw [List.map_map]
            rfl
        _ = result.entityMentions.map fun m => (entity m.entityKey).getD 0 := by
            rw [replaced.mentions, List.map_map]
            rfl
        _ = result.entityMentions.filterMap fun m => some ((entity m.entityKey).getD 0) := by
            rw [← List.filterMap_eq_map]
            rfl
        _ = result.entityMentions.filterMap fun m => entity m.entityKey := by
            refine List.filterMap_congr fun m member => ?_
            obtain ⟨id, found⟩ := Option.isSome_iff_exists.mp (replaced.mentioned m member)
            rw [found]
            rfl
    rw [mentions, ids]
    exact counts.1

end Rows

section Theorem
variable [GraphText]

/-- A transaction that leaves a run succeeded: it belongs to a worker that persists its own
extraction result under this run, whose version it makes show that result. -/
structure Succeeded (s t : GraphSystem) (run : GraphIndexRun) (documentVersionId : Nat)
    (result : GraphExtractionResult) : Prop where
  worker : ∃ worker build snapshot, s.builds worker = some build ∧
    build.phase = .persist snapshot result ∧ snapshot.graphIndexRunId = run.graphIndexRunId ∧
    snapshot.documentVersionId = documentVersionId
  version : run.documentVersionId = some documentVersionId
  status : run.status = .succeeded
  rows : ∃ entity, IndexedBy result documentVersionId run t.db entity

/-- The rows of a version are the same in both states. -/
def SameArtifacts (s t : GraphSystem) (documentVersionId : Nat) : Prop :=
  t.db.mentionsOf documentVersionId = s.db.mentionsOf documentVersionId ∧
    t.db.relationsOf documentVersionId = s.db.relationsOf documentVersionId

/-- A step either replaces the rows of one version under one run, or leaves all rows. -/
theorem artifacts_stepped {s t : GraphSystem} {action : GraphAction} (ok : s.Ok)
    (step : Stepped s action t) :
    ((∀ v, SameArtifacts s t v) ∧
      ∀ id, RunChange (getGraphIndexRun s.db id) (getGraphIndexRun t.db id)) ∨
    ∃ v run result, Succeeded s t run v result ∧
      getGraphIndexRun t.db run.graphIndexRunId = some run ∧
      (∀ w, w ≠ v → SameArtifacts s t w) ∧
      ∀ id, id ≠ run.graphIndexRunId → getGraphIndexRun t.db id = getGraphIndexRun s.db id := by
  have kept (mentions : t.db.mentions = s.db.mentions) (relations : t.db.relations = s.db.relations)
      (v : Nat) : SameArtifacts s t v := by
    unfold SameArtifacts GraphDb.mentionsOf GraphDb.relationsOf GraphDb.chunkIds Db.chunksOf
    rw [mentions, relations, (docs_stepped ok step).2]
    exact ⟨rfl, rfl⟩
  cases step with
  | prepared worker now fault build payload db snapshot there phase effect =>
    obtain ⟨_, _, _, mentions, relations, _⟩ := effect.run.tables
    exact .inl ⟨kept mentions relations, fun id => (runChange_prepared ok.runs effect.run id).1⟩
  | runFailed _ worker build runId code db acts there phase unclosed owned failed =>
    obtain ⟨run, found, unclosed⟩ := unclosed
    refine .inl ⟨?_, runChange_failed found unclosed failed⟩
    obtain ⟨g, rfl, _⟩ := failed.tables
    exact kept rfl rfl
  | replaced worker now fault build snapshot result db entity mentionRows relationRows json there
      phase running owned replaced =>
    right
    obtain ⟨run, found, running⟩ := running
    have held := ok.held worker build snapshot there (by rw [phase]; rfl)
    have deduped := ok.deduped worker build snapshot result there phase
    obtain ⟨last, foundLast, eq⟩ := replaced.run found
    have lastId := (Table.mem_of_row foundLast).2
    have placed : ∀ id ∈ snapshot.chunks.map (·.documentChunkId), id ∈ (setGraphRun s.db
        snapshot.graphIndexRunId (mergeMetadata result.metadataJson)).chunkIds
          snapshot.documentVersionId := fun _ member => held.chunk_placed member
    have version : last.documentVersionId = some snapshot.documentVersionId := by
      obtain ⟨row, foundRow, same⟩ := held.run
      cases foundRow.symm.trans found
      rw [eq]
      exact same
    refine ⟨snapshot.documentVersionId, last, result,
      ⟨⟨worker, build, snapshot, there, phase, lastId.symm, rfl⟩, version, by rw [eq]; rfl, entity,
        ?_⟩, lastId.symm ▸ foundLast, fun w other => ?_, fun id other => ?_⟩
    · exact replaced.indexed deduped ok.chunks held (by rw [eq]; exact ⟨rfl, rfl, rfl⟩)
    · have mentions := replaced.mentionsOf w
      have relations := replaced.relationsOf ok.chunks placed w
      rw [if_neg other] at mentions relations
      exact ⟨mentions, relations⟩
    · exact (runs_replaced found running replaced).2 id (fun h => other (h.trans lastId.symm))
  | _ => exact .inl ⟨kept rfl rfl, fun id => .same rfl⟩

/-- Replacement is atomic, in every step that any run of the workers reaches. -/
theorem replaces_atomically (start s t : GraphSystem) (actions : List GraphAction)
    (action : GraphAction) (initial : GraphStart start)
    (run : exec GraphSystem.step start actions = some s) (done : s.step action = some t) :
    (∀ id before after, getGraphIndexRun s.db id = some before → before.status ≠ .failed →
      getGraphIndexRun t.db id = some after → after.status = .failed →
      ∀ v, SameArtifacts s t v) ∧
    (∀ id after, getGraphIndexRun t.db id = some after → after.status = .succeeded →
      (∀ before, getGraphIndexRun s.db id = some before → before.status ≠ .succeeded) →
      ∃ v result, Succeeded s t after v result) ∧
    (∀ v, SameArtifacts s t v ∨ ∃ after result, Succeeded s t after v result) ∧
    (∀ id before, getGraphIndexRun s.db id = some before →
      ∃ after, getGraphIndexRun t.db id = some after ∧ before.status.Moves after.status) ∧
    (∀ id after, getGraphIndexRun s.db id = none → getGraphIndexRun t.db id = some after →
      after.status = .running) := by
  have one (s : GraphSystem) (action : GraphAction) (t : GraphSystem) (ok : s.Ok) (_ : True)
      (done : s.step action = some t) : t.Ok := step_ok ok done
  have ok : s.Ok := (run_of_exec run).preserves one initial.ok
  have step := stepped ok.runs ok.entities done
  have artifacts := artifacts_stepped ok step
  refine ⟨?_, ?_, ?_, ?_, ?_⟩
  · intro id before after was unfailed is failed v
    rcases artifacts with ⟨same, _⟩ | ⟨w, run, result, succeeded, found, _, others⟩
    · exact same v
    · exfalso
      by_cases hit : id = run.graphIndexRunId
      · rw [hit, found] at is
        cases is
        cases succeeded.status.symm.trans failed
      · rw [others id hit, was] at is
        cases is
        exact unfailed failed
  · intro id after is succeeded unsucceeded
    rcases artifacts with ⟨_, changes⟩ | ⟨w, run, result, closes, found, _, others⟩
    · exfalso
      cases changes id with
      | same eq => exact unsucceeded after (eq ▸ is) succeeded
      | created run _ eq status | started _ run _ eq _ status | failed _ run _ eq _ status =>
        cases eq.symm.trans is
        cases status.symm.trans succeeded
    · by_cases hit : id = run.graphIndexRunId
      · rw [hit, found] at is
        cases is
        exact ⟨w, result, closes⟩
      · rw [others id hit] at is
        exact absurd succeeded (unsucceeded after is)
  · intro v
    rcases artifacts with ⟨same, _⟩ | ⟨w, run, result, closes, _, others, _⟩
    · exact .inl (same v)
    · by_cases hit : v = w
      · exact .inr ⟨run, result, hit ▸ closes⟩
      · exact .inl (others v hit)
  · intro id before was
    obtain ⟨after, is, _, moves⟩ := run_stepped ok step was
    exact ⟨after, is, moves⟩
  · intro id after was is
    rcases runs_changed ok step id with change | ⟨old, _, eq, _⟩
    · cases change with
      | same eq => cases (eq.trans was).symm.trans is
      | created run _ eq status =>
        cases eq.symm.trans is
        exact status
      | started old _ eq | failed old _ eq => cases eq.symm.trans was
    · cases eq.symm.trans was

end Theorem

section Runs

/-- One ready version with one chunk, and one queued graph job of it. -/
def graphStart : GraphSystem where
  db :=
    { docs :=
        { documents := [⟨1, 1, "handbook", .active, none, 0, 0⟩]
          versions := [⟨1, 1, 1, "", .ready, true, none, "handbook.md", "text/markdown", 1, none,
            none, none, none, none, 1, 0, 0⟩]
          chunks := [⟨1, 1, 0, "", "text", none, none, none, none, none, none, "text", 0⟩]
          jobs := [@newJob asciiTables 1 "graph_index_build" (some "document_version") (some 1)
            (some [("job_type", .str "graph_index_build"), ("document_version_id", .int 1)]) none
            80 0]
          nextJobId := 2
          corpusMarker := none
          graphIndexing := some (.bool true)
          graphExtractor := none }
      runs := []
      entities := []
      mentions := []
      relations := []
      nextRunId := 1
      nextEntityId := 1
      nextMentionId := 1
      nextRelationId := 1 }
  neo := ⟨[], [], [], []⟩
  builds _ := none

/-- A text hash. -/
def textHash : String := String.ofList (List.replicate 64 '0')

/-- One mention, and a relation to something that is not mentioned. -/
def danglingResult : GraphExtractionResult where
  entityMentions := [⟨"Qdrant", "technology", [], 1, 1, textHash, 0, 6, 1⟩]
  relations := [⟨("qdrant", "technology"), ("neo4j", "technology"), "uses", "uses", 1, 1, textHash⟩]
  metadataJson := []

def danglingRun : List GraphAction :=
  [.lease (.acquireJobs "a" none none 60 1 [] 10), .begin "a" 1, .prepare "a" 11 none,
   .extract "a" (some danglingResult)]

/-- The run succeeds with one mention row and without a row for the relation. -/
theorem dangling_relation_skipped :
    let _ : GraphText := asciiGraphText
    (exec GraphSystem.step graphStart (danglingRun ++ [.persist "a" 12 none])).any fun s =>
      s.db.runs.map (·.status) == [.succeeded] && (s.db.mentionsOf 1).length == 1 &&
        (dedupeResult danglingResult).relations.length == 1 && (s.db.relationsOf 1).isEmpty := by
  decide +kernel

theorem graphStart_start : GraphStart graphStart := by
  refine ⟨⟨by decide, by decide, by decide, by decide, by decide, by decide,
    ⟨by decide, ?_, ?_⟩, ?_⟩, by decide, ⟨by decide, by decide⟩, ⟨by decide, by decide⟩,
    fun _ => rfl⟩
  · decide
  · decide
  · decide

/-- The persist transaction of one build: its run ends succeeded, by a result that its rows show. -/
theorem replaces_atomically_once :
    let _ : GraphText := asciiGraphText
    ∃ s t after v result, exec GraphSystem.step graphStart danglingRun = some s ∧
      s.step (.persist "a" 12 none) = some t ∧ getGraphIndexRun t.db 1 = some after ∧
      Succeeded s t after v result := by
  intro _
  have completes : ((exec GraphSystem.step graphStart danglingRun).bind fun s =>
      (s.step (.persist "a" 12 none)).map fun t => (s, t)).any (fun p =>
        (getGraphIndexRun p.1.db 1).all (·.status != .succeeded) &&
        (getGraphIndexRun p.2.db 1).any (·.status == .succeeded)) = true := by
    decide +kernel
  obtain ⟨⟨s, t⟩, both, status⟩ := (Option.any_eq_true _ _).mp completes
  obtain ⟨s', done, rest⟩ := Option.bind_eq_some_iff.mp both
  obtain ⟨t', last, eq⟩ := Option.map_eq_some_iff.mp rest
  cases eq
  obtain ⟨before, after⟩ := Bool.and_eq_true_iff.mp status
  obtain ⟨run, found, succeeded⟩ := (Option.any_eq_true _ _).mp after
  have unsucceeded : ∀ r, getGraphIndexRun s.db 1 = some r → r.status ≠ .succeeded := by
    intro r row
    rw [row] at before
    simpa using before
  obtain ⟨v, result, closes⟩ := (replaces_atomically graphStart s t danglingRun _ graphStart_start
    done last).2.1 1 run found (beq_iff_eq.mp succeeded) unsucceeded
  exact ⟨s, t, run, v, result, done, last, found, closes⟩

end Runs

end RagProject.Graph
