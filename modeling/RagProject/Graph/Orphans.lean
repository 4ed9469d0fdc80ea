import RagProject.Graph.Replacement

/-! Orphaned runs: a run that is queued or running after its job has ended and every worker has
left it. The second worker of a job does not know the run that the first one prepared, so the
runs in which none is orphaned are those in which no worker leaves an open run behind. -/
namespace RagProject.Graph
open Python Jobs Documents Interleaving

section Orphans
variable [GraphText]

/-- The run that the payload of a graph job names. -/
def payloadRun (job : Job) : Option Nat :=
  if job.jobType = "graph_index_build" then (graphIndexRequest job).bind (·.graphIndexRunId)
  else none

theorem graph_of_payloadRun {job : Job} {runId : Nat} (names : payloadRun job = some runId) :
    job.jobType = "graph_index_build" := by
  unfold payloadRun at names
  split at names
  · assumption
  · cases names

theorem payloadRun_content {job job' : Job} (same : job'.content = job.content) :
    payloadRun job' = payloadRun job := by
  simp only [Job.content, Prod.mk.injEq] at same
  obtain ⟨_, jobType, _, targetType, targetId, payload, _⟩ := same
  unfold payloadRun graphIndexRequest
  rw [jobType, targetType, targetId, payload]

def Unfinished (job : Job) : Prop := job.status ≠ .succeeded ∧ job.status ≠ .failed

/-- A run that is queued or running for a job. -/
structure OpenFor (db : GraphDb) (jobId : Nat) (run : GraphIndexRun) : Prop where
  row : getGraphIndexRun db run.graphIndexRunId = some run
  unclosed : run.status.open
  job : run.jobId = some jobId

/-- The worker knows the run: it has prepared it, or the payload of its job names it. -/
def Knows (build : BuildRun) (job : Job) (runId : Nat) : Prop :=
  build.runId = some runId ∨ payloadRun job = some runId

/-- The condition: a worker leaves the handler only when each open run of its job that it knows is
named by the payload of the job, and the job is still unfinished afterwards. -/
def NothingLeftOpen (s : GraphSystem) (action : GraphAction) : Prop :=
  ∀ t worker build job run, s.step action = some t → s.builds worker = some build →
    t.builds worker = none → getJob s.db.docs.jobs build.jobId = some job →
    OpenFor s.db build.jobId run → Knows build job run.graphIndexRunId →
    payloadRun job = some run.graphIndexRunId ∧
      ∃ job', getJob t.db.docs.jobs build.jobId = some job' ∧ Unfinished job'

/-- Somebody will close the run: a worker that knows it, or the next one to take the job. -/
inductive Attended (s : GraphSystem) (runId : Nat) (job : Job) : Prop where
  | known (worker : String) (build : BuildRun) : s.builds worker = some build →
      build.jobId = job.jobId → Knows build job runId → Attended s runId job
  | named : payloadRun job = some runId → Unfinished job → Attended s runId job

structure Attending (s : GraphSystem) : Prop where
  ok : s.Ok
  unprepared : ∀ worker build payload, s.builds worker = some build →
    build.phase = .prepare payload → build.runId = none
  attended : ∀ jobId run, OpenFor s.db jobId run →
    ∃ job, getJob s.db.docs.jobs jobId = some job ∧ Attended s run.graphIndexRunId job

/-- No worker is in the handler, and a run that is open for a job is named by its payload. -/
structure OrphanStart (s : GraphSystem) : Prop extends GraphStart s where
  named : ∀ jobId run, OpenFor s.db jobId run → ∃ job, getJob s.db.docs.jobs jobId = some job ∧
    payloadRun job = some run.graphIndexRunId ∧ Unfinished job

theorem OrphanStart.attending {s : GraphSystem} (start : OrphanStart s) : Attending s := by
  refine ⟨start.toGraphStart.ok, ?_, ?_⟩
  · intro worker build payload there
    rw [start.idle worker] at there
    cases there
  · intro jobId run unclosed
    obtain ⟨job, found, names, unfinished⟩ := start.named jobId run unclosed
    exact ⟨job, found, .named names unfinished⟩

theorem Attended.kept {s t : GraphSystem} {runId : Nat} {job job' : Job}
    (attended : Attended s runId job) (content : job'.content = job.content)
    (unfinished : job.jobType = "graph_index_build" → Unfinished job → Unfinished job')
    (builds : ∀ worker build, s.builds worker = some build → t.builds worker = some build) :
    Attended t runId job' := by
  have id : job'.jobId = job.jobId := congrArg Prod.fst content
  cases attended with
  | known worker build there sameJob knows =>
    refine .known worker build (builds worker build there) (sameJob.trans id.symm) ?_
    unfold Knows at knows ⊢
    rw [payloadRun_content content]
    exact knows
  | named names open_ =>
    exact .named ((payloadRun_content content).trans names)
      (unfinished (graph_of_payloadRun names) open_)

/-- A worker that goes on with its job still knows what it knew. -/
theorem Attended.goes_on {s t : GraphSystem} {runId : Nat} {job : Job} {worker : String}
    {build next : BuildRun} (attended : Attended s runId job)
    (there : s.builds worker = some build)
    (builds : t.builds = (s.setBuild worker (some next)).builds)
    (sameJob : next.jobId = build.jobId)
    (sameRun : build.runId = none ∨ next.runId = build.runId) : Attended t runId job := by
  cases attended with
  | named names unfinished => exact .named names unfinished
  | known w old holds ofJob knows =>
    by_cases same : w = worker
    · subst same
      cases there.symm.trans holds
      refine .known w next (by rw [builds]; simp [GraphSystem.setBuild]) (sameJob.trans ofJob) ?_
      rcases knows with prepared | named
      · rcases sameRun with none | eq
        · rw [none] at prepared
          cases prepared
        · exact .inl (eq.trans prepared)
      · exact .inr named
    · refine .known w old ?_ ofJob knows
      rw [builds]
      simp only [GraphSystem.setBuild, if_neg same]
      exact holds

/-- A worker leaves, and the run is attended by others or by the next worker. -/
theorem Attended.leaves {s t : GraphSystem} {runId : Nat} {job job' : Job} {worker : String}
    (attended : Attended s runId job) (builds : t.builds = (s.setBuild worker none).builds)
    (content : job'.content = job.content)
    (condition : ∀ build, s.builds worker = some build → build.jobId = job.jobId →
      Knows build job runId → payloadRun job = some runId ∧ Unfinished job')
    (others : (∀ build, s.builds worker = some build → build.jobId ≠ job.jobId) →
      job.jobType = "graph_index_build" → Unfinished job → Unfinished job') :
    Attended t runId job' := by
  have id : job'.jobId = job.jobId := congrArg Prod.fst content
  have next (carried : payloadRun job = some runId ∧ Unfinished job') : Attended t runId job' :=
    .named ((payloadRun_content content).trans carried.1) carried.2
  cases attended with
  | named names unfinished =>
    by_cases mine : ∃ build, s.builds worker = some build ∧ build.jobId = job.jobId
    · obtain ⟨build, there, ofJob⟩ := mine
      exact next (condition build there ofJob (.inr names))
    · exact next ⟨names, others (fun build there ofJob => mine ⟨build, there, ofJob⟩)
        (graph_of_payloadRun names) unfinished⟩
  | known w build holds ofJob knows =>
    by_cases same : w = worker
    · subst same
      exact next (condition build holds ofJob knows)
    · refine .known w build ?_ (ofJob.trans id.symm) ?_
      · rw [builds]
        simp only [GraphSystem.setBuild, if_neg same]
        exact holds
      · unfold Knows at knows ⊢
        rw [payloadRun_content content]
        exact knows

end Orphans

section Jobs
variable [GraphText]

omit [GraphText] in
theorem getJob_append {jobs extra : List Job} {id : Nat} {job : Job}
    (found : getJob jobs id = some job) : getJob (jobs ++ extra) id = some job := by
  unfold getJob Table.row at found ⊢
  rw [List.find?_append, found]
  rfl

/-- A graph job stays unfinished in a step in which no worker of it leaves. -/
theorem jobs_kept {s t : GraphSystem} {action : GraphAction} (ok : s.Ok)
    (step : Stepped s action t) {id : Nat} {job : Job}
    (found : getJob s.db.docs.jobs id = some job) :
    ∃ job', getJob t.db.docs.jobs id = some job' ∧ job'.content = job.content ∧
      (job.jobType = "graph_index_build" → Unfinished job →
        (∀ worker build, s.builds worker = some build → t.builds worker = none →
          build.jobId ≠ id) → Unfinished job') := by
  have same (h : t.db.docs.jobs = s.db.docs.jobs) :
      ∃ job', getJob t.db.docs.jobs id = some job' ∧ job'.content = job.content ∧
        (job.jobType = "graph_index_build" → Unfinished job →
          (∀ worker build, s.builds worker = some build → t.builds worker = none →
            build.jobId ≠ id) → Unfinished job') :=
    ⟨job, by rw [h]; exact found, rfl, fun _ open_ _ => open_⟩
  cases step with
  | approved request document version docs response done =>
    rcases approveVersion_ok ok.docs done with rfl | ⟨_, _, _, _, _, _, effect⟩
    · exact same rfl
    · obtain ⟨graphs, jobs, _⟩ := effect.jobs
      refine ⟨job, ?_, rfl, fun _ open_ _ => open_⟩
      simp only [jobs]
      exact getJob_append found
  | archived request document docs response done =>
    rcases archiveDocument_ok ok.docs done with rfl | ⟨_, _, _, effect⟩
    · exact same rfl
    · obtain ⟨graphs, jobs, _⟩ := effect.jobs
      refine ⟨job, ?_, rfl, fun _ open_ _ => open_⟩
      simp only [jobs]
      exact getJob_append found
  | leased call permitted =>
    obtain ⟨job', found', effect⟩ := commit_getJob call ok.docs.jobs found
    obtain ⟨member, rfl⟩ := getJob_mem found
    have id' := effect.sameId
    refine ⟨job', found', effect.content, fun graph open_ _ => ⟨fun succeeded => ?_, fun failed => ?_⟩⟩
    · rcases effect.succeeded succeeded with before | ⟨worker, result, now, rfl⟩
      · exact open_.1 before
      · simp [GraphSystem.permits, found, graph] at permitted
    · rcases commit_failed call ok.docs.jobs.distinct (getJob_mem found').1 failed with
        old | ⟨worker, code, message, now, rfl⟩
      · have row := Table.unique ok.docs.jobs.distinct old member id'
        exact open_.2 (row ▸ failed)
      · simp [GraphSystem.permits, id', found, graph] at permitted
  | finished worker lease renewed finished build result jobs there phase stored =>
    obtain ⟨_, _, g, rfl, effect⟩ := storeTerminalResult_ok ok.docs.jobs stored
    obtain ⟨member, rfl⟩ := getJob_mem found
    obtain ⟨content, status⟩ := effect job member
    have row : getJob (s.db.docs.jobs.map g) job.jobId = some (g job) := by
      rw [getJob_map fun j inside => congrArg Prod.fst (effect j inside).1, found]
      rfl
    refine ⟨g job, row, content, fun _ open_ other => ?_⟩
    split at status
    · rename_i owned
      have gone : (s.setBuild worker none).builds worker = none := by simp [GraphSystem.setBuild]
      exact absurd (ownedBy_iff.mp owned).1.symm (other worker build there gone)
    · rw [status]
      exact open_
  | prepared worker now fault build payload db snapshot there phase effect =>
    exact same (congrArg _ effect.run.tables.1)
  | runFailed _ worker build runId code db acts there phase unclosed owned failed =>
    obtain ⟨g, rfl, _⟩ := failed.tables
    exact same rfl
  | replaced worker now fault build snapshot result db entity mentionRows relationRows json there
      phase running owned replaced =>
    obtain ⟨entities, next, rfl⟩ := replaced.tables
    exact same rfl
  | _ => exact same rfl

end Jobs

section Steps
variable [GraphText]

/-- The workers stay as they are, one goes on with its job, or one leaves. -/
inductive BuildsChange (s t : GraphSystem) : Prop where
  | kept : (∀ worker build, s.builds worker = some build → t.builds worker = some build) →
      BuildsChange s t
  | goes_on (worker : String) (build next : BuildRun) : s.builds worker = some build →
      t.builds = (s.setBuild worker (some next)).builds → next.jobId = build.jobId →
      ((∃ payload, build.phase = .prepare payload) ∨ next.runId = build.runId) → BuildsChange s t
  | leaves (worker : String) : t.builds = (s.setBuild worker none).builds → BuildsChange s t

theorem builds_stepped {s t : GraphSystem} {action : GraphAction} (step : Stepped s action t) :
    BuildsChange s t := by
  cases step with
  | began worker job phase idle =>
    refine .kept fun w build there => ?_
    have other : w ≠ worker := by
      intro same
      rw [same, idle] at there
      cases there
    simp only [GraphSystem.setBuild, if_neg other]
    exact there
  | prepared worker now fault build payload db snapshot there phase effect =>
    exact .goes_on worker build _ there rfl rfl (.inl ⟨payload, phase⟩)
  | moved _ worker build phase acts there => exact .goes_on worker build _ there rfl rfl (.inr rfl)
  | left _ worker => exact .leaves worker rfl
  | runFailed _ worker build runId code db acts there =>
    exact .goes_on worker build _ there rfl rfl (.inr rfl)
  | replaced worker now fault build snapshot result db entity mentionRows relationRows json there =>
    exact .goes_on worker build _ there rfl rfl (.inr rfl)
  | wrote worker build version rows result there =>
    exact .goes_on worker build _ there rfl rfl (.inr rfl)
  | finished worker => exact .leaves worker rfl
  | _ => exact .kept fun _ _ there => there

omit [GraphText] in
theorem open_prepared {payload : GraphIndexJobPayload} {buildJob id jobId : Nat}
    {db db' : GraphDb} {run : GraphIndexRun} (runs : RunsOk db)
    (prepared : RunPrepared payload buildJob db db' id) (unclosed : OpenFor db' jobId run) :
    (∃ old, OpenFor db jobId old ∧ old.graphIndexRunId = run.graphIndexRunId) ∨
      (run.graphIndexRunId = id ∧ jobId = buildJob) := by
  have row := unclosed.row
  cases prepared with
  | created new newId running ofJob =>
    by_cases hit : run.graphIndexRunId = db.nextRunId
    · right
      have there : getGraphIndexRun { db with
          runs := db.runs ++ [new], nextRunId := db.nextRunId + 1 } new.graphIndexRunId =
          some new := by
        refine Table.row_append_new fun r member => ?_
        have := runs.fresh r member
        omega
      rw [newId.trans hit.symm, row] at there
      cases there
      exact ⟨newId, Option.some.inj (unclosed.job.symm.trans ofJob)⟩
    · left
      have same : getGraphIndexRun { db with
          runs := db.runs ++ [new], nextRunId := db.nextRunId + 1 } run.graphIndexRunId =
          getGraphIndexRun db run.graphIndexRunId :=
        Table.row_append_other fun h => hit (h.symm.trans newId)
      exact ⟨run, ⟨same.symm.trans row, unclosed.unclosed, unclosed.job⟩, rfl⟩
  | resumed old new named found wasOpen version newId running ofJob =>
    have set := getGraphIndexRun_set db old.graphIndexRunId (fun _ => new)
      (fun r hit => newId.trans hit.symm) run.graphIndexRunId
    rw [row] at set
    by_cases hit : run.graphIndexRunId = old.graphIndexRunId
    · rw [hit, found, Option.map_some, if_pos rfl] at set
      cases set
      cases was : old.jobId with
      | none =>
        rw [was] at ofJob
        exact .inr ⟨hit, Option.some.inj (unclosed.job.symm.trans ofJob)⟩
      | some j =>
        rw [was] at ofJob
        have same := unclosed.job.symm.trans ofJob
        exact .inl ⟨old, ⟨found, wasOpen, was.trans same.symm⟩, hit.symm⟩
    · cases before : getGraphIndexRun db run.graphIndexRunId with
      | none =>
        rw [before] at set
        cases set
      | some r =>
        have other : r.graphIndexRunId ≠ old.graphIndexRunId := by
          rw [(Table.mem_of_row before).2]
          exact hit
        rw [before, Option.map_some, if_neg other] at set
        cases set
        exact .inl ⟨run, ⟨before, unclosed.unclosed, unclosed.job⟩, rfl⟩

omit [GraphText] in
theorem open_failed {runId jobId : Nat} {code : String} {db db' : GraphDb} {run : GraphIndexRun}
    (failed : RunFailed runId db db' code) (unclosed : OpenFor db' jobId run) :
    OpenFor db jobId run := by
  obtain ⟨g, rfl, same⟩ := failed.tables
  have set := getGraphIndexRun_set db runId g (fun r _ => (same r).1) run.graphIndexRunId
  rw [unclosed.row] at set
  cases before : getGraphIndexRun db run.graphIndexRunId with
  | none =>
    rw [before] at set
    cases set
  | some r =>
    rw [before, Option.map_some] at set
    split at set
    · cases set
      rcases unclosed.unclosed with h | h <;> cases (same r).2.1.symm.trans h
    · cases set
      exact ⟨before, unclosed.unclosed, unclosed.job⟩

/-- An open run was open before the step, under the same job, or its worker has just opened it. -/
theorem open_stepped {s t : GraphSystem} {action : GraphAction} (ok : s.Ok)
    (step : Stepped s action t) {jobId : Nat} {run : GraphIndexRun}
    (unclosed : OpenFor t.db jobId run) :
    (∃ old, OpenFor s.db jobId old ∧ old.graphIndexRunId = run.graphIndexRunId) ∨
      ∃ worker build job, t.builds worker = some build ∧ build.jobId = jobId ∧
        build.runId = some run.graphIndexRunId ∧ getJob s.db.docs.jobs jobId = some job := by
  have same (row : getGraphIndexRun t.db run.graphIndexRunId =
      getGraphIndexRun s.db run.graphIndexRunId) :
      ∃ old, OpenFor s.db jobId old ∧ old.graphIndexRunId = run.graphIndexRunId :=
    ⟨run, ⟨row ▸ unclosed.row, unclosed.unclosed, unclosed.job⟩, rfl⟩
  cases step with
  | prepared worker now fault build payload db snapshot there phase effect =>
    rcases open_prepared ok.runs effect.run unclosed with old | ⟨hit, rfl⟩
    · exact .inl old
    · right
      obtain ⟨job, member, owned⟩ := effect.owned
      have found := getJob_of_mem ok.docs.jobs.distinct member
      rw [(ownedBy_iff.mp owned).1] at found
      exact ⟨worker, ⟨build.jobId, some snapshot.graphIndexRunId, .extract snapshot⟩, job,
        by simp [GraphSystem.setBuild], rfl, by rw [hit], found⟩
  | runFailed _ worker build runId code db acts there phase open_ owned failed =>
    exact .inl ⟨run, open_failed failed unclosed, rfl⟩
  | replaced worker now fault build snapshot result db entity mentionRows relationRows json there
      phase running owned replaced =>
    obtain ⟨old, found, running⟩ := running
    obtain ⟨⟨_, last, _, foundLast, _, succeeded, _⟩, others⟩ :=
      runs_replaced found running replaced
    by_cases hit : run.graphIndexRunId = snapshot.graphIndexRunId
    · have row := unclosed.row
      rw [hit] at row
      cases foundLast.symm.trans row
      rcases unclosed.unclosed with h | h <;> cases succeeded.symm.trans h
    · exact .inl (same (others _ hit))
  | _ => exact .inl (same rfl)

theorem unprepared_stepped {s t : GraphSystem} {action : GraphAction} (step : Stepped s action t)
    (inv : ∀ worker build payload, s.builds worker = some build →
      build.phase = .prepare payload → build.runId = none)
    {w : String} {build : BuildRun} {payload : GraphIndexJobPayload}
    (there : t.builds w = some build) (phase : build.phase = .prepare payload) :
    build.runId = none := by
  cases step with
  | began worker job start idle =>
    rcases setBuild_some there with ⟨_, new⟩ | old
    · cases new
      rfl
    · exact inv w build payload old phase
  | prepared | replaced | wrote | runFailed =>
    rcases setBuild_some there with ⟨_, new⟩ | old
    · cases new
      cases phase
    · exact inv w build payload old phase
  | moved _ worker run next acts old moves =>
    rcases setBuild_some there with ⟨_, new⟩ | kept
    · cases new
      rw [show next = .prepare payload from phase] at moves
      generalize run.phase = before at moves
      cases moves
    · exact inv w build payload kept phase
  | left | finished =>
    rcases setBuild_some there with ⟨_, new⟩ | kept
    · cases new
    · exact inv w build payload kept phase
  | _ => exact inv w build payload there phase

theorem attending_step {s t : GraphSystem} {action : GraphAction} (inv : Attending s)
    (condition : NothingLeftOpen s action) (done : s.step action = some t) : Attending t := by
  have ok := inv.ok
  have step := stepped ok.runs ok.entities done
  refine ⟨step_ok ok done, ?_, ?_⟩
  · exact fun worker build payload => unprepared_stepped step inv.unprepared
  · intro jobId run unclosed
    rcases open_stepped ok step unclosed with ⟨old, wasOpen, sameRun⟩ |
      ⟨worker, build, job, there, rfl, prepared, found⟩
    · obtain ⟨job, found, attended⟩ := inv.attended jobId old wasOpen
      obtain ⟨job', found', content, unfinished⟩ := jobs_kept ok step found
      obtain ⟨_, rfl⟩ := getJob_mem found
      refine ⟨job', found', ?_⟩
      rw [sameRun] at attended
      cases builds_stepped step with
      | kept builds =>
        refine attended.kept content (fun graph open_ => unfinished graph open_ ?_) builds
        intro worker build there gone
        rw [builds worker build there] at gone
        cases gone
      | goes_on worker build next there builds sameJob sameKnown =>
        have mid : Attended t run.graphIndexRunId job := by
          refine attended.goes_on there builds sameJob ?_
          rcases sameKnown with ⟨payload, phase⟩ | same
          · exact .inl (inv.unprepared worker build payload there phase)
          · exact .inr same
        refine mid.kept content (fun graph open_ => unfinished graph open_ ?_) fun _ _ h => h
        intro w b was gone
        rw [builds] at gone
        simp only [GraphSystem.setBuild] at gone
        split at gone
        · cases gone
        · rw [was] at gone
          cases gone
      | leaves worker builds =>
        have gone : t.builds worker = none := by
          rw [builds]
          simp [GraphSystem.setBuild]
        refine attended.leaves builds content ?_ ?_
        · intro build there ofJob knows
          rw [← sameRun] at knows ⊢
          obtain ⟨names, later, foundLater, open_⟩ := condition t worker build job old done there
            gone (ofJob ▸ found) (ofJob ▸ wasOpen) knows
          rw [ofJob, found'] at foundLater
          cases foundLater
          exact ⟨names, open_⟩
        · intro none graph open_
          refine unfinished graph open_ fun w b was left => ?_
          by_cases same : w = worker
          · exact none b (same ▸ was)
          · rw [builds] at left
            simp only [GraphSystem.setBuild, if_neg same] at left
            rw [was] at left
            cases left
    · obtain ⟨job', found', _⟩ := jobs_kept ok step found
      exact ⟨job', found', .known worker build there (getJob_mem found').2.symm (.inl prepared)⟩

end Steps

section Runs

instance (db : GraphDb) : Decidable (RunsOk db) :=
  decidable_of_iff ((db.runs.map (·.graphIndexRunId)).Nodup ∧
    ∀ r ∈ db.runs, r.graphIndexRunId < db.nextRunId) ⟨fun h => ⟨h.1, h.2⟩, fun h => ⟨h.1, h.2⟩⟩

instance (db : GraphDb) : Decidable (EntitiesOk db) :=
  decidable_of_iff ((db.entities.map (·.graphEntityId)).Nodup ∧
    ∀ e ∈ db.entities, e.graphEntityId < db.nextEntityId) ⟨fun h => ⟨h.1, h.2⟩, fun h => ⟨h.1, h.2⟩⟩

variable [GraphText]

/-- A step of one worker leaves the other workers where they are. -/
theorem others_stay {s t : GraphSystem} {action : GraphAction} (step : Stepped s action t)
    {w : String} (other : action.worker ≠ some w) : t.builds w = s.builds w := by
  have apart {worker : String} (acts : action.worker = some worker) : w ≠ worker :=
    fun same => other (same ▸ acts)
  cases step with
  | began worker | prepared worker | replaced worker | wrote worker | finished worker =>
    exact if_neg (apart rfl)
  | moved _ worker _ _ acts | left _ worker acts | runFailed _ worker _ _ _ _ acts =>
    exact if_neg (apart (worker_of_mover acts))
  | _ => rfl

theorem leaver {s t : GraphSystem} {action : GraphAction} {w : String} {build : BuildRun}
    (step : Stepped s action t) (there : s.builds w = some build) (gone : t.builds w = none) :
    action.worker = some w := by
  by_contra other
  rw [others_stay step other, there] at gone
  cases gone

/-- A worker that takes no step in a run stays out of the handler. -/
theorem idle_of_run {start final : GraphSystem} {actions : List GraphAction} {w : String}
    {ok : GraphSystem → GraphAction → Prop} (run : Run GraphSystem.step ok start actions final)
    (initial : start.Ok) (idle : start.builds w = none)
    (absent : ∀ action ∈ actions, action.worker ≠ some w) : final.builds w = none := by
  have one (s : GraphSystem) (action : GraphAction) (rest : List GraphAction) (t : GraphSystem)
      (inv : s.Ok ∧ s.builds w = none ∧ ∀ a ∈ action :: rest, a.worker ≠ some w)
      (_ : ok s action) (done : s.step action = some t) :
      t.Ok ∧ t.builds w = none ∧ ∀ a ∈ rest, a.worker ≠ some w := by
    obtain ⟨tables, out, others⟩ := inv
    have step := stepped tables.runs tables.entities done
    refine ⟨step_ok tables done, ?_, fun a member => others a (List.mem_cons_of_mem _ member)⟩
    rw [others_stay step (others action List.mem_cons_self)]
    exact out
  exact (run.consumes (fun rest s => s.Ok ∧ s.builds w = none ∧ ∀ a ∈ rest, a.worker ≠ some w) one
    ⟨initial, idle, absent⟩).2.1

/-- The tables are in order, and the worker of the step has no open run of its job or stays. -/
def leavesNothing (s : GraphSystem) (action : GraphAction) : Bool :=
  decide (RunsOk s.db) && decide (EntitiesOk s.db) && action.worker.all fun worker =>
    ((s.builds worker).all fun build => s.db.runs.all fun run =>
      run.jobId != some build.jobId || run.status.terminal) ||
    (s.step action).all fun t => (t.builds worker).isSome

theorem nothing_left_of_test (s : GraphSystem) (action : GraphAction)
    (test : leavesNothing s action = true) : NothingLeftOpen s action := by
  intro t worker build job run done there gone _ unclosed
  simp only [leavesNothing, Bool.and_eq_true, decide_eq_true_eq] at test
  obtain ⟨⟨runs, entities⟩, test⟩ := test
  have which := leaver (stepped runs entities done) there gone
  exfalso
  simp only [which, Option.all_some, there, done, gone, Option.isSome_none,
    Bool.or_false, List.all_eq_true, Bool.or_eq_true, bne_iff_ne, ne_eq] at test
  rcases test run (Table.mem_of_row unclosed.row).1 with other | closed
  · exact other unclosed.job
  · rcases unclosed.unclosed with h | h <;> simp [h, GraphRunStatus.terminal] at closed

/-- One build from the acquisition of its job to the stored result. -/
def oneBuild : List GraphAction :=
  danglingRun ++ [.persist "a" 12 none, .load "a", .write "a", .finish "a" 60 13 13]

/-- The first worker crashes after its preparation; the second one builds under a run of its own. -/
def abandonedBuild : List GraphAction :=
  [.lease (.acquireJobs "a" none none 60 1 [] 10), .begin "a" 1, .prepare "a" 11 none,
   .abandon "a", .lease (.acquireJobs "b" none none 60 1 [] 100), .begin "b" 1,
   .prepare "b" 101 none, .extract "b" (some danglingResult), .persist "b" 102 none, .load "b",
   .write "b", .finish "b" 60 103 103]

end Runs

end RagProject.Graph
