import RagProject.Graph.Projecting

/-! Convergence of the projection: a worker reads the rows of a version after its commit and writes
them later, without a lock. What Neo4j shows in the end are the rows of the last write. -/
namespace RagProject.Graph
open Python Jobs Documents Interleaving

section Definitions

def GraphJobOf (documentVersionId : Nat) (job : Job) : Prop :=
  job.jobType = "graph_index_build" ∧ job.targetId = some documentVersionId

/-- The worker will still bring the version up to date, or fail its job. -/
def Pending (db : GraphDb) (documentVersionId : Nat) : BuildPhase → Prop
  | .projecting _ rows _ => Fresh db documentVersionId rows
  | .done (.succeeded _) => False
  | _ => True

/-- An unfinished graph job of the version, whose owner stands in one of the phases. -/
structure Covers (phases : BuildPhase → Prop) (s : GraphSystem) (documentVersionId : Nat)
    (job : Job) : Prop where
  member : job ∈ s.db.docs.jobs
  graph : GraphJobOf documentVersionId job
  unfinished : leaseOf job ≠ .closed
  owner : ∀ worker build, s.builds worker = some build → build.jobId = job.jobId →
    leaseOf job = .held worker → phases build.phase

def Covered (s : GraphSystem) (documentVersionId : Nat) : Prop :=
  ∃ job, Covers (Pending s.db documentVersionId) s documentVersionId job

/-- Neo4j has chunk nodes of the version. -/
def HasNodes (neo : Neo4jGraph) (documentVersionId : Nat) : Prop :=
  ∃ c ∈ neo.chunks, c.documentVersionId = documentVersionId

/-- The condition: rows that are no longer current are written only while another job covers the
version, and a document is archived only when each inactive version of it in Neo4j has a job that
has not read yet. -/
def StaleCovered (documentVersionId : Nat) (s : GraphSystem) : GraphAction → Prop
  | .write worker => ∀ build rows result, s.builds worker = some build →
      build.phase = .projecting documentVersionId rows result →
      ¬Fresh s.db documentVersionId rows → Covered s documentVersionId
  | .archive _ logicalDocumentId => ∀ version document,
      s.db.docs.getVersionById documentVersionId = some version →
      version.logicalDocumentId = logicalDocumentId → version.isActive = false →
      s.db.docs.getDocument logicalDocumentId = some document → document.status = .active →
      HasNodes s.neo documentVersionId → ∃ job, Covers Unread s documentVersionId job
  | _ => True

/-- A graph job of the version ended without success. -/
def Lost (documentVersionId : Nat) (s : GraphSystem) : Prop :=
  ∃ job ∈ s.db.docs.jobs, GraphJobOf documentVersionId job ∧
    (job.status = .failed ∨ job.status = .canceled)

def Settled (documentVersionId : Nat) (s : GraphSystem) : Prop :=
  ¬HasNodes s.neo documentVersionId ∨ Shows s.neo s.db documentVersionId ∨
    Covered s documentVersionId

theorem SameProjection.pending {db db' : GraphDb} {v : Nat} {phase : BuildPhase} (same : SameProjection v db db')
    (pending : Pending db v phase) : Pending db' v phase := by
  cases phase with
  | projecting w rows result => exact same.fresh pending
  | done result =>
    cases result with
    | succeeded json => exact pending
    | failed code => trivial
  | _ => trivial

end Definitions

section Coverage
variable [GraphText] {s t : GraphSystem} {action : GraphAction} {v : Nat}

omit [GraphText] in
theorem pending_of_unread {db : GraphDb} {phase : BuildPhase} (unread : Unread phase) :
    Pending db v phase := by
  cases phase with
  | projecting => cases unread
  | done result =>
    cases result with
    | succeeded => cases unread
    | failed => trivial
  | _ => trivial

/-- The next write, if there is one, is not of current rows of the version. -/
def Unwritten (s : GraphSystem) (action : GraphAction) (documentVersionId : Nat) : Prop :=
  ∀ worker build w rows result, action = .write worker → s.builds worker = some build →
    build.phase = .projecting w rows result → ¬Fresh s.db documentVersionId rows

/-- The owner of a job of the version goes on being about to bring it up to date. -/
theorem pending_next (inv : Projecting s) (step : Stepped s action t)
    (same : SameProjection v s.db t.db) (unwritten : Unwritten s action v) {worker : String}
    {build : BuildRun} {job : Job} (there : t.builds worker = some build)
    (found : getJob s.db.docs.jobs build.jobId = some job) (target : job.targetId = some v)
    (before : ∀ old, s.builds worker = some old → old.jobId = build.jobId →
      Pending s.db v old.phase) : Pending t.db v build.phase := by
  cases build_from step there with
  | kept old => exact same.pending (before build old rfl)
  | began _ _ _ _ unread => exact pending_of_unread unread
  | wrote old w rows result wrote was phase sameJob =>
    have fresh := before old was sameJob.symm
    rw [phase] at fresh
    exact absurd fresh (unwritten worker old w rows result wrote was phase)
  | moved old was sameJob next =>
    obtain ⟨job', found', _, targets⟩ := inv.jobs worker old was
    rw [← sameJob, found] at found'
    cases found'
    generalize old.phase = phase at next targets
    generalize build.phase = now at next ⊢
    cases next with
    | unread _ _ unread => exact pending_of_unread unread
    | unloaded _ _ _ failed => exact absurd failed (not_unloaded inv)
    | loaded w rows result loaded =>
      cases (targets w rfl).symm.trans target
      exact same.fresh (loaded_ok inv loaded).1

theorem Covers.next (inv : Projecting s) (step : Stepped s action t)
    (same : SameProjection v s.db t.db) (unwritten : Unwritten s action v) {job job' : Job}
    (covers : Covers (Pending s.db v) s v job) (member : job' ∈ t.db.docs.jobs)
    (content : job'.content = job.content) (unfinished : leaseOf job' ≠ .closed)
    (held : ∀ worker build, t.builds worker = some build → leaseOf job' = .held worker →
      leaseOf job = .held worker) : Covers (Pending t.db v) t v job' := by
  have found := getJob_of_mem inv.ok.docs.jobs.distinct covers.member
  simp only [Job.content, Prod.mk.injEq] at content
  refine ⟨member, ⟨content.2.1.trans covers.graph.1, content.2.2.2.2.1.trans covers.graph.2⟩,
    unfinished, fun worker build there ofJob holds => ?_⟩
  have ofJob : build.jobId = job.jobId := ofJob.trans content.1
  refine pending_next inv step same unwritten there (ofJob ▸ found) covers.graph.2
    fun old was sameJob => ?_
  exact covers.owner worker old was (sameJob.trans ofJob) (held worker build there holds)

/-- A step that leaves the jobs and the rows of the version. -/
theorem covered_kept (inv : Projecting s) (step : Stepped s action t)
    (jobs : ∀ job ∈ s.db.docs.jobs, job ∈ t.db.docs.jobs) (same : SameProjection v s.db t.db)
    (unwritten : Unwritten s action v) (covered : Covered s v) : Covered t v := by
  obtain ⟨job, covers⟩ := covered
  exact ⟨job, covers.next inv step same unwritten (jobs job covers.member) rfl covers.unfinished
    fun _ _ _ holds => holds⟩

theorem settled_kept (inv : Projecting s) (step : Stepped s action t)
    (jobs : ∀ job ∈ s.db.docs.jobs, job ∈ t.db.docs.jobs) (same : SameProjection v s.db t.db)
    (neo : t.neo = s.neo) (unwritten : Unwritten s action v) (settled : Settled v s) :
    Settled v t := by
  rcases settled with absent | shows | covered
  · exact .inl (neo ▸ absent)
  · exact .inr (.inl (neo ▸ same.shows shows))
  · exact .inr (.inr (covered_kept inv step jobs same unwritten covered))

/-- A new job covers its version: no worker has it yet. -/
theorem covers_new (inv : Projecting s) {docs : Db} {builds : String → Option BuildRun}
    (sameBuilds : builds = s.builds) (new : NewGraphJob s.db.docs docs v) :
    Covered { s with db := { s.db with docs := docs }, builds := builds } v := by
  obtain ⟨job, member, graph, target, queued, newer⟩ := new
  refine ⟨job, member, ⟨graph, target⟩, by simp [leaseOf, queued], ?_⟩
  intro worker build there ofJob
  obtain ⟨old, found, _⟩ := inv.jobs worker build (sameBuilds ▸ there)
  have := inv.ok.docs.fresh old (getJob_mem found).1
  have := (getJob_mem found).2
  omega

theorem settled_approved (inv : Projecting s) {request : Request} {document version : Nat}
    {docs : Db} {response : ApproveResponse}
    (done : approveVersion request document version s.db.docs = .ok (docs, response))
    (settled : Settled v s) : Settled v { s with db := { s.db with docs := docs } } := by
  have step : Stepped s (.approve request document version)
      { s with db := { s.db with docs := docs } } :=
    .approved request document version docs response done
  rcases approveVersion_ok inv.ok.docs done with rfl | ⟨_, chosen, _, _, found, _, effect⟩
  · exact settled
  · by_cases changed : ∃ w ∈ s.db.docs.versions, w.documentVersionId = v ∧
        w.logicalDocumentId = document ∧ (w.documentVersionId = version ∨ w.isActive = true)
    · obtain ⟨w, member, rfl, ofDocument, changes⟩ := changed
      exact .inr (.inr (covers_new inv rfl
        (effect.graphJobs inv.enabled w member ofDocument changes)))
    · have shown : shownState docs v = shownState s.db.docs v := by
        refine shownState_map effect.versions effect.documents
          (fun w _ => activated_id _ _ _ w) (fun d _ => ?_) (fun w d row _ => ?_)
          fun w _ => activated_document _ _ _ w
        · split <;> rfl
        · obtain ⟨member, sameId⟩ := Table.mem_of_row row
          have untouched : activated document version request.now w = w := by
            unfold activated
            rw [if_neg, if_neg]
            · exact fun h => changed ⟨w, member, sameId, h.1, .inr h.2⟩
            · intro same
              obtain ⟨inside, ofDocument, chosenId⟩ := getVersion_some found
              have row := Table.unique inv.ok.docs.versionIds member inside
                (same.trans chosenId.symm)
              exact changed ⟨w, member, sameId, row ▸ ofDocument, .inl same⟩
          rw [untouched]
          refine ⟨rfl, rfl, ?_⟩
          split <;> rfl
      have same : SameProjection v s.db { s.db with docs := docs } :=
        sameProjection_of_tables effect.chunks shown rfl (by
          unfold GraphDb.relationsOf
          rw [chunkIds_of_chunks effect.chunks])
      obtain ⟨graphs, jobs, _⟩ := effect.jobs
      refine settled_kept inv step (fun job member => ?_) same rfl
        (fun _ _ _ _ _ h => by cases h) settled
      simp only [jobs]
      exact List.mem_append_left _ member

theorem settled_archived (inv : Projecting s) {request : Request} {document : Nat} {docs : Db}
    {response : ArchiveResponse}
    (covered : StaleCovered v s (.archive request document))
    (done : archiveDocument request document s.db.docs = .ok (docs, response))
    (settled : Settled v s) : Settled v { s with db := { s.db with docs := docs } } := by
  have step : Stepped s (.archive request document) { s with db := { s.db with docs := docs } } :=
    .archived request document docs response done
  rcases archiveDocument_ok inv.ok.docs done with rfl | ⟨row, found, active, effect⟩
  · exact settled
  obtain ⟨graphs, jobs, _⟩ := effect.jobs
  have kept (job : Job) (member : job ∈ s.db.docs.jobs) : job ∈ docs.jobs := by
    rw [jobs]
    exact List.mem_append_left _ member
  by_cases mine : ∃ w, s.db.docs.getVersionById v = some w ∧ w.logicalDocumentId = document
  · obtain ⟨w, version, ofDocument⟩ := mine
    obtain ⟨member, rfl⟩ := Table.mem_of_row version
    cases isActive : w.isActive with
    | true =>
      exact .inr (.inr (covers_new inv rfl
        (effect.graphJobs inv.enabled w member ofDocument isActive)))
    | false =>
      by_cases nodes : HasNodes s.neo w.documentVersionId
      · obtain ⟨job, covers⟩ := covered w row version ofDocument isActive found active nodes
        refine .inr (.inr ⟨job, kept job covers.member, covers.graph, covers.unfinished, ?_⟩)
        exact fun worker build there ofJob holds =>
          pending_of_unread (covers.owner worker build there ofJob holds)
      · exact .inl nodes
  · have shown : shownState docs v = shownState s.db.docs v := by
      refine shownState_map effect.versions effect.documents
        (fun w _ => withdrawn_id _ _ w) (fun d _ => ?_) (fun w d version row => ?_)
        fun w _ => withdrawn_document _ _ w
      · split <;> rfl
      · have other : w.logicalDocumentId ≠ document := fun h => mine ⟨w, version, h⟩
        have untouched : withdrawn document request.now w = w := if_neg fun h => other h.1
        rw [untouched, if_neg fun h => other ((Table.mem_of_row row).2.symm.trans h)]
        exact ⟨rfl, rfl, rfl⟩
    have same : SameProjection v s.db { s.db with docs := docs } :=
      sameProjection_of_tables effect.chunks shown rfl (by
        unfold GraphDb.relationsOf
        rw [chunkIds_of_chunks effect.chunks])
    exact settled_kept inv step kept same rfl (fun _ _ _ _ _ h => by cases h) settled

theorem settled_leased (inv : Projecting s) {call : LeaseCall} (permitted : s.permits call = true)
    (settled : Settled v s) :
    Lost v { s with db := { s.db with docs := { s.db.docs with
        jobs := call.commit s.db.docs.jobs } } } ∨
      Settled v { s with db := { s.db with docs := { s.db.docs with
        jobs := call.commit s.db.docs.jobs } } } := by
  rcases settled with absent | shows | ⟨job, covers⟩
  · exact .inr (.inl absent)
  · exact .inr (.inr (.inl ⟨shows.chunks, shows.mentions, shows.relations⟩))
  have found := getJob_of_mem inv.ok.docs.jobs.distinct covers.member
  obtain ⟨job', found', effect⟩ := commit_getJob call inv.ok.docs.jobs found
  have member := (getJob_mem found').1
  by_cases closed : leaseOf job' = .closed
  · left
    have content := effect.content
    simp only [Job.content, Prod.mk.injEq] at content
    refine ⟨job', member, ⟨content.2.1.trans covers.graph.1,
      content.2.2.2.2.1.trans covers.graph.2⟩, ?_⟩
    rcases ended_of_closed closed with succeeded | ended
    · exfalso
      rcases effect.succeeded succeeded with before | ⟨worker, result, now, same⟩
      · exact covers.unfinished (closed_of_ended (by simp [before, JobStatus.terminal]))
      · rw [same] at permitted
        simp [GraphSystem.permits, found, covers.graph.1] at permitted
    · exact ended
  · right; right; right
    have step := Stepped.leased call permitted
    refine ⟨job', covers.next inv step ⟨rfl, rfl, rfl⟩ (fun _ _ _ _ _ h => by cases h) member
      effect.content closed fun worker build there holds => ?_⟩
    rcases effect.held covers.unfinished holds with before | ⟨_, _, _, _, _, _, rfl⟩
    · exact before
    · have free : (s.builds worker).isNone = true := permitted
      rw [show s.builds worker = some build from there] at free
      cases free

/-- A job that ends succeeded had nothing left to write; one that ends failed is lost. -/
theorem settled_finished (inv : Projecting s) {worker : String}
    {leaseDuration renewedAt finishedAt : Time} {build : BuildRun} {result : JobHandlerResult}
    {jobs : List Job} (there : s.builds worker = some build) (phase : build.phase = .done result)
    (stored : storeTerminalResult build.jobId worker leaseDuration renewedAt finishedAt result
      s.db.docs.jobs = .ok jobs) (settled : Settled v s) :
    Lost v { s.setBuild worker none with db := { s.db with docs := { s.db.docs with
        jobs := jobs } } } ∨
      Settled v { s.setBuild worker none with db := { s.db with docs := { s.db.docs with
        jobs := jobs } } } := by
  have step := Stepped.finished worker leaseDuration renewedAt finishedAt build result jobs there
    phase stored
  obtain ⟨_, _, g, rfl, effect⟩ := storeTerminalResult_ok inv.ok.docs.jobs stored
  rcases settled with absent | shows | ⟨job, covers⟩
  · exact .inr (.inl absent)
  · exact .inr (.inr (.inl ⟨shows.chunks, shows.mentions, shows.relations⟩))
  obtain ⟨content, status⟩ := effect job covers.member
  have member : g job ∈ s.db.docs.jobs.map g := List.mem_map_of_mem covers.member
  split at status
  · rename_i owned
    have pending := covers.owner worker build there (ownedBy_iff.mp owned).1.symm
      (leaseOf_owned owned)
    rw [phase] at pending
    cases result with
    | succeeded json => cases pending
    | failed code =>
      simp only [Job.content, Prod.mk.injEq] at content
      exact .inl ⟨g job, member, ⟨content.2.1.trans covers.graph.1,
        content.2.2.2.2.1.trans covers.graph.2⟩, .inl status⟩
  · right; right; right
    exact ⟨g job, covers.next inv step ⟨rfl, rfl, rfl⟩ (fun _ _ _ _ _ h => by cases h) member content
      (by rw [status]; exact covers.unfinished) fun _ _ _ holds => by rwa [status] at holds⟩

/-- A write shows its version, is of another version, or is stale and somebody covers it. -/
theorem settled_wrote (inv : Projecting s) {worker : String} {build : BuildRun} {w : Nat}
    {rows : ProjectionRows} {result : Dict} (covered : StaleCovered v s (.write worker))
    (there : s.builds worker = some build) (phase : build.phase = .projecting w rows result)
    (settled : Settled v s) :
    Settled v { s.moveTo worker build (some (.done (.succeeded result))) with
      neo := replaceDocumentVersionProjection w rows s.neo } := by
  have step := Stepped.wrote worker build w rows result there phase
  have rewritten := inv.rewritten there phase
  have rowsOk := inv.rows worker build w rows result there phase
  have next (unfresh : ¬Fresh s.db v rows) (covers : Covered s v) :
      Covered { s.moveTo worker build (some (.done (.succeeded result))) with
        neo := replaceDocumentVersionProjection w rows s.neo } v := by
    refine covered_kept inv step (fun _ member => member) (.refl v _) ?_ covers
    intro other run x rows' json same was running
    cases same
    cases there.symm.trans was
    cases phase.symm.trans running
    exact unfresh
  by_cases mine : w = v
  · subst mine
    by_cases fresh : Fresh s.db w rows
    · exact .inr (.inl (rewritten.shows rowsOk fresh))
    · exact .inr (.inr (next fresh (covered build rows result there phase fresh)))
  · rcases settled with absent | shows | ⟨job, covers⟩
    · left
      rintro ⟨c, member, version⟩
      rcases (rewritten.chunks c).mp member with new | ⟨old, _⟩
      · exact mine ((rowsOk.chunks c new).1.symm.trans version)
      · exact absent ⟨c, old, version⟩
    · exact .inr (.inl (rewritten.others rowsOk (Ne.symm mine) shows))
    · right; right
      obtain ⟨own, found, _, target⟩ := inv.jobs worker build there
      refine ⟨job, covers.member, covers.graph, covers.unfinished, ?_⟩
      intro other run running ofJob holds
      rcases setBuild_some running with ⟨rfl, new⟩ | old
      · cases new
        have same : job = own := Table.unique inv.ok.docs.jobs.distinct covers.member
          (getJob_mem found).1 (ofJob.symm.trans (getJob_mem found).2.symm)
        have version := target w (by rw [phase]; rfl)
        rw [← same, covers.graph.2] at version
        exact absurd (Option.some.inj version).symm mine
      · exact covers.owner other run old ofJob holds

/-- The worker that replaces the rows of the version will project them. -/
theorem settled_replaced (inv : Projecting s) (step : Stepped s action t)
    (unwritten : Unwritten s action v) {worker : String} {build : BuildRun} {w : Nat}
    (replaced : ReplacedBy s t worker build w) (settled : Settled v s) : Settled v t := by
  have jobs : t.db.docs.jobs = s.db.docs.jobs := congrArg _ replaced.docs
  by_cases mine : v = w
  · subst mine
    right; right
    obtain ⟨own, found, graph, target⟩ := inv.jobs worker build replaced.there
    obtain ⟨job, member, owned⟩ := replaced.owned
    have same : job = own := Table.unique inv.ok.docs.jobs.distinct member (getJob_mem found).1
      ((ownedBy_iff.mp owned).1.trans (getJob_mem found).2.symm)
    have held := leaseOf_owned owned
    refine ⟨job, jobs ▸ member, ⟨same ▸ graph, same ▸ target v replaced.version⟩, ?_, ?_⟩
    · rw [held]
      simp
    · intro other run running _ holds
      cases held.symm.trans holds
      obtain ⟨result, builds⟩ := replaced.builds
      rw [builds] at running
      simp only [GraphSystem.setBuild, if_true, Option.some.injEq] at running
      rw [← running]
      trivial
  · have same : SameProjection v s.db t.db := by
      refine sameProjection_of_tables (congrArg _ replaced.docs) ?_ (replaced.mentions v mine)
        (replaced.relations v mine)
      rw [replaced.docs]
    exact settled_kept inv step (fun job member => jobs ▸ member) same replaced.neo unwritten
      settled

end Coverage

section Runs
variable [GraphText] {s t : GraphSystem} {action : GraphAction} {v : Nat}

/-- A job that has ended stays as it is. -/
theorem lost_step (inv : Projecting s) (step : Stepped s action t) (lost : Lost v s) :
    Lost v t := by
  obtain ⟨job, member, graph, ended⟩ := lost
  have kept (jobs : ∀ j ∈ s.db.docs.jobs, j ∈ t.db.docs.jobs) : Lost v t :=
    ⟨job, jobs job member, graph, ended⟩
  cases step with
  | approved request document version docs response done =>
    rcases approveVersion_ok inv.ok.docs done with rfl | ⟨_, _, _, _, _, _, effect⟩
    · exact kept fun _ old => old
    · obtain ⟨graphs, jobs, _⟩ := effect.jobs
      refine kept fun j old => ?_
      simp only [jobs]
      exact List.mem_append_left _ old
  | archived request document docs response done =>
    rcases archiveDocument_ok inv.ok.docs done with rfl | ⟨_, _, _, effect⟩
    · exact kept fun _ old => old
    · obtain ⟨graphs, jobs, _⟩ := effect.jobs
      refine kept fun j old => ?_
      simp only [jobs]
      exact List.mem_append_left _ old
  | leased call permitted =>
    have found := getJob_of_mem inv.ok.docs.jobs.distinct member
    obtain ⟨job', found', effect⟩ := commit_getJob call inv.ok.docs.jobs found
    rcases effect.change with same | ⟨active, _⟩
    · exact ⟨job', (getJob_mem found').1, same ▸ graph, same ▸ ended⟩
    · rcases ended with h | h <;> simp [h, JobStatus.active] at active
  | finished worker lease renewed finished build result jobs there phase stored =>
    obtain ⟨_, _, g, rfl, effect⟩ := storeTerminalResult_ok inv.ok.docs.jobs stored
    have status := (effect job member).2
    split at status
    · rename_i owned
      have running := (ownedBy_iff.mp owned).2.1
      rcases ended with h | h <;> cases running.symm.trans h
    · exact ⟨g job, List.mem_map_of_mem member, by rw [status]; exact graph,
        by rw [status]; exact ended⟩
  | prepared worker now fault build payload db snapshot there phase effect =>
    have docs := effect.run.tables.1
    exact kept fun j old => by rw [docs]; exact old
  | runFailed _ worker build runId code db acts there phase unclosed owned failed =>
    obtain ⟨g, rfl, _⟩ := failed.tables
    exact kept fun _ old => old
  | replaced worker now fault build snapshot result db entity mentionRows relationRows json there
      phase running owned replaced =>
    obtain ⟨entities, next, rfl⟩ := replaced.tables
    exact kept fun _ old => old
  | _ => exact kept fun _ old => old

theorem settled_step (inv : Projecting s) (step : Stepped s action t)
    (covered : StaleCovered v s action) (settled : Settled v s) : Lost v t ∨ Settled v t := by
  have quiet (docs : t.db.docs = s.db.docs) (neo : t.neo = s.neo)
      (unwritten : Unwritten s action v) : Settled v t := by
    rcases artifacts_kept inv.ok step with kept | ⟨worker, build, w, replaced⟩
    · have same : SameProjection v s.db t.db := by
        refine sameProjection_of_tables (congrArg _ docs) (by rw [docs]) ?_ ?_
        · unfold GraphDb.mentionsOf
          rw [kept.mentions]
        · unfold GraphDb.relationsOf
          rw [kept.relations, chunkIds_of_chunks (congrArg _ docs)]
      exact settled_kept inv step (fun j old => by rw [docs]; exact old) same neo unwritten settled
    · exact settled_replaced inv step unwritten replaced settled
  cases step with
  | unchanged => exact .inr settled
  | approved request document version docs response done =>
    exact .inr (settled_approved inv done settled)
  | archived request document docs response done =>
    exact .inr (settled_archived inv covered done settled)
  | leased call permitted => exact settled_leased inv permitted settled
  | finished worker lease renewed finished build result jobs there phase stored =>
    exact settled_finished inv there phase stored settled
  | wrote worker build w rows result there phase =>
    exact .inr (settled_wrote inv covered there phase settled)
  | prepared worker now fault build payload db snapshot there phase effect =>
    exact .inr (quiet effect.run.tables.1 rfl fun _ _ _ _ _ h => by cases h)
  | began => exact .inr (quiet rfl rfl fun _ _ _ _ _ h => by cases h)
  | replaced worker now fault build snapshot result db entity mentionRows relationRows json there
      phase running owned replaced =>
    obtain ⟨entities, next, rfl⟩ := replaced.tables
    exact .inr (quiet rfl rfl fun _ _ _ _ _ h => by cases h)
  | runFailed _ worker build runId code db acts there phase unclosed owned failed =>
    obtain ⟨g, rfl, _⟩ := failed.tables
    exact .inr (quiet rfl rfl fun _ _ _ _ _ h => by cases h; cases acts)
  | moved _ worker build phase acts | left _ worker acts =>
    exact .inr (quiet rfl rfl fun _ _ _ _ _ h => by cases h; cases acts)

/-- Nobody is in the handler, the tables and the graph are in order, and a version with nodes is
shown or has an unfinished job. -/
structure ProjectionStart (documentVersionId : Nat) (s : GraphSystem) : Prop
    extends GraphStart s where
  enabled : s.db.docs.graphIndexingEnabled = true
  tables : TablesOk s.db
  placed : Placed s.db s.neo
  owned : ∃ owner : Nat → Nat, (∀ v, ∀ r ∈ s.db.relationsOf v, owner r.graphRelationId = v) ∧
    EdgesOk owner s.db s.neo.relations
  settled : HasNodes s.neo documentVersionId → Shows s.neo s.db documentVersionId ∨
    ∃ job ∈ s.db.docs.jobs, GraphJobOf documentVersionId job ∧ leaseOf job ≠ .closed

theorem ProjectionStart.projecting (start : ProjectionStart v s) : Projecting s := by
  have idle {worker : String} {build : BuildRun} (there : s.builds worker = some build) : False := by
    rw [start.idle worker] at there
    cases there
  obtain ⟨owner, rows, neo⟩ := start.owned
  exact ⟨start.toGraphStart.ok, start.enabled, start.tables, start.placed,
    fun _ _ there => (idle there).elim, fun _ _ _ _ _ there _ => (idle there).elim,
    owner, rows, neo, fun _ _ _ _ _ there _ => (idle there).elim⟩

theorem ProjectionStart.covered (start : ProjectionStart v s) : Settled v s := by
  by_cases nodes : HasNodes s.neo v
  · rcases start.settled nodes with shows | ⟨job, member, graph, unfinished⟩
    · exact .inr (.inl shows)
    · refine .inr (.inr ⟨job, member, graph, unfinished, fun worker build there => ?_⟩)
      rw [start.idle worker] at there
      cases there
  · exact .inl nodes

/-- Nothing of a version without chunks is in Neo4j or in the tables. -/
theorem shows_nothing (inv : Projecting s) (empty : s.db.docs.chunksOf v = []) :
    Shows s.neo s.db v := by
  have none (id : Nat) : id ∉ s.db.chunkIds v := by
    unfold GraphDb.chunkIds
    rw [empty]
    exact List.not_mem_nil
  have rows : chunkRows v s.db.docs = [] := by simp [chunkRows, empty]
  have mentions : mentionRows v s.db = [] := by
    have all : s.db.mentionsOf v = [] := by
      refine List.filter_eq_nil_iff.mpr fun m member version => ?_
      exact none _ (beq_iff_eq.mp version ▸ (inv.tables.mentions m member).1)
    simp [mentionRows, all]
  have relations : relationEdges v s.db = [] := by
    have all : s.db.relationsOf v = [] := by
      refine List.filter_eq_nil_iff.mpr fun r _ inside => none r.sourceDocumentChunkId ?_
      simpa using inside
    simp [relationEdges, all]
  refine ⟨fun c => ?_, fun e => ?_, fun e => ?_⟩
  · rw [rows]
    refine ⟨?_, fun nothing => (List.not_mem_nil nothing).elim⟩
    rintro ⟨member, version⟩
    exact (none _ (version ▸ inv.placed.chunks c member)).elim
  · rw [mentions]
    refine ⟨?_, fun nothing => (List.not_mem_nil nothing).elim⟩
    rintro ⟨member, version⟩
    exact (none _ (version ▸ inv.placed.mentions e member)).elim
  · rw [relations]
    refine ⟨?_, fun nothing => (List.not_mem_nil nothing).elim⟩
    rintro ⟨member, version⟩
    exact (none _ (inv.placed.relations e member v version)).elim

/-- The version has been projected: its chunks have nodes, or it has no chunks. -/
def Projected (s : GraphSystem) (documentVersionId : Nat) : Prop :=
  HasNodes s.neo documentVersionId ∨ s.db.docs.chunksOf documentVersionId = []

/-- Convergence, over every run in which stale writes and archivals are covered: once every graph
job of the version has succeeded, Neo4j shows the version if it has been projected. -/
theorem projection_converges (documentVersionId : Nat) (start final : GraphSystem)
    (actions : List GraphAction) (initial : ProjectionStart documentVersionId start)
    (run : Run GraphSystem.step (StaleCovered documentVersionId) start actions final)
    (quiet : ∀ job ∈ final.db.docs.jobs, GraphJobOf documentVersionId job →
      job.status = .succeeded)
    (projected : Projected final documentVersionId) :
    Shows final.neo final.db documentVersionId := by
  have one (s : GraphSystem) (action : GraphAction) (t : GraphSystem)
      (inv : Projecting s ∧ (Lost documentVersionId s ∨ Settled documentVersionId s))
      (covered : StaleCovered documentVersionId s action) (done : s.step action = some t) :
      Projecting t ∧ (Lost documentVersionId t ∨ Settled documentVersionId t) := by
    have step := stepped inv.1.ok.runs inv.1.ok.entities done
    refine ⟨projecting_step inv.1 done, ?_⟩
    rcases inv.2 with lost | settled
    · exact .inl (lost_step inv.1 step lost)
    · exact settled_step inv.1 step covered settled
  obtain ⟨inv, lost | absent | shows | ⟨job, covers⟩⟩ :=
    run.preserves one ⟨initial.projecting, .inr initial.covered⟩
  · obtain ⟨job, member, graph, ended⟩ := lost
    rw [quiet job member graph] at ended
    rcases ended with h | h <;> cases h
  · exact shows_nothing inv (projected.resolve_left absent)
  · exact shows
  · have done := quiet job covers.member covers.graph
    exact absurd (closed_of_ended (by simp [done, JobStatus.terminal])) covers.unfinished

end Runs

section Examples

/-- No archival, and the next write of the worker is of rows that are still current. -/
def writesFresh (s : GraphSystem) : GraphAction → Bool
  | .write worker => (s.builds worker).all fun build => match build.phase with
    | .projecting v rows _ => rows.chunks == chunkRows v s.db.docs &&
        rows.mentions == mentionRows v s.db && rows.relations == relationEdges v s.db
    | _ => true
  | .archive _ _ => false
  | _ => true

theorem covered_of_fresh (documentVersionId : Nat) (s : GraphSystem) (action : GraphAction)
    (fresh : writesFresh s action = true) : StaleCovered documentVersionId s action := by
  cases action with
  | write worker =>
    intro build rows result there phase stale
    simp only [writesFresh, there, Option.all_some, phase, Bool.and_eq_true, beq_iff_eq] at fresh
    exact absurd ⟨fresh.1.1, fresh.1.2, fresh.2⟩ stale
  | archive => cases fresh
  | _ => trivial

/-- One build, projected. -/
def projectedRun : List GraphAction :=
  danglingRun ++ [.persist "a" 12 none, .load "a", .write "a", .finish "a" 60 13 13]

theorem graphStart_projection :
    let _ : GraphText := asciiGraphText
    ProjectionStart 1 graphStart := by
  intro _
  refine ⟨graphStart_start, rfl, ⟨?_, ?_, ?_, ?_, ?_, ?_, ?_, ⟨?_, ?_, ?_⟩⟩, ⟨?_, ?_, ?_⟩,
    ⟨fun _ => 1, fun _ _ h => (nomatch h), (fun _ h => nomatch h), fun _ h => nomatch h⟩, ?_⟩
  · intro c member
    cases List.mem_singleton.mp member
    exact ⟨_, _, rfl, rfl⟩
  all_goals first
    | exact List.nodup_nil
    | exact fun _ h => nomatch h
    | exact fun ⟨_, member, _⟩ => nomatch member

/-- The projection of one build: the run meets the condition and Neo4j shows the version. -/
theorem projection_converges_once :
    let _ : GraphText := asciiGraphText
    ∃ final, exec (guarded GraphSystem.step writesFresh) graphStart projectedRun = some final ∧
      Shows final.neo final.db 1 := by
  intro _
  have completes : (exec (guarded GraphSystem.step writesFresh) graphStart projectedRun).any
      (fun s => s.db.docs.jobs.all (·.status == .succeeded) &&
        s.neo.chunks.any (·.documentVersionId == 1)) = true := by
    decide +kernel
  obtain ⟨final, done, test⟩ := (Option.any_eq_true _ _).mp completes
  obtain ⟨jobs, nodes⟩ := Bool.and_eq_true_iff.mp test
  refine ⟨final, done, projection_converges 1 graphStart final projectedRun graphStart_projection
    (run_of_guarded (covered_of_fresh 1) done) (fun job member _ => ?_) (.inl ?_)⟩
  · exact beq_iff_eq.mp (List.all_eq_true.mp jobs job member)
  · obtain ⟨c, member, version⟩ := List.any_eq_true.mp nodes
    exact ⟨c, member, beq_iff_eq.mp version⟩

/-- Two workers: the first reads before the archival and writes after the second, which has read
and written after it. -/
def overtakenProjection : List GraphAction :=
  danglingRun ++ [.persist "a" 12 none, .load "a", .archive ⟨1, 13, 13⟩ 1,
    .lease (.acquireJobs "b" none (some ["graph_index_build"]) 60 1 [] 14), .begin "b" 3,
    .prepare "b" 15 none, .extract "b" (some danglingResult), .persist "b" 16 none, .load "b",
    .write "b", .finish "b" 60 17 17, .write "a", .finish "a" 60 18 18]

/-- Both graph jobs have succeeded, and the nodes of the version are not its current rows. -/
theorem overtaken_projection_stays :
    let _ : GraphText := asciiGraphText
    ∃ final, exec GraphSystem.step graphStart overtakenProjection = some final ∧
      (∀ job ∈ final.db.docs.jobs, GraphJobOf 1 job → job.status = .succeeded) ∧
      Projected final 1 ∧ ¬Shows final.neo final.db 1 := by
  intro _
  have completes : (exec GraphSystem.step graphStart overtakenProjection).any (fun s =>
      s.db.docs.jobs.all (fun job => job.jobType != "graph_index_build" ||
        job.status == .succeeded) &&
      s.neo.chunks.any fun c => c.documentVersionId == 1 &&
        !(chunkRows 1 s.db.docs).contains c) = true := by
    decide +kernel
  obtain ⟨final, done, test⟩ := (Option.any_eq_true _ _).mp completes
  obtain ⟨jobs, nodes⟩ := Bool.and_eq_true_iff.mp test
  obtain ⟨c, member, stale⟩ := List.any_eq_true.mp nodes
  simp only [Bool.and_eq_true, beq_iff_eq, Bool.not_eq_true', List.contains_eq_mem,
    decide_eq_false_iff_not] at stale
  refine ⟨final, done, fun job inside graph => ?_, .inl ⟨c, member, stale.1⟩,
    fun shows => stale.2 ((shows.chunks c).mp ⟨member, stale.1⟩)⟩
  have status := List.all_eq_true.mp jobs job inside
  simpa [graph.1] using status

end Examples

end RagProject.Graph
