import RagProject.Ingest.Fenced

/-! Any number of workers run the ingest of one version. A ready version loses a vector only to a
worker that read its chunks without owning the job; to Postgres such a worker does nothing. -/
namespace RagProject.Ingest
open Python Jobs Documents Qdrant Batches Interleaving

section Runs
variable {task : IngestTask} {start s : IngestState} {actions : List IngestAction}

/-- No handler is under way, and a version that is ready already has its vectors. -/
structure IngestStart (task : IngestTask) (s : IngestState) : Prop where
  jobs : JobsOk s.db
  rows : ∀ i ∈ rowIds task.documentVersionId s.db, i < s.nextChunkId
  idle : ∀ w, s.workers w = none
  indexed : VersionReady task.documentVersionId s.db → ∀ i ∈ rowIds task.documentVersionId s.db,
    HasPoint i s.points

theorem IngestStart.fenced (begins : IngestStart task s) (id : Nat) : Fenced task id s := by
  have nobody (w : String) (p : IngestPhase) (here : s.workers w = some p) : False := by
    rw [begins.idle w] at here
    cases here
  exact ⟨begins.jobs, begins.rows, fun w p here => (nobody w p here).elim,
    fun w p here => (nobody w p here).elim, fun _ _ w p here => (nobody w p here).elim,
    fun w p here => (nobody w p here).elim, fun w p here => (nobody w p here).elim,
    fun ready => begins.indexed ready id⟩

variable [UnicodeTables]

/-- A worker has read the id as a stranger, on the way through the actions. -/
def Blamed (task : IngestTask) (start : IngestState) (actions : List IngestAction) (id : Nat) :
    Prop :=
  ∃ before worker clock after t, actions = before ++ .proceed worker .done clock :: after ∧
    exec (ingestStep task) start before = some t ∧ StaleRead task t worker id

theorem Blamed.more {id : Nat} (blamed : Blamed task start actions id) (action : IngestAction) :
    Blamed task start (actions ++ [action]) id := by
  obtain ⟨before, worker, clock, after, t, rfl, passed, stale⟩ := blamed
  exact ⟨before, worker, clock, after ++ [action], t, List.append_assoc .., passed, stale⟩

theorem fenced_or_blamed (begins : IngestStart task start) (id : Nat)
    (run : exec (ingestStep task) start actions = some s) :
    Blamed task start actions id ∨ Fenced task id s := by
  refine exec_keeps (fun actions s => Blamed task start actions id ∨ Fenced task id s)
    (.inr (begins.fenced id)) (fun actions s action t passed held step => ?_) run
  rcases held with blamed | f
  · exact .inl (blamed.more action)
  by_cases stale : ∃ worker clock, action = .proceed worker .done clock ∧ StaleRead task s worker id
  · obtain ⟨worker, clock, rfl, stale⟩ := stale
    exact .inl ⟨actions, worker, clock, [], s, rfl, passed, stale⟩
  · exact .inr (step_fenced f step fun worker clock same read => stale ⟨worker, clock, same, read⟩)

/-- When a ready version has a chunk without a vector, then a worker that did not own the job has
read that chunk on the way, for its cleanup or as one of its own. -/
theorem lost_vector_blamed (begins : IngestStart task start)
    (run : exec (ingestStep task) start actions = some s)
    (ready : VersionReady task.documentVersionId s.db) {id : Nat}
    (row : id ∈ rowIds task.documentVersionId s.db) (lost : ¬HasPoint id s.points) :
    ∃ before worker clock after t, actions = before ++ .proceed worker .done clock :: after ∧
      exec (ingestStep task) start before = some t ∧ StaleRead task t worker id :=
  (fenced_or_blamed begins id run).resolve_right fun f => lost (f.present ready row)

end Runs
section Strangers
variable {task : IngestTask} {s t : IngestState} {worker : String}

/-- The worker whose handler takes the step. -/
def IngestAction.handler : IngestAction → Option String
  | .begin worker | .proceed worker _ _ | .crash worker => some worker
  | _ => none

variable [UnicodeTables]

theorem advance_foreign (foreign : ¬Owns task.job.jobId worker s.db) (clock : IngestClock)
    (p : IngestPhase) : (s.advance task worker clock p).db = s.db := by
  cases p with
  | arrived =>
    simp only [IngestState.advance]
    split
    · rfl
    · rename_i db code done
      rcases prepareVersion_ok done with ⟨rfl, _⟩ | ⟨unready, _⟩
      · rfl
      · exact absurd unready.owner foreign
    · rename_i db snapshot done
      rcases prepareVersion_ok done with ⟨rfl, ready⟩ | ⟨unready, _⟩
      · rw [if_pos (ready snapshot rfl)]
        rfl
      · exact absurd unready.owner foreign
  | cleaned snapshot =>
    simp only [IngestState.advance]
    split
    · rfl
    · rename_i owner
      exact absurd (assertOwner_iff.mp owner) foreign
  | storing snapshot document chunks =>
    simp only [IngestState.advance]
    split
    · rename_i db done
      exact absurd (storeChunks_ok done).1.owner foreign
    all_goals rfl
  | stored snapshot =>
    simp only [IngestState.advance]
    split <;> rfl
  | indexing snapshot chunks batch rest =>
    simp only [IngestState.advance]
    split <;> rfl
  | finishing chunks =>
    simp only [IngestState.advance]
    split
    · rename_i db done
      exact absurd (finalizeVersion_ok done).1 foreign
    · rfl
    · rfl
  | failing errorCode waiting =>
    simp only [IngestState.advance]
    split <;> rfl
  | marking errorCode withChunks =>
    simp only [IngestState.advance]
    split
    · rename_i db done
      rcases markFailed_ok done with rfl | ⟨unready, _⟩
      · rfl
      · exact absurd unready.owner foreign
    · rfl
  | cleaning | extracting | dropping | removing => rfl

/-- No transaction of a handler commits a change without the job. -/
theorem foreign_step {action : IngestAction} (step : ingestStep task s action = some t)
    (handler : action.handler = some worker) (foreign : ¬Owns task.job.jobId worker s.db) :
    t.db = s.db := by
  cases action with
  | begin w =>
    simp only [ingestStep] at step
    split at step
    · cases step
      rfl
    · cases step
  | crash w =>
    cases step
    rfl
  | proceed w answer clock =>
    cases handler
    obtain ⟨p, _, rfl⟩ := Option.map_eq_some_iff.mp step
    cases answer with
    | done => exact advance_foreign foreign clock p
    | extracted document =>
      cases p with
      | extracting snapshot =>
        simp only [IngestState.answered, IngestState.extracted]
        split
        · rfl
        split <;> rfl
      | _ => rfl
    | failed errorCode waiting reached =>
      cases p with
      | failing code later => cases later <;> rfl
      | _ => rfl
  | _ => cases handler

/-- Whatever the handlers of workers without the job do, in any order and for however long, the
tables stay as they are. -/
theorem strangers_change_no_row {actions : List IngestAction}
    (strangers : ∀ action ∈ actions, ∃ worker, action.handler = some worker ∧
      ¬Owns task.job.jobId worker s.db)
    (run : exec (ingestStep task) s actions = some t) : t.db = s.db := by
  induction actions generalizing s with
  | nil =>
    cases Option.some.inj run
    rfl
  | cons action actions ih =>
    simp only [exec, Option.bind_eq_some_iff] at run
    obtain ⟨u, step, rest⟩ := run
    obtain ⟨worker, handler, foreign⟩ := strangers action List.mem_cons_self
    have same := foreign_step step handler foreign
    rw [← same]
    refine ih (fun later member => ?_) rest
    rw [same]
    exact strangers later (List.mem_cons_of_mem _ member)

end Strangers

section LateFailure
local instance lateTables : UnicodeTables := asciiTables

def lateTask : IngestTask where
  job := ⟨1, "document_ingest", some "document_version", some 7, [("document_version_id", .int 7)], ""⟩
  documentVersionId := 7
  target := by decide
  chunking := ⟨100, 10, by decide⟩
  maxExtractedTextChars := 1000
  upsertBatchSize := 64
  positive := by decide
  payloadOf _ _ := []

def uploaded : DocumentVersion where
  documentVersionId := 7
  logicalDocumentId := 3
  versionNo := 1
  contentHash := "hash"
  status := .processing
  isActive := false
  errorCode := none
  fileName := "note.txt"
  mimeType := "text/plain"
  fileSizeBytes := 4
  storageKey := some "3/7"
  metadataJson := none
  pageCount := none
  extractorName := none
  extractorVersion := none
  createdBy := 1
  createdAt := 0
  updatedAt := 0

def uploadedDb : Db where
  documents := [⟨3, 1, "note", .active, none, 0, 0⟩]
  versions := [uploaded]
  chunks := []
  jobs := [newJob 1 "document_ingest" (some "document_version") (some 7)
    (some [("document_version_id", .int 7)]) (some 1) 100 0]
  nextJobId := 2
  corpusMarker := none
  graphIndexing := none
  graphExtractor := none

def uploadedState : IngestState := ⟨uploadedDb, 1, [], fun _ => none⟩

def clockAt (now : Time) : IngestClock := ⟨now, now, now⟩

def takes (worker : String) (now : Time) : List IngestAction :=
  [.acquire worker none none 60 1 [] now, .begin worker, .proceed worker .done (clockAt now)]

/-- The first worker stalls in the extraction, and fails after the second one is done. -/
def lateFailure : List IngestAction :=
  takes "a" 0 ++ takes "b" 100 ++
  .proceed "b" (.extracted ⟨[⟨"note", none, none, []⟩], none, "text", "1"⟩) (clockAt 101) ::
  List.replicate 4 (.proceed "b" .done (clockAt 102)) ++
  [.proceed "a" (.failed "text_extraction_failed" [] []) (clockAt 103),
    .proceed "a" .done (clockAt 104), .proceed "a" .done (clockAt 105)]

theorem uploaded_start : IngestStart lateTask uploadedState := by
  refine ⟨⟨by decide, by decide⟩, ?_, fun w => rfl, fun _ => ?_⟩
  · exact fun i none => absurd none List.not_mem_nil
  · exact fun i none => absurd none List.not_mem_nil

theorem late_failure_blamed : ∃ before worker clock after t,
    lateFailure = before ++ .proceed worker .done clock :: after ∧
    exec (ingestStep lateTask) uploadedState before = some t ∧ StaleRead lateTask t worker 1 := by
  have ran : (exec (ingestStep lateTask) uploadedState lateFailure).any (fun s =>
      (s.db.getVersionById 7).any (·.status == .ready) && decide (1 ∈ rowIds 7 s.db) &&
        !s.points.any (·.pointId == .num 1)) = true := by decide +kernel
  obtain ⟨s, run, shows⟩ := (Option.any_eq_true _ _).mp ran
  simp only [Bool.and_eq_true, decide_eq_true_eq, Bool.not_eq_true', List.any_eq_false,
    beq_iff_eq] at shows
  obtain ⟨⟨ready, row⟩, lost⟩ := shows
  obtain ⟨v, found, status⟩ := (Option.any_eq_true _ _).mp ready
  refine lost_vector_blamed uploaded_start run ⟨v, found, by simpa using status⟩ row ?_
  rintro ⟨point, member, same⟩
  exact lost point member same

/-- The worker that had the job first, once the other one has it. -/
theorem late_worker_changes_no_row : ∃ s t, exec (ingestStep lateTask) uploadedState
      (takes "a" 0 ++ takes "b" 100) = some s ∧
    exec (ingestStep lateTask) s [.proceed "a" (.failed "text_extraction_failed" [] []) (clockAt 103),
      .proceed "a" .done (clockAt 104), .proceed "a" .done (clockAt 105)] = some t ∧
    t.db = s.db := by
  have ran : (exec (ingestStep lateTask) uploadedState (takes "a" 0 ++ takes "b" 100)).any (fun s =>
      !s.db.jobs.any (ownedBy 1 "a") &&
        (exec (ingestStep lateTask) s [.proceed "a" (.failed "text_extraction_failed" [] [])
          (clockAt 103), .proceed "a" .done (clockAt 104), .proceed "a" .done (clockAt 105)]).isSome)
      = true := by decide +kernel
  obtain ⟨s, run, shows⟩ := (Option.any_eq_true _ _).mp ran
  obtain ⟨foreign, later⟩ := Bool.and_eq_true_iff.mp shows
  obtain ⟨t, after⟩ := Option.isSome_iff_exists.mp later
  refine ⟨s, t, run, after, strangers_change_no_row (fun action member => ⟨"a", ?_, ?_⟩) after⟩
  · simp only [List.mem_cons, List.not_mem_nil, or_false] at member
    rcases member with rfl | rfl | rfl <;> rfl
  · rw [Bool.not_eq_true'] at foreign
    exact Bool.eq_false_iff.mp foreign

end LateFailure
end RagProject.Ingest
