import RagProject.Graph.Build

/-! Any number of workers in GraphIndexBuildHandler, with the lease calls and the transactions on
documents between their steps. -/
namespace RagProject.Graph
open Python Jobs Documents Interleaving

inductive JobHandlerResult where
  | succeeded (resultJson : Dict)
  | failed (errorCode : String)
  deriving DecidableEq, Repr

/-- Where a worker stands in handle, between two transactions. -/
inductive BuildPhase where
  | prepare (payload : GraphIndexJobPayload)
  | extract (snapshot : GraphIndexBuildSnapshot)
  | persist (snapshot : GraphIndexBuildSnapshot) (result : GraphExtractionResult)
  | failRun (graphIndexRunId : Nat) (errorCode : String)
  | project (documentVersionId : Nat) (resultJson : Dict)
  | projecting (documentVersionId : Nat) (rows : ProjectionRows) (resultJson : Dict)
  | done (result : JobHandlerResult)
  deriving DecidableEq, Repr

/-- A worker in the handler: its job, and the run that it has prepared. -/
structure BuildRun where
  jobId : Nat
  runId : Option Nat
  phase : BuildPhase
  deriving DecidableEq, Repr

structure GraphSystem where
  db : GraphDb
  neo : Neo4jGraph
  builds : String → Option BuildRun

/-- A fault is an exception that the environment raises inside a transaction; `raise` is one that
leaves handle. -/
inductive GraphAction where
  | approve (request : Request) (logicalDocumentId documentVersionId : Nat)
  | archive (request : Request) (logicalDocumentId : Nat)
  | lease (call : LeaseCall)
  | begin (worker : String) (jobId : Nat)
  | prepare (worker : String) (now : Time) (fault : Option GraphError)
  | extract (worker : String) (result : Option GraphExtractionResult)
  | persist (worker : String) (now : Time) (fault : Option GraphError)
  | failRun (worker : String) (now : Time) (fault : Option GraphError)
  | load (worker : String)
  | write (worker : String)
  | raise (worker : String)
  | abandon (worker : String)
  | finish (worker : String) (leaseDuration renewedAt finishedAt : Time)

/-- The worker that takes a step in the handler. -/
def GraphAction.worker : GraphAction → Option String
  | .begin worker _ | .prepare worker _ _ | .extract worker _ | .persist worker _ _
  | .failRun worker _ _ | .load worker | .write worker | .raise worker | .abandon worker
  | .finish worker _ _ _ => some worker
  | .approve _ _ _ | .archive _ _ | .lease _ => none

/-- The message of _SAFE_MESSAGES for a code. -/
def safeMessage (errorCode : String) : String :=
  (List.lookup errorCode [
    ("validation_error", "Job payload is invalid."),
    ("document_version_not_found", "Document version was not found."),
    ("document_version_not_ready", "Document version is not ready."),
    ("graph_index_run_not_found", "Graph index run was not found."),
    ("graph_index_run_not_ready", "Graph index run is not ready."),
    ("graph_extraction_failed", "Graph extraction failed."),
    ("graph_normalization_failed", "Graph normalization failed."),
    ("graph_relation_validation_failed", "Graph relation validation failed."),
    ("graph_index_write_failed", "Graph index write failed."),
    ("graph_extraction_llm_retryable_failed", "Graph LLM extraction failed retryably."),
    ("graph_extraction_llm_partial_rebuild_skipped",
      "Graph LLM partial rebuild skipped to preserve existing index."),
    ("internal_error", "Graph index build failed.")]).getD "Graph index build failed."

/-- The job result of a run, without what it says of the extractor and of the projection. -/
def resultPayload (documentVersionId : Nat) (run : GraphIndexRun) (status resultCode : String) :
    Dict :=
  [("document_version_id", .int documentVersionId), ("graph_index_run_id", .int run.graphIndexRunId),
   ("entity_count", .int run.entityCount), ("relation_count", .int run.relationCount),
   ("mention_count", .int run.mentionCount), ("status", .str status),
   ("result_code", .str resultCode)]

/-- The transaction of _fail_run: a run that is already closed is left alone. -/
def failRunTransaction (graphIndexRunId : Nat) (errorCode : String) (jobId : Nat) (worker : String)
    (now : Time) (db : GraphDb) : Except GraphError GraphDb :=
  match getGraphIndexRun db graphIndexRunId with
  | none => .ok db
  | some run =>
    if run.status.terminal then .ok db
    else match ownershipError jobId worker db with
      | some error => .error error
      | none => .ok (setGraphRun db graphIndexRunId
          (graphRunFailed errorCode (safeMessage errorCode) now))

/-- The transaction that stores the result of a job. -/
def storeTerminalResult [UnicodeTables] (jobId : Nat) (worker : String)
    (leaseDuration renewedAt finishedAt : Time) (result : JobHandlerResult) (jobs : List Job) :
    Except JobError (List Job) :=
  match result with
  | .succeeded resultJson =>
    storeSucceeded jobId worker leaseDuration renewedAt finishedAt resultJson jobs
  | .failed errorCode => storeFailed jobId worker leaseDuration renewedAt finishedAt errorCode
      (safeMessage errorCode) jobs

namespace GraphSystem

def setBuild (s : GraphSystem) (worker : String) (build : Option BuildRun) : GraphSystem :=
  { s with builds := fun w => if w = worker then build else s.builds w }

/-- A worker acquires jobs between two handler runs, and a graph job ends through the handler,
or is cancelled. -/
def permits (s : GraphSystem) : LeaseCall → Bool
  | .acquireJobs worker _ _ _ _ _ _ => (s.builds worker).isNone
  | .markSucceeded jobId _ _ _ | .markFailed jobId _ _ _ _ =>
    (getJob s.db.docs.jobs jobId).all (·.jobType != "graph_index_build")
  | _ => true

/-- The next phase of a worker, or none when it leaves the handler. -/
def moveTo (s : GraphSystem) (worker : String) (build : BuildRun) (phase : Option BuildPhase) :
    GraphSystem :=
  s.setBuild worker (phase.map fun phase => { build with phase := phase })

/-- How the handler goes on after an exception in _prepare. -/
def afterPrepareError (payload : GraphIndexJobPayload) : GraphError → Option BuildPhase
  | .leaseLost => none
  | .resourceNotFound => some (.done (.failed "document_version_not_found"))
  | .value =>
    match payload.graphIndexRunId with
    | some runId => some (.failRun runId "document_version_not_ready")
    | none => some (.done (.failed "document_version_not_ready"))
  | .other => some (.done (.failed "internal_error"))

/-- How the handler goes on after an exception in _persist. -/
def afterPersistError (snapshot : GraphIndexBuildSnapshot) : GraphError → Option BuildPhase
  | .leaseLost => none
  | .value => some (.failRun snapshot.graphIndexRunId "graph_relation_validation_failed")
  | _ => some (.failRun snapshot.graphIndexRunId "graph_index_write_failed")

def prepareStep (s : GraphSystem) (worker : String) (build : BuildRun)
    (payload : GraphIndexJobPayload) (now : Time) (fault : Option GraphError) : GraphSystem :=
  match fault.elim (prepareTransaction payload build.jobId worker now s.db) .raised with
  | .refused code => s.moveTo worker build (some (.done (.failed code)))
  | .succeeded runId =>
    s.moveTo worker build ((getGraphIndexRun s.db runId).map fun run =>
      .project payload.documentVersionId
        (resultPayload payload.documentVersionId run "already_succeeded" "no_op"))
  | .snapshot db snapshot =>
    { s.setBuild worker (some ⟨build.jobId, some snapshot.graphIndexRunId, .extract snapshot⟩) with
      db := db }
  | .raised error => s.moveTo worker build (afterPrepareError payload error)

variable [GraphText]

/-- The transaction of _persist. -/
def persistTransaction (snapshot : GraphIndexBuildSnapshot) (result : GraphExtractionResult)
    (jobId : Nat) (worker : String) (now : Time) (db : GraphDb) :
    Except GraphError (GraphDb × Option String) :=
  match ownershipError jobId worker db with
  | some error => .error error
  | none => persistExtractionResult snapshot result now db

def persistStep (s : GraphSystem) (worker : String) (build : BuildRun)
    (snapshot : GraphIndexBuildSnapshot) (result : GraphExtractionResult) (now : Time)
    (fault : Option GraphError) : GraphSystem :=
  match fault.elim (persistTransaction snapshot result build.jobId worker now s.db) .error with
  | .error error => s.moveTo worker build (afterPersistError snapshot error)
  | .ok (db, some code) =>
    { s.moveTo worker build (some (.done (.failed code))) with db := db }
  | .ok (db, none) =>
    { s.moveTo worker build ((getGraphIndexRun db snapshot.graphIndexRunId).map fun run =>
        .project snapshot.documentVersionId
          (resultPayload snapshot.documentVersionId run "succeeded" "indexed")) with db := db }

def failRunStep (s : GraphSystem) (worker : String) (build : BuildRun) (runId : Nat)
    (code : String) (now : Time) (fault : Option GraphError) : GraphSystem :=
  match fault.elim (failRunTransaction runId code build.jobId worker now s.db) .error with
  | .error .leaseLost => s.setBuild worker none
  | .error _ => s.moveTo worker build (some (.done (.failed code)))
  | .ok db => { s.moveTo worker build (some (.done (.failed code))) with db := db }

def step (s : GraphSystem) : GraphAction → Option GraphSystem
  | .approve request logicalDocumentId documentVersionId =>
    match approveVersion request logicalDocumentId documentVersionId s.db.docs with
    | .ok (docs, _) => some { s with db := { s.db with docs := docs } }
    | .error _ => some s
  | .archive request logicalDocumentId =>
    match archiveDocument request logicalDocumentId s.db.docs with
    | .ok (docs, _) => some { s with db := { s.db with docs := docs } }
    | .error _ => some s
  | .lease call =>
    if s.permits call then
      some { s with db := { s.db with docs := { s.db.docs with
        jobs := call.commit s.db.docs.jobs } } }
    else none
  | .begin worker jobId =>
    match s.builds worker, getJob s.db.docs.jobs jobId with
    | none, some job =>
      if ownedBy jobId worker job && job.jobType == "graph_index_build" then
        some (s.setBuild worker (some ⟨jobId, none, match graphIndexRequest job with
          | some payload => .prepare payload
          | none => .done (.failed "validation_error")⟩))
      else none
    | _, _ => none
  | .prepare worker now fault =>
    match s.builds worker with
    | some build =>
      match build.phase with
      | .prepare payload => some (s.prepareStep worker build payload now fault)
      | _ => none
    | none => none
  | .extract worker result =>
    match s.builds worker with
    | some build =>
      match build.phase with
      | .extract snapshot => some (s.moveTo worker build (some (match result with
          | some result => .persist snapshot (dedupeResult result)
          | none => .failRun snapshot.graphIndexRunId "graph_extraction_failed")))
      | _ => none
    | none => none
  | .persist worker now fault =>
    match s.builds worker with
    | some build =>
      match build.phase with
      | .persist snapshot result => some (s.persistStep worker build snapshot result now fault)
      | _ => none
    | none => none
  | .failRun worker now fault =>
    match s.builds worker with
    | some build =>
      match build.phase with
      | .failRun runId code => some (s.failRunStep worker build runId code now fault)
      | _ => none
    | none => none
  | .load worker =>
    match s.builds worker with
    | some build =>
      match build.phase with
      | .project documentVersionId result =>
        some (s.moveTo worker build (some (match loadProjectionRows documentVersionId s.db with
          | .ok rows => .projecting documentVersionId rows result
          | .error _ => .done (.succeeded result))))
      | _ => none
    | none => none
  | .write worker =>
    match s.builds worker with
    | some build =>
      match build.phase with
      | .projecting documentVersionId rows result =>
        some { s.moveTo worker build (some (.done (.succeeded result))) with
          neo := replaceDocumentVersionProjection documentVersionId rows s.neo }
      | _ => none
    | none => none
  | .raise worker =>
    match s.builds worker with
    | some build =>
      match build.phase with
      | .done _ => none
      | _ => some (s.moveTo worker build (some (.done (.failed "internal_error"))))
    | none => none
  | .abandon worker => some (s.setBuild worker none)
  | .finish worker leaseDuration renewedAt finishedAt =>
    match s.builds worker with
    | some build =>
      match build.phase with
      | .done result =>
        match storeTerminalResult build.jobId worker leaseDuration renewedAt finishedAt result
            s.db.docs.jobs with
        | .ok jobs => some { s.setBuild worker none with
            db := { s.db with docs := { s.db.docs with jobs := jobs } } }
        | .error _ => some (s.setBuild worker none)
      | _ => none
    | none => none

end GraphSystem

end RagProject.Graph
