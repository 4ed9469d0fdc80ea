import Mathlib.Data.List.Sort
import RagProject.Jobs.Sanitize
import RagProject.Lib.Table

/-! The jobs table with its check constraints, and JobRepository as functions of the
table (db/models.py, repositories/job_repository.py). A failed call leaves its
transaction to be rolled back, so it returns no table. -/
namespace RagProject.Jobs
open Python

/-- Microseconds. No relation between the readings of two clocks is assumed. -/
abbrev Time := Int

inductive JobStatus where
  | queued | running | succeeded | failed | canceled
  deriving DecidableEq, Repr

structure Job where
  jobId : Nat
  jobType : String
  status : JobStatus
  priority : Int
  targetType : Option String
  targetId : Option Nat
  payloadJson : Option Dict
  resultJson : Option Dict
  errorCode : Option String
  errorMessage : Option String
  lockedBy : Option String
  lockedAt : Option Time
  leaseExpiresAt : Option Time
  retryOfJobId : Option Nat
  retryCount : Nat
  createdBy : Option Nat
  startedAt : Option Time
  finishedAt : Option Time
  createdAt : Time
  updatedAt : Time
  deriving DecidableEq, Repr

def JobStatus.terminal : JobStatus → Bool
  | .succeeded | .failed | .canceled => true
  | _ => false

/-- Statuses that count as an active retry. -/
def JobStatus.active : JobStatus → Bool
  | .queued | .running => true
  | _ => false

/-- A comparison of two nullable columns: null passes a check. -/
def nullOr (a b : Option Time) (rel : Time → Time → Bool) : Bool :=
  match a, b with
  | some x, some y => rel x y
  | _, _ => true

/-- The check constraints of the table, each with its name. -/
def Job.checks (j : Job) : List (String × Bool) := [
  ("ck_jobs_priority", 0 ≤ j.priority),
  ("ck_jobs_no_self_retry", j.retryOfJobId != some j.jobId),
  ("ck_jobs_queued_times",
    j.status != .queued || (j.startedAt.isNone && j.finishedAt.isNone)),
  ("ck_jobs_running_required_fields",
    j.status != .running || (j.lockedBy.isSome && j.lockedAt.isSome && j.leaseExpiresAt.isSome &&
      j.startedAt.isSome && j.finishedAt.isNone)),
  ("ck_jobs_terminal_finished", !j.status.terminal || j.finishedAt.isSome),
  ("ck_jobs_success_failed_started",
    !(j.status == .succeeded || j.status == .failed) || j.startedAt.isSome),
  ("ck_jobs_failed_error_code", j.status != .failed || j.errorCode.isSome),
  ("ck_jobs_message_edit_target_required", j.jobType != "message_edit_regeneration" ||
    (j.targetType == some "chat_message" && j.targetId.isSome)),
  ("ck_jobs_lease_order", nullOr j.leaseExpiresAt j.lockedAt fun e l => l < e),
  ("ck_jobs_finished_after_started", nullOr j.finishedAt j.startedAt fun f s => s ≤ f)]

/-- The constraint that refuses the row. -/
def Job.violation (j : Job) : Option String :=
  (j.checks.find? fun check => !check.2).map Prod.fst

inductive JobError where
  | leaseLost (jobId : Nat)
  | integrity (constraint : String)
  deriving DecidableEq, Repr

/-- UPDATE with its row count. One refused row refuses the statement. -/
def updateWhere (hit : Job → Bool) (values : Job → Job) (jobs : List Job) :
    Except JobError (List Job × Nat) :=
  match (jobs.filter hit).findSome? fun j => (values j).violation with
  | some constraint => .error (.integrity constraint)
  | none => .ok (jobs.map fun j => if hit j then values j else j, (jobs.filter hit).length)

def getJob (jobs : List Job) (jobId : Nat) : Option Job := Table.row Job.jobId jobs jobId

/-- The row that create_job inserts; the database supplies the id and the times. -/
def newJob [UnicodeTables] (jobId : Nat) (jobType : String) (targetType : Option String)
    (targetId : Option Nat) (payloadJson : Option Dict) (createdBy : Option Nat)
    (priority : Int) (createdAt : Time) : Job where
  jobId := jobId
  jobType := jobType
  status := .queued
  priority := priority
  targetType := targetType
  targetId := targetId
  payloadJson := some (sanitizeJobPayload (payloadJson.getD []))
  resultJson := none
  errorCode := none
  errorMessage := none
  lockedBy := none
  lockedAt := none
  leaseExpiresAt := none
  retryOfJobId := none
  retryCount := 0
  createdBy := createdBy
  startedAt := none
  finishedAt := none
  createdAt := createdAt
  updatedAt := createdAt

/-- The order in which acquire_jobs takes rows. -/
def acquireBefore (a b : Job) : Bool :=
  let rank (j : Job) : Nat := if j.status == .queued then 0 else 1
  if rank a ≠ rank b then rank a < rank b
  else if a.priority ≠ b.priority then a.priority < b.priority
  else if a.createdAt ≠ b.createdAt then a.createdAt < b.createdAt
  else a.jobId ≤ b.jobId

/-- Which job types a worker takes. -/
def typeEnabled (enabledJobTypes supportedJobTypes : Option (List String)) (j : Job) : Bool :=
  match enabledJobTypes, supportedJobTypes with
  | some enabled, _ => j.jobType ∈ enabled
  | none, some supported => j.jobType ∈ supported
  | none, none => true

def acquirable (acquiredAt : Time) (j : Job) : Bool :=
  j.status == .queued || (j.status == .running && j.leaseExpiresAt.any (· < acquiredAt))

/-- The rows that acquire_jobs selects. Rows locked by others are skipped. -/
def acquireSelection (enabledJobTypes supportedJobTypes : Option (List String))
    (batchSize : Nat) (lockedRows : List Nat) (acquiredAt : Time) (jobs : List Job) : List Nat :=
  let rows := jobs.filter fun j => acquirable acquiredAt j &&
    typeEnabled enabledJobTypes supportedJobTypes j && !(j.jobId ∈ lockedRows)
  ((rows.insertionSort fun a b => acquireBefore a b).take batchSize).map Job.jobId

def acquireRow (worker : String) (leaseDuration : Time) (acquiredAt : Time) (j : Job) : Job :=
  { j with
    status := .running
    startedAt := some (j.startedAt.getD acquiredAt)
    lockedBy := some worker
    lockedAt := some acquiredAt
    leaseExpiresAt := some (acquiredAt + leaseDuration)
    updatedAt := acquiredAt }

/-- acquire_jobs: the ids taken and the table after the flush. -/
def acquireJobs (worker : String) (enabledJobTypes supportedJobTypes : Option (List String))
    (leaseDuration : Time) (batchSize : Nat) (lockedRows : List Nat) (acquiredAt : Time)
    (jobs : List Job) : Except JobError (List Job × List Nat) := do
  let ids := acquireSelection enabledJobTypes supportedJobTypes batchSize lockedRows acquiredAt jobs
  let (jobs', _) ← updateWhere (fun j => j.jobId ∈ ids)
    (acquireRow worker leaseDuration acquiredAt) jobs
  return (jobs', ids)

/-- The guard shared by renewal, ownership check and completion. -/
def ownedBy (jobId : Nat) (worker : String) (j : Job) : Bool :=
  j.jobId == jobId && j.status == .running && j.lockedBy == some worker

/-- An update under the ownership guard: no row hit means the lease is lost. -/
def updateOwned (jobId : Nat) (worker : String) (values : Job → Job) (jobs : List Job) :
    Except JobError (List Job) := do
  let (jobs', rowcount) ← updateWhere (ownedBy jobId worker) values jobs
  if rowcount = 0 then .error (.leaseLost jobId) else return jobs'

def renewLease (jobId : Nat) (worker : String) (leaseDuration : Time) (renewedAt : Time)
    (jobs : List Job) : Except JobError (List Job) :=
  updateOwned jobId worker (fun j =>
    { j with
      lockedAt := some renewedAt
      leaseExpiresAt := some (renewedAt + leaseDuration)
      updatedAt := renewedAt }) jobs

def assertOwnership (jobId : Nat) (worker : String) (jobs : List Job) : Except JobError Unit :=
  if jobs.any (ownedBy jobId worker) then .ok () else .error (.leaseLost jobId)

section
variable [UnicodeTables]

def markSucceeded (jobId : Nat) (worker : String) (resultJson : Option Dict) (finishedAt : Time)
    (jobs : List Job) : Except JobError (List Job) :=
  updateOwned jobId worker (fun j =>
    { j with
      status := .succeeded
      finishedAt := some finishedAt
      resultJson := some (sanitizeResultJson resultJson)
      errorCode := none
      errorMessage := none
      leaseExpiresAt := none
      updatedAt := finishedAt }) jobs

def markFailed (jobId : Nat) (worker : String) (errorCode errorMessage : String)
    (finishedAt : Time) (jobs : List Job) : Except JobError (List Job) :=
  updateOwned jobId worker (fun j =>
    { j with
      status := .failed
      finishedAt := some finishedAt
      resultJson := none
      errorCode := some errorCode
      errorMessage := some (redactErrorMessage (some errorMessage))
      leaseExpiresAt := none
      updatedAt := finishedAt }) jobs

def markCanceled (jobId : Nat) (finishedAt : Time) (jobs : List Job) :
    Except JobError (List Job) := do
  let (jobs', _) ← updateWhere (fun j => j.jobId == jobId && j.status.active) (fun j =>
    { j with
      status := .canceled
      finishedAt := some finishedAt
      leaseExpiresAt := none
      updatedAt := finishedAt }) jobs
  return jobs'

/-- get_source_job_id: the original of a retry, a job's own id otherwise. -/
def getSourceJobId (j : Job) : Nat :=
  match j.retryOfJobId with
  | some original => if original = 0 then j.jobId else original
  | none => j.jobId

def createdBefore (a b : Job) : Bool :=
  if a.createdAt ≠ b.createdAt then a.createdAt < b.createdAt else a.jobId ≤ b.jobId

def findActiveRetry (sourceJobId : Nat) (jobs : List Job) : Option Job :=
  ((jobs.filter fun j => j.retryOfJobId == some sourceJobId && j.status.active).insertionSort
    fun a b => createdBefore a b).head?

def nextRetryCount (sourceJobId : Nat) (jobs : List Job) : Nat :=
  ((jobs.filter fun j => j.retryOfJobId == some sourceJobId).map Job.retryCount).foldl max 0 + 1

/-- The row that create_retry_job inserts, with the count read for it. -/
def newRetryJob (jobId : Nat) (source : Job) (requestedByUserId : Option Nat) (retryCount : Nat)
    (createdAt : Time) : Job :=
  let payload := sanitizeJobPayload (source.payloadJson.getD [])
  let payload := match requestedByUserId with
    | some user => Dict.set payload "requested_by_user_id" (.int user)
    | none => payload
  { newJob jobId source.jobType source.targetType source.targetId none requestedByUserId
      source.priority createdAt with
    payloadJson := some payload
    retryOfJobId := some (getSourceJobId source)
    retryCount := retryCount }

end

end RagProject.Jobs
