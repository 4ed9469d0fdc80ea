import RagProject.Jobs.Repository
import RagProject.Lib.Lease

/-! The life of a job row under the lease calls of any number of workers. Each call
is one transaction, and any list of calls is one interleaving. The status and
locked_by columns of a row simulate one lease. -/
namespace RagProject.Jobs
open Python Lease

/-- One repository call with its arguments, the clock reading included. -/
inductive LeaseCall where
  | acquireJobs (worker : String) (enabledJobTypes supportedJobTypes : Option (List String))
      (leaseDuration : Time) (batchSize : Nat) (lockedRows : List Nat) (now : Time)
  | renewLease (jobId : Nat) (worker : String) (leaseDuration : Time) (now : Time)
  | assertOwnership (jobId : Nat) (worker : String)
  | markSucceeded (jobId : Nat) (worker : String) (resultJson : Option Dict) (now : Time)
  | markFailed (jobId : Nat) (worker : String) (errorCode errorMessage : String) (now : Time)
  | markCanceled (jobId : Nat) (now : Time)

section
variable [UnicodeTables]

def LeaseCall.run (jobs : List Job) : LeaseCall → Except JobError (List Job)
  | .acquireJobs worker enabled supported lease batch locked now =>
    (Jobs.acquireJobs worker enabled supported lease batch locked now jobs).map Prod.fst
  | .renewLease jobId worker lease now => Jobs.renewLease jobId worker lease now jobs
  | .assertOwnership jobId worker => (Jobs.assertOwnership jobId worker jobs).map fun _ => jobs
  | .markSucceeded jobId worker result now => Jobs.markSucceeded jobId worker result now jobs
  | .markFailed jobId worker code message now => Jobs.markFailed jobId worker code message now jobs
  | .markCanceled jobId now => Jobs.markCanceled jobId now jobs

/-- The table once the call's transaction has ended. An error rolls it back. -/
def LeaseCall.commit (jobs : List Job) (call : LeaseCall) : List Job :=
  match call.run jobs with
  | .ok jobs' => jobs'
  | .error _ => jobs

/-- The table after a history of calls. -/
def after (jobs : List Job) (calls : List LeaseCall) : List Job := calls.foldl LeaseCall.commit jobs

/-- What the call does to the lease of one job. -/
def LeaseCall.event (jobs : List Job) (jobId : Nat) (call : LeaseCall) : Event String :=
  match call, call.run jobs with
  | _, .error _ => .idle
  | .acquireJobs worker enabled supported _ batch locked now, .ok _ =>
    if jobId ∈ acquireSelection enabled supported batch locked now jobs then .take worker else .idle
  | .markSucceeded id worker _ _, .ok _ => if id = jobId then .finish worker else .idle
  | .markFailed id worker _ _ _, .ok _ => if id = jobId then .finish worker else .idle
  | .markCanceled id _, .ok _ =>
    if id = jobId ∧ (getJob jobs jobId).any (·.status.active) then .withdraw else .idle
  | .renewLease _ _ _ _, .ok _ | .assertOwnership _ _, .ok _ => .idle

def events (jobId : Nat) (jobs : List Job) : List LeaseCall → List (Event String)
  | [] => []
  | call :: calls => call.event jobs jobId :: events jobId (call.commit jobs) calls

/-- The worker of the most recent acquire_jobs that took the job. -/
def lastAcquirer (jobId : Nat) (jobs : List Job) (calls : List LeaseCall) : Option String :=
  lastTaker none (events jobId jobs calls)

/-- A mark_succeeded or mark_failed call of the worker on the job. -/
def LeaseCall.completes (jobId : Nat) (worker : String) : LeaseCall → Prop
  | .markSucceeded id w _ _ | .markFailed id w _ _ _ => id = jobId ∧ w = worker
  | _ => False

def LeaseCall.clock : LeaseCall → Option Time
  | .acquireJobs _ _ _ _ _ _ now | .renewLease _ _ _ now | .markSucceeded _ _ _ now
  | .markFailed _ _ _ _ now | .markCanceled _ now => some now
  | .assertOwnership _ _ => none

end

/-- The lease that the columns of a row stand for. -/
def leaseOf (j : Job) : Phase String :=
  match j.status, j.lockedBy with
  | .queued, _ => .waiting
  | .running, some worker => .held worker
  | .running, none => .waiting
  | _, _ => .closed

/-- A table that holds new jobs only, each under its own id and accepted by the checks. -/
structure NewJobs where
  rows : List Job
  distinct : (rows.map Job.jobId).Nodup
  queued : ∀ j ∈ rows, j.status = .queued
  accepted : ∀ j ∈ rows, j.violation = none

/-- The columns that go with each status. -/
structure RowOk (j : Job) : Prop where
  running : j.status = .running →
    j.lockedBy.isSome ∧ j.startedAt.isSome ∧ j.finishedAt = none ∧
      ∃ locked expires, j.lockedAt = some locked ∧ j.leaseExpiresAt = some expires ∧
        locked < expires
  queued : j.status = .queued → j.startedAt = none ∧ j.finishedAt = none
  terminal : j.status.terminal = true → j.finishedAt.isSome ∧ j.leaseExpiresAt = none

theorem checks_of_accepted {j : Job} (accepted : j.violation = none) :
    ∀ check ∈ j.checks, check.2 = true := by
  intro check member
  simp only [Job.violation, Option.map_eq_none_iff, List.find?_eq_none] at accepted
  simpa using accepted check member

theorem accepted_of_checks {j : Job} (passed : ∀ check ∈ j.checks, check.2 = true) :
    j.violation = none := by
  simp only [Job.violation, Option.map_eq_none_iff, List.find?_eq_none]
  intro check member
  simp [passed check member]

theorem rowOk_of_accepted {j : Job} (accepted : j.violation = none)
    (lease : j.status.terminal = true → j.leaseExpiresAt = none) : RowOk j := by
  have ok := checks_of_accepted accepted
  simp only [Job.checks, List.forall_mem_cons, List.not_mem_nil, false_imp_iff, implies_true,
    and_true] at ok
  obtain ⟨_, _, queuedTimes, runningFields, terminalFinished, _, _, _, leaseOrder, _⟩ := ok
  constructor
  · intro h
    simp only [h, bne_self_eq_false, Bool.false_or, Bool.and_eq_true, Option.isNone_iff_eq_none]
      at runningFields
    obtain ⟨⟨⟨⟨lockedBy, lockedAt⟩, expires⟩, started⟩, finished⟩ := runningFields
    obtain ⟨l, hl⟩ := Option.isSome_iff_exists.mp lockedAt
    obtain ⟨e, he⟩ := Option.isSome_iff_exists.mp expires
    refine ⟨lockedBy, started, finished, l, e, hl, he, ?_⟩
    simpa [nullOr, hl, he] using leaseOrder
  · intro h
    simpa [h] using queuedTimes
  · intro h
    exact ⟨by simpa [h] using terminalFinished, lease h⟩

theorem updateWhere_ok {hit : Job → Bool} {values : Job → Job} {jobs jobs' : List Job} {n : Nat}
    (done : updateWhere hit values jobs = .ok (jobs', n)) :
    jobs' = jobs.map (fun j => if hit j then values j else j) ∧ n = (jobs.filter hit).length ∧
      ∀ j ∈ jobs, hit j = true → (values j).violation = none := by
  unfold updateWhere at done
  split at done
  · cases done
  · rename_i accepted
    cases done
    refine ⟨rfl, rfl, ?_⟩
    intro j member hj
    exact List.findSome?_eq_none_iff.mp accepted j (List.mem_filter.mpr ⟨member, hj⟩)

theorem updateOwned_ok {jobId : Nat} {worker : String} {values : Job → Job}
    {jobs jobs' : List Job} (done : updateOwned jobId worker values jobs = .ok jobs') :
    jobs' = jobs.map (fun j => if ownedBy jobId worker j then values j else j) ∧
      (∃ j ∈ jobs, ownedBy jobId worker j = true) ∧
      ∀ j ∈ jobs, ownedBy jobId worker j = true → (values j).violation = none := by
  unfold updateOwned at done
  cases update : updateWhere (ownedBy jobId worker) values jobs with
  | error e =>
    rw [update] at done
    cases done
  | ok result =>
    obtain ⟨rows, n⟩ := result
    obtain ⟨hrows, hn, accepted⟩ := updateWhere_ok update
    simp only [update, bind, Except.bind] at done
    split at done
    · cases done
    · rename_i some
      cases done
      have found : jobs.filter (ownedBy jobId worker) ≠ [] := by
        intro empty
        exact some (by simp [hn, empty])
      obtain ⟨j, member⟩ := List.exists_mem_of_ne_nil _ found
      exact ⟨hrows, ⟨j, (List.mem_filter.mp member).1, (List.mem_filter.mp member).2⟩, accepted⟩

theorem ownedBy_iff {jobId : Nat} {worker : String} {j : Job} :
    ownedBy jobId worker j = true ↔
      j.jobId = jobId ∧ j.status = .running ∧ j.lockedBy = some worker := by
  simp [ownedBy, and_assoc]

theorem selected_acquirable {enabled supported : Option (List String)} {batch : Nat}
    {locked : List Nat} {now : Time} {jobs : List Job} {j : Job}
    (distinct : (jobs.map Job.jobId).Nodup) (member : j ∈ jobs)
    (selected : j.jobId ∈ acquireSelection enabled supported batch locked now jobs) :
    acquirable now j = true := by
  simp only [acquireSelection, List.mem_map] at selected
  obtain ⟨row, taken, same⟩ := selected
  have kept := (List.mem_insertionSort _).mp (List.mem_of_mem_take taken)
  obtain ⟨rowMember, condition⟩ := List.mem_filter.mp kept
  have eq : row = j := List.inj_on_of_nodup_map distinct rowMember member same
  subst eq
  simp only [Bool.and_eq_true] at condition
  exact condition.1.1

theorem active_of_acquirable {now : Time} {j : Job} (free : acquirable now j = true) :
    j.status.active = true := by
  simp only [acquirable, Bool.or_eq_true, Bool.and_eq_true, beq_iff_eq] at free
  rcases free with h | ⟨h, _⟩ <;> simp [h, JobStatus.active]

theorem terminal_iff_not_active (s : JobStatus) : s.terminal = !s.active := by
  cases s <;> rfl

theorem leaseOf_active {j : Job} (active : j.status.active = true) : leaseOf j ≠ .closed := by
  intro closed
  cases status : j.status <;> cases holder : j.lockedBy <;>
    simp [leaseOf, status, holder, JobStatus.active] at active closed

theorem getJob_mem {jobs : List Job} {jobId : Nat} {j : Job} (found : getJob jobs jobId = some j) :
    j ∈ jobs ∧ j.jobId = jobId := Table.mem_of_row found

theorem getJob_of_mem {jobs : List Job} {j : Job} (distinct : (jobs.map Job.jobId).Nodup)
    (member : j ∈ jobs) : getJob jobs j.jobId = some j := Table.row_of_mem distinct member

theorem getJob_map {jobs : List Job} {g : Job → Job} (sameId : ∀ j ∈ jobs, (g j).jobId = j.jobId)
    (jobId : Nat) : getJob (jobs.map g) jobId = (getJob jobs jobId).map g :=
  Table.row_map sameId jobId

/-- The columns that no lease call writes. -/
def Job.content (j : Job) :=
  (j.jobId, j.jobType, j.priority, j.targetType, j.targetId, j.payloadJson, j.retryOfJobId,
    j.retryCount, j.createdBy, j.createdAt)

/-- What one call does to one row: its lease takes one step, and a row that changes was
active and is accepted by the checks. -/
structure RowEffect [UnicodeTables] (call : LeaseCall) (jobs : List Job) (j j' : Job) : Prop where
  content : j'.content = j.content
  lease : Lease.step (leaseOf j) (call.event jobs j.jobId) = some (leaseOf j')
  change : j' = j ∨ (j.status.active = true ∧ j'.violation = none ∧
    (j'.status.terminal = true → j'.leaseExpiresAt = none))
  succeeded : j'.status = .succeeded → j.status = .succeeded ∨
    ∃ worker result now, call = .markSucceeded j.jobId worker result now

theorem RowEffect.sameId [UnicodeTables] {call : LeaseCall} {jobs : List Job} {j j' : Job}
    (effect : RowEffect call jobs j j') : j'.jobId = j.jobId := congrArg Prod.fst effect.content

section
variable [UnicodeTables]

theorem unchanged_row {call : LeaseCall} {jobs : List Job} {j : Job}
    (idle : call.event jobs j.jobId = .idle) : RowEffect call jobs j j :=
  ⟨rfl, by rw [idle]; rfl, .inl rfl, .inl⟩

theorem rolled_back {call : LeaseCall} {jobs : List Job} {e : JobError}
    (failed : call.run jobs = .error e) :
    ∃ g : Job → Job, call.commit jobs = jobs.map g ∧ ∀ j ∈ jobs, RowEffect call jobs j (g j) := by
  refine ⟨id, by simp [LeaseCall.commit, failed], fun j _ => unchanged_row ?_⟩
  cases call <;> simp [LeaseCall.event, failed]

omit [UnicodeTables] in
theorem active_of_owned {jobId : Nat} {worker : String} {j : Job}
    (owned : ownedBy jobId worker j = true) : j.status.active = true := by
  simp [(ownedBy_iff.mp owned).2.1, JobStatus.active]

omit [UnicodeTables] in
theorem leaseOf_owned {jobId : Nat} {worker : String} {j : Job}
    (owned : ownedBy jobId worker j = true) : leaseOf j = .held worker := by
  obtain ⟨_, status, holder⟩ := ownedBy_iff.mp owned
  simp [leaseOf, status, holder]

omit [UnicodeTables] in
theorem acquire_rows {worker : String} {enabled supported : Option (List String)} {lease : Time}
    {batch : Nat} {locked : List Nat} {now : Time} {jobs jobs' : List Job} {ids : List Nat}
    (distinct : (jobs.map Job.jobId).Nodup)
    (done : Jobs.acquireJobs worker enabled supported lease batch locked now jobs =
      .ok (jobs', ids)) :
    let selected := acquireSelection enabled supported batch locked now jobs
    jobs' = jobs.map (fun j => if j.jobId ∈ selected then acquireRow worker lease now j else j) ∧
      ∀ j ∈ jobs, j.jobId ∈ selected → acquirable now j = true ∧
        (acquireRow worker lease now j).violation = none := by
  simp only [Jobs.acquireJobs, bind, Except.bind] at done
  split at done
  · cases done
  · rename_i result update
    obtain ⟨rows, n⟩ := result
    cases done
    obtain ⟨hrows, _, accepted⟩ := updateWhere_ok update
    refine ⟨by simpa using hrows, ?_⟩
    intro j member selected
    exact ⟨selected_acquirable distinct member selected, accepted j member (by simpa using selected)⟩

omit [UnicodeTables] in
theorem markCanceled_ok {jobId : Nat} {now : Time} {jobs jobs' : List Job}
    (done : Jobs.markCanceled jobId now jobs = .ok jobs') :
    let canceled (j : Job) : Job := { j with
      status := .canceled, finishedAt := some now, leaseExpiresAt := none, updatedAt := now }
    jobs' = jobs.map (fun j => if j.jobId == jobId && j.status.active then canceled j else j) ∧
      ∀ j ∈ jobs, (j.jobId == jobId && j.status.active) = true →
        (canceled j).violation = none := by
  simp only [Jobs.markCanceled, bind, Except.bind] at done
  split at done
  · cases done
  · rename_i result update
    obtain ⟨rows, n⟩ := result
    cases done
    obtain ⟨hrows, _, accepted⟩ := updateWhere_ok update
    exact ⟨hrows, accepted⟩

/-- An update under the ownership guard rewrites the owned row only. -/
theorem owned_rows {call : LeaseCall} {jobs jobs' : List Job} {jobId : Nat} {worker : String}
    {values : Job → Job} (ran : call.run jobs = .ok jobs')
    (done : updateOwned jobId worker values jobs = .ok jobs')
    (content : ∀ j, (values j).content = j.content)
    (lease : ∀ j, ownedBy jobId worker j = true →
      Lease.step (leaseOf j) (call.event jobs j.jobId) = some (leaseOf (values j)))
    (others : ∀ j : Job, j.jobId ≠ jobId → call.event jobs j.jobId = .idle)
    (expiry : ∀ j, ownedBy jobId worker j = true → (values j).status.terminal = true →
      (values j).leaseExpiresAt = none)
    (succeeded : ∀ j, ownedBy jobId worker j = true → (values j).status = .succeeded →
      ∃ result now, call = .markSucceeded j.jobId worker result now)
    (distinct : (jobs.map Job.jobId).Nodup) :
    ∃ g : Job → Job, call.commit jobs = jobs.map g ∧ ∀ j ∈ jobs, RowEffect call jobs j (g j) := by
  obtain ⟨hrows, ⟨row, rowMember, rowOwned⟩, accepted⟩ := updateOwned_ok done
  refine ⟨_, by rw [LeaseCall.commit, ran]; exact hrows, fun j member => ?_⟩
  split
  · rename_i owned
    refine ⟨content j, lease j owned,
      .inr ⟨active_of_owned owned, accepted j member owned, expiry j owned⟩, fun done => ?_⟩
    obtain ⟨result, now, same⟩ := succeeded j owned done
    exact .inr ⟨worker, result, now, same⟩
  · rename_i foreign
    refine unchanged_row (others j fun same => foreign ?_)
    have eq : row = j := List.inj_on_of_nodup_map distinct rowMember member
      ((ownedBy_iff.mp rowOwned).1.trans same.symm)
    exact eq ▸ rowOwned

/-- Inversion: a committed call rewrites the rows one by one. -/
theorem commit_rows (call : LeaseCall) (jobs : List Job) (distinct : (jobs.map Job.jobId).Nodup) :
    ∃ g : Job → Job, call.commit jobs = jobs.map g ∧ ∀ j ∈ jobs, RowEffect call jobs j (g j) := by
  cases ran : call.run jobs with
  | error e => exact rolled_back ran
  | ok jobs' =>
    cases call with
    | acquireJobs worker enabled supported lease batch locked now =>
      cases acquired : Jobs.acquireJobs worker enabled supported lease batch locked now jobs with
      | error e => simp [LeaseCall.run, acquired, Except.map] at ran
      | ok result =>
        obtain ⟨rows, ids⟩ := result
        obtain ⟨hrows, taken⟩ := acquire_rows distinct acquired
        have same : rows = jobs' := by simpa [LeaseCall.run, acquired, Except.map] using ran
        refine ⟨_, by rw [LeaseCall.commit, ran]; exact same ▸ hrows, fun j member => ?_⟩
        split
        · rename_i selected
          obtain ⟨free, accepted⟩ := taken j member selected
          refine ⟨rfl, ?_, .inr ⟨active_of_acquirable free, accepted,
            by simp [acquireRow, JobStatus.terminal]⟩, fun done => by cases done⟩
          simp only [LeaseCall.event, ran, selected, if_true]
          exact take_open (leaseOf_active (active_of_acquirable free)) worker
        · rename_i skipped
          exact unchanged_row (by simp [LeaseCall.event, ran, skipped])
    | renewLease jobId worker lease now =>
      refine owned_rows ran ran (fun _ => rfl) (fun j owned => ?_) (fun j _ => ?_)
        (fun j owned terminal => ?_) (fun j owned done => ?_) distinct
      · simp [LeaseCall.event, ran, Lease.step, leaseOf]
      · simp [LeaseCall.event, ran]
      · simp [(ownedBy_iff.mp owned).2.1, JobStatus.terminal] at terminal
      · simp [(ownedBy_iff.mp owned).2.1] at done
    | assertOwnership jobId worker =>
      have same : jobs' = jobs := by
        cases owned : Jobs.assertOwnership jobId worker jobs <;>
          simp [LeaseCall.run, owned, Except.map] at ran
        exact ran.symm
      subst same
      exact ⟨id, by simp [LeaseCall.commit, ran],
        fun j _ => unchanged_row (by simp [LeaseCall.event, ran])⟩
    | markSucceeded jobId worker result now =>
      refine owned_rows ran ran (fun _ => rfl) (fun j owned => ?_) (fun (j : Job) other => ?_)
        (fun _ _ _ => rfl)
        (fun j owned _ => ⟨result, now, by rw [(ownedBy_iff.mp owned).1]⟩) distinct
      · have finishes : LeaseCall.event jobs j.jobId (.markSucceeded jobId worker result now) = .finish worker := by
          simp [LeaseCall.event, ran, (ownedBy_iff.mp owned).1]
        rw [leaseOf_owned owned, finishes]
        exact finish_held worker
      · simp only [LeaseCall.event, ran]
        exact if_neg (Ne.symm other)
    | markFailed jobId worker code message now =>
      refine owned_rows ran ran (fun _ => rfl) (fun j owned => ?_) (fun (j : Job) other => ?_)
        (fun _ _ _ => rfl) (fun _ _ done => by cases done) distinct
      · have finishes : LeaseCall.event jobs j.jobId (.markFailed jobId worker code message now) = .finish worker := by
          simp [LeaseCall.event, ran, (ownedBy_iff.mp owned).1]
        rw [leaseOf_owned owned, finishes]
        exact finish_held worker
      · simp only [LeaseCall.event, ran]
        exact if_neg (Ne.symm other)
    | markCanceled jobId now =>
      obtain ⟨hrows, accepted⟩ := markCanceled_ok ran
      refine ⟨_, by rw [LeaseCall.commit, ran]; exact hrows, fun j member => ?_⟩
      have found := getJob_of_mem distinct member
      split
      · rename_i hit
        have accept := accepted j member hit
        simp only [Bool.and_eq_true, beq_iff_eq] at hit
        refine ⟨rfl, ?_, .inr ⟨hit.2, accept, fun _ => rfl⟩, fun done => by cases done⟩
        simp only [LeaseCall.event, ran, hit.1, true_and]
        rw [← hit.1, found, Option.any_some, hit.2]
        exact withdraw_open (leaseOf_active hit.2)
      · rename_i miss
        refine unchanged_row ?_
        simp only [LeaseCall.event, ran, found, Option.any_some]
        simp only [Bool.and_eq_true, beq_iff_eq] at miss
        exact if_neg fun hit => miss ⟨hit.1.symm, hit.2⟩

/-- A call leaves a row failed that was failed before, or that it has failed itself. -/
theorem commit_failed (call : LeaseCall) {jobs : List Job} (distinct : (jobs.map Job.jobId).Nodup)
    {j' : Job} (member : j' ∈ call.commit jobs) (failed : j'.status = .failed) :
    j' ∈ jobs ∨ ∃ worker code message now, call = .markFailed j'.jobId worker code message now := by
  unfold LeaseCall.commit at member
  cases ran : call.run jobs with
  | error e =>
    rw [ran] at member
    exact .inl member
  | ok jobs' =>
    rw [ran] at member
    have mapped {hit : Job → Bool} {values : Job → Job}
        (rows : jobs' = jobs.map fun j => if hit j then values j else j)
        (other : ∀ j, hit j = true → (values j).status ≠ .failed) : j' ∈ jobs := by
      rw [rows] at member
      obtain ⟨j, old, rfl⟩ := List.mem_map.mp member
      split at failed
      · rename_i h
        exact absurd failed (other j h)
      · rename_i miss
        rw [if_neg miss]
        exact old
    cases call with
    | acquireJobs worker enabled supported lease batch locked now =>
      cases acquired : Jobs.acquireJobs worker enabled supported lease batch locked now jobs with
      | error e => simp [LeaseCall.run, acquired, Except.map] at ran
      | ok result =>
        obtain ⟨rows, ids⟩ := result
        obtain ⟨hrows, _⟩ := acquire_rows distinct acquired
        have same : rows = jobs' := by simpa [LeaseCall.run, acquired, Except.map] using ran
        have taken : jobs' = jobs.map fun j => if decide (j.jobId ∈ acquireSelection enabled
            supported batch locked now jobs) then acquireRow worker lease now j else j := by
          rw [← same, hrows]
          simp
        refine .inl (mapped taken fun j _ h => ?_)
        cases h
    | renewLease id worker lease now =>
      refine .inl (mapped (updateOwned_ok ran).1 fun j owned h => ?_)
      cases (ownedBy_iff.mp owned).2.1.symm.trans h
    | assertOwnership id worker =>
      cases owned : Jobs.assertOwnership id worker jobs with
      | error e => simp [LeaseCall.run, owned, Except.map] at ran
      | ok u =>
        have same : jobs = jobs' := by simpa [LeaseCall.run, owned, Except.map] using ran
        exact .inl (same ▸ member)
    | markSucceeded id worker result now =>
      refine .inl (mapped (updateOwned_ok ran).1 fun j owned h => ?_)
      cases h
    | markFailed id worker code message now =>
      rw [(updateOwned_ok ran).1] at member
      obtain ⟨j, old, rfl⟩ := List.mem_map.mp member
      split
      · rename_i owned
        exact .inr ⟨worker, code, message, now, by simp [(ownedBy_iff.mp owned).1]⟩
      · exact .inl old
    | markCanceled id now =>
      refine .inl (mapped (markCanceled_ok ran).1 fun j _ h => ?_)
      cases h

/-- What every call keeps: one row an id, accepted by the checks, no expiry once terminal. -/
structure TableOk (jobs : List Job) : Prop where
  distinct : (jobs.map Job.jobId).Nodup
  accepted : ∀ j ∈ jobs, j.violation = none
  expiry : ∀ j ∈ jobs, j.status.terminal = true → j.leaseExpiresAt = none

omit [UnicodeTables] in
theorem NewJobs.tableOk (start : NewJobs) : TableOk start.rows := by
  refine ⟨start.distinct, start.accepted, fun j member terminal => ?_⟩
  simp [start.queued j member, JobStatus.terminal] at terminal

omit [UnicodeTables] in
theorem TableOk.rowOk {jobs : List Job} (ok : TableOk jobs) {j : Job} (member : j ∈ jobs) :
    RowOk j := rowOk_of_accepted (ok.accepted j member) (ok.expiry j member)

theorem takes_worker {call : LeaseCall} {jobs : List Job} {jobId : Nat} {worker : String}
    (taken : call.event jobs jobId = .take worker) :
    ∃ enabled supported lease batch locked now,
      call = .acquireJobs worker enabled supported lease batch locked now := by
  unfold LeaseCall.event at taken
  split at taken
  · cases taken
  · split at taken
    · cases taken
      exact ⟨_, _, _, _, _, _, rfl⟩
    · cases taken
  all_goals first
    | cases taken
    | (split at taken <;> cases taken)

theorem commit_getJob (call : LeaseCall) {jobs : List Job} (ok : TableOk jobs) {jobId : Nat}
    {j : Job} (found : getJob jobs jobId = some j) :
    ∃ j', getJob (call.commit jobs) jobId = some j' ∧ RowEffect call jobs j j' := by
  obtain ⟨g, rows, effect⟩ := commit_rows call jobs ok.distinct
  refine ⟨g j, ?_, effect j (getJob_mem found).1⟩
  rw [rows, getJob_map fun k member => (effect k member).sameId, found]
  rfl

theorem commit_ok (call : LeaseCall) {jobs : List Job} (ok : TableOk jobs) :
    TableOk (call.commit jobs) := by
  obtain ⟨g, rows, effect⟩ := commit_rows call jobs ok.distinct
  rw [rows]
  refine ⟨?_, ?_, ?_⟩
  · have ids : (jobs.map g).map Job.jobId = jobs.map Job.jobId := by
      rw [List.map_map]
      exact List.map_congr_left fun j member => (effect j member).sameId
    exact ids ▸ ok.distinct
  · intro j' member
    obtain ⟨j, old, rfl⟩ := List.mem_map.mp member
    rcases (effect j old).change with same | ⟨_, accepted, _⟩
    · rw [same]
      exact ok.accepted j old
    · exact accepted
  · intro j' member
    obtain ⟨j, old, rfl⟩ := List.mem_map.mp member
    rcases (effect j old).change with same | ⟨_, _, expiry⟩
    · rw [same]
      exact ok.expiry j old
    · exact expiry

theorem after_ok {jobs : List Job} (ok : TableOk jobs) (calls : List LeaseCall) :
    TableOk (after jobs calls) := by
  induction calls generalizing jobs with
  | nil => exact ok
  | cons call calls ih => exact ih (commit_ok call ok)

/-- The history of a row is a history of its lease. -/
theorem after_lease (calls : List LeaseCall) {jobs : List Job} (ok : TableOk jobs) {jobId : Nat}
    {j : Job} (found : getJob jobs jobId = some j) :
    ∃ j', getJob (after jobs calls) jobId = some j' ∧
      Interleaving.exec Lease.step (leaseOf j) (events jobId jobs calls) = some (leaseOf j') := by
  induction calls generalizing jobs j with
  | nil => exact ⟨j, found, rfl⟩
  | cons call calls ih =>
    obtain ⟨next, foundNext, effect⟩ := commit_getJob call ok found
    obtain ⟨final, foundFinal, history⟩ := ih (commit_ok call ok) foundNext
    refine ⟨final, foundFinal, ?_⟩
    rw [events, ← (getJob_mem found).2, Interleaving.exec, effect.lease]
    exact (getJob_mem found).2 ▸ history

theorem after_missing (calls : List LeaseCall) {jobs : List Job} (ok : TableOk jobs) {jobId : Nat}
    (missing : getJob jobs jobId = none) : getJob (after jobs calls) jobId = none := by
  induction calls generalizing jobs with
  | nil => exact missing
  | cons call calls ih =>
    obtain ⟨g, rows, effect⟩ := commit_rows call jobs ok.distinct
    refine ih (commit_ok call ok) ?_
    rw [rows, getJob_map fun k member => (effect k member).sameId, missing]
    rfl

/-- A terminal row keeps every column. -/
theorem after_terminal (calls : List LeaseCall) {jobs : List Job} (ok : TableOk jobs) {jobId : Nat}
    {j : Job} (found : getJob jobs jobId = some j) (terminal : j.status.terminal = true) :
    getJob (after jobs calls) jobId = some j := by
  induction calls generalizing jobs with
  | nil => exact found
  | cons call calls ih =>
    obtain ⟨next, foundNext, effect⟩ := commit_getJob call ok found
    rcases effect.change with same | ⟨active, _⟩
    · exact ih (commit_ok call ok) (same ▸ foundNext)
    · simp [terminal_iff_not_active, active] at terminal

omit [UnicodeTables] in
/-- A guarded update of an owned row fails only at the checks. -/
theorem updateOwned_error {jobId : Nat} {worker : String} {values : Job → Job} {jobs : List Job}
    {e : JobError} (failed : updateOwned jobId worker values jobs = .error e) :
    e = .leaseLost jobId ∨ ∃ j ∈ jobs, ownedBy jobId worker j = true ∧
      ∃ constraint, (values j).violation = some constraint ∧ e = .integrity constraint := by
  simp only [updateOwned, bind, Except.bind] at failed
  split at failed
  · rename_i error update
    cases failed
    unfold updateWhere at update
    split at update
    · rename_i constraint refused
      cases update
      obtain ⟨j, member, violation⟩ := List.exists_of_findSome?_eq_some refused
      obtain ⟨old, owned⟩ := List.mem_filter.mp member
      exact .inr ⟨j, old, owned, constraint, violation, rfl⟩
    · cases update
  · split at failed
    · cases failed
      exact .inl rfl
    · cases failed

omit [UnicodeTables] in
theorem updateOwned_lost {jobId : Nat} {worker : String} {values : Job → Job} {jobs : List Job}
    (lost : ∀ j ∈ jobs, ownedBy jobId worker j = false) :
    updateOwned jobId worker values jobs = .error (.leaseLost jobId) := by
  have none : jobs.filter (ownedBy jobId worker) = [] := by
    simpa [List.filter_eq_nil_iff] using lost
  simp [updateOwned, updateWhere, none, bind, Except.bind]

/-- The transaction that stores a success: it renews the lease and then completes the job. -/
def storeSucceeded (jobId : Nat) (worker : String) (leaseDuration renewedAt finishedAt : Time)
    (result : Dict) (jobs : List Job) : Except JobError (List Job) := do
  let jobs ← renewLease jobId worker leaseDuration renewedAt jobs
  markSucceeded jobId worker (some result) finishedAt jobs

omit [UnicodeTables] in
/-- The rows after a renewal and a completion by the owner. -/
theorem stored_rows {jobId : Nat} {worker : String} {leaseDuration renewedAt : Time}
    {values : Job → Job} {status : JobStatus} {jobs mid jobs' : List Job}
    (renewed : renewLease jobId worker leaseDuration renewedAt jobs = .ok mid)
    (done : updateOwned jobId worker values mid = .ok jobs')
    (content : ∀ j, (values j).content = j.content) (outcome : ∀ j, (values j).status = status) :
    (∃ j ∈ jobs, ownedBy jobId worker j = true) ∧
      ∃ g : Job → Job, jobs' = jobs.map g ∧ ∀ j ∈ jobs, (g j).content = j.content ∧
        (if ownedBy jobId worker j then (g j).status = status else g j = j) := by
  obtain ⟨first, owner, _⟩ := updateOwned_ok renewed
  obtain ⟨second, _, _⟩ := updateOwned_ok done
  refine ⟨owner, _, by rw [second, first, List.map_map], fun j _ => ?_⟩
  simp only [Function.comp]
  by_cases owned : ownedBy jobId worker j = true
  · have still : ownedBy jobId worker { j with
        lockedAt := some renewedAt
        leaseExpiresAt := some (renewedAt + leaseDuration)
        updatedAt := renewedAt } = true := owned
    rw [if_pos owned, if_pos owned, if_pos still]
    exact ⟨content _, outcome _⟩
  · rw [if_neg owned, if_neg owned]
    exact ⟨rfl, by rw [if_neg owned]⟩

theorem storeSucceeded_ok {jobId : Nat} {worker : String}
    {leaseDuration renewedAt finishedAt : Time} {result : Dict} {jobs jobs' : List Job}
    (ok : TableOk jobs)
    (done : storeSucceeded jobId worker leaseDuration renewedAt finishedAt result jobs =
      .ok jobs') :
    TableOk jobs' ∧ (∃ j ∈ jobs, ownedBy jobId worker j = true) ∧
      ∃ g : Job → Job, jobs' = jobs.map g ∧ ∀ j ∈ jobs, (g j).content = j.content ∧
        (if ownedBy jobId worker j then (g j).status = .succeeded else g j = j) := by
  simp only [storeSucceeded, bind, Except.bind] at done
  split at done
  · cases done
  · rename_i mid renewed
    have okMid : TableOk mid := by
      have committed := commit_ok (.renewLease jobId worker leaseDuration renewedAt) ok
      simpa only [LeaseCall.commit, LeaseCall.run, renewed] using committed
    have committed := commit_ok (.markSucceeded jobId worker (some result) finishedAt) okMid
    simp only [LeaseCall.commit, LeaseCall.run, done] at committed
    exact ⟨committed, stored_rows renewed done (fun _ => rfl) fun _ => rfl⟩

/-- The transaction that stores a failure. -/
def storeFailed (jobId : Nat) (worker : String) (leaseDuration renewedAt finishedAt : Time)
    (errorCode errorMessage : String) (jobs : List Job) : Except JobError (List Job) := do
  let jobs ← renewLease jobId worker leaseDuration renewedAt jobs
  markFailed jobId worker errorCode errorMessage finishedAt jobs

theorem storeFailed_ok {jobId : Nat} {worker : String}
    {leaseDuration renewedAt finishedAt : Time} {code message : String} {jobs jobs' : List Job}
    (ok : TableOk jobs)
    (done : storeFailed jobId worker leaseDuration renewedAt finishedAt code message jobs =
      .ok jobs') :
    TableOk jobs' ∧ (∃ j ∈ jobs, ownedBy jobId worker j = true) ∧
      ∃ g : Job → Job, jobs' = jobs.map g ∧ ∀ j ∈ jobs, (g j).content = j.content ∧
        (if ownedBy jobId worker j then (g j).status = .failed else g j = j) := by
  simp only [storeFailed, bind, Except.bind] at done
  split at done
  · cases done
  · rename_i mid renewed
    have okMid : TableOk mid := by
      have committed := commit_ok (.renewLease jobId worker leaseDuration renewedAt) ok
      simpa only [LeaseCall.commit, LeaseCall.run, renewed] using committed
    have committed := commit_ok (.markFailed jobId worker code message finishedAt) okMid
    simp only [LeaseCall.commit, LeaseCall.run, done] at committed
    exact ⟨committed, stored_rows renewed done (fun _ => rfl) fun _ => rfl⟩

omit [UnicodeTables] in
/-- A completed row is refused for one reason: the clock is behind its start. -/
theorem completed_violation {j : Job} {status : JobStatus} {result : Option Dict}
    {code message : Option String} {now : Time} {constraint : String}
    (accepted : j.violation = none) (running : j.status = .running)
    (outcome : status = .succeeded ∨ (status = .failed ∧ code.isSome = true))
    (refused : Job.violation { j with
      status := status, finishedAt := some now, resultJson := result, errorCode := code,
      errorMessage := message, leaseExpiresAt := none, updatedAt := now } = some constraint) :
    constraint = "ck_jobs_finished_after_started" ∧
      ∃ started, j.startedAt = some started ∧ now < started := by
  have ok := checks_of_accepted accepted
  simp only [Job.checks, List.forall_mem_cons, List.not_mem_nil, false_imp_iff, implies_true,
    and_true] at ok
  obtain ⟨priority, selfRetry, _, fields, _, _, _, target, _, _⟩ := ok
  simp only [running, bne_self_eq_false, Bool.false_or, Bool.and_eq_true] at fields
  obtain ⟨started, hs⟩ := Option.isSome_iff_exists.mp fields.1.2
  have code_ok : (status != .failed || code.isSome) = true := by
    rcases outcome with h | ⟨h, hc⟩ <;> simp [*]
  have passed : (status != .queued) = true ∧ (status != .running) = true ∧
      status.terminal = true := by
    rcases outcome with h | ⟨h, _⟩ <;> simp [h, JobStatus.terminal]
  simp only [Job.violation, Job.checks, priority, selfRetry, passed.1, passed.2.1, passed.2.2,
    code_ok, target, hs, nullOr, List.find?_cons, List.find?_nil, Bool.not_true, Bool.true_or,
    Bool.or_true, Option.isSome_some] at refused
  split at refused
  · rename_i late
    cases refused
    exact ⟨rfl, started, hs, by simpa using late⟩
  · cases refused

/-- A completion call takes effect, or finds no lease, or is refused by the clock check. -/
theorem completion_error {call : LeaseCall} {jobId : Nat} {worker : String} {jobs : List Job}
    {e : JobError} (ok : TableOk jobs) (completes : call.completes jobId worker)
    (failed : call.run jobs = .error e) :
    e = .leaseLost jobId ∨ (e = .integrity "ck_jobs_finished_after_started" ∧
      ∃ j ∈ jobs, ownedBy jobId worker j = true ∧ ∃ started now,
        j.startedAt = some started ∧ call.clock = some now ∧ now < started) := by
  cases call with
  | markSucceeded id w result now =>
    obtain ⟨rfl, rfl⟩ := completes
    rcases updateOwned_error failed with lost | ⟨j, member, owned, constraint, refused, rfl⟩
    · exact .inl lost
    · obtain ⟨rfl, started, hs, late⟩ := completed_violation (ok.accepted j member)
        (ownedBy_iff.mp owned).2.1 (.inl rfl) refused
      exact .inr ⟨rfl, j, member, owned, started, now, hs, rfl, late⟩
  | markFailed id w code message now =>
    obtain ⟨rfl, rfl⟩ := completes
    rcases updateOwned_error failed with lost | ⟨j, member, owned, constraint, refused, rfl⟩
    · exact .inl lost
    · obtain ⟨rfl, started, hs, late⟩ := completed_violation (ok.accepted j member)
        (ownedBy_iff.mp owned).2.1 (.inr ⟨rfl, rfl⟩) refused
      exact .inr ⟨rfl, j, member, owned, started, now, hs, rfl, late⟩
  | _ => cases completes

theorem completion_owned {call : LeaseCall} {jobId : Nat} {worker : String}
    {jobs jobs' : List Job} (completes : call.completes jobId worker)
    (done : call.run jobs = .ok jobs') :
    call.event jobs jobId = .finish worker ∧ ∃ j ∈ jobs, ownedBy jobId worker j = true := by
  cases call with
  | markSucceeded id w result now =>
    obtain ⟨rfl, rfl⟩ := completes
    exact ⟨by simp [LeaseCall.event, done], (updateOwned_ok done).2.1⟩
  | markFailed id w code message now =>
    obtain ⟨rfl, rfl⟩ := completes
    exact ⟨by simp [LeaseCall.event, done], (updateOwned_ok done).2.1⟩
  | _ => cases completes

theorem completion_lost {call : LeaseCall} {jobId : Nat} {worker : String} {jobs : List Job}
    (completes : call.completes jobId worker)
    (lost : ∀ j ∈ jobs, ownedBy jobId worker j = false) :
    call.run jobs = .error (.leaseLost jobId) := by
  cases call with
  | markSucceeded id w result now =>
    obtain ⟨rfl, rfl⟩ := completes
    exact updateOwned_lost lost
  | markFailed id w code message now =>
    obtain ⟨rfl, rfl⟩ := completes
    exact updateOwned_lost lost
  | _ => cases completes

omit [UnicodeTables] in
theorem ownedBy_terminal {jobs : List Job} {jobId : Nat} {worker : String} {row : Job}
    (ok : TableOk jobs) (found : getJob jobs jobId = some row)
    (terminal : row.status.terminal = true) : ∀ j ∈ jobs, ownedBy jobId worker j = false := by
  intro j member
  cases owned : ownedBy jobId worker j with
  | false => rfl
  | true =>
    obtain ⟨same, running, _⟩ := ownedBy_iff.mp owned
    have eq : row = j := by
      have := getJob_of_mem ok.distinct member
      rw [same, found] at this
      exact Option.some.inj this
    simp [eq, running, JobStatus.terminal] at terminal

omit [UnicodeTables] in
theorem terminal_of_closed {j : Job} (closed : leaseOf j = .closed) :
    j.status.terminal = true := by
  rw [terminal_iff_not_active]
  cases active : j.status.active with
  | false => rfl
  | true => exact absurd closed (leaseOf_active active)

omit [UnicodeTables] in
theorem ended_of_closed {job : Job} (closed : leaseOf job = .closed) :
    job.status = .succeeded ∨ job.status = .failed ∨ job.status = .canceled := by
  have terminal := terminal_of_closed closed
  cases status : job.status <;> simp [status, JobStatus.terminal] at terminal ⊢

omit [UnicodeTables] in
theorem closed_of_ended {job : Job} (ended : job.status.terminal = true) :
    leaseOf job = .closed := by
  cases status : job.status <;> simp [status, JobStatus.terminal, leaseOf] at ended ⊢

/-- Whoever holds an unfinished job after a call held it before or has just acquired it. -/
theorem RowEffect.held {call : LeaseCall} {jobs : List Job} {j j' : Job} {worker : String}
    (effect : RowEffect call jobs j j') (unfinished : leaseOf j ≠ .closed)
    (held : leaseOf j' = .held worker) : leaseOf j = .held worker ∨
      ∃ enabled supported lease batch locked now,
        call = .acquireJobs worker enabled supported lease batch locked now := by
  have moved := effect.lease
  rw [held] at moved
  cases event : call.event jobs j.jobId with
  | idle =>
    rw [event] at moved
    exact .inl (Option.some.inj moved)
  | take taker =>
    rw [event, Lease.take_open unfinished] at moved
    cases moved
    exact .inr (takes_worker event)
  | finish finisher =>
    rw [event] at moved
    exfalso
    revert moved
    unfold Lease.step
    cases leaseOf j <;> simp
  | withdraw =>
    rw [event, Lease.withdraw_open unfinished] at moved
    cases moved

/-- The owner of a row is the worker that took it last. -/
theorem last_of_owned (start : NewJobs) (calls : List LeaseCall) {jobId : Nat} {worker : String}
    {j : Job} (member : j ∈ after start.rows calls) (owned : ownedBy jobId worker j = true) :
    lastAcquirer jobId start.rows calls = some worker := by
  have ok := after_ok start.tableOk calls
  have found := getJob_of_mem ok.distinct member
  rw [(ownedBy_iff.mp owned).1] at found
  obtain ⟨first, foundFirst⟩ : ∃ first, getJob start.rows jobId = some first := by
    cases missing : getJob start.rows jobId with
    | some first => exact ⟨first, rfl⟩
    | none => exact absurd (after_missing calls start.tableOk missing) (by simp [found])
  obtain ⟨final, foundFinal, history⟩ := after_lease calls start.tableOk foundFirst
  rw [found] at foundFinal
  cases foundFinal
  have waiting : (leaseOf first).Follows none := by
    simp [leaseOf, start.queued first (getJob_mem foundFirst).1]
  exact exec_follows waiting history worker (leaseOf_owned owned)

/-- The row is closed by a completion that takes effect. -/
theorem completion_terminal {call : LeaseCall} {jobId : Nat} {worker : String}
    {jobs jobs' : List Job} (ok : TableOk jobs) (completes : call.completes jobId worker)
    (done : call.run jobs = .ok jobs') :
    ∃ row, getJob jobs' jobId = some row ∧ row.status.terminal = true := by
  obtain ⟨finishes, j, member, owned⟩ := completion_owned completes done
  have same := (ownedBy_iff.mp owned).1
  obtain ⟨row, found, effect⟩ := commit_getJob call ok (getJob_of_mem ok.distinct member)
  simp only [LeaseCall.commit, done, same] at found
  refine ⟨row, found, ?_⟩
  have closed := effect.lease
  rw [same, finishes, leaseOf_owned owned, finish_held] at closed
  exact terminal_of_closed (Option.some.inj closed).symm

/-- Lease safety over every history of calls on new jobs. A completion call that takes effect
comes from the last acquirer and is the last to do so. -/
theorem lease_safety (start : NewJobs) (calls : List LeaseCall) :
    let jobs := after start.rows calls
    (∀ jobId j, getJob jobs jobId = some j → j.status.terminal = true →
      ∀ more, getJob (after jobs more) jobId = some j) ∧
    (∀ call jobId worker, LeaseCall.completes jobId worker call →
      (∀ jobs', call.run jobs = .ok jobs' →
        lastAcquirer jobId start.rows calls = some worker ∧
        ∀ more again other, LeaseCall.completes jobId other again →
          again.run (after jobs' more) = .error (.leaseLost jobId)) ∧
      (∀ e, call.run jobs = .error e → call.commit jobs = jobs ∧
        (e = .leaseLost jobId ∨
          (e = .integrity "ck_jobs_finished_after_started" ∧
            lastAcquirer jobId start.rows calls = some worker ∧
            ∃ j started now, getJob jobs jobId = some j ∧ j.status = .running ∧
              j.startedAt = some started ∧ call.clock = some now ∧ now < started)))) ∧
    (∀ j ∈ jobs, RowOk j) := by
  intro jobs
  have ok : TableOk jobs := after_ok start.tableOk calls
  refine ⟨fun jobId j found terminal more => after_terminal more ok found terminal, ?_,
    fun j member => ok.rowOk member⟩
  intro call jobId worker completes
  have acquirer (j : Job) (member : j ∈ jobs) (owned : ownedBy jobId worker j = true) :
      lastAcquirer jobId start.rows calls = some worker :=
    last_of_owned start calls member owned
  constructor
  · intro jobs' done
    obtain ⟨_, j, member, owned⟩ := completion_owned completes done
    refine ⟨acquirer j member owned, fun more again other repeats => ?_⟩
    have ok' : TableOk jobs' := by
      have committed := commit_ok call ok
      rwa [LeaseCall.commit, done] at committed
    obtain ⟨row, found, terminal⟩ := completion_terminal ok completes done
    exact completion_lost repeats (ownedBy_terminal (after_ok ok' more)
      (after_terminal more ok' found terminal) terminal)
  · intro e failed
    refine ⟨by rw [LeaseCall.commit, failed], ?_⟩
    rcases completion_error ok completes failed with lost | ⟨refused, j, member, owned, rest⟩
    · exact .inl lost
    · obtain ⟨started, now, hs, clock, late⟩ := rest
      obtain ⟨same, running, _⟩ := ownedBy_iff.mp owned
      exact .inr ⟨refused, acquirer j member owned, j, started, now,
        same ▸ getJob_of_mem ok.distinct member, running, hs, clock, late⟩

end

/-- A worker that owns the job, with a clock behind the start of the job, is refused by the
check constraint and not by the ownership guard. -/
theorem owner_refused_by_clock :
    let _ : UnicodeTables := asciiTables
    let start := [newJob 1 "document_ingest" none none none none 100 0]
    let calls := [LeaseCall.acquireJobs "worker-1" none none 120 1 [] 10]
    lastAcquirer 1 start calls = some "worker-1" ∧
      (LeaseCall.markSucceeded 1 "worker-1" none 5).run (after start calls) =
        .error (.integrity "ck_jobs_finished_after_started") := by
  decide

end RagProject.Jobs
