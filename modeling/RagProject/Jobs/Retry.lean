import RagProject.Documents.Store
import RagProject.Lib.Interleaving

/-! JobService.retry_job as a transaction of several reads and one insert, with any number of
transactions on the members of a family and any number of workers in between. The row
lock is on the member; the insert also needs the original not to be locked by another
transaction, since it refers to that row. -/
namespace RagProject.Jobs
open Python Documents Interleaving

inductive RetryPhase where
  | locked
  | checked
  | prepared (version : Option Nat)
  | counted (version : Option Nat) (retryCount : Nat) (seen : List Nat)
  deriving DecidableEq

/-- A transaction in flight: the row it has locked, and how far it has come. The ids that
its count was taken over are kept for the statements only. -/
structure RetryTx where
  txId : Nat
  source : Job
  userId : Nat
  phase : RetryPhase
  deriving DecidableEq

structure RetrySystem where
  db : Db
  txs : List RetryTx

inductive RetryAction where
  | begin (txId jobId userId : Nat)
  | findActiveRetry (txId : Nat)
  | prepareDocumentIngestRetry (txId : Nat)
  | nextRetryCount (txId : Nat)
  | insert (txId : Nat) (now createdAt : Time)
  | fail (txId : Nat)
  | lease (call : LeaseCall)

def retriesOf (sourceJobId : Nat) (jobs : List Job) : List Job :=
  jobs.filter fun j => j.retryOfJobId == some sourceJobId

/-- The two partial unique indexes that a queued row can violate. -/
def insertConflict (row : Job) (jobs : List Job) : Bool :=
  jobs.any fun j => j.status.active &&
    ((row.retryOfJobId.isSome && j.retryOfJobId == row.retryOfJobId) ||
      (row.jobType == "message_edit_regeneration" && j.jobType == "message_edit_regeneration" &&
        j.targetType == some "chat_message" && row.targetType == some "chat_message" &&
        j.targetId == row.targetId))

/-- The version that a retry of an ingest locks; an error when the target is missing. -/
def ingestTarget (job : Job) (db : Db) : Option (Option Nat) :=
  if job.jobType ≠ "document_ingest" ∨ job.targetType ≠ some "document_version" then some none
  else match job.targetId with
    | none => none
    | some versionId => (db.getVersionById versionId).map fun _ => some versionId

/-- A failed version goes back to processing when its ingest is retried. -/
def reopenVersion (version : Option Nat) (now : Time) (db : Db) : Db :=
  match version.bind db.getVersionById with
  | none => db
  | some v =>
    if v.status ≠ .failed then db
    else
      let reopened (w : DocumentVersion) : DocumentVersion :=
        { w with status := .processing, errorCode := none, isActive := false, updatedAt := now }
      let db := { db with versions := db.versions.map fun w : DocumentVersion =>
        if w.documentVersionId = v.documentVersionId then reopened w else w }
      db.touchDocument v.logicalDocumentId now

namespace RetrySystem

def tx (s : RetrySystem) (txId : Nat) : Option RetryTx := Table.row RetryTx.txId s.txs txId

def drop (s : RetrySystem) (txId : Nat) : RetrySystem :=
  { s with txs := s.txs.filter (·.txId != txId) }

def setPhase (s : RetrySystem) (txId : Nat) (phase : RetryPhase) : RetrySystem :=
  { s with txs := s.txs.map fun t => if t.txId = txId then { t with phase := phase } else t }

/-- The row is locked by a transaction other than the given one. -/
def rowLocked (s : RetrySystem) (txId jobId : Nat) : Bool :=
  s.txs.any fun t => t.txId != txId && t.source.jobId == jobId

def versionLocked (s : RetrySystem) (txId : Nat) (version : Option Nat) : Bool :=
  version.isSome && s.txs.any fun t => t.txId != txId && match t.phase with
    | .prepared v => v == version
    | .counted v _ _ => v == version
    | _ => false

variable [UnicodeTables]

def step (s : RetrySystem) : RetryAction → Option RetrySystem
  | .begin txId jobId userId =>
    if (s.tx txId).isSome || s.rowLocked txId jobId then none
    else match getJob s.db.jobs jobId with
      | none => some s
      | some job =>
        if job.status ≠ .failed then some s
        else some { s with txs := s.txs ++ [⟨txId, job, userId, .locked⟩] }
  | .findActiveRetry txId =>
    match s.tx txId with
    | some ⟨_, source, _, .locked⟩ =>
      match Jobs.findActiveRetry (getSourceJobId source) s.db.jobs with
      | some _ => some (s.drop txId)
      | none => some (s.setPhase txId .checked)
    | _ => none
  | .prepareDocumentIngestRetry txId =>
    match s.tx txId with
    | some ⟨_, source, _, .checked⟩ =>
      match ingestTarget source s.db with
      | none => some (s.drop txId)
      | some version =>
        if s.versionLocked txId version then none else some (s.setPhase txId (.prepared version))
    | _ => none
  | .nextRetryCount txId =>
    match s.tx txId with
    | some ⟨_, source, _, .prepared version⟩ =>
      let sourceJobId := getSourceJobId source
      some (s.setPhase txId (.counted version (Jobs.nextRetryCount sourceJobId s.db.jobs)
        ((retriesOf sourceJobId s.db.jobs).map (·.jobId))))
    | _ => none
  | .insert txId now createdAt =>
    match s.tx txId with
    | some ⟨_, source, userId, .counted version retryCount _⟩ =>
      if s.rowLocked txId (getSourceJobId source) then none
      else
        let row := newRetryJob s.db.nextJobId source (some userId) retryCount createdAt
        if insertConflict row s.db.jobs then some (s.drop txId)
        else some { s.drop txId with
          db := ((reopenVersion version now s.db).createJob fun jobId =>
            newRetryJob jobId source (some userId) retryCount createdAt).1 }
    | _ => none
  | .fail txId => some (s.drop txId)
  | .lease call => some { s with db := { s.db with jobs := call.commit s.db.jobs } }

end RetrySystem

/-- A table of new jobs that are no retries, and no transaction in flight. -/
structure RetryStart (s : RetrySystem) : Prop where
  rows : ∃ start : NewJobs, start.rows = s.db.jobs
  originals : ∀ j ∈ s.db.jobs, j.retryOfJobId = none
  positive : ∀ j ∈ s.db.jobs, 0 < j.jobId
  fresh : ∀ j ∈ s.db.jobs, j.jobId < s.db.nextJobId
  noTx : s.txs = []

structure RetryInvariant (s : RetrySystem) : Prop where
  distinctTxs : (s.txs.map (·.txId)).Nodup
  table : TableOk s.db.jobs
  positive : ∀ j ∈ s.db.jobs, 0 < j.jobId
  fresh : ∀ j ∈ s.db.jobs, j.jobId < s.db.nextJobId
  sources : ∀ t ∈ s.txs, t.source ∈ s.db.jobs ∧ t.source.status = .failed
  originals : ∀ j ∈ s.db.jobs, ∀ original, j.retryOfJobId = some original →
    ∃ o ∈ s.db.jobs, o.jobId = original ∧ o.retryOfJobId = none ∧ o.status.terminal = true
  oneActive : ∀ j ∈ s.db.jobs, ∀ k ∈ s.db.jobs, ∀ original, j.retryOfJobId = some original →
    k.retryOfJobId = some original → j.status.active = true → k.status.active = true →
    j.jobId = k.jobId

/-- The counts of a family are one, two and so on, in the order of insertion, and a count that
has been read is one more than the number of retries it was taken over. -/
structure CountsInOrder (s : RetrySystem) : Prop where
  counts : ∀ original, (retriesOf original s.db.jobs).map (·.retryCount) =
    List.range' 1 (retriesOf original s.db.jobs).length
  read : ∀ t ∈ s.txs, ∀ version retryCount seen, t.phase = .counted version retryCount seen →
    retryCount = seen.length + 1 ∧
      seen <+: (retriesOf (getSourceJobId t.source) s.db.jobs).map (·.jobId)

/-- The condition: when a transaction inserts its retry, the retries of the family are still those
over which it took the count. -/
def InsertsCurrent [UnicodeTables] (s : RetrySystem) : RetryAction → Prop
  | .insert txId _ createdAt => ∀ t version retryCount seen, s.tx txId = some t →
      t.phase = .counted version retryCount seen →
      insertConflict (newRetryJob s.db.nextJobId t.source (some t.userId) retryCount createdAt)
        s.db.jobs = false →
      seen = (retriesOf (getSourceJobId t.source) s.db.jobs).map (·.jobId)
  | _ => True

theorem foldl_max_range' (m : Nat) : (List.range' 1 m).foldl max 0 = m := by
  induction m with
  | zero => rfl
  | succ m ih =>
    rw [List.range'_1_concat, List.foldl_append, ih]
    have next : max m (1 + m) = m + 1 := by omega
    simpa using next

theorem reopenVersion_jobs (version : Option Nat) (now : Time) (db : Db) :
    (reopenVersion version now db).jobs = db.jobs ∧
      (reopenVersion version now db).nextJobId = db.nextJobId := by
  unfold reopenVersion
  split
  · exact ⟨rfl, rfl⟩
  · split
    · exact ⟨rfl, rfl⟩
    · exact ⟨rfl, rfl⟩

theorem tx_mem {s : RetrySystem} {txId : Nat} {t : RetryTx} (found : s.tx txId = some t) :
    t ∈ s.txs ∧ t.txId = txId := Table.mem_of_row found

section Invariant
variable {s : RetrySystem}

/-- The job that a failed member of a family goes back to: it has failed too, unless it is the
member itself, and is no retry. -/
theorem RetryInvariant.original (inv : RetryInvariant s) {source : Job}
    (member : source ∈ s.db.jobs) (failed : source.status = .failed) :
    ∃ o ∈ s.db.jobs, o.jobId = getSourceJobId source ∧ o.retryOfJobId = none ∧
      o.status.terminal = true := by
  cases retry : source.retryOfJobId with
  | none =>
    refine ⟨source, member, ?_, retry, by simp [failed, JobStatus.terminal]⟩
    simp [getSourceJobId, retry]
  | some original =>
    obtain ⟨o, oMember, id, isOriginal, terminal⟩ := inv.originals source member original retry
    have positive := inv.positive o oMember
    have nonzero : original ≠ 0 := by omega
    refine ⟨o, oMember, ?_, isOriginal, terminal⟩
    simp [getSourceJobId, retry, nonzero, id]

theorem RetryInvariant.drop (inv : RetryInvariant s) (txId : Nat) : RetryInvariant (s.drop txId) :=
  { inv with
    distinctTxs := inv.distinctTxs.sublist (List.filter_sublist.map _)
    sources := fun t member => inv.sources t (List.mem_filter.mp member).1 }

theorem RetryInvariant.setPhase (inv : RetryInvariant s) (txId : Nat) (phase : RetryPhase) :
    RetryInvariant (s.setPhase txId phase) := by
  refine { inv with distinctTxs := ?_, sources := ?_ }
  · have ids : ∀ t ∈ s.txs, (if t.txId = txId then { t with phase := phase } else t).txId =
        t.txId := by
      intro t _
      split <;> rfl
    simp only [RetrySystem.setPhase]
    rw [Table.map_keys ids]
    exact inv.distinctTxs
  · intro t' member
    obtain ⟨t, old, rfl⟩ := List.mem_map.mp member
    have source := inv.sources t old
    split <;> exact source

theorem newRetryJob_accepted [UnicodeTables] {source : Job} (accepted : source.violation = none)
    {jobId : Nat} (other : getSourceJobId source ≠ jobId) (user : Option Nat) (retryCount : Nat)
    (createdAt : Time) :
    (newRetryJob jobId source user retryCount createdAt).violation = none := by
  have ok := checks_of_accepted accepted
  simp only [Job.checks, List.forall_mem_cons, List.not_mem_nil, false_imp_iff, implies_true,
    and_true] at ok
  obtain ⟨priority, _, _, _, _, _, _, target, _, _⟩ := ok
  refine accepted_of_checks ?_
  simp only [Job.checks, newRetryJob, newJob, List.forall_mem_cons, List.not_mem_nil,
    false_imp_iff, implies_true, and_true]
  refine ⟨priority, by simpa using other, rfl, rfl, rfl, rfl, rfl, target, rfl, rfl⟩

variable [UnicodeTables]

/-- The tables after an insert that no index refuses. -/
theorem insert_tables {version : Option Nat} {source : Job} {userId retryCount : Nat}
    {now createdAt : Time} :
    let db' := ((reopenVersion version now s.db).createJob fun jobId =>
      newRetryJob jobId source (some userId) retryCount createdAt).1
    db'.jobs = s.db.jobs ++
        [newRetryJob s.db.nextJobId source (some userId) retryCount createdAt] ∧
      db'.nextJobId = s.db.nextJobId + 1 := by
  obtain ⟨jobs, next⟩ := reopenVersion_jobs version now s.db
  simp [Db.createJob, jobs, next]

theorem noConflict {source : Job} {userId retryCount jobId : Nat} {createdAt : Time}
    (free : insertConflict (newRetryJob jobId source (some userId) retryCount createdAt)
      s.db.jobs = false) :
    ∀ j ∈ s.db.jobs, j.retryOfJobId = some (getSourceJobId source) →
      j.status.active = false := by
  intro j member ofFamily
  cases active : j.status.active with
  | false => rfl
  | true =>
    have hit : insertConflict (newRetryJob jobId source (some userId) retryCount createdAt)
        s.db.jobs = true := by
      refine List.any_eq_true.mpr ⟨j, member, ?_⟩
      simp [active, ofFamily, newRetryJob]
    rw [hit] at free
    cases free

theorem RetryInvariant.insert (inv : RetryInvariant s) {t : RetryTx} {version : Option Nat}
    {retryCount : Nat} {now createdAt : Time} (member : t ∈ s.txs)
    (free : insertConflict (newRetryJob s.db.nextJobId t.source (some t.userId) retryCount
      createdAt) s.db.jobs = false) :
    RetryInvariant { s.drop t.txId with
      db := ((reopenVersion version now s.db).createJob fun jobId =>
        newRetryJob jobId t.source (some t.userId) retryCount createdAt).1 } := by
  obtain ⟨sourceMember, failed⟩ := inv.sources t member
  obtain ⟨o, oMember, oId, isOriginal, terminal⟩ := inv.original sourceMember failed
  have dropped := inv.drop t.txId
  have quiet := noConflict free
  obtain ⟨jobs, next⟩ := @insert_tables s _ version t.source t.userId retryCount now createdAt
  have apart : getSourceJobId t.source ≠ s.db.nextJobId := by
    have := inv.fresh o oMember
    omega
  obtain ⟨reopenedJobs, reopenedNext⟩ := reopenVersion_jobs version now s.db
  have accepted : (newRetryJob s.db.nextJobId t.source (some t.userId) retryCount
      createdAt).violation = none :=
    newRetryJob_accepted (inv.table.accepted t.source sourceMember) apart _ _ _
  have enqueued : Enqueued (reopenVersion version now s.db)
      [newRetryJob (reopenVersion version now s.db).nextJobId t.source (some t.userId) retryCount
        createdAt]
      ((reopenVersion version now s.db).createJob fun jobId =>
        newRetryJob jobId t.source (some t.userId) retryCount createdAt).1 :=
    @enqueued_createJob _ (fun jobId =>
      newRetryJob jobId t.source (some t.userId) retryCount createdAt) rfl rfl
      (by rw [reopenedNext]; exact accepted)
  obtain ⟨table, fresh⟩ := enqueued.jobs_ok (by rw [reopenedJobs]; exact inv.table)
    (by rw [reopenedJobs, reopenedNext]; exact inv.fresh)
  generalize ((reopenVersion version now s.db).createJob fun jobId =>
    newRetryJob jobId t.source (some t.userId) retryCount createdAt).1 = db' at *
  have old (j : Job) (h : j ∈ s.db.jobs) : j ∈ db'.jobs := by
    rw [jobs]
    exact List.mem_append_left _ h
  have cases_row (j : Job) (h : j ∈ db'.jobs) : j ∈ s.db.jobs ∨
      j = newRetryJob s.db.nextJobId t.source (some t.userId) retryCount createdAt := by
    rw [jobs] at h
    simpa using h
  refine ⟨dropped.distinctTxs, table, ?_, fresh, ?_, ?_, ?_⟩
  · intro j h
    rcases cases_row j h with h | rfl
    · exact inv.positive j h
    · have := inv.fresh o oMember
      change 0 < s.db.nextJobId
      omega
  · intro u h
    obtain ⟨source, status⟩ := dropped.sources u h
    exact ⟨old u.source source, status⟩
  · intro j h original retry
    rcases cases_row j h with h | rfl
    · obtain ⟨p, pMember, rest⟩ := inv.originals j h original retry
      exact ⟨p, old p pMember, rest⟩
    · cases retry
      exact ⟨o, old o oMember, oId, isOriginal, terminal⟩
  · intro j hj k hk original retryJ retryK activeJ activeK
    rcases cases_row j hj with hj | rfl
    · rcases cases_row k hk with hk | rfl
      · exact inv.oneActive j hj k hk original retryJ retryK activeJ activeK
      · cases retryK
        rw [quiet j hj retryJ] at activeJ
        cases activeJ
    · rcases cases_row k hk with hk | rfl
      · cases retryJ
        rw [quiet k hk retryK] at activeK
        cases activeK
      · rfl

theorem RetryInvariant.lease (inv : RetryInvariant s) (call : LeaseCall) :
    RetryInvariant { s with db := { s.db with jobs := call.commit s.db.jobs } } := by
  obtain ⟨g, rows, effect⟩ := commit_rows call s.db.jobs inv.table.distinct
  have retryOf (j : Job) (member : j ∈ s.db.jobs) : (g j).retryOfJobId = j.retryOfJobId := by
    have content := (effect j member).content
    simp only [Job.content, Prod.mk.injEq] at content
    exact content.2.2.2.2.2.2.1
  have kept (j : Job) (member : j ∈ s.db.jobs) (terminal : j.status.terminal = true) :
      g j = j := by
    rcases (effect j member).change with same | ⟨active, _⟩
    · exact same
    · simp [terminal_iff_not_active, active] at terminal
  have wasActive (j : Job) (member : j ∈ s.db.jobs) (active : (g j).status.active = true) :
      j.status.active = true := by
    rcases (effect j member).change with same | ⟨before, _⟩
    · rw [← same]
      exact active
    · exact before
  have image (j : Job) (member : j ∈ s.db.jobs) : g j ∈ call.commit s.db.jobs := by
    rw [rows]
    exact List.mem_map_of_mem member
  refine ⟨inv.distinctTxs, commit_ok call inv.table, ?_, ?_, ?_, ?_, ?_⟩
  · intro j' member
    simp only [rows] at member
    obtain ⟨j, old, rfl⟩ := List.mem_map.mp member
    rw [(effect j old).sameId]
    exact inv.positive j old
  · intro j' member
    simp only [rows] at member
    obtain ⟨j, old, rfl⟩ := List.mem_map.mp member
    rw [(effect j old).sameId]
    exact inv.fresh j old
  · intro t member
    obtain ⟨source, failed⟩ := inv.sources t member
    have same := kept t.source source (by simp [failed, JobStatus.terminal])
    exact ⟨same ▸ image t.source source, failed⟩
  · intro j' member original retry
    simp only [rows] at member
    obtain ⟨j, old, rfl⟩ := List.mem_map.mp member
    rw [retryOf j old] at retry
    obtain ⟨o, oMember, id, isOriginal, terminal⟩ := inv.originals j old original retry
    exact ⟨o, kept o oMember terminal ▸ image o oMember, id, isOriginal, terminal⟩
  · intro j' hj k' hk original retryJ retryK activeJ activeK
    simp only [rows] at hj hk
    obtain ⟨j, oldJ, rfl⟩ := List.mem_map.mp hj
    obtain ⟨k, oldK, rfl⟩ := List.mem_map.mp hk
    rw [retryOf j oldJ] at retryJ
    rw [retryOf k oldK] at retryK
    rw [(effect j oldJ).sameId, (effect k oldK).sameId]
    exact inv.oneActive j oldJ k oldK original retryJ retryK (wasActive j oldJ activeJ)
      (wasActive k oldK activeK)

theorem RetryInvariant.step {s' : RetrySystem} {action : RetryAction} (inv : RetryInvariant s)
    (done : s.step action = some s') : RetryInvariant s' := by
  cases action with
  | begin txId jobId userId =>
    simp only [RetrySystem.step] at done
    split at done
    · cases done
    · rename_i unused
      split at done
      · cases done
        exact inv
      · rename_i job found
        split at done
        · cases done
          exact inv
        · rename_i failed
          cases done
          have status : job.status = .failed := by simpa using failed
          refine { inv with distinctTxs := ?_, sources := ?_ }
          · refine Table.append_distinct inv.distinctTxs fun t member same => unused ?_
            have there : (s.tx txId).isSome := Table.row_isSome member same
            rw [there, Bool.true_or]
          · intro t member
            rcases List.mem_append.mp member with h | h
            · exact inv.sources t h
            · cases List.mem_singleton.mp h
              exact ⟨(getJob_mem found).1, status⟩
  | findActiveRetry txId =>
    simp only [RetrySystem.step] at done
    split at done
    · split at done
      · cases done
        exact inv.drop txId
      · cases done
        exact inv.setPhase txId _
    · cases done
  | prepareDocumentIngestRetry txId =>
    simp only [RetrySystem.step] at done
    split at done
    · split at done
      · cases done
        exact inv.drop txId
      · split at done
        · cases done
        · cases done
          exact inv.setPhase txId _
    · cases done
  | nextRetryCount txId =>
    simp only [RetrySystem.step] at done
    split at done
    · cases done
      exact inv.setPhase txId _
    · cases done
  | insert txId now createdAt =>
    simp only [RetrySystem.step] at done
    split at done
    · rename_i id source userId version retryCount seen found
      obtain ⟨member, same⟩ := tx_mem found
      split at done
      · cases done
      · split at done
        · cases done
          exact inv.drop txId
        · rename_i free
          cases done
          cases same
          exact inv.insert member (by simpa using free)
    · cases done
  | fail txId =>
    cases done
    exact inv.drop txId
  | lease call =>
    cases done
    exact inv.lease call

/-- A lease call leaves the family tree and the counts alone. -/
theorem retriesOf_commit (inv : RetryInvariant s) (call : LeaseCall) (original : Nat) :
    (retriesOf original (call.commit s.db.jobs)).map (fun j => (j.jobId, j.retryCount)) =
      (retriesOf original s.db.jobs).map fun j => (j.jobId, j.retryCount) := by
  obtain ⟨g, rows, effect⟩ := commit_rows call s.db.jobs inv.table.distinct
  have same (j : Job) (member : j ∈ s.db.jobs) : (g j).retryOfJobId = j.retryOfJobId ∧
      (g j).jobId = j.jobId ∧ (g j).retryCount = j.retryCount := by
    have content := (effect j member).content
    simp only [Job.content, Prod.mk.injEq] at content
    exact ⟨content.2.2.2.2.2.2.1, content.1, content.2.2.2.2.2.2.2.1⟩
  have family : s.db.jobs.filter (fun j => (g j).retryOfJobId == some original) =
      retriesOf original s.db.jobs := by
    refine List.filter_congr fun j member => ?_
    rw [(same j member).1]
  have mapped : retriesOf original (s.db.jobs.map g) = (retriesOf original s.db.jobs).map g := by
    rw [← family]
    exact List.filter_map
  rw [rows, mapped, List.map_map]
  refine List.map_congr_left fun j member => ?_
  obtain ⟨_, id, count⟩ := same j (List.mem_filter.mp member).1
  simp only [Function.comp, id, count]

omit [UnicodeTables] in
theorem retriesOf_append (original : Nat) (jobs : List Job) (row : Job) :
    retriesOf original (jobs ++ [row]) = retriesOf original jobs ++
      if row.retryOfJobId = some original then [row] else [] := by
  unfold retriesOf
  rw [List.filter_append]
  by_cases h : row.retryOfJobId = some original <;> simp [h]

omit [UnicodeTables] in
theorem CountsInOrder.drop (order : CountsInOrder s) (txId : Nat) :
    CountsInOrder (s.drop txId) :=
  { order with read := fun t member => order.read t (List.mem_filter.mp member).1 }

omit [UnicodeTables] in
/-- A change of phase that reads no count. -/
theorem CountsInOrder.setPhase (order : CountsInOrder s) (txId : Nat) {phase : RetryPhase}
    (uncounted : ∀ version retryCount seen, phase ≠ .counted version retryCount seen) :
    CountsInOrder (s.setPhase txId phase) := by
  refine { order with read := ?_ }
  intro t' member version retryCount seen counted
  obtain ⟨t, old, rfl⟩ := List.mem_map.mp member
  split at counted
  · exact absurd counted (uncounted version retryCount seen)
  · rename_i other
    rw [if_neg other]
    exact order.read t old version retryCount seen counted

omit [UnicodeTables] in
theorem nextRetryCount_eq (order : CountsInOrder s) (original : Nat) :
    nextRetryCount original s.db.jobs = (retriesOf original s.db.jobs).length + 1 := by
  have counts := order.counts original
  unfold nextRetryCount
  unfold retriesOf at counts ⊢
  rw [counts, foldl_max_range']

omit [UnicodeTables] in
theorem CountsInOrder.count (inv : RetryInvariant s) (order : CountsInOrder s) {t : RetryTx}
    {version : Option Nat} (member : t ∈ s.txs) :
    CountsInOrder (s.setPhase t.txId (.counted version
      (nextRetryCount (getSourceJobId t.source) s.db.jobs)
      ((retriesOf (getSourceJobId t.source) s.db.jobs).map (·.jobId)))) := by
  refine { order with read := ?_ }
  intro u' hu' version' retryCount seen counted
  obtain ⟨u, old, rfl⟩ := List.mem_map.mp hu'
  by_cases same : u.txId = t.txId
  · have tx : u = t := Table.unique inv.distinctTxs old member same
    subst tx
    simp only [if_true, RetryPhase.counted.injEq] at counted
    obtain ⟨_, rfl, rfl⟩ := counted
    simp only [if_true]
    refine ⟨?_, List.prefix_rfl⟩
    rw [nextRetryCount_eq order, List.length_map]
  · simp only [same, if_false] at counted ⊢
    exact order.read u old version' retryCount seen counted

theorem CountsInOrder.lease (inv : RetryInvariant s) (order : CountsInOrder s) (call : LeaseCall) :
    CountsInOrder { s with db := { s.db with jobs := call.commit s.db.jobs } } := by
  have same := retriesOf_commit inv call
  have ids (original : Nat) : (retriesOf original (call.commit s.db.jobs)).map (·.jobId) =
      (retriesOf original s.db.jobs).map (·.jobId) := by
    have projected := congrArg (List.map Prod.fst) (same original)
    rwa [List.map_map, List.map_map] at projected
  have counts (original : Nat) : (retriesOf original (call.commit s.db.jobs)).map (·.retryCount) =
      (retriesOf original s.db.jobs).map (·.retryCount) := by
    have projected := congrArg (List.map Prod.snd) (same original)
    rwa [List.map_map, List.map_map] at projected
  have lengths (original : Nat) : (retriesOf original (call.commit s.db.jobs)).length =
      (retriesOf original s.db.jobs).length := by
    simpa using congrArg List.length (same original)
  constructor
  · intro original
    rw [counts, lengths]
    exact order.counts original
  · intro t member version retryCount seen counted
    rw [ids]
    exact order.read t member version retryCount seen counted

/-- What an insert does to the families: its own grows by a row with the count that was read. -/
theorem retriesOf_insert {version : Option Nat} {source : Job} {userId retryCount : Nat}
    {now createdAt : Time} (original : Nat) :
    let db' := ((reopenVersion version now s.db).createJob fun jobId =>
      newRetryJob jobId source (some userId) retryCount createdAt).1
    retriesOf original db'.jobs = retriesOf original s.db.jobs ++
      if getSourceJobId source = original then
        [newRetryJob s.db.nextJobId source (some userId) retryCount createdAt] else [] := by
  intro db'
  rw [(insert_tables).1, retriesOf_append]
  simp [newRetryJob]

theorem CountsInOrder.insert (order : CountsInOrder s) {t : RetryTx} {version : Option Nat}
    {retryCount : Nat} {seen : List Nat} {now createdAt : Time} (member : t ∈ s.txs)
    (counted : t.phase = .counted version retryCount seen)
    (current : seen = (retriesOf (getSourceJobId t.source) s.db.jobs).map (·.jobId)) :
    CountsInOrder { s.drop t.txId with
      db := ((reopenVersion version now s.db).createJob fun jobId =>
        newRetryJob jobId t.source (some t.userId) retryCount createdAt).1 } := by
  have next := (order.read t member version retryCount seen counted).1
  rw [current, List.length_map] at next
  constructor
  · intro original
    rw [retriesOf_insert original]
    split
    · rename_i own
      subst own
      rw [List.map_append, order.counts, List.length_append, List.length_singleton,
        List.range'_1_concat]
      simp [newRetryJob, next, Nat.add_comm]
    · simpa using order.counts original
  · intro u hu version' count' seen' counted'
    obtain ⟨length, before⟩ := order.read u (List.mem_filter.mp hu).1 version' count' seen' counted'
    refine ⟨length, ?_⟩
    rw [retriesOf_insert, List.map_append]
    exact before.trans (List.prefix_append _ _)

/-- The counts stay in order under every step that meets the condition. -/
theorem CountsInOrder.step {s' : RetrySystem} {action : RetryAction} (inv : RetryInvariant s)
    (order : CountsInOrder s) (current : InsertsCurrent s action)
    (done : s.step action = some s') : CountsInOrder s' := by
  cases action with
  | begin txId jobId userId =>
    simp only [RetrySystem.step] at done
    split at done
    · cases done
    · split at done
      · cases done
        exact order
      · split at done
        · cases done
          exact order
        · cases done
          refine { order with read := ?_ }
          intro t member version retryCount seen counted
          rcases List.mem_append.mp member with h | h
          · exact order.read t h version retryCount seen counted
          · cases List.mem_singleton.mp h
            cases counted
  | findActiveRetry txId =>
    simp only [RetrySystem.step] at done
    split at done
    · split at done
      · cases done
        exact order.drop txId
      · cases done
        exact order.setPhase txId fun _ _ _ h => by cases h
    · cases done
  | prepareDocumentIngestRetry txId =>
    simp only [RetrySystem.step] at done
    split at done
    · split at done
      · cases done
        exact order.drop txId
      · split at done
        · cases done
        · cases done
          exact order.setPhase txId fun _ _ _ h => by cases h
    · cases done
  | nextRetryCount txId =>
    simp only [RetrySystem.step] at done
    split at done
    · rename_i found
      obtain ⟨member, same⟩ := tx_mem found
      cases done
      cases same
      exact order.count inv member
    · cases done
  | insert txId now createdAt =>
    simp only [RetrySystem.step] at done
    split at done
    · rename_i id source userId version retryCount seen found
      obtain ⟨member, same⟩ := tx_mem found
      split at done
      · cases done
      · split at done
        · cases done
          exact order.drop txId
        · rename_i free
          cases done
          cases same
          exact order.insert member rfl
            (current _ version retryCount seen found rfl (by simpa using free))
    · cases done
  | fail txId =>
    cases done
    exact order.drop txId
  | lease call =>
    cases done
    exact order.lease inv call

/-- An insert over a count that is out of date repeats a count. -/
theorem stale_insert {s' : RetrySystem} {action : RetryAction} (order : CountsInOrder s)
    (done : s.step action = some s') (stale : ¬InsertsCurrent s action) :
    ∃ original, ¬((retriesOf original s'.db.jobs).map (·.retryCount)).Nodup := by
  cases action with
  | insert txId now createdAt =>
    simp only [InsertsCurrent, not_forall] at stale
    obtain ⟨t, version, retryCount, seen, found, counted, free, behind⟩ := stale
    obtain ⟨member, _⟩ := tx_mem found
    obtain ⟨length, before⟩ := order.read t member version retryCount seen counted
    obtain ⟨id, source, userId, phase⟩ := t
    cases counted
    simp only [RetrySystem.step, found] at done
    split at done
    · cases done
    · rw [if_neg (by simp [free])] at done
      cases done
      refine ⟨getSourceJobId source, ?_⟩
      rw [retriesOf_insert, if_pos rfl, List.map_append, order.counts]
      have shorter : seen.length < (retriesOf (getSourceJobId source) s.db.jobs).length := by
        have le := before.length_le
        rw [List.length_map] at le
        refine Nat.lt_of_le_of_ne le fun same => behind ?_
        exact before.eq_of_length (by rw [List.length_map, same])
      intro nodup
      have disjoint := (List.nodup_append.mp nodup).2.2
      refine disjoint retryCount ?_ retryCount (by simp [newRetryJob]) rfl
      rw [List.mem_range'_1]
      omega
  | _ => exact absurd trivial stale

omit [UnicodeTables] in
/-- At most one member of a family, the original included, is queued or running. -/
theorem RetryInvariant.family (inv : RetryInvariant s) (original : Nat) {j k : Job}
    (hj : j ∈ s.db.jobs) (hk : k ∈ s.db.jobs)
    (memberJ : j.jobId = original ∨ j.retryOfJobId = some original)
    (memberK : k.jobId = original ∨ k.retryOfJobId = some original)
    (activeJ : j.status.active = true) (activeK : k.status.active = true) :
    j.jobId = k.jobId := by
  have alone (a b : Job) (ha : a ∈ s.db.jobs) (hb : b ∈ s.db.jobs) (id : a.jobId = original)
      (retry : b.retryOfJobId = some original) (active : a.status.active = true) : False := by
    obtain ⟨o, ho, oId, _, terminal⟩ := inv.originals b hb original retry
    have same : o = a := Table.unique inv.table.distinct ho ha (oId.trans id.symm)
    rw [same, terminal_iff_not_active, active] at terminal
    cases terminal
  rcases memberJ with idJ | retryJ
  · rcases memberK with idK | retryK
    · exact idJ.trans idK.symm
    · exact (alone j k hj hk idJ retryK activeJ).elim
  · rcases memberK with idK | retryK
    · exact (alone k j hk hj idK retryJ activeK).elim
    · exact inv.oneActive j hj k hk original retryJ retryK activeJ activeK

omit [UnicodeTables] in
theorem RetryStart.invariant (initial : RetryStart s) : RetryInvariant s ∧ CountsInOrder s := by
  obtain ⟨⟨start, rows⟩, originals, positive, fresh, noTx⟩ := initial
  have noRetry (original : Nat) : retriesOf original s.db.jobs = [] := by
    unfold retriesOf
    rw [List.filter_eq_nil_iff]
    intro j member
    simp [originals j member]
  refine ⟨⟨by simp [noTx], rows ▸ start.tableOk, positive, fresh, by simp [noTx], ?_, ?_⟩,
    ⟨fun original => by simp [noRetry], by simp [noTx]⟩⟩
  · intro j member original retry
    rw [originals j member] at retry
    cases retry
  · intro j hj _ _ original retry
    rw [originals j hj] at retry
    cases retry

end Invariant

/-- Retry families over every interleaving: one active member at most, and every retry points at
an original. The counts are distinct in every run whose inserts meet the condition, and the first
insert that does not meet it repeats a count. -/
theorem retry_families [UnicodeTables] (start : RetrySystem) (initial : RetryStart start) :
    (∀ actions s, Run RetrySystem.step Free start actions s →
      (∀ original, ∀ j ∈ s.db.jobs, ∀ k ∈ s.db.jobs,
        (j.jobId = original ∨ j.retryOfJobId = some original) →
        (k.jobId = original ∨ k.retryOfJobId = some original) →
        j.status.active = true → k.status.active = true → j.jobId = k.jobId) ∧
      ∀ j ∈ s.db.jobs, ∀ original, j.retryOfJobId = some original →
        ∃ o ∈ s.db.jobs, o.jobId = original ∧ o.retryOfJobId = none) ∧
    ∀ actions s, Run RetrySystem.step InsertsCurrent start actions s →
      (∀ original, ((retriesOf original s.db.jobs).map (·.retryCount)).Nodup) ∧
      ∀ action s', s.step action = some s' → ¬InsertsCurrent s action →
        ∃ original, ¬((retriesOf original s'.db.jobs).map (·.retryCount)).Nodup := by
  obtain ⟨invStart, orderStart⟩ := initial.invariant
  constructor
  · intro actions s run
    have inv : RetryInvariant s := run.preserves (fun _ _ _ h _ done => h.step done) invStart
    refine ⟨fun original j hj k hk => inv.family original hj hk, ?_⟩
    intro j member original retry
    obtain ⟨o, oMember, id, isOriginal, _⟩ := inv.originals j member original retry
    exact ⟨o, oMember, id, isOriginal⟩
  · intro actions s run
    have one (s : RetrySystem) (action : RetryAction) (t : RetrySystem)
        (h : RetryInvariant s ∧ CountsInOrder s) (current : InsertsCurrent s action)
        (done : s.step action = some t) : RetryInvariant t ∧ CountsInOrder t :=
      ⟨h.1.step done, h.2.step h.1 current done⟩
    have both := run.preserves one ⟨invStart, orderStart⟩
    refine ⟨fun original => ?_, fun action s' done stale => stale_insert both.2 done stale⟩
    rw [both.2.counts original]
    exact List.nodup_range'

/-- One job that is no retry. -/
def retryStart [UnicodeTables] : RetrySystem where
  db :=
    { documents := []
      versions := []
      chunks := []
      jobs := [newJob 1 "qdrant_consistency_sweep" none none none none 100 0]
      nextJobId := 2
      corpusMarker := none
      graphIndexing := none
      graphExtractor := none }
  txs := []

theorem retryStart_ok : let _ : UnicodeTables := asciiTables; RetryStart retryStart := by
  refine ⟨⟨⟨_, by decide, ?_, ?_⟩, rfl⟩, ?_, ?_, ?_, rfl⟩ <;> decide

theorem retry_families_of_one_job :
    let _ : UnicodeTables := asciiTables
    (∀ actions s, Run RetrySystem.step Free retryStart actions s →
      (∀ original, ∀ j ∈ s.db.jobs, ∀ k ∈ s.db.jobs,
        (j.jobId = original ∨ j.retryOfJobId = some original) →
        (k.jobId = original ∨ k.retryOfJobId = some original) →
        j.status.active = true → k.status.active = true → j.jobId = k.jobId) ∧
      ∀ j ∈ s.db.jobs, ∀ original, j.retryOfJobId = some original →
        ∃ o ∈ s.db.jobs, o.jobId = original ∧ o.retryOfJobId = none) ∧
    ∀ actions s, Run RetrySystem.step InsertsCurrent retryStart actions s →
      (∀ original, ((retriesOf original s.db.jobs).map (·.retryCount)).Nodup) ∧
      ∀ action s', s.step action = some s' → ¬InsertsCurrent s action →
        ∃ original, ¬((retriesOf original s'.db.jobs).map (·.retryCount)).Nodup :=
  @retry_families asciiTables _ retryStart_ok

/-- The steps of one transaction up to its count. -/
def reads (txId jobId : Nat) : List RetryAction :=
  [.begin txId jobId 9, .findActiveRetry txId, .prepareDocumentIngestRetry txId,
    .nextRetryCount txId]

/-- A worker takes the queued job and fails it. -/
def takenAndFailed (jobId : Nat) : List RetryAction :=
  [.lease (.acquireJobs "w" none none 60 1 [] 1),
    .lease (.markFailed jobId "w" "internal_error" "" 2)]

/-- Two transactions on two failed retries of one job take their counts together. The second
inserts its retry, which fails, and then the first inserts one with the same count. -/
theorem counts_repeat :
    let _ : UnicodeTables := asciiTables
    (exec RetrySystem.step retryStart (takenAndFailed 1 ++
      reads 1 1 ++ [.insert 1 3 3] ++ takenAndFailed 2 ++
      reads 2 2 ++ [.insert 2 4 4] ++ takenAndFailed 3 ++
      reads 3 2 ++ reads 4 3 ++ [.insert 4 5 5] ++ takenAndFailed 4 ++ [.insert 3 6 6])).map
        (fun s => (retriesOf 1 s.db.jobs).map (·.retryCount)) = some [1, 2, 3, 3] := by
  decide +kernel

end RagProject.Jobs
