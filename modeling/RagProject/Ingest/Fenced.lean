import RagProject.Ingest.HandlerRows

/-! The invariant of the workers that run the ingest of one version: what they know of the chunks of
the version and of its points, for one chunk id. Every step keeps it, except a read of the chunk by a
worker that does not own the job. -/
namespace RagProject.Ingest
open Python Jobs Documents Qdrant Batches Interleaving

section Points
variable {id : Nat} {points : Collection}

def HasPoint (id : Nat) (points : Collection) : Prop := ∃ p ∈ points, p.pointId = .num id

theorem deletePoints_keeps {ids : List Nat} (other : id ∉ ids) (there : HasPoint id points) :
    HasPoint id (deletePoints ids points) := by
  obtain ⟨p, member, same⟩ := there
  refine ⟨p, List.mem_filter.mpr ⟨member, ?_⟩, same⟩
  simp only [same, Bool.not_eq_true', List.any_eq_false, beq_iff_eq, PointId.num.injEq]
  exact fun i inside here => other (here ▸ inside)

/-- A cleanup with ids takes no other point. -/
theorem cleanup_keeps {documentVersionId : Nat} {ids : List Nat} (named : ids ≠ [])
    (other : id ∉ ids) (there : HasPoint id points) :
    HasPoint id (cleanup documentVersionId ids points) := by
  unfold cleanup
  rw [if_neg (by simpa using named)]
  exact deletePoints_keeps other there

theorem upsertPoint_has {p : Point} : HasPoint id (upsertPoint points p) ↔
    p.pointId = .num id ∨ HasPoint id points := by
  have parts := List.takeWhile_append_dropWhile (p := (·.pointId.before p.pointId)) (l := points)
  unfold upsertPoint
  constructor
  · rintro ⟨q, member, same⟩
    rcases List.mem_append.mp member with front | back
    · exact .inr ⟨q, List.takeWhile_subset _ front, same⟩
    · rcases List.mem_cons.mp back with rfl | kept
      · exact .inl same
      · exact .inr ⟨q, List.dropWhile_subset _ (List.mem_of_mem_filter kept), same⟩
  · rintro (same | ⟨q, member, same⟩)
    · exact ⟨p, List.mem_append_right _ List.mem_cons_self, same⟩
    · by_cases replaced : q.pointId = p.pointId
      · exact ⟨p, List.mem_append_right _ List.mem_cons_self, replaced ▸ same⟩
      · rw [← parts] at member
        refine ⟨q, ?_, same⟩
        rcases List.mem_append.mp member with front | back
        · exact List.mem_append_left _ front
        · exact List.mem_append_right _ (List.mem_cons_of_mem _
            (List.mem_filter.mpr ⟨back, by simpa using replaced⟩))

theorem upsertPoints_has {new : Collection} : HasPoint id (upsertPoints new points) ↔
    HasPoint id new ∨ HasPoint id points := by
  unfold upsertPoints
  induction new generalizing points with
  | nil =>
    refine ⟨.inr, fun either => either.resolve_left ?_⟩
    rintro ⟨_, member, _⟩
    cases member
  | cons p new ih =>
    rw [List.foldl_cons, ih, upsertPoint_has]
    constructor
    · rintro (⟨q, member, same⟩ | same | there)
      · exact .inl ⟨q, List.mem_cons_of_mem _ member, same⟩
      · exact .inl ⟨p, List.mem_cons_self, same⟩
      · exact .inr there
    · rintro (⟨q, member, same⟩ | there)
      · rcases List.mem_cons.mp member with rfl | later
        · exact .inr (.inl same)
        · exact .inl ⟨q, later, same⟩
      · exact .inr (.inr there)

end Points

section Phases

def chunkIdsOf (chunks : List DocumentChunk) : List Nat := chunks.map (·.documentChunkId)

/-- The chunk ids that a handler has read, and may delete from Qdrant. -/
def IngestPhase.chunkIds : IngestPhase → List Nat
  | .cleaning snapshot => snapshot.existingChunkIds
  | .indexing _ chunks _ _ | .finishing chunks | .dropping chunks => chunkIdsOf chunks
  | .removing _ chunkIds => chunkIds
  | _ => []

def IngestPhase.reading : IngestPhase → Bool
  | .cleaning _ | .indexing .. | .finishing _ | .dropping _ | .removing .. => true
  | _ => false

/-- The chunks are stored, and on their way to be ready. -/
def IngestPhase.hasStored : IngestPhase → Bool
  | .stored _ | .indexing .. | .finishing _ => true
  | _ => false

/-- The point of the id is there, or on its way. -/
def IngestPhase.Sends (id : Nat) (points : Collection) : IngestPhase → Prop
  | .indexing _ _ batch rest => id ∈ chunkIdsOf (batch ++ rest.flatten) ∨ HasPoint id points
  | .finishing _ => HasPoint id points
  | _ => True

end Phases

section Invariant
variable (task : IngestTask) (id : Nat)

/-- What the workers keep about one chunk id. -/
structure Fenced (s : IngestState) : Prop where
  jobs : JobsOk s.db
  rows : ∀ i ∈ rowIds task.documentVersionId s.db, i < s.nextChunkId
  read : ∀ w p, s.workers w = some p → (∀ i ∈ p.chunkIds, i < s.nextChunkId) ∧
    (p.reading = true → p.chunkIds ≠ [])
  /-- While a worker that has prepared the version owns the job, the version is not ready. -/
  unready : ∀ w p, s.workers w = some p → p ≠ .arrived → Owns task.job.jobId w s.db →
    ¬VersionReady task.documentVersionId s.db
  /-- No worker has read a chunk of a ready version. -/
  unread : VersionReady task.documentVersionId s.db → id ∈ rowIds task.documentVersionId s.db →
    ∀ w p, s.workers w = some p → id ∉ p.chunkIds
  /-- Once the owner has stored its chunks, no other worker has read them. -/
  fenced : ∀ w p, s.workers w = some p → p.hasStored = true → Owns task.job.jobId w s.db →
    id ∈ rowIds task.documentVersionId s.db → ∀ w' p', w' ≠ w → s.workers w' = some p' →
      id ∉ p'.chunkIds
  sends : ∀ w p, s.workers w = some p → Owns task.job.jobId w s.db →
    id ∈ rowIds task.documentVersionId s.db → p.Sends id s.points
  present : VersionReady task.documentVersionId s.db → id ∈ rowIds task.documentVersionId s.db →
    HasPoint id s.points

/-- A step of the world around the handlers. -/
structure Around (s t : IngestState) : Prop where
  jobs : JobsOk t.db
  owns : ∀ w, Owns task.job.jobId w t.db → Owns task.job.jobId w s.db ∨ s.workers w = none
  rows : rowIds task.documentVersionId t.db = rowIds task.documentVersionId s.db
  ready : VersionReady task.documentVersionId t.db → VersionReady task.documentVersionId s.db
  next : t.nextChunkId = s.nextChunkId
  points : t.points = s.points
  workers : ∀ w p, t.workers w = some p → s.workers w = some p ∨ p = .arrived

variable {task id} {s t : IngestState}

theorem Fenced.around (f : Fenced task id s) (step : Around task s t) : Fenced task id t := by
  obtain ⟨jobs, owns, rows, ready, next, points, workers⟩ := step
  have held (w : String) (p : IngestPhase) (here : t.workers w = some p) :
      s.workers w = some p ∨ p = .arrived := workers w p here
  have owned (w : String) (p : IngestPhase) (here : s.workers w = some p)
      (owner : Owns task.job.jobId w t.db) : Owns task.job.jobId w s.db := by
    rcases owns w owner with before | idle
    · exact before
    · rw [idle] at here
      cases here
  refine ⟨jobs, ?_, ?_, ?_, ?_, ?_, ?_, ?_⟩
  · rw [rows, next]
    exact f.rows
  · intro w p here
    rw [next]
    rcases held w p here with before | rfl
    · exact f.read w p before
    · exact ⟨fun i none => absurd none List.not_mem_nil, fun impossible => by cases impossible⟩
  · intro w p here prepared owner now
    rcases held w p here with before | rfl
    · exact f.unready w p before prepared (owned w p before owner) (ready now)
    · exact prepared rfl
  · intro now member w p here
    rw [rows] at member
    rcases held w p here with before | rfl
    · exact f.unread (ready now) member w p before
    · exact List.not_mem_nil
  · intro w p here stored owner member w' p' other there
    rw [rows] at member
    rcases held w p here with before | rfl
    · rcases held w' p' there with beforeToo | rfl
      · exact f.fenced w p before stored (owned w p before owner) member w' p' other beforeToo
      · exact List.not_mem_nil
    · cases stored
  · intro w p here owner member
    rw [rows] at member
    rw [points]
    rcases held w p here with before | rfl
    · exact f.sends w p before (owned w p before owner) member
    · trivial
  · intro now member
    rw [rows] at member
    rw [points]
    exact f.present (ready now) member

/-- A step of a handler that stores nothing and makes no version ready: from one phase to another,
or to its end. -/
structure Onward (task : IngestTask) (id : Nat) (s t : IngestState) (w : String) (p : IngestPhase)
    (q : Option IngestPhase) : Prop where
  workers : t.workers = fun w' => if w' = w then q else s.workers w'
  jobs : Grown s.db t.db
  rows : ∀ i ∈ rowIds task.documentVersionId t.db, i ∈ rowIds task.documentVersionId s.db
  ready : VersionReady task.documentVersionId t.db → VersionReady task.documentVersionId s.db
  next : s.nextChunkId ≤ t.nextChunkId
  points : id ∉ p.chunkIds → HasPoint id s.points → HasPoint id t.points
  prepares : p = .arrived → q ≠ none → ¬VersionReady task.documentVersionId t.db
  read : ∀ r ∈ q, (∀ i ∈ r.chunkIds, i < t.nextChunkId) ∧ (r.reading = true → r.chunkIds ≠ [])
  known : ∀ r ∈ q, id ∈ rowIds task.documentVersionId t.db → id ∈ r.chunkIds →
    id ∈ p.chunkIds ∨ Owns task.job.jobId w s.db
  stored : ∀ r ∈ q, r.hasStored = true → p.hasStored = true
  sends : ∀ r ∈ q, Owns task.job.jobId w s.db → id ∈ rowIds task.documentVersionId t.db →
    r.Sends id t.points

theorem Fenced.onward {w : String} {p : IngestPhase} {q : Option IngestPhase}
    (f : Fenced task id s) (here : s.workers w = some p) (step : Onward task id s t w p q) :
    Fenced task id t := by
  have self (r : IngestPhase) (now : t.workers w = some r) : r ∈ q := by
    rw [step.workers] at now
    simpa using now
  have others (w' : String) (other : w' ≠ w) : t.workers w' = s.workers w' := by
    rw [step.workers]
    simp only [other, if_false]
  have owns (w' : String) (owner : Owns task.job.jobId w' t.db) : Owns task.job.jobId w' s.db :=
    (step.jobs.owns _ _).mp owner
  -- The owner has not made its version ready, neither before the step nor with it.
  have unready (owner : Owns task.job.jobId w s.db) (some_phase : q ≠ none) :
      ¬VersionReady task.documentVersionId t.db := by
    by_cases arrived : p = .arrived
    · exact step.prepares arrived some_phase
    · exact fun now => f.unready w p here arrived owner (step.ready now)
  refine ⟨step.jobs.ok f.jobs, ?_, ?_, ?_, ?_, ?_, ?_, ?_⟩
  · exact fun i member => Nat.lt_of_lt_of_le (f.rows i (step.rows i member)) step.next
  · intro w' r now
    by_cases same : w' = w
    · subst same
      exact step.read r (self r now)
    · rw [others w' same] at now
      obtain ⟨below, named⟩ := f.read w' r now
      exact ⟨fun i member => Nat.lt_of_lt_of_le (below i member) step.next, named⟩
  · intro w' r now prepared owner
    by_cases same : w' = w
    · subst same
      have there := self r now
      exact unready (owns w' owner) fun gone => by rw [gone] at there; cases there
    · rw [others w' same] at now
      exact fun ready => f.unready w' r now prepared (owns w' owner) (step.ready ready)
  · intro ready member w' r now
    have before := step.rows id member
    by_cases same : w' = w
    · subst same
      have there := self r now
      intro inside
      rcases step.known r there member inside with old | owner
      · exact f.unread (step.ready ready) before w' p here old
      · exact unready owner (fun gone => by rw [gone] at there; cases there) ready
    · rw [others w' same] at now
      exact f.unread (step.ready ready) before w' r now
  · intro w' r now stored owner member w'' r' other there
    have before := step.rows id member
    by_cases same : w' = w
    · subst same
      rw [others w'' other] at there
      exact f.fenced w' p here (step.stored r (self r now) stored) (owns w' owner) before w'' r'
        other there
    · rw [others w' same] at now
      by_cases stepping : w'' = w
      · subst stepping
        intro inside
        rcases step.known r' (self r' there) member inside with old | mine
        · exact f.fenced w' r now stored (owns w' owner) before w'' p other here old
        · exact other (owns_one f.jobs mine (owns w' owner))
      · rw [others w'' stepping] at there
        exact f.fenced w' r now stored (owns w' owner) before w'' r' other there
  · intro w' r now owner member
    have before := step.rows id member
    by_cases same : w' = w
    · subst same
      exact step.sends r (self r now) (owns w' owner) member
    · rw [others w' same] at now
      have sent := f.sends w' r now (owns w' owner) before
      -- What the step deletes is not among the chunks that the owner has stored.
      have kept (stored : r.hasStored = true) : HasPoint id s.points → HasPoint id t.points :=
        step.points (f.fenced w' r now stored (owns w' owner) before w p (Ne.symm same) here)
      cases r with
      | indexing => exact sent.imp_right (kept rfl)
      | finishing => exact kept rfl sent
      | _ => trivial
  · intro ready member
    have before := step.rows id member
    exact step.points (f.unread (step.ready ready) before w p here)
      (f.present (step.ready ready) before)

/-- The owner stores its chunks under fresh ids, which nobody has read. -/
theorem Fenced.store {w : String} {snapshot : VersionSnapshot} (f : Fenced task id s)
    (owner : Owns task.job.jobId w s.db) (unready : ¬VersionReady task.documentVersionId t.db)
    (jobs : Grown s.db t.db) (next : s.nextChunkId ≤ t.nextChunkId)
    (rows : ∀ i ∈ rowIds task.documentVersionId t.db, s.nextChunkId ≤ i ∧ i < t.nextChunkId)
    (workers : t.workers = fun w' => if w' = w then some (.stored snapshot) else s.workers w') :
    Fenced task id t := by
  have held (w' : String) (r : IngestPhase) (now : t.workers w' = some r) :
      w' = w ∧ r = .stored snapshot ∨ w' ≠ w ∧ s.workers w' = some r := by
    rw [workers] at now
    by_cases same : w' = w
    · simp only [same, if_true] at now
      exact .inl ⟨same, (Option.some.inj now).symm⟩
    · simp only [same, if_false] at now
      exact .inr ⟨same, now⟩
  have old (w' : String) (r : IngestPhase) (before : s.workers w' = some r)
      (member : id ∈ rowIds task.documentVersionId t.db) : id ∉ r.chunkIds := fun inside => by
    have below := (f.read w' r before).1 id inside
    have fresh := (rows id member).1
    omega
  refine ⟨jobs.ok f.jobs, fun i member => (rows i member).2, ?_, ?_, ?_, ?_, ?_, ?_⟩
  · intro w' r now
    rcases held w' r now with ⟨_, rfl⟩ | ⟨_, before⟩
    · exact ⟨fun i none => absurd none List.not_mem_nil, fun impossible => by cases impossible⟩
    · obtain ⟨below, named⟩ := f.read w' r before
      exact ⟨fun i member => Nat.lt_of_lt_of_le (below i member) next, named⟩
  · exact fun _ _ _ _ _ => unready
  · exact fun ready => absurd ready unready
  · intro w' r now _ _ member w'' r' other there
    rcases held w'' r' there with ⟨_, rfl⟩ | ⟨_, before⟩
    · exact List.not_mem_nil
    · exact old w'' r' before member
  · intro w' r now owns member
    rcases held w' r now with ⟨_, rfl⟩ | ⟨other, _⟩
    · trivial
    · exact absurd (owns_one f.jobs ((jobs.owns _ _).mp owns) owner) other
  · exact fun ready => absurd ready unready

/-- The owner makes the version ready after it has sent the points of its chunks. -/
theorem Fenced.finalize {w : String} {chunks : List DocumentChunk} (f : Fenced task id s)
    (here : s.workers w = some (.finishing chunks)) (owner : Owns task.job.jobId w s.db)
    (same : t.db.chunks = s.db.chunks) (jobs : Grown s.db t.db)
    (next : t.nextChunkId = s.nextChunkId) (points : t.points = s.points)
    (workers : t.workers = fun w' => if w' = w then none else s.workers w') :
    Fenced task id t := by
  have rows : rowIds task.documentVersionId t.db = rowIds task.documentVersionId s.db := by
    unfold rowIds Db.chunksOf
    rw [same]
  have held (w' : String) (r : IngestPhase) (now : t.workers w' = some r) :
      w' ≠ w ∧ s.workers w' = some r := by
    rw [workers] at now
    by_cases same : w' = w
    · simp only [same, if_true] at now
      cases now
    · simp only [same, if_false] at now
      exact ⟨same, now⟩
  have nobody (w' : String) (r : IngestPhase) (now : t.workers w' = some r) :
      ¬Owns task.job.jobId w' t.db := fun owns =>
    (held w' r now).1 (owns_one f.jobs ((jobs.owns _ _).mp owns) owner)
  refine ⟨jobs.ok f.jobs, ?_, ?_, ?_, ?_, ?_, ?_, ?_⟩
  · rw [rows, next]
    exact f.rows
  · intro w' r now
    rw [next]
    exact f.read w' r (held w' r now).2
  · exact fun w' r now _ owns => absurd owns (nobody w' r now)
  · intro _ member w' r now
    rw [rows] at member
    obtain ⟨other, before⟩ := held w' r now
    exact f.fenced w _ here rfl owner member w' r other before
  · exact fun w' r now _ owns => absurd owns (nobody w' r now)
  · exact fun w' r now owns => absurd owns (nobody w' r now)
  · intro _ member
    rw [rows] at member
    rw [points]
    exact f.sends w _ here owner member

end Invariant

section Steps
variable (task : IngestTask)

/-- A worker that does not own the job reads the chunk ids of the version: for the cleanup after a
failure, or when it loads the chunks that it believes to have stored. -/
structure StaleRead (s : IngestState) (worker : String) (id : Nat) : Prop where
  phase : ∃ p, s.workers worker = some p ∧
    ((∃ errorCode waiting, p = .failing errorCode waiting) ∨ ∃ snapshot, p = .stored snapshot)
  foreign : ¬Owns task.job.jobId worker s.db
  row : id ∈ rowIds task.documentVersionId s.db

variable {task} {id : Nat} {s t : IngestState} {w : String} {p : IngestPhase}

/-- A phase in which a handler has read nothing that it may delete, and has stored nothing. -/
def IngestPhase.Plain (p : IngestPhase) : Prop :=
  p.chunkIds = [] ∧ p.reading = false ∧ p.hasStored = false

theorem startExtraction_plain (snapshot : VersionSnapshot) : (startExtraction snapshot).Plain := by
  unfold startExtraction
  split <;> exact ⟨rfl, rfl, rfl⟩

/-- What a step leaves of the tables. -/
structure Leaves (task : IngestTask) (s t : IngestState) : Prop where
  jobs : Grown s.db t.db
  rows : ∀ i ∈ rowIds task.documentVersionId t.db, i ∈ rowIds task.documentVersionId s.db
  ready : VersionReady task.documentVersionId t.db → VersionReady task.documentVersionId s.db
  next : s.nextChunkId ≤ t.nextChunkId

theorem leaves_same (db : t.db = s.db) (next : s.nextChunkId ≤ t.nextChunkId) : Leaves task s t := by
  refine ⟨.of_same (by rw [db]) (by rw [db]), ?_, ?_, next⟩
  · rw [db]
    exact fun i member => member
  · rw [db]
    exact fun ready => ready

theorem leaves_unready
    (unready : Unready (task.context w) task.documentVersionId s.db t.db)
    (rows : ∀ i ∈ rowIds task.documentVersionId t.db, i ∈ rowIds task.documentVersionId s.db)
    (next : s.nextChunkId ≤ t.nextChunkId) : Leaves task s t :=
  ⟨unready.jobs, rows, fun ready => absurd ready unready.unready, next⟩

/-- A step of a handler to its end or to a plain phase. -/
theorem Fenced.toPlain {q : Option IngestPhase} (f : Fenced task id s)
    (here : s.workers w = some p) (leaves : Leaves task s t)
    (points : id ∉ p.chunkIds → HasPoint id s.points → HasPoint id t.points)
    (prepares : p = .arrived → q ≠ none → ¬VersionReady task.documentVersionId t.db)
    (workers : t.workers = fun w' => if w' = w then q else s.workers w')
    (plain : ∀ r ∈ q, r.Plain) : Fenced task id t := by
  refine f.onward here ⟨workers, leaves.jobs, leaves.rows, leaves.ready, leaves.next, points,
    prepares, fun r there => ?_, fun r there _ inside => ?_, fun r there stored => ?_,
    fun r there _ _ => ?_⟩
  · obtain ⟨none, still, _⟩ := plain r there
    rw [none, still]
    exact ⟨fun i impossible => absurd impossible List.not_mem_nil, fun impossible => by cases impossible⟩
  · rw [(plain r there).1] at inside
    cases inside
  · rw [(plain r there).2.2] at stored
    cases stored
  · obtain ⟨_, _, unstored⟩ := plain r there
    cases r with
    | indexing | finishing => cases unstored
    | _ => trivial

theorem Fenced.leave (f : Fenced task id s) (here : s.workers w = some p)
    (leaves : Leaves task s t) (points : t.points = s.points) (workers : t.workers = s.workers) :
    Fenced task id (t.leave w) := by
  refine f.toPlain (t := t.leave w) (q := none) here ⟨leaves.jobs, leaves.rows, leaves.ready,
    leaves.next⟩ ?_ (fun _ impossible => absurd rfl impossible) ?_ fun r none => by cases none
  · intro _ there
    exact points ▸ there
  · unfold IngestState.leave
    rw [workers]

/-- The end of a handler that changed nothing. -/
theorem Fenced.left (f : Fenced task id s) (here : s.workers w = some p) :
    Fenced task id (s.leave w) := f.leave here (leaves_same rfl (Nat.le_refl _)) rfl rfl

theorem Fenced.park (f : Fenced task id s) (here : s.workers w = some p) {r : IngestPhase}
    (plain : r.Plain) (leaves : Leaves task s t)
    (points : id ∉ p.chunkIds → HasPoint id s.points → HasPoint id t.points)
    (prepares : p = .arrived → ¬VersionReady task.documentVersionId t.db)
    (workers : t.workers = s.workers) : Fenced task id (t.park w r) := by
  refine f.toPlain (t := t.park w r) (q := some r) here ⟨leaves.jobs, leaves.rows, leaves.ready,
    leaves.next⟩ points (fun arrived _ => prepares arrived) ?_ fun r' same => by cases same; exact plain
  unfold IngestState.park
  rw [workers]

/-- A step to a phase that may delete what the handler has read. -/
theorem Fenced.parkReading (f : Fenced task id s) (here : s.workers w = some p) {r : IngestPhase}
    (leaves : Leaves task s t)
    (points : id ∉ p.chunkIds → HasPoint id s.points → HasPoint id t.points)
    (prepares : p = .arrived → ¬VersionReady task.documentVersionId t.db)
    (workers : t.workers = s.workers) (below : ∀ i ∈ r.chunkIds, i < t.nextChunkId)
    (named : r.chunkIds ≠ [])
    (known : id ∈ rowIds task.documentVersionId t.db → id ∈ r.chunkIds →
      id ∈ p.chunkIds ∨ Owns task.job.jobId w s.db)
    (stored : r.hasStored = true → p.hasStored = true)
    (sends : Owns task.job.jobId w s.db → id ∈ rowIds task.documentVersionId t.db →
      r.Sends id t.points) : Fenced task id (t.park w r) := by
  refine f.onward (t := t.park w r) (q := some r) here ⟨?_, leaves.jobs, leaves.rows, leaves.ready,
    leaves.next, points, fun arrived _ => prepares arrived, ?_, ?_, ?_, ?_⟩
  · unfold IngestState.park
    rw [workers]
  · rintro r' same
    cases same
    exact ⟨below, fun _ => named⟩
  · rintro r' same
    cases same
    exact known
  · rintro r' same
    cases same
    exact stored
  · rintro r' same
    cases same
    exact sends

theorem rowIds_same {db db' : Db} (chunks : db'.chunks = db.chunks) (documentVersionId : Nat) :
    rowIds documentVersionId db' = rowIds documentVersionId db := by
  unfold rowIds Db.chunksOf
  rw [chunks]

/-- A deletion of what a handler has read. -/
theorem cleaned_fenced (f : Fenced task id s) (here : s.workers w = some p) {r : IngestPhase}
    (reads : p.reading = true) (prepared : p ≠ .arrived) (plain : r.Plain) :
    Fenced task id ((s.cleanupPoints task p.chunkIds).park w r) :=
  f.park here plain (leaves_same rfl (Nat.le_refl _))
    (fun other there => cleanup_keeps ((f.read w p here).2 reads) other there)
    (fun arrived => absurd arrived prepared) rfl

/-- The same, when the call fails. -/
theorem reached_fenced (f : Fenced task id s) (here : s.workers w = some p) {r : IngestPhase}
    (reached : List Nat) (prepared : p ≠ .arrived) (plain : r.Plain) :
    Fenced task id ((s.deleteReached p.chunkIds reached).park w r) :=
  f.park here plain (leaves_same rfl (Nat.le_refl _))
    (fun other there => deletePoints_keeps (fun inside => other (List.mem_of_mem_filter inside)) there)
    (fun arrived => absurd arrived prepared) rfl

/-- A step to a plain phase that touches nothing. -/
theorem parked_fenced (f : Fenced task id s) (here : s.workers w = some p) {r : IngestPhase}
    (prepared : p ≠ .arrived) (plain : r.Plain) : Fenced task id (s.park w r) :=
  f.park here plain (leaves_same rfl (Nat.le_refl _)) (fun _ there => there)
    (fun arrived => absurd arrived prepared) rfl

theorem mem_batch {snapshot : VersionSnapshot} {batch : List DocumentChunk}
    (member : id ∈ chunkIdsOf batch) : HasPoint id (batch.map (task.point snapshot)) := by
  obtain ⟨chunk, inside, rfl⟩ := List.mem_map.mp member
  exact ⟨task.point snapshot chunk, List.mem_map_of_mem inside, rfl⟩

/-- The owner, or a stale worker, gives up a version that it could not make ready. -/
theorem dropping_fenced {chunks : List DocumentChunk} (f : Fenced task id s)
    (here : s.workers w = some (.finishing chunks)) : Fenced task id (s.park w (.dropping chunks)) := by
  obtain ⟨below, named⟩ := f.read w _ here
  exact f.parkReading here (leaves_same rfl (Nat.le_refl _)) (fun _ there => there)
    (fun impossible => by cases impossible) rfl below (named rfl) (fun _ => .inl)
    (fun stored => by cases stored) fun _ _ => trivial

/-- A request that touches neither the chunks nor the workers. -/
theorem framed_fenced {db : Db} (f : Fenced task id s) (framed : Framed s.db db) :
    Fenced task id { s with db := db } :=
  f.around ⟨framed.jobs.ok f.jobs, fun w owns => .inl ((framed.jobs.owns _ w).mp owns),
    framed.rowIds _, framed.ready _, rfl, rfl, fun _ _ here => .inl here⟩

theorem extracted_fenced (f : Fenced task id s) (here : s.workers w = some p)
    (document : ExtractedDocument) : Fenced task id (s.extracted task w document p) := by
  cases p with
  | extracting snapshot =>
    have prepared : IngestPhase.extracting snapshot ≠ .arrived := IngestPhase.noConfusion
    simp only [IngestState.extracted]
    split
    · exact parked_fenced f here prepared ⟨rfl, rfl, rfl⟩
    split
    · exact parked_fenced f here prepared ⟨rfl, rfl, rfl⟩
    · exact parked_fenced f here prepared ⟨rfl, rfl, rfl⟩
  | _ => exact f

/-- A step of a handler that fails reads no rows. -/
theorem broken_fenced (f : Fenced task id s) (here : s.workers w = some p) (errorCode : String)
    (waiting : List String) (reached : List Nat) :
    Fenced task id (s.broken task w errorCode waiting reached p) := by
  cases p with
  | arrived => exact f.left here
  | cleaning snapshot => exact reached_fenced f here reached IngestPhase.noConfusion ⟨rfl, rfl, rfl⟩
  | cleaned snapshot => exact parked_fenced f here IngestPhase.noConfusion ⟨rfl, rfl, rfl⟩
  | extracting snapshot => exact parked_fenced f here IngestPhase.noConfusion ⟨rfl, rfl, rfl⟩
  | storing snapshot document chunks =>
    exact f.park here ⟨rfl, rfl, rfl⟩ (leaves_same rfl (Nat.le_add_right _ _))
      (fun _ there => there) (fun impossible => by cases impossible) rfl
  | stored snapshot => exact parked_fenced f here IngestPhase.noConfusion ⟨rfl, rfl, rfl⟩
  | indexing snapshot chunks batch rest =>
    exact f.park here ⟨rfl, rfl, rfl⟩ (leaves_same rfl (Nat.le_refl _))
      (fun _ there => upsertPoints_has.mpr (.inr there)) (fun impossible => by cases impossible) rfl
  | finishing chunks => exact dropping_fenced f here
  | dropping chunks => exact reached_fenced f here reached IngestPhase.noConfusion ⟨rfl, rfl, rfl⟩
  | failing code later =>
    cases later with
    | nil => exact f.left here
    | cons next later => exact parked_fenced f here IngestPhase.noConfusion ⟨rfl, rfl, rfl⟩
  | removing code chunkIds =>
    exact reached_fenced f here reached IngestPhase.noConfusion ⟨rfl, rfl, rfl⟩
  | marking code withChunks => exact f.left here

variable [UnicodeTables]

theorem prepare_fenced (f : Fenced task id s) (here : s.workers w = some .arrived)
    (clock : IngestClock) : Fenced task id (s.advance task w clock .arrived) := by
  simp only [IngestState.advance]
  split
  · exact f.left here
  · rename_i db code done
    rcases prepareVersion_ok done with ⟨rfl, _⟩ | ⟨unready, chunks, _⟩
    · exact f.left here
    · refine f.leave here (leaves_unready unready ?_ (Nat.le_refl _)) rfl rfl
      rw [rowIds_same chunks]
      exact fun i member => member
  · rename_i db snapshot done
    rcases prepareVersion_ok done with ⟨rfl, ready⟩ | ⟨unready, chunks, ids⟩
    · rw [if_pos (ready snapshot rfl)]
      exact f.left here
    · have rows := rowIds_same chunks task.documentVersionId
      have leaves : Leaves task s { s with db := db } :=
        leaves_unready unready (by rw [rows]; exact fun i member => member)
          (Nat.le_refl _)
      have existing : ∀ i, i ∈ snapshot.existingChunkIds ↔ i ∈ rowIds task.documentVersionId s.db := by
        intro i
        rw [ids snapshot rfl]
        exact mem_chunkIds
      split
      · exact f.leave here leaves rfl rfl
      split
      · exact f.park here (startExtraction_plain snapshot) leaves (fun _ there => there)
          (fun _ => unready.unready) rfl
      · rename_i named
        exact f.parkReading here leaves (fun _ there => there) (fun _ => unready.unready) rfl
          (fun i member => f.rows i ((existing i).mp member))
          (by simpa [IngestPhase.chunkIds] using named)
          (fun _ _ => .inr unready.owner) (fun stored => by cases stored) fun _ _ => trivial

theorem emptied_fenced {snapshot : VersionSnapshot} (f : Fenced task id s)
    (here : s.workers w = some (.cleaned snapshot)) (clock : IngestClock) :
    Fenced task id (s.advance task w clock (.cleaned snapshot)) := by
  simp only [IngestState.advance]
  split
  · exact f.left here
  · obtain ⟨emptied, versions, jobs⟩ := deleteChunks_rows task.documentVersionId clock.now s.db
    refine f.park here (startExtraction_plain snapshot) ⟨jobs, ?_, ?_, Nat.le_refl _⟩
      (fun _ there => there) (fun impossible => by cases impossible) rfl
    · rw [emptied]
      exact fun i none => absurd none List.not_mem_nil
    · unfold VersionReady Db.getVersionById
      rw [versions]
      exact fun ready => ready

theorem store_fenced {snapshot : VersionSnapshot} {document : ExtractedDocument}
    {chunks : List Chunk} (f : Fenced task id s)
    (here : s.workers w = some (.storing snapshot document chunks)) (clock : IngestClock) :
    Fenced task id (s.advance task w clock (.storing snapshot document chunks)) := by
  have prepared : IngestPhase.storing snapshot document chunks ≠ .arrived :=
    IngestPhase.noConfusion
  simp only [IngestState.advance]
  split
  · rename_i db done
    obtain ⟨unready, rows⟩ := storeChunks_ok done
    exact f.store (t := { s with db := db, nextChunkId := s.nextChunkId + chunks.length }.park w
      (.stored snapshot)) unready.owner unready.unready unready.jobs (Nat.le_add_right _ _) rows rfl
  · exact f.left here
  · exact f.left here
  · exact parked_fenced f here prepared ⟨rfl, rfl, rfl⟩
  · exact f.park here ⟨rfl, rfl, rfl⟩ (leaves_same rfl (Nat.le_add_right _ _))
      (fun _ there => there) (fun arrived => absurd arrived prepared) rfl

/-- The rows that the owner loads are those that it will send. -/
theorem load_fenced {snapshot : VersionSnapshot} (f : Fenced task id s)
    (here : s.workers w = some (.stored snapshot)) (fresh : ¬StaleRead task s w id)
    (clock : IngestClock) : Fenced task id (s.advance task w clock (.stored snapshot)) := by
  have prepared : IngestPhase.stored snapshot ≠ .arrived := IngestPhase.noConfusion
  have loaded : ∀ i, i ∈ chunkIdsOf (listChunksForEmbedding task.documentVersionId s.db) ↔
      i ∈ rowIds task.documentVersionId s.db := fun i => mem_chunksForEmbedding
  simp only [IngestState.advance]
  split
  · exact parked_fenced f here prepared ⟨rfl, rfl, rfl⟩
  · rename_i batch rest cut
    have flat : batch ++ rest.flatten = listChunksForEmbedding task.documentVersionId s.db := by
      have whole := batches_flatten task.positive (listChunksForEmbedding task.documentVersionId s.db)
      rwa [cut, List.flatten_cons] at whole
    refine f.parkReading here (leaves_same rfl (Nat.le_refl _)) (fun _ there => there)
      (fun arrived => absurd arrived prepared) rfl (fun i member => f.rows i ((loaded i).mp member))
      ?_ (fun member _ => .inr ?_) (fun _ => rfl) fun _ member => .inl ?_
    · intro none
      have empty := List.map_eq_nil_iff.mp none
      rw [empty, batches_nil task.positive] at cut
      cases cut
    · exact not_not.mp fun foreign =>
        fresh ⟨⟨_, here, .inr ⟨snapshot, rfl⟩⟩, foreign, member⟩
    · rw [flat]
      exact (loaded id).mpr member

theorem send_fenced {snapshot : VersionSnapshot} {chunks batch : List DocumentChunk}
    {rest : List (List DocumentChunk)} (f : Fenced task id s)
    (here : s.workers w = some (.indexing snapshot chunks batch rest)) (clock : IngestClock) :
    Fenced task id (s.advance task w clock (.indexing snapshot chunks batch rest)) := by
  have prepared : IngestPhase.indexing snapshot chunks batch rest ≠ .arrived :=
    IngestPhase.noConfusion
  obtain ⟨below, named⟩ := f.read w _ here
  have kept : HasPoint id s.points →
      HasPoint id (upsertPoints (batch.map (task.point snapshot)) s.points) := fun there =>
    upsertPoints_has.mpr (.inr there)
  have sent (owner : Owns task.job.jobId w s.db) (member : id ∈ rowIds task.documentVersionId s.db) :
      id ∈ chunkIdsOf rest.flatten ∨
        HasPoint id (upsertPoints (batch.map (task.point snapshot)) s.points) := by
    rcases f.sends w _ here owner member with waiting | there
    · unfold chunkIdsOf at waiting
      rw [List.map_append] at waiting
      rcases List.mem_append.mp waiting with now | later
      · exact .inr (upsertPoints_has.mpr (.inl (mem_batch now)))
      · exact .inl later
    · exact .inr (kept there)
  simp only [IngestState.advance]
  split
  · refine f.parkReading here (leaves_same rfl (Nat.le_refl _)) (fun _ => kept)
      (fun arrived => absurd arrived prepared) rfl below (named rfl) (fun _ => .inl) (fun _ => rfl)
      fun owner member => ?_
    rcases sent owner member with later | there
    · cases later
    · exact there
  · exact f.parkReading here (leaves_same rfl (Nat.le_refl _)) (fun _ => kept)
      (fun arrived => absurd arrived prepared) rfl below (named rfl) (fun _ => .inl) (fun _ => rfl)
      fun owner member => sent owner member

theorem finish_fenced {chunks : List DocumentChunk} (f : Fenced task id s)
    (here : s.workers w = some (.finishing chunks)) (clock : IngestClock) :
    Fenced task id (s.advance task w clock (.finishing chunks)) := by
  simp only [IngestState.advance]
  split
  · rename_i db done
    obtain ⟨owner, same, jobs⟩ := finalizeVersion_ok done
    exact f.finalize (t := { s with db := db }.leave w) here owner same jobs rfl rfl rfl
  · exact f.left here
  · exact dropping_fenced f here

theorem fail_fenced {errorCode : String} {waiting : List String} (f : Fenced task id s)
    (here : s.workers w = some (.failing errorCode waiting)) (fresh : ¬StaleRead task s w id)
    (clock : IngestClock) : Fenced task id (s.advance task w clock (.failing errorCode waiting)) := by
  have prepared : IngestPhase.failing errorCode waiting ≠ .arrived := IngestPhase.noConfusion
  simp only [IngestState.advance]
  split
  · exact parked_fenced f here prepared ⟨rfl, rfl, rfl⟩
  · rename_i named
    exact f.parkReading here (leaves_same rfl (Nat.le_refl _)) (fun _ there => there)
      (fun arrived => absurd arrived prepared) rfl (fun i member => f.rows i (mem_chunkIds.mp member))
      (by simpa [IngestPhase.chunkIds] using named)
      (fun member _ => .inr (not_not.mp fun foreign =>
        fresh ⟨⟨_, here, .inl ⟨errorCode, waiting, rfl⟩⟩, foreign, member⟩))
      (fun stored => by cases stored) fun _ _ => trivial

theorem mark_fenced {errorCode : String} {withChunks : Bool} (f : Fenced task id s)
    (here : s.workers w = some (.marking errorCode withChunks)) (clock : IngestClock) :
    Fenced task id (s.advance task w clock (.marking errorCode withChunks)) := by
  simp only [IngestState.advance]
  split
  · rename_i db done
    rcases markFailed_ok done with rfl | ⟨unready, rows⟩
    · exact f.left here
    · exact f.leave here (leaves_unready unready rows (Nat.le_refl _)) rfl rfl
  · exact f.left here

/-- A step of a handler that succeeds. -/
theorem advance_fenced (f : Fenced task id s) (here : s.workers w = some p)
    (fresh : ¬StaleRead task s w id) (clock : IngestClock) :
    Fenced task id (s.advance task w clock p) := by
  cases p with
  | arrived => exact prepare_fenced f here clock
  | cleaning snapshot => exact cleaned_fenced f here rfl IngestPhase.noConfusion ⟨rfl, rfl, rfl⟩
  | cleaned snapshot => exact emptied_fenced f here clock
  | extracting snapshot => exact f
  | storing snapshot document chunks => exact store_fenced f here clock
  | stored snapshot => exact load_fenced f here fresh clock
  | indexing snapshot chunks batch rest => exact send_fenced f here clock
  | finishing chunks => exact finish_fenced f here clock
  | dropping chunks => exact cleaned_fenced f here rfl IngestPhase.noConfusion ⟨rfl, rfl, rfl⟩
  | failing errorCode waiting => exact fail_fenced f here fresh clock
  | removing errorCode chunkIds =>
    exact cleaned_fenced f here rfl IngestPhase.noConfusion ⟨rfl, rfl, rfl⟩
  | marking errorCode withChunks => exact mark_fenced f here clock

/-- A step of the world, or of a handler that does not read as a stranger. -/
theorem step_fenced {action : IngestAction} (f : Fenced task id s)
    (step : ingestStep task s action = some t)
    (fresh : ∀ worker clock, action = .proceed worker .done clock → ¬StaleRead task s worker id) :
    Fenced task id t := by
  cases action with
  | acquire worker enabled supported duration size locked now =>
    simp only [ingestStep] at step
    split at step
    · rename_i idle
      cases step
      refine f.around ⟨lease_ok _ f.jobs, fun w owns => ?_, rfl, fun ready => ready, rfl, rfl,
        fun _ _ here => .inl here⟩
      rcases lease_owns _ f.jobs owns with before | ⟨_, _, _, _, _, _, call⟩
      · exact .inl before
      · cases call
        exact .inr (Option.isNone_iff_eq_none.mp idle)
    · cases step
  | lease call =>
    have foreign : (∀ worker enabled supported duration size locked now,
        call ≠ .acquireJobs worker enabled supported duration size locked now) →
        Fenced task id { s with db := { s.db with jobs := call.commit s.db.jobs } } := fun other =>
      f.around ⟨lease_ok call f.jobs, fun w owns => by
        rcases lease_owns call f.jobs owns with before | ⟨_, _, _, _, _, _, same⟩
        · exact .inl before
        · exact absurd same (other _ _ _ _ _ _ _), rfl, fun ready => ready, rfl, rfl,
        fun _ _ here => .inl here⟩
    cases call with
    | acquireJobs => cases step
    | _ =>
      cases step
      exact foreign fun _ _ _ _ _ _ _ same => by cases same
  | begin worker =>
    simp only [ingestStep] at step
    split at step
    · cases step
      refine f.around ⟨f.jobs, fun _ => .inl, rfl, fun ready => ready, rfl, rfl, fun w p here => ?_⟩
      simp only [IngestState.park] at here
      split at here
      · exact .inr (Option.some.inj here).symm
      · exact .inl here
    · cases step
  | proceed worker answer clock =>
    obtain ⟨p, here, rfl⟩ := Option.map_eq_some_iff.mp step
    cases answer with
    | done => exact advance_fenced f here (fresh worker clock rfl) clock
    | extracted document => exact extracted_fenced f here document
    | failed errorCode waiting reached => exact broken_fenced f here errorCode waiting reached
  | crash worker =>
    cases step
    cases here : s.workers worker with
    | some p => exact f.left here
    | none =>
      refine f.around ⟨f.jobs, fun _ => .inl, rfl, fun ready => ready, rfl, rfl, fun w p now => ?_⟩
      simp only [IngestState.leave] at now
      split at now
      · cases now
      · exact .inl now
  | approve request logicalDocumentId documentVersionId =>
    simp only [ingestStep] at step
    split at step
    · rename_i db response done
      cases step
      exact framed_fenced f (approveVersion_framed done)
    · cases step
      exact f
  | archive request logicalDocumentId =>
    simp only [ingestStep] at step
    split at step
    · rename_i db response done
      cases step
      exact framed_fenced f (archiveDocument_framed done)
    · cases step
      exact f

end Steps

end RagProject.Ingest
