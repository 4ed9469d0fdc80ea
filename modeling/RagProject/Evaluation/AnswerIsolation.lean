import RagProject.Evaluation.Answers
import RagProject.Lib.Interleaving
import RagProject.Lib.Table

/-! The handling of a failing answer touches no other run, as long as every look-up of the latest
run of a request id finds the run of the call that asks. -/
namespace RagProject.Evaluation
open Python Jobs Rag Interleaving

section LatestRun
variable {t : RunTables}

instance : Std.Total laterRun where
  total a b := by
    simp only [laterRun, Time]
    omega

instance : IsTrans StandaloneRun laterRun where
  trans a b c := by
    simp only [laterRun, Time]
    omega

/-- `own` is strictly newer in the order of the look-up. -/
def Newer (own r : StandaloneRun) : Prop :=
  r.createdAt < own.createdAt ∨ r.createdAt = own.createdAt ∧ r.retrievalRunId < own.retrievalRunId

/-- The look-up of a call has its own run as the newest of its request id, or no run at all when
the call has created none. -/
def OwnNewest (t : RunTables) (requestId : Option String) : Option Nat → Prop
  | none => ∀ r ∈ t.runs, r.requestId = none ∨ r.requestId ≠ requestId
  | some runId => requestId ≠ none ∧ ∃ own ∈ t.runs, own.retrievalRunId = runId ∧
      ∀ r ∈ t.runs, r.requestId = requestId → r = own ∨ Newer own r

theorem latest_none {requestId : String}
    (none : latestRetrievalRunId t (some requestId) = none) :
    ∀ r ∈ t.runs, r.requestId ≠ some requestId := by
  intro r member same
  have hit : r ∈ t.runs.filter (·.requestId == some requestId) :=
    List.mem_filter.mpr ⟨member, by simp [same]⟩
  have there := Table.first_isSome laterRun hit
  simp only [latestRetrievalRunId, Option.map_eq_none_iff] at none
  rw [none] at there
  cases there

theorem latest_some {requestId : String} {runId : Nat}
    (found : latestRetrievalRunId t (some requestId) = some runId) :
    ∃ first ∈ t.runs, first.requestId = some requestId ∧ first.retrievalRunId = runId ∧
      ∀ r ∈ t.runs, r.requestId = some requestId → r = first ∨ laterRun first r := by
  simp only [latestRetrievalRunId, Option.map_eq_some_iff] at found
  obtain ⟨first, head, same⟩ := found
  obtain ⟨member, before⟩ := Table.first_of_sorted head
  obtain ⟨member, request⟩ := List.mem_filter.mp member
  refine ⟨first, member, by simpa using request, same, ?_⟩
  intro r there request'
  exact before r (List.mem_filter.mpr ⟨there, by simp [request']⟩)

/-- The condition is what the look-up needs, no more and no less. -/
theorem latest_own_iff (distinct : (t.runs.map fun r => r.retrievalRunId).Nodup)
    {requestId : Option String} {created : Option Nat}
    (own : ∀ runId, created = some runId → ∃ r ∈ t.runs, r.retrievalRunId = runId ∧
      r.requestId = requestId) :
    latestRetrievalRunId t requestId = created ↔ OwnNewest t requestId created := by
  cases created with
  | none =>
    cases requestId with
    | none =>
      simp only [latestRetrievalRunId, true_iff]
      intro r _
      exact (em (r.requestId = none)).imp id id
    | some requestId =>
      constructor
      · intro none r member
        exact .inr (latest_none none r member)
      · intro absent
        cases found : latestRetrievalRunId t (some requestId) with
        | none => rfl
        | some runId =>
          obtain ⟨first, member, request, _, _⟩ := latest_some found
          rcases absent first member with h | h
          · rw [request] at h
            cases h
          · exact absurd request h
  | some runId =>
    obtain ⟨mine, member, same, request⟩ := own runId rfl
    cases requestId with
    | none => simp [latestRetrievalRunId, OwnNewest]
    | some requestId =>
      constructor
      · intro found
        obtain ⟨first, there, _, first_id, before⟩ := latest_some found
        refine ⟨by simp, first, there, first_id, ?_⟩
        intro r other request'
        rcases before r other request' with h | h
        · exact .inl h
        · by_cases same_id : r.retrievalRunId = first.retrievalRunId
          · exact .inl (Table.unique distinct other there same_id)
          · right
            simp only [laterRun, Time] at h
            simp only [Newer, Time]
            omega
      · rintro ⟨_, newest, there, newest_id, before⟩
        cases found : latestRetrievalRunId t (some requestId) with
        | none => exact absurd request (latest_none found mine member)
        | some other =>
          obtain ⟨first, present, request', first_id, later⟩ := latest_some found
          have mine_newest := Table.unique distinct member there (same.trans newest_id.symm)
          rcases before first present request' with h | h
          · rw [← first_id, h, newest_id]
          · rcases later mine member request with h' | h'
            · rw [← first_id, ← h', same]
            · rw [mine_newest] at h'
              simp only [laterRun, Time] at h'
              simp only [Newer, Time] at h
              omega

end LatestRun

section Steps
variable {s s' : AnswerSystem}

def runKey (r : StandaloneRun) : Nat × Option String := (r.retrievalRunId, r.requestId)

/-- A transaction that writes no other run than `own`. -/
structure Writes (own : Option Nat) (runs runs' : List StandaloneRun) : Prop where
  distinct : (runs.map fun r => r.retrievalRunId).Nodup → (runs'.map fun r => r.retrievalRunId).Nodup
  keys : ∀ r ∈ runs, ∃ r' ∈ runs', runKey r' = runKey r
  others : ∀ r ∈ runs, own ≠ some r.retrievalRunId → r ∈ runs'

theorem Writes.refl (own : Option Nat) (runs : List StandaloneRun) : Writes own runs runs :=
  ⟨id, fun r member => ⟨r, member, rfl⟩, fun _ member _ => member⟩

/-- The updates of a run keep its id. -/
def KeepsId (values : RetrievalRun → RetrievalRun) : Prop :=
  ∀ r, (values r).retrievalRunId = r.retrievalRunId

theorem writes_update {t : RunTables} {own : Option Nat} {runId : Nat}
    {values : RetrievalRun → RetrievalRun} (keeps : KeepsId values) (mine : own = some runId) :
    Writes own t.runs (updateStandaloneRun t runId values).runs := by
  have key (r : StandaloneRun) : runKey (if r.retrievalRunId = runId then
      { r with toRetrievalRun := values r.toRetrievalRun } else r) = runKey r := by
    unfold runKey
    split <;> simp [keeps r.toRetrievalRun]
  constructor
  · intro distinct
    have ids : ((updateStandaloneRun t runId values).runs.map fun r => r.retrievalRunId) =
        t.runs.map fun r => r.retrievalRunId := by
      unfold updateStandaloneRun
      rw [List.map_map]
      exact List.map_congr_left fun r _ => congrArg Prod.fst (key r)
    rw [ids]
    exact distinct
  · intro r member
    exact ⟨_, List.mem_map_of_mem member, key r⟩
  · intro r member other
    have miss : r.retrievalRunId ≠ runId := by
      intro same
      exact other (mine.trans (congrArg some same.symm))
    exact List.mem_map.mpr ⟨r, member, if_neg miss⟩

theorem writes_create {runs : List StandaloneRun} {own : Option Nat} {run : StandaloneRun}
    (fresh : ∀ r ∈ runs, r.retrievalRunId ≠ run.retrievalRunId) : Writes own runs (runs ++ [run]) := by
  constructor
  · intro distinct
    exact Table.append_distinct distinct fresh
  · intro r member
    exact ⟨r, List.mem_append_left _ member, rfl⟩
  · intro r member _
    exact List.mem_append_left _ member

theorem markFailed_keepsId (errorCode : String) (now : Time) : KeepsId (markFailed errorCode now) :=
  fun _ => rfl

/-- What a call has found is its own run. -/
def PhaseOwn (created : Option Nat) : AnswerPhase → Prop
  | .marking _ found => found = created
  | .done result => result.retrievalRunId = created
  | _ => True

structure CallOk (runs : List StandaloneRun) (call : AnswerCall) : Prop where
  stored : ∀ runId, call.createdRun = some runId →
    ∃ r ∈ runs, runKey r = (runId, call.requestId)
  own : PhaseOwn call.createdRun call.phase

theorem CallOk.keep {runs runs' : List StandaloneRun} {own : Option Nat} {call : AnswerCall}
    (ok : CallOk runs call) (writes : Writes own runs runs') : CallOk runs' call := by
  refine ⟨?_, ok.own⟩
  intro runId created
  obtain ⟨r, member, key⟩ := ok.stored runId created
  obtain ⟨r', member', same⟩ := writes.keys r member
  exact ⟨r', member', same.trans key⟩

/-- Every look-up of a failing call has its own run as the newest one of its request id. -/
def LooksUpOwn (s : AnswerSystem) : AnswerAction → Prop
  | .event callId .lookup | .event callId .readLatest =>
    ∀ call, s.calls callId = some call → OwnNewest s.tables call.requestId call.createdRun
  | _ => True

/-- What one step of a call does. -/
structure AnswerMove (s : AnswerSystem) (callId : Nat) (call : AnswerCall) (s' : AnswerSystem)
    (call' : AnswerCall) : Prop where
  calls : s'.calls = fun id => if id = callId then some call' else s.calls id
  writes : Writes call.createdRun s.tables.runs s'.tables.runs
  ok : CallOk s'.tables.runs call'
  created : call'.createdRun = call.createdRun ∨ call.createdRun = none ∧ ∃ runId,
    call'.createdRun = some runId ∧ ∀ r ∈ s.tables.runs, r.retrievalRunId ≠ runId
  unfinished : ∀ result, call.phase ≠ .done result

def Moved (s : AnswerSystem) (callId : Nat) (call : AnswerCall) (s' : AnswerSystem) : Prop :=
  ∃ call', AnswerMove s callId call s' call'

section Moves
variable {callId : Nat} {call : AnswerCall} {phase phase' : AnswerPhase} {u : AnswerSystem}

theorem Moved.write (ok : CallOk s.tables.runs call) (here : call.phase = phase)
    (unfinished : ∀ result, phase ≠ .done result) (own : PhaseOwn call.createdRun phase')
    (calls : u.calls = s.calls) (writes : Writes call.createdRun s.tables.runs u.tables.runs) :
    Moved s callId call (u.setCall callId { call with phase := phase' }) := by
  refine ⟨{ call with phase := phase' }, ?_, writes, ⟨?_, own⟩, .inl rfl, ?_⟩
  · simp only [AnswerSystem.setCall, calls]
  · exact (ok.keep writes).stored
  · intro result
    rw [here]
    exact unfinished result

theorem Moved.stay (ok : CallOk s.tables.runs call) (here : call.phase = phase)
    (unfinished : ∀ result, phase ≠ .done result) (own : PhaseOwn call.createdRun phase') :
    Moved s callId call (s.setCall callId { call with phase := phase' }) :=
  .write ok here unfinished own rfl (.refl _ _)

end Moves

theorem answer_moves (distinct : (s.tables.runs.map fun r => r.retrievalRunId).Nodup)
    {callId : Nat} {call : AnswerCall} {event : AnswerEvent} (found : s.calls callId = some call)
    (ok : CallOk s.tables.runs call) (looks : LooksUpOwn s (.event callId event))
    (taken : s.advance callId call event = some s') : Moved s callId call s' := by
  have latest (own : OwnNewest s.tables call.requestId call.createdRun) :
      latestRetrievalRunId s.tables call.requestId = call.createdRun := by
    refine (latest_own_iff distinct ?_).mpr own
    intro runId created
    obtain ⟨r, member, key⟩ := ok.stored runId created
    exact ⟨r, member, congrArg Prod.fst key, congrArg Prod.snd key⟩
  unfold AnswerSystem.advance at taken
  dsimp only at taken
  split at taken
  · -- reject
    rename_i here _
    split at taken <;> cases taken
    exact .stay ok here (fun _ h => nomatch h) trivial
  · -- create
    rename_i runId now createdAt here none
    split at taken <;> cases taken
    rename_i free
    have fresh : ∀ r ∈ s.tables.runs, r.retrievalRunId ≠ runId := by
      intro r member same
      exact free (List.any_eq_true.mpr ⟨r, member, by simp [same]⟩)
    refine ⟨_, rfl, writes_create fresh, ⟨?_, trivial⟩, .inr ⟨none, runId, rfl, fresh⟩, ?_⟩
    · intro runId' created
      cases created
      exact ⟨_, List.mem_append_right _ List.mem_cons_self, rfl⟩
    · intro result
      rw [here]
      exact fun h => nomatch h
  · -- an error before the run
    rename_i here _
    cases taken
    exact .stay ok here (fun _ h => nomatch h) trivial
  · -- the search fails
    rename_i error now here mine
    have writes : Writes _ s.tables.runs _ := writes_update (markFailed_keepsId error.code now) mine
    split at taken <;> cases taken
    · exact .write ok here (fun _ h => nomatch h) mine.symm rfl writes
    · exact .write ok here (fun _ h => nomatch h) trivial rfl writes
  · -- the search raises
    rename_i here mine
    cases taken
    exact .write ok here (fun _ h => nomatch h) trivial rfl (writes_update (fun _ => rfl) mine)
  · -- search
    rename_i here mine
    split at taken <;> cases taken
    · exact .stay ok here (fun _ h => nomatch h) trivial
    · exact .write ok here (fun _ h => nomatch h) trivial rfl (writes_update (fun _ => rfl) mine)
  · -- no context
    rename_i here mine
    cases taken
    exact .write ok here (fun _ h => nomatch h) mine.symm rfl (writes_update (fun _ => rfl) mine)
  · -- provider skipped
    rename_i here mine
    split at taken <;> cases taken
    exact .stay ok here (fun _ h => nomatch h) mine.symm
  · -- abstain
    rename_i here mine
    cases taken
    exact .write ok here (fun _ h => nomatch h) mine.symm rfl (writes_update (fun _ => rfl) mine)
  · -- answer
    rename_i runId answerText citations scores now here mine
    split at taken <;> cases taken
    exact .write ok here (fun _ h => nomatch h) trivial rfl
      (writes_update (t := s.tables) (fun _ => rfl) mine)
  · -- the answer fails
    rename_i error now here mine
    cases error
    all_goals
      simp only [reduceCtorEq, if_false, if_true] at taken
      split at taken <;> cases taken
    · exact .write ok here (fun _ h => nomatch h) mine.symm rfl (writes_update (fun _ => rfl) mine)
    · exact .stay ok here (fun _ h => nomatch h) trivial
    · exact .write ok here (fun _ h => nomatch h) mine.symm rfl (writes_update (fun _ => rfl) mine)
    · exact .stay ok here (fun _ h => nomatch h) trivial
    · exact .write ok here (fun _ h => nomatch h) trivial rfl (writes_update (fun _ => rfl) mine)
    · exact .stay ok here (fun _ h => nomatch h) trivial
  · -- respond
    rename_i here mine
    cases taken
    exact .stay ok here (fun _ h => nomatch h) mine.symm
  · -- after the commit
    rename_i here mine
    split at taken <;> cases taken
    · exact .write ok here (fun _ h => nomatch h) trivial rfl (writes_update (fun _ => rfl) mine)
    · exact .stay ok here (fun _ h => nomatch h) trivial
  · -- look-up
    rename_i here
    cases taken
    exact .stay ok here (fun _ h => nomatch h) (latest (looks call found))
  · -- nothing was found
    rename_i here
    cases taken
    exact .stay ok here (fun _ h => nomatch h) trivial
  · -- mark what was found
    rename_i target now here
    cases taken
    have own := ok.own
    rw [here] at own
    exact .write ok here (fun _ h => nomatch h) trivial rfl (writes_update (fun _ => rfl) own.symm)
  · -- the last look-up
    rename_i here
    cases taken
    exact .stay ok here (fun _ h => nomatch h) (latest (looks call found))
  iterate 3
    · rename_i here
      cases taken
      exact .stay ok here (fun _ h => nomatch h) trivial
  · cases taken

structure AnswerInvariant (s : AnswerSystem) : Prop where
  distinct : (s.tables.runs.map fun r => r.retrievalRunId).Nodup
  calls : ∀ id call, s.calls id = some call → CallOk s.tables.runs call
  owners : ∀ id id' call call' runId, s.calls id = some call → s.calls id' = some call' →
    call.createdRun = some runId → call'.createdRun = some runId → id = id'

theorem AnswerMove.other {callId id : Nat} {call call' : AnswerCall}
    (move : AnswerMove s callId call s' call') (ne : id ≠ callId) : s'.calls id = s.calls id := by
  rw [move.calls]
  exact if_neg ne

theorem AnswerMove.self {callId : Nat} {call call' : AnswerCall}
    (move : AnswerMove s callId call s' call') : s'.calls callId = some call' := by
  rw [move.calls]
  exact if_pos rfl

/-- No other call has the run that a call has after its step. -/
theorem AnswerInvariant.apart (inv : AnswerInvariant s) {callId id : Nat}
    {call call' other : AnswerCall} (found : s.calls callId = some call)
    (move : AnswerMove s callId call s' call') (ne : id ≠ callId) (there : s.calls id = some other)
    {runId : Nat} (mine : call'.createdRun = some runId) : other.createdRun ≠ some runId := by
  intro theirs
  rcases move.created with same | ⟨_, runId', created, fresh⟩
  · exact ne (inv.owners id callId other call runId there found theirs (same ▸ mine))
  · obtain ⟨r, member, key⟩ := (inv.calls id other there).stored runId theirs
    rw [created] at mine
    cases mine
    exact fresh r member (congrArg Prod.fst key)

theorem AnswerInvariant.event (inv : AnswerInvariant s) {callId : Nat} {call call' : AnswerCall}
    (found : s.calls callId = some call) (move : AnswerMove s callId call s' call') :
    AnswerInvariant s' := by
  refine ⟨move.writes.distinct inv.distinct, ?_, ?_⟩
  · intro id other there
    by_cases mine : id = callId
    · subst mine
      rw [move.self] at there
      cases there
      exact move.ok
    · rw [move.other mine] at there
      exact (inv.calls id other there).keep move.writes
  · intro id id' one two runId here there created created'
    by_cases mine : id = callId
    · by_cases mine' : id' = callId
      · exact mine.trans mine'.symm
      · rw [mine, move.self] at here
        cases here
        rw [move.other mine'] at there
        exact absurd created' (inv.apart found move mine' there created)
    · rw [move.other mine] at here
      by_cases mine' : id' = callId
      · rw [mine', move.self] at there
        cases there
        exact absurd created (inv.apart found move mine here created')
      · rw [move.other mine'] at there
        exact inv.owners id id' one two runId here there created created'

theorem event_cases {callId : Nat} {event : AnswerEvent}
    (taken : s.step (.event callId event) = some s') :
    ∃ call, s.calls callId = some call ∧ s.advance callId call event = some s' :=
  Option.bind_eq_some_iff.mp taken

theorem invariant_step (inv : AnswerInvariant s) {action : AnswerAction}
    (looks : LooksUpOwn s action) (taken : s.step action = some s') : AnswerInvariant s' := by
  cases action with
  | call callId requestId remembersRun =>
    simp only [AnswerSystem.step] at taken
    split at taken <;> cases taken
    refine ⟨inv.distinct, ?_, ?_⟩
    · intro id other there
      simp only [AnswerSystem.setCall] at there
      split at there
      · cases there
        exact ⟨(fun _ h => nomatch h), trivial⟩
      · exact inv.calls id other there
    · intro id id' one two runId here there created created'
      simp only [AnswerSystem.setCall] at here there
      split at here
      · cases here
        cases created
      · split at there
        · cases there
          cases created'
        · exact inv.owners id id' one two runId here there created created'
  | event callId event =>
    obtain ⟨call, found, advanced⟩ := event_cases taken
    obtain ⟨call', move⟩ := answer_moves inv.distinct found (inv.calls callId call found) looks advanced
    exact inv.event found move

theorem invariant_run {actions : List AnswerAction} (inv : AnswerInvariant s)
    (run : Run AnswerSystem.step LooksUpOwn s actions s') : AnswerInvariant s' :=
  run.preserves (fun _ _ _ inv looks taken => invariant_step inv looks taken) inv

/-- A step of a call leaves every row alone that the call has not created. -/
theorem others_step (inv : AnswerInvariant s) {callId : Nat} {call : AnswerCall}
    {event : AnswerEvent} (found : s.calls callId = some call)
    (looks : LooksUpOwn s (.event callId event)) (taken : s.step (.event callId event) = some s') :
    ∀ r ∈ s.tables.runs, call.createdRun ≠ some r.retrievalRunId → r ∈ s'.tables.runs := by
  obtain ⟨_, found', advanced⟩ := event_cases taken
  rw [found] at found'
  cases found'
  obtain ⟨call', move⟩ := answer_moves inv.distinct found (inv.calls callId call found) looks advanced
  exact move.writes.others

/-- The call has ended and its run is the row `r`. -/
structure Closed (s : AnswerSystem) (callId : Nat) (call : AnswerCall) (r : StandaloneRun) : Prop where
  found : s.calls callId = some call
  ended : ∃ result, call.phase = .done result
  created : call.createdRun = some r.retrievalRunId
  stored : r ∈ s.tables.runs

theorem closed_step (inv : AnswerInvariant s) {callId : Nat} {call : AnswerCall} {r : StandaloneRun}
    (closed : Closed s callId call r) {action : AnswerAction} (looks : LooksUpOwn s action)
    (taken : s.step action = some s') : Closed s' callId call r := by
  obtain ⟨found, ⟨result, ended⟩, created, stored⟩ := closed
  cases action with
  | call id requestId remembersRun =>
    simp only [AnswerSystem.step] at taken
    split at taken <;> cases taken
    rename_i free
    have other : callId ≠ id := by
      rintro rfl
      rw [found] at free
      exact free rfl
    exact ⟨(if_neg other).trans found, ⟨result, ended⟩, created, stored⟩
  | event id event =>
    obtain ⟨mover, mine, advanced⟩ := event_cases taken
    obtain ⟨call', move⟩ := answer_moves inv.distinct mine (inv.calls id mover mine) looks advanced
    have other : callId ≠ id := by
      rintro rfl
      rw [found] at mine
      cases mine
      exact move.unfinished result ended
    refine ⟨(move.other other).trans found, ⟨result, ended⟩, created, ?_⟩
    apply move.writes.others r stored
    intro theirs
    exact other (inv.owners callId id call mover _ found mine created theirs)

/-- The run of a call that has ended is never written again. -/
theorem closed_run {actions : List AnswerAction} (inv : AnswerInvariant s) {callId : Nat}
    {call : AnswerCall} {r : StandaloneRun} (closed : Closed s callId call r)
    (run : Run AnswerSystem.step LooksUpOwn s actions s') : r ∈ s'.tables.runs := by
  have one : ∀ u action v, AnswerInvariant u ∧ Closed u callId call r → LooksUpOwn u action →
      u.step action = some v → AnswerInvariant v ∧ Closed v callId call r := by
    rintro u action v ⟨invU, closedU⟩ looks taken
    exact ⟨invariant_step invU looks taken, closed_step invU closedU looks taken⟩
  have kept := run.preserves one ⟨inv, closed⟩
  exact kept.2.stored

/-- A look-up that breaks the condition finds another run. -/
theorem lookup_misses (inv : AnswerInvariant s) {callId : Nat} {call : AnswerCall}
    (found : s.calls callId = some call)
    (misses : ¬ OwnNewest s.tables call.requestId call.createdRun) :
    latestRetrievalRunId s.tables call.requestId ≠ call.createdRun := by
  intro hit
  refine misses ((latest_own_iff inv.distinct ?_).mp hit)
  intro runId created
  obtain ⟨r, member, key⟩ := (inv.calls callId call found).stored runId created
  exact ⟨r, member, congrArg Prod.fst key, congrArg Prod.snd key⟩

/-- No call is in flight. -/
structure AnswerStart (s : AnswerSystem) : Prop where
  distinct : (s.tables.runs.map fun r => r.retrievalRunId).Nodup
  idle : ∀ id, s.calls id = none

theorem AnswerStart.invariant (initial : AnswerStart s) : AnswerInvariant s := by
  refine ⟨initial.distinct, ?_, ?_⟩
  · intro id call found
    rw [initial.idle id] at found
    cases found
  · intro id id' call call' runId found
    rw [initial.idle id] at found
    cases found

/-- What holds of the calls and the runs between them. -/
structure Isolated (s : AnswerSystem) : Prop where
  /-- A step of a call writes no run but the one that the call created. -/
  others : ∀ callId call event t, s.calls callId = some call →
    LooksUpOwn s (.event callId event) → s.step (.event callId event) = some t →
    ∀ r ∈ s.tables.runs, call.createdRun ≠ some r.retrievalRunId → r ∈ t.tables.runs
  /-- A result names the run that its call created. -/
  result : ∀ callId call result, s.calls callId = some call → call.phase = .done result →
    result.retrievalRunId = call.createdRun
  /-- The run of a call with a result is final. -/
  final : ∀ callId call result r, s.calls callId = some call → call.phase = .done result →
    call.createdRun = some r.retrievalRunId → r ∈ s.tables.runs →
    ∀ more t, Run AnswerSystem.step LooksUpOwn s more t → r ∈ t.tables.runs

theorem AnswerInvariant.isolated (inv : AnswerInvariant s) : Isolated s := by
  constructor
  · intro callId call event t found looks taken
    exact others_step inv found looks taken
  · intro callId call result found ended
    have own := (inv.calls callId call found).own
    rw [ended] at own
    exact own
  · intro callId call result r found ended created stored more t further
    exact closed_run inv ⟨found, ⟨result, ended⟩, created, stored⟩ further

/-- In every interleaving whose look-ups find the run of their own call, the calls are isolated.
A look-up that does not is about to mark, or to report, another run. -/
theorem failing_answer_isolated (start : AnswerSystem) (initial : AnswerStart start)
    (actions : List AnswerAction) (s : AnswerSystem)
    (run : Run AnswerSystem.step LooksUpOwn start actions s) :
    Isolated s ∧ ∀ callId call errorCode t, s.calls callId = some call →
      ¬ OwnNewest s.tables call.requestId call.createdRun →
      (call.phase = .handling errorCode → s.step (.event callId .lookup) = some t →
        ∃ found, t.calls callId = some { call with phase := .marking errorCode found } ∧
          found ≠ call.createdRun) ∧
      (call.phase = .returning errorCode → s.step (.event callId .readLatest) = some t →
        ∃ result, t.calls callId = some { call with phase := .done result } ∧
          result.retrievalRunId ≠ call.createdRun) := by
  have inv := invariant_run initial.invariant run
  refine ⟨inv.isolated, ?_⟩
  intro callId call errorCode t found misses
  have other := lookup_misses inv found misses
  refine ⟨?_, ?_⟩
  all_goals
    intro here taken
    obtain ⟨_, found', advanced⟩ := event_cases taken
    rw [found] at found'
    cases found'
    simp only [AnswerSystem.advance, here] at advanced
    cases advanced
    exact ⟨_, if_pos rfl, other⟩

end Steps

section Witness

def noAnswers : AnswerSystem where
  tables := ⟨[], []⟩
  calls _ := none

theorem noAnswers_start : AnswerStart noAnswers := ⟨List.nodup_nil, fun _ => rfl⟩

def mcpRequestId : Option String := some "mcp-rag-ask"

/-- A search that succeeds, with the run of the call. -/
def searchSteps (callId runId : Nat) (now : Time) : List AnswerAction :=
  [.call callId mcpRequestId false, .event callId (.create runId now now),
   .event callId (.search [] (some 1) now)]

/-- The generation fails, and the failure is handled. -/
def failureSteps (callId : Nat) (now : Time) : List AnswerAction :=
  [.event callId (.raise .answerGeneration now), .event callId .lookup,
   .event callId (.markFailed now), .event callId .readLatest]

def newestTest (t : RunTables) (requestId : Option String) : Option Nat → Bool
  | none => t.runs.all fun r => r.requestId == none || r.requestId != requestId
  | some runId => requestId.isSome && t.runs.any fun own => own.retrievalRunId == runId &&
      t.runs.all fun r => r.requestId != requestId || r == own || decide (r.createdAt < own.createdAt)

def lookupTest (s : AnswerSystem) : AnswerAction → Bool
  | .event callId .lookup | .event callId .readLatest =>
    (s.calls callId).all fun call => newestTest s.tables call.requestId call.createdRun
  | _ => true

theorem newest_of_test {t : RunTables} {requestId : Option String} {created : Option Nat}
    (passed : newestTest t requestId created = true) : OwnNewest t requestId created := by
  cases created with
  | none =>
    intro r member
    have test := List.all_eq_true.mp passed r member
    simpa using test
  | some runId =>
    obtain ⟨asked, found⟩ := Bool.and_eq_true_iff.mp passed
    obtain ⟨own, member, test⟩ := List.any_eq_true.mp found
    obtain ⟨same, newest⟩ := Bool.and_eq_true_iff.mp test
    refine ⟨Option.isSome_iff_ne_none.mp asked, own, member, beq_iff_eq.mp same, ?_⟩
    intro r there request
    have older := List.all_eq_true.mp newest r there
    simp only [request, bne_self_eq_false, Bool.false_or, Bool.or_eq_true, beq_iff_eq,
      decide_eq_true_eq] at older
    exact older.imp id .inl

theorem lookup_of_test (s : AnswerSystem) (action : AnswerAction)
    (passed : lookupTest s action = true) : LooksUpOwn s action := by
  unfold lookupTest at passed
  unfold LooksUpOwn
  split
  · intro call found
    simp only [found, Option.all_some] at passed
    exact newest_of_test passed
  · intro call found
    simp only [found, Option.all_some] at passed
    exact newest_of_test passed
  · trivial

theorem single_failure_isolated :
    ∃ s, exec (guarded AnswerSystem.step lookupTest) noAnswers
        (searchSteps 1 1 10 ++ failureSteps 1 11) = some s ∧ Isolated s := by
  have completes : (exec (guarded AnswerSystem.step lookupTest) noAnswers
      (searchSteps 1 1 10 ++ failureSteps 1 11)).isSome := by
    decide +kernel
  obtain ⟨s, done⟩ := Option.isSome_iff_exists.mp completes
  exact ⟨s, done, (failing_answer_isolated noAnswers noAnswers_start _ s
    (run_of_guarded lookup_of_test done)).1⟩

/-- Two calls with the request id of the tool. The second one has committed its answer when the
generation of the first one fails: the first marks the run of the second as failed and returns it. -/
theorem failure_marks_other_run :
    ((exec AnswerSystem.step noAnswers (searchSteps 1 1 10 ++ searchSteps 2 2 11 ++
        [.event 2 (.answer "Ten [1]." [] ⟨[], some 1, 1, 1, .high⟩ 12)])).any fun s =>
      s.tables.runs.map (·.status) == [.succeeded, .succeeded]) ∧
    (exec AnswerSystem.step noAnswers (searchSteps 1 1 10 ++ searchSteps 2 2 11 ++
        [.event 2 (.answer "Ten [1]." [] ⟨[], some 1, 1, 1, .high⟩ 12)] ++ failureSteps 1 13)).any
      fun s => s.tables.runs.map (·.status) == [.succeeded, .failed] &&
        (s.calls 1).map (·.createdRun) == some (some 1) &&
        (s.calls 1).map (·.phase) ==
          some (.done (failedEvaluationResult (some 2) "generation_failed")) := by
  decide +kernel

end Witness

end RagProject.Evaluation
