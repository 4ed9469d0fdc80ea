import RagProject.Chat.Sessions

/-! Archived chat sessions are read-only, as long as no ask request that was admitted before the
archive commits its answer after it. The answer is committed without another check. -/
namespace RagProject.Chat
open Python Jobs Rag Interleaving

section AskSteps
variable {a a' : AskSystem}

/-- The phases that still have to insert the question. -/
def isEntry : AskPhase → Bool
  | .start | .create => true
  | _ => false

/-- What is pending in a failing request is discarded by its handler. -/
def PendingRolledBack : AskPhase → Prop
  | .handling _ handler (some _) _ => handler.rollback = true
  | _ => True

/-- What one event does to its request and to the messages. -/
structure AskMove (a : AskSystem) (requestId : Nat) (event : AskEvent) (a' : AskSystem)
    (payload : RagAskRequest) (phase phase' : AskPhase) : Prop where
  found : a.requests requestId = some ⟨payload, phase⟩
  requests : a'.requests = fun id => if id = requestId then some ⟨payload, phase'⟩ else a.requests id
  entry : isEntry phase' = true → phase = .start
  created : ∀ user runId, phase' = .created user runId → phase = .create
  rolledBack : PendingRolledBack phase → PendingRolledBack phase'
  messages : PendingRolledBack phase → phase ≠ .create → (∀ scores now, event ≠ .commit scores now) →
    a'.tables.messages = a.tables.messages

/-- A phase that a request reaches without an insertion ahead of it or just behind it. -/
structure Plain (phase : AskPhase) : Prop where
  entry : isEntry phase = false
  created : ∀ user runId, phase ≠ .created user runId
  rolledBack : PendingRolledBack phase

theorem plain_done (outcome : AskOutcome) : Plain (.done outcome) :=
  ⟨rfl, (fun _ _ h => nomatch h), trivial⟩

theorem plain_handling (runId : Nat) (handler : Handler) (inTry : Bool) :
    Plain (.handling runId handler none inTry) :=
  ⟨rfl, (fun _ _ h => nomatch h), trivial⟩

theorem outcomeOf_plain (r : Option RagAskResponse) : Plain (AskSystem.outcomeOf r) := by
  cases r <;> exact plain_done _

theorem classify_plain (payload : RagAskRequest) (existing : ChatMessage) :
    Plain (a.classifyDuplicate payload existing) := by
  unfold AskSystem.classifyDuplicate
  split
  · exact plain_done _
  · split
    · exact plain_done _
    · split
      · exact plain_done _
      · exact plain_done _
      · exact ⟨rfl, (fun _ _ h => nomatch h), trivial⟩

def Moves (a : AskSystem) (requestId : Nat) (event : AskEvent) (a' : AskSystem) : Prop :=
  ∃ payload phase phase', AskMove a requestId event a' payload phase phase'

section Moves
variable {requestId : Nat} {event : AskEvent} {payload : RagAskRequest} {phase phase' : AskPhase}

theorem Moves.set (found : a.requests requestId = some ⟨payload, phase⟩)
    (requests : a'.requests = (a.setPhase requestId payload phase').requests)
    (entry : isEntry phase' = true → phase = .start)
    (created : ∀ user runId, phase' = .created user runId → phase = .create)
    (rolledBack : PendingRolledBack phase → PendingRolledBack phase')
    (messages : PendingRolledBack phase → phase ≠ .create →
      (∀ scores now, event ≠ .commit scores now) → a'.tables.messages = a.tables.messages) :
    Moves a requestId event a' :=
  ⟨payload, phase, phase', found, requests, entry, created, rolledBack, messages⟩

/-- A move that neither writes messages nor leads to the insertion of the question. -/
theorem Moves.quiet (found : a.requests requestId = some ⟨payload, phase⟩)
    (requests : a'.requests = (a.setPhase requestId payload phase').requests)
    (tables : a'.tables = a.tables) (plain : Plain phase') :
    Moves a requestId event a' := by
  apply Moves.set found requests
  · intro entry
    rw [plain.entry] at entry
    cases entry
  · intro user runId same
    exact absurd same (plain.created user runId)
  · intro _
    exact plain.rolledBack
  · intro _ _ _
    rw [tables]

end Moves

/-- The handler writes the failed run, and nothing else once its rollback has dropped the answer. -/
theorem kept_messages {runId : Nat} {handler : Handler} {pending : Option Pending} {inTry : Bool}
    (rolledBack : PendingRolledBack (.handling runId handler pending inTry)) (t : AskTables) :
    (((if handler.rollback then none else pending).map fun p => p.write t).getD t).messages =
      t.messages := by
  cases pending with
  | none => simp
  | some p =>
    have dropped : handler.rollback = true := rolledBack
    simp [dropped]

theorem ask_moves {requestId : Nat} {event : AskEvent}
    (taken : a.step (.event requestId event) = some a') :
    Moves a requestId event a' := by
  simp only [AskSystem.step, Option.bind_eq_some_iff] at taken
  obtain ⟨⟨payload, phase⟩, found, taken⟩ := taken
  change a.advance requestId payload phase event = some a' at taken
  unfold AskSystem.advance at taken
  split at taken
  · -- start
    split at taken <;> cases taken
    · exact .quiet found rfl rfl ⟨rfl, (fun _ _ h => nomatch h), trivial⟩
    · exact .set found rfl (fun _ => rfl) (fun _ _ h => nomatch h) (fun _ => trivial)
        (fun _ _ _ => rfl)
  · -- create
    split at taken <;> cases taken
    · exact .set found rfl (fun h => nomatch h) (fun _ _ h => nomatch h) (fun _ => trivial)
        (fun _ _ _ => rfl)
    · exact .set found rfl (fun h => nomatch h) (fun _ _ _ => rfl) (fun _ => trivial)
        (fun _ ne => absurd rfl ne)
  · -- raced
    split at taken <;> cases taken
    · exact .quiet found rfl rfl ⟨rfl, (fun _ _ h => nomatch h), trivial⟩
    · exact .quiet found rfl rfl ⟨rfl, (fun _ _ h => nomatch h), trivial⟩
  · -- classify
    cases taken
    exact .quiet found rfl rfl (classify_plain _ _)
  · -- replay
    split at taken <;> cases taken
    · exact .quiet found rfl rfl ⟨rfl, (fun _ _ h => nomatch h), trivial⟩
    · exact .quiet found rfl rfl ⟨rfl, (fun _ _ h => nomatch h), trivial⟩
  · -- replayAnswer
    cases taken
    exact .quiet found rfl rfl (outcomeOf_plain _)
  · -- created
    cases taken
    exact .quiet found rfl rfl ⟨rfl, (fun _ _ h => nomatch h), trivial⟩
  · -- no context
    cases taken
    exact .quiet found rfl rfl ⟨rfl, (fun _ _ h => nomatch h), trivial⟩
  · -- answer
    split at taken <;> cases taken
    exact .quiet found rfl rfl ⟨rfl, (fun _ _ h => nomatch h), trivial⟩
  · -- commit
    split at taken <;> cases taken
    exact .set found rfl (fun h => nomatch h) (fun _ _ h => nomatch h) (fun _ => trivial)
      (fun _ _ other => absurd rfl (other _ _))
  · -- respond
    split at taken <;> cases taken
    · exact .quiet found rfl rfl ⟨rfl, (fun _ _ h => nomatch h), trivial⟩
    · exact .quiet found rfl rfl ⟨rfl, (fun _ _ h => nomatch h), trivial⟩
  · -- mark failed
    rename_i runId handler pending inTry now
    cases there : getRun a.tables runId <;> simp only [there] at taken <;> cases taken
    · exact .quiet found rfl rfl ⟨rfl, (fun _ _ h => nomatch h), trivial⟩
    · exact .set found rfl (fun h => nomatch h) (fun _ _ h => nomatch h) (fun _ => trivial)
        (fun rolledBack _ _ => kept_messages rolledBack _)
  · -- the pipeline raises
    cases taken
    exact .quiet found rfl rfl ⟨rfl, (fun _ _ h => nomatch h), trivial⟩
  · -- an answer is pending
    split at taken <;> cases taken
    rename_i rollback
    exact .quiet found rfl rfl ⟨rfl, (fun _ _ h => nomatch h), rollback⟩
  · -- after the commit
    cases taken
    exact .quiet found rfl rfl ⟨rfl, (fun _ _ h => nomatch h), trivial⟩
  · -- the first handler raises
    rename_i pending _
    cases taken
    refine .set found rfl (fun h => nomatch h) (fun _ _ h => nomatch h) (fun _ => ?_)
      (fun _ _ _ => rfl)
    cases pending
    · trivial
    · exact rfl
  all_goals
    cases taken <;> exact .quiet found rfl rfl ⟨rfl, (fun _ _ h => nomatch h), trivial⟩

end AskSteps

section System
variable {s s' : ChatSystem}

/-- The row lock excludes an archive while a request still has to insert its question. -/
structure ChatInvariant (s : ChatSystem) : Prop where
  active : s.lock.isSome → s.rows.session.status = .active
  entry : ∀ id q, s.asks.requests id = some q → isEntry q.phase = true → s.lock = some id
  rolledBack : ∀ id q, s.asks.requests id = some q → PendingRolledBack q.phase

/-- The messages, the tags and the session are as they were. -/
structure Unchanged (s s' : ChatSystem) : Prop where
  messages : s'.asks.tables.messages = s.asks.tables.messages
  tags : s'.rows.tags = s.rows.tags
  session : s'.rows.session = s.rows.session

theorem Unchanged.refl (s : ChatSystem) : Unchanged s s := ⟨rfl, rfl, rfl⟩

theorem Unchanged.trans {t : ChatSystem} (first : Unchanged s s') (second : Unchanged s' t) :
    Unchanged s t :=
  ⟨second.messages.trans first.messages, second.tags.trans first.tags,
    second.session.trans first.session⟩

/-- No answer is committed into an archived session. -/
def AnswersWhileActive (s : ChatSystem) : ChatAction → Prop
  | .askEvent _ (.commit _ _) => s.rows.session.status = .active
  | _ => True

theorem not_archived {status : SessionStatus} (other : status ≠ .archived) : status = .active := by
  cases status
  · rfl
  · exact absurd rfl other

theorem writable_active {session : ChatSession} {now : Time}
    (ok : ensureSessionWritable session now = .ok ()) : session.status = .active := by
  unfold ensureSessionWritable at ok
  split at ok
  · cases ok
  · exact not_archived ‹_›

theorem not_writable {session : ChatSession} (archived : session.status = .archived) (now : Time) :
    ensureSessionWritable session now = .error .archivedSessionReadonly := by
  simp [ensureSessionWritable, archived]

theorem owned_session {rows : ChatRows} {userId chatSessionId : Nat} {session : ChatSession}
    (ok : getOwnedSession rows userId chatSessionId = .ok session) : session = rows.session := by
  unfold getOwnedSession at ok
  split at ok
  · exact (Except.ok.inj ok).symm
  · cases ok

theorem append_active {rows : ChatRows} {userId chatSessionId : Nat} {now : Time}
    {session : ChatSession}
    (ok : ensureSessionCanAppendMessages rows userId chatSessionId now = .ok session) :
    rows.session.status = .active := by
  unfold ensureSessionCanAppendMessages at ok
  cases owned : getOwnedSession rows userId chatSessionId with
  | error e => simp [owned, bind, Except.bind] at ok
  | ok found =>
    have same := owned_session owned
    subst same
    cases writable : ensureSessionWritable rows.session now with
    | error e => simp [owned, writable, bind, Except.bind] at ok
    | ok u => exact writable_active writable

/-- On an archived session every operation is refused or does nothing. -/
theorem perform_archived {rows rows' : ChatRows} (archived : rows.session.status = .archived)
    {userId chatSessionId : Nat} {now : Time} {operation : ChatOperation} {response : ChatResponse}
    (ok : perform rows userId chatSessionId now operation = .ok (response, rows')) : rows' = rows := by
  cases owned : getOwnedSession rows userId chatSessionId with
  | error e =>
    cases operation <;>
      simp [perform, archiveSession, updateSessionTitle, addTag, deleteTag, owned, bind,
        Except.bind] at ok
  | ok found =>
    have same := owned_session owned
    subst same
    have refused := not_writable archived now
    cases operation with
    | archiveSession =>
      simp only [perform, archiveSession, owned, archived, bind, Except.bind] at ok
      split at ok
      · cases ok
      · cases ok
        rfl
    | _ =>
      simp [perform, updateSessionTitle, addTag, deleteTag, owned, refused, bind, Except.bind] at ok

theorem inside_of_entry {phase : AskPhase} (entry : isEntry phase = true) :
    inFirstTransaction phase = true := by
  cases phase <;> first | rfl | cases entry

/-- The lock after a step of a request. -/
theorem advanceAsk_cases {id : Nat} {event : AskEvent} (taken : s.advanceAsk id event = some s') :
    ∃ a, s.asks.step (.event id event) = some a ∧ s'.asks = a ∧
      s'.lock = (if s.lock = some id ∧
        !((a.requests id).any fun q => inFirstTransaction q.phase) then none else s.lock) ∧
      (s'.rows = s.rows ∨ ∃ now, touchedAt event (a.requests id) = some now ∧
        s'.rows = touchSession s.rows now) := by
  unfold ChatSystem.advanceAsk at taken
  cases moved : s.asks.step (.event id event) with
  | none => simp [moved] at taken
  | some a =>
    simp only [moved] at taken
    refine ⟨a, rfl, ?_⟩
    cases touched : touchedAt event (a.requests id) with
    | none =>
      simp only [touched] at taken
      cases taken
      exact ⟨rfl, rfl, .inl rfl⟩
    | some now =>
      simp only [touched] at taken
      split at taken <;> cases taken
      exact ⟨rfl, rfl, .inr ⟨now, rfl, rfl⟩⟩

theorem invariant_event (inv : ChatInvariant s) {id : Nat} {event : AskEvent}
    (taken : s.advanceAsk id event = some s') : ChatInvariant s' := by
  obtain ⟨a, moved, asks, lock, rows⟩ := advanceAsk_cases taken
  obtain ⟨payload, phase, phase', move⟩ := ask_moves moved
  have status : s'.rows.session.status = s.rows.session.status := by
    obtain same | ⟨now, _, same⟩ := rows <;> rw [same]
    rfl
  constructor
  · intro held
    rw [status]
    apply inv.active
    rw [lock] at held
    split at held
    · cases held
    · exact held
  · intro id' q found entry
    rw [asks, move.requests] at found
    rw [lock, move.requests]
    by_cases mine : id' = id
    · -- The request still has its question to insert, so it stays in its first transaction.
      subst mine
      simp only [if_true, Option.some.injEq] at found
      subst found
      have before := move.entry entry
      have holds := inv.entry id' _ move.found (by rw [before]; rfl)
      simp [holds, inside_of_entry entry]
    · simp only [mine, if_false] at found
      have holds := inv.entry id' q found entry
      have other : s.lock ≠ some id := by
        rw [holds]
        intro same
        exact mine (Option.some.inj same)
      rw [if_neg fun both => other both.1]
      exact holds
  · intro id' q found
    rw [asks, move.requests] at found
    by_cases mine : id' = id
    · subst mine
      simp only [if_true, Option.some.injEq] at found
      subst found
      exact move.rolledBack (inv.rolledBack id' _ move.found)
    · simp only [mine, if_false] at found
      exact inv.rolledBack id' q found

theorem ask_entered {a : AskSystem} {id : Nat} {payload : RagAskRequest}
    (taken : s.asks.step (.ask id payload) = some a) : a = s.asks.setPhase id payload .start := by
  simp only [AskSystem.step] at taken
  split at taken <;> cases taken
  rfl

theorem invariant_ask (inv : ChatInvariant s) {id userId : Nat} {payload : RagAskRequest}
    {now : Time} (taken : s.step (.ask id userId payload now) = some s') : ChatInvariant s' := by
  simp only [ChatSystem.step] at taken
  split at taken
  · cases taken
  · rename_i free
    have idle : s.lock = none := by simpa using free
    obtain ⟨a, entered, rfl⟩ := Option.map_eq_some_iff.mp taken
    have others : ∀ id' q, s.asks.requests id' = some q → isEntry q.phase = true → False := by
      intro id' q found entry
      have holds := inv.entry id' q found entry
      rw [idle] at holds
      cases holds
    rw [ask_entered entered]
    cases admitted : ensureSessionCanAppendMessages s.rows userId payload.chatSessionId now with
    | ok session =>
      refine ⟨fun _ => append_active admitted, ?_, ?_⟩
      · intro id' q found entry
        by_cases mine : id' = id
        · rw [mine]
        · simp only [AskSystem.setPhase, mine, if_false] at found
          exact (others id' q found entry).elim
      · intro id' q found
        by_cases mine : id' = id
        · simp only [AskSystem.setPhase, mine, if_true] at found
          cases found
          trivial
        · simp only [AskSystem.setPhase, mine, if_false] at found
          exact inv.rolledBack id' q found
    | error e =>
      refine ⟨inv.active, ?_, ?_⟩
      · intro id' q found entry
        by_cases mine : id' = id
        · simp only [AskSystem.setPhase, mine, if_true] at found
          cases found
          cases entry
        · simp only [AskSystem.setPhase, mine, if_false] at found
          exact (others id' q found entry).elim
      · intro id' q found
        by_cases mine : id' = id
        · simp only [AskSystem.setPhase, mine, if_true] at found
          cases found
          trivial
        · simp only [AskSystem.setPhase, mine, if_false] at found
          exact inv.rolledBack id' q found

theorem invariant_step (inv : ChatInvariant s) {action : ChatAction}
    (taken : s.step action = some s') : ChatInvariant s' := by
  cases action with
  | operation userId chatSessionId operation now =>
    simp only [ChatSystem.step] at taken
    split at taken
    · cases taken
    · rename_i free
      have closed (rows : ChatRows) : ChatInvariant { s with rows := rows } :=
        ⟨fun held => absurd held free, inv.entry, inv.rolledBack⟩
      split at taken <;> cases taken
      · exact closed _
      · exact inv
  | ask id userId payload now => exact invariant_ask inv taken
  | askEvent id event => exact invariant_event inv taken

/-- One step on an archived session changes nothing, unless it commits an answer. -/
theorem unchanged_step (inv : ChatInvariant s) (archived : s.rows.session.status = .archived)
    {action : ChatAction} (ok : AnswersWhileActive s action) (taken : s.step action = some s') :
    Unchanged s s' := by
  have idle : s.lock = none := by
    cases held : s.lock with
    | none => rfl
    | some id =>
      have active := inv.active (by rw [held]; rfl)
      rw [archived] at active
      cases active
  cases action with
  | operation userId chatSessionId operation now =>
    simp only [ChatSystem.step] at taken
    split at taken
    · cases taken
    · split at taken <;> cases taken
      · rename_i performed
        rw [perform_archived archived performed]
        exact .refl s
      · exact .refl s
  | ask id userId payload now =>
    simp only [ChatSystem.step] at taken
    split at taken
    · cases taken
    · obtain ⟨a, entered, rfl⟩ := Option.map_eq_some_iff.mp taken
      rw [ask_entered entered]
      split <;> exact ⟨rfl, rfl, rfl⟩
  | askEvent id event =>
    obtain ⟨a, moved, asks, _, rows⟩ := advanceAsk_cases taken
    obtain ⟨payload, phase, phase', move⟩ := ask_moves moved
    -- A request that still has to insert its question would hold the lock.
    have inserted : phase ≠ .create := by
      intro create
      have holds := inv.entry id _ move.found (by rw [create]; rfl)
      rw [idle] at holds
      cases holds
    have answerless : ∀ scores now, event ≠ .commit scores now := by
      intro scores now commit
      rw [commit] at ok
      have active : s.rows.session.status = .active := ok
      rw [archived] at active
      cases active
    have same : s'.rows = s.rows := by
      obtain same | ⟨now, touched, _⟩ := rows
      · exact same
      · rw [move.requests] at touched
        simp only [if_true] at touched
        unfold touchedAt at touched
        split at touched
        · rename_i there
          exact absurd (move.created _ _ (AskInFlight.mk.inj (Option.some.inj there)).2) inserted
        · exact absurd rfl (answerless _ _)
        · cases touched
    refine ⟨?_, by rw [same], by rw [same]⟩
    rw [asks]
    exact move.messages (inv.rolledBack id _ move.found) inserted answerless

theorem invariant_run {actions : List ChatAction} (inv : ChatInvariant s)
    (run : Run ChatSystem.step AnswersWhileActive s actions s') : ChatInvariant s' :=
  run.preserves (fun _ _ _ inv _ taken => invariant_step inv taken) inv

/-- Once archived, the session stays as it is for the rest of the run. -/
theorem unchanged_run {actions : List ChatAction} (inv : ChatInvariant s)
    (archived : s.rows.session.status = .archived)
    (run : Run ChatSystem.step AnswersWhileActive s actions s') : Unchanged s s' := by
  have one : ∀ u action v, ChatInvariant u ∧ Unchanged s u → AnswersWhileActive u action →
      u.step action = some v → ChatInvariant v ∧ Unchanged s v := by
    rintro u action v ⟨invU, same⟩ ok taken
    have still : u.rows.session.status = .archived := by rw [same.session, archived]
    exact ⟨invariant_step invU taken, same.trans (unchanged_step invU still ok taken)⟩
  have kept := run.preserves one ⟨inv, .refl s⟩
  exact kept.2

/-- A committed answer is a new message. -/
theorem answer_inserts {id : Nat} {scores : Scores} {now : Time}
    (taken : s.step (.askEvent id (.commit scores now)) = some s') :
    s'.asks.tables.messages ≠ s.asks.tables.messages := by
  obtain ⟨a, moved, asks, _, _⟩ := advanceAsk_cases taken
  rw [asks]
  simp only [AskSystem.step, Option.bind_eq_some_iff] at moved
  obtain ⟨⟨payload, phase⟩, _, moved⟩ := moved
  cases phase <;> simp only [AskSystem.advance] at moved <;> try cases moved
  rename_i user runId pending
  split at moved <;> cases moved
  intro same
  have longer := congrArg List.length same
  simp [AskSystem.setPhase, Pending.write, updateRun] at longer

/-- No request is in flight. -/
structure ChatStart (s : ChatSystem) : Prop where
  idle : ∀ id, s.asks.requests id = none
  unlocked : s.lock = none

theorem ChatStart.invariant (initial : ChatStart s) : ChatInvariant s := by
  constructor
  · intro held
    rw [initial.unlocked] at held
    cases held
  all_goals
    intro id q found
    rw [initial.idle id] at found
    cases found

/-- In every interleaving whose answers are committed while the session is active, an archived
session keeps its messages, tags, title and time of update. A commit of an answer after the archive
inserts a message. -/
theorem archived_session_readonly (start : ChatSystem) (initial : ChatStart start)
    (actions : List ChatAction) (s : ChatSystem)
    (run : Run ChatSystem.step AnswersWhileActive start actions s)
    (archived : s.rows.session.status = .archived) :
    (∀ more t, Run ChatSystem.step AnswersWhileActive s more t → Unchanged s t) ∧
    ∀ action t, s.step action = some t → ¬ AnswersWhileActive s action → ¬ Unchanged s t := by
  have inv := invariant_run initial.invariant run
  refine ⟨fun more t further => unchanged_run inv archived further, ?_⟩
  intro action t taken late same
  unfold AnswersWhileActive at late
  split at late
  · exact answer_inserts taken same.messages
  · exact late trivial

end System

section Witness

theorem open_unarchived :
    (SessionStatus.active == .archived) = (none : Option Time).isSome := rfl

def openSession : ChatSession where
  chatSessionId := 1
  userId := 7
  title := "Limits"
  status := .active
  temporaryFlag := false
  ttlExpiresAt := none
  archivedAt := none
  createdAt := 1
  updatedAt := 1
  temporaryTtl := rfl
  archivedTime := open_unarchived

def quietChat : ChatSystem where
  rows := ⟨openSession, [], 1⟩
  asks := { tables := ⟨[], [], [], []⟩, nextMessageId := 1, nextRunId := 1, requests := fun _ => none }
  lock := none

def limitQuestion : RagAskRequest := ⟨1, "c-1", "What is the limit?"⟩

def questionSteps : List ChatAction :=
  [.ask 1 7 limitQuestion 10, .askEvent 1 .lookup, .askEvent 1 (.create 11), .askEvent 1 .enter]

def answerSteps : List ChatAction :=
  [.askEvent 1 (.answer "Ten [1]." [⟨1, 7, true⟩] [⟨1, 1, 7, "limit: ten", none, none, "handbook", 1⟩] 12),
   .askEvent 1 (.commit ⟨[], some 1, 1, 1, .high⟩ 13)]

def archiveStep : ChatAction := .operation 7 1 .archiveSession 14

def activeTest (s : ChatSystem) : ChatAction → Bool
  | .askEvent _ (.commit _ _) => s.rows.session.status == .active
  | _ => true

theorem active_of_test (s : ChatSystem) (action : ChatAction) (passed : activeTest s action = true) :
    AnswersWhileActive s action := by
  unfold activeTest at passed
  unfold AnswersWhileActive
  split
  · simpa using passed
  · trivial

theorem archived_after_answer :
    ∃ s, exec (guarded ChatSystem.step activeTest) quietChat
        (questionSteps ++ answerSteps ++ [archiveStep]) = some s ∧
      ∀ more t, Run ChatSystem.step AnswersWhileActive s more t → Unchanged s t := by
  have completes : (exec (guarded ChatSystem.step activeTest) quietChat
      (questionSteps ++ answerSteps ++ [archiveStep])).any
        fun s => s.rows.session.status == .archived := by
    decide +kernel
  obtain ⟨s, done, archived⟩ := (Option.any_eq_true _ _).mp completes
  have start : ChatStart quietChat := ⟨fun _ => rfl, rfl⟩
  have readonly := archived_session_readonly quietChat start _ s (run_of_guarded active_of_test done)
    (beq_iff_eq.mp archived)
  exact ⟨s, done, readonly.1⟩

/-- The session is archived between the two commits of a request: the answer is stored after the
archive, and the time of update moves. -/
theorem answer_after_archive :
    ∃ s t, exec ChatSystem.step quietChat (questionSteps ++ [archiveStep]) = some s ∧
      s.rows.session.status = .archived ∧ exec ChatSystem.step s answerSteps = some t ∧
      t.asks.tables.messages.length = s.asks.tables.messages.length + 1 ∧
      t.rows.session.updatedAt ≠ s.rows.session.updatedAt := by
  have archives : (exec ChatSystem.step quietChat (questionSteps ++ [archiveStep])).any fun s =>
      s.rows.session.status == .archived && (exec ChatSystem.step s answerSteps).any fun t =>
        t.asks.tables.messages.length == s.asks.tables.messages.length + 1 &&
          t.rows.session.updatedAt != s.rows.session.updatedAt := by
    decide +kernel
  obtain ⟨s, done, h⟩ := (Option.any_eq_true _ _).mp archives
  rw [Bool.and_eq_true] at h
  obtain ⟨t, answered, h'⟩ := (Option.any_eq_true _ _).mp h.2
  rw [Bool.and_eq_true] at h'
  exact ⟨s, t, done, beq_iff_eq.mp h.1, answered, beq_iff_eq.mp h'.1, bne_iff_ne.mp h'.2⟩

end Witness

end RagProject.Chat
