import RagProject.Lib.Table
import RagProject.Rag.Ask

/-! Ask is exactly once per message of a client: what any interleaving of requests keeps, and
the one place where an exception undoes it. -/
namespace RagProject.Rag
open Python Jobs Interleaving

section Invariant

/-- ux_chat_messages_client_message_id. -/
def clientIndex (m : ChatMessage) : Option (Nat × String) :=
  m.clientMessageId.map fun clientMessageId => (m.chatSessionId, clientMessageId)

def answerIndex (m : ChatMessage) : Option Nat :=
  if m.role = .assistant then m.linkedRetrievalRunId else none

structure RunKeys (s : AskSystem) : Prop where
  runIds : (s.tables.runs.map (·.retrievalRunId)).Nodup
  runBound : ∀ r ∈ s.tables.runs, r.retrievalRunId < s.nextRunId
  request : Table.UniqueIndex (·.requestMessageId) s.tables.runs
  requestBound : ∀ r ∈ s.tables.runs, ∀ id, r.requestMessageId = some id → id < s.nextMessageId

/-- The tables between two transactions. -/
structure TablesOk (s : AskSystem) : Prop extends RunKeys s where
  client : Table.UniqueIndex clientIndex s.tables.messages
  clientRole : ∀ m ∈ s.tables.messages, m.clientMessageId.isSome → m.role = .user
  answer : Table.UniqueIndex answerIndex s.tables.messages
  answered : ∀ m ∈ s.tables.messages, ∀ id, answerIndex m = some id →
    ∃ r ∈ s.tables.runs, r.retrievalRunId = id ∧ r.status = .succeeded ∧
      r.chatSessionId = some m.chatSessionId
  hasAnswer : ∀ r ∈ s.tables.runs, r.requestMessageId.isSome → r.status = .succeeded →
    ∃ m ∈ s.tables.messages, answerIndex m = some r.retrievalRunId ∧
      r.chatSessionId = some m.chatSessionId
  scored : ∀ r ∈ s.tables.runs, r.requestMessageId.isSome → r.status = .succeeded →
    (confidenceResponse r).isSome

variable (t : AskTables) (payload : RagAskRequest)

/-- The user message that the request has stored or found. -/
def Serves (user : ChatMessage) : Prop :=
  user ∈ t.messages ∧
    isUserMessage payload.chatSessionId payload.clientMessageId user = true ∧
    user.content = payload.message

def HasRun (user : ChatMessage) (run : RetrievalRun) (status : RunStatus) : Prop :=
  run ∈ t.runs ∧ run.status = status ∧
    isRunFor payload.chatSessionId user.chatMessageId run = true

def HasAnswer (run : RetrievalRun) (assistant : ChatMessage) : Prop :=
  assistant ∈ t.messages ∧
    isAnswerOf payload.chatSessionId run.retrievalRunId assistant = true

/-- A response whose parts are the rows of the tables. -/
def Stored (body : RagAskResponse) : Prop :=
  ∃ user run assistant, Serves t payload user ∧ HasRun t payload user run .succeeded ∧
    HasAnswer t payload run assistant ∧
    askResponse user assistant (listCitationsForRun t run.retrievalRunId) run body.replayed =
      some body

def Working (user : ChatMessage) (runId : Nat) : Prop :=
  Serves t payload user ∧ ∃ run, HasRun t payload user run .running ∧ run.retrievalRunId = runId

def PhaseOk : AskPhase → Prop
  | .start | .create => True
  | .raced => ∃ m ∈ t.messages,
      isUserMessage payload.chatSessionId payload.clientMessageId m = true
  | .classify existing => existing ∈ t.messages ∧
      isUserMessage payload.chatSessionId payload.clientMessageId existing = true
  | .replay existing run => Serves t payload existing ∧ HasRun t payload existing run .succeeded
  | .replayAnswer existing run assistant => Serves t payload existing ∧
      HasRun t payload existing run .succeeded ∧ HasAnswer t payload run assistant
  | .created user runId => Working t payload user runId
  | .pipeline user runId => Working t payload user runId
  | .answered user runId pending => Working t payload user runId ∧
      isAnswerOf payload.chatSessionId runId pending.answer = true ∧
      pending.answer.clientMessageId = none ∧
      (∀ item ∈ pending.items, item.retrievalRunId = runId) ∧
      ∀ c ∈ pending.citations, c.retrievalRunId = runId
  | .committed user runId answer => Serves t payload user ∧ ∃ run,
      HasRun t payload user run .succeeded ∧ run.retrievalRunId = runId ∧
      HasAnswer t payload run answer
  | .handling runId handler pending _ => (∃ user, Working t payload user runId) ∧
      (handler.rollback = false → pending = none)
  | .done (.response body) => Stored t payload body
  | .done .clientMessageConflict => ∃ m ∈ t.messages,
      isUserMessage payload.chatSessionId payload.clientMessageId m = true ∧
      m.content ≠ payload.message
  | .done .requestInProgress | .done .conflict | .done (.failed _) => ∃ user, Serves t payload user
  | .done .raised => True

/-- The run that a request may still finish. -/
def AskPhase.runOf : AskPhase → Option Nat
  | .created _ runId | .pipeline _ runId | .answered _ runId _ | .handling runId _ _ _ => some runId
  | _ => none

def AskSystem.Owns (s : AskSystem) (requestId runId : Nat) : Prop :=
  ∃ q, s.requests requestId = some q ∧ q.phase.runOf = some runId

/-- What holds in every state that the requests reach. -/
structure AskInvariant (s : AskSystem) : Prop where
  tables : TablesOk s
  phases : ∀ id q, s.requests id = some q → PhaseOk s.tables q.payload q.phase
  owners : ∀ id id' runId, s.Owns id runId → s.Owns id' runId → id = id'

/-- What a transaction leaves of the tables: it touches one run at most. -/
structure Keeps (touched : Option Nat) (t t' : AskTables) : Prop where
  messages : ∀ m ∈ t.messages, m ∈ t'.messages
  runs : ∀ r ∈ t.runs, touched ≠ some r.retrievalRunId → r ∈ t'.runs
  citations : ∀ runId, touched ≠ some runId →
    listCitationsForRun t' runId = listCitationsForRun t runId

/-- What one step keeps. -/
structure AskStep (s s' : AskSystem) : Prop where
  invariant : AskInvariant s'
  finished : ∀ r ∈ s.tables.runs, r.status ≠ .running → r ∈ s'.tables.runs

end Invariant

section Frames
variable {t t' : AskTables} {payload : RagAskRequest} {touched : Option Nat}

theorem Keeps.refl (t : AskTables) : Keeps none t t := by
  constructor
  · exact fun m member => member
  · exact fun r member _ => member
  · exact fun runId _ => rfl

theorem Serves.keep {user : ChatMessage} (serves : Serves t payload user)
    (keeps : Keeps touched t t') : Serves t' payload user :=
  ⟨keeps.messages user serves.1, serves.2⟩

theorem HasRun.keep {user : ChatMessage} {run : RetrievalRun} {status : RunStatus}
    (has : HasRun t payload user run status) (keeps : Keeps touched t t')
    (other : touched ≠ some run.retrievalRunId) : HasRun t' payload user run status :=
  ⟨keeps.runs run has.1 other, has.2⟩

theorem HasAnswer.keep {run : RetrievalRun} {assistant : ChatMessage}
    (has : HasAnswer t payload run assistant) (keeps : Keeps touched t t') :
    HasAnswer t' payload run assistant :=
  ⟨keeps.messages assistant has.1, has.2⟩

theorem Working.keep {user : ChatMessage} {runId : Nat} (working : Working t payload user runId)
    (keeps : Keeps touched t t') (other : touched ≠ some runId) :
    Working t' payload user runId := by
  obtain ⟨serves, run, has, rfl⟩ := working
  exact ⟨serves.keep keeps, run, has.keep keeps other, rfl⟩

/-- A transaction of another request leaves what a phase relies on in place. -/
theorem PhaseOk.keep {phase : AskPhase} (ok : PhaseOk t payload phase) (keeps : Keeps touched t t')
    (other : ∀ runId, phase.runOf = some runId → touched ≠ some runId)
    (unfinished : ∀ r ∈ t.runs, r.status = .succeeded → touched ≠ some r.retrievalRunId) :
    PhaseOk t' payload phase := by
  have finished {user : ChatMessage} {run : RetrievalRun}
      (has : HasRun t payload user run .succeeded) : HasRun t' payload user run .succeeded :=
    has.keep keeps (unfinished run has.1 has.2.1)
  cases phase with
  | start => trivial
  | create => trivial
  | raced =>
    obtain ⟨m, member, same⟩ := ok
    exact ⟨m, keeps.messages m member, same⟩
  | classify existing => exact ⟨keeps.messages existing ok.1, ok.2⟩
  | replay existing run => exact ⟨ok.1.keep keeps, finished ok.2⟩
  | replayAnswer existing run assistant =>
    obtain ⟨serves, has, answer⟩ := ok
    exact ⟨serves.keep keeps, finished has, answer.keep keeps⟩
  | created user runId => exact Working.keep ok keeps (other runId rfl)
  | pipeline user runId => exact Working.keep ok keeps (other runId rfl)
  | answered user runId pending => exact ⟨ok.1.keep keeps (other runId rfl), ok.2⟩
  | committed user runId answer =>
    obtain ⟨serves, run, has, sameId, hasAnswer⟩ := ok
    exact ⟨serves.keep keeps, run, finished has, sameId, hasAnswer.keep keeps⟩
  | handling runId handler pending inTry =>
    obtain ⟨⟨user, working⟩, rolledBack⟩ := ok
    exact ⟨⟨user, working.keep keeps (other runId rfl)⟩, rolledBack⟩
  | done outcome =>
    cases outcome with
    | response body =>
      obtain ⟨user, run, assistant, serves, has, answer, built⟩ := ok
      refine ⟨user, run, assistant, serves.keep keeps, finished has, answer.keep keeps, ?_⟩
      rw [keeps.citations _ (unfinished run has.1 has.2.1)]
      exact built
    | clientMessageConflict =>
      obtain ⟨m, member, same⟩ := ok
      exact ⟨m, keeps.messages m member, same⟩
    | requestInProgress =>
      obtain ⟨user, serves⟩ := ok
      exact ⟨user, serves.keep keeps⟩
    | conflict =>
      obtain ⟨user, serves⟩ := ok
      exact ⟨user, serves.keep keeps⟩
    | failed errorCode =>
      obtain ⟨user, serves⟩ := ok
      exact ⟨user, serves.keep keeps⟩
    | raised => trivial

variable {s s' : AskSystem}

theorem AskInvariant.owned (inv : AskInvariant s) {id runId : Nat} (owns : s.Owns id runId) :
    ∃ r ∈ s.tables.runs, r.retrievalRunId = runId ∧ r.status = .running := by
  obtain ⟨⟨payload, phase⟩, found, runOf⟩ := owns
  have ok := inv.phases id _ found
  have working : ∃ user, Working s.tables payload user runId := by
    cases phase with
    | created user r =>
      cases Option.some.inj runOf
      exact ⟨user, ok⟩
    | pipeline user r =>
      cases Option.some.inj runOf
      exact ⟨user, ok⟩
    | answered user r pending =>
      cases Option.some.inj runOf
      exact ⟨user, ok.1⟩
    | handling r handler pending inTry =>
      cases Option.some.inj runOf
      exact ok.1
    | _ => cases runOf
  obtain ⟨user, _, run, has, sameId⟩ := working
  exact ⟨run, has.1, sameId, has.2.1⟩

/-- An owned run has not succeeded. -/
theorem AskInvariant.unfinished (inv : AskInvariant s) {id runId : Nat} (owns : s.Owns id runId)
    {r : RetrievalRun} (member : r ∈ s.tables.runs) (sameId : r.retrievalRunId = runId) :
    r.status = .running := by
  obtain ⟨run, hrun, id, running⟩ := inv.owned owns
  cases Table.unique inv.tables.runIds member hrun (sameId.trans id.symm)
  exact running

/-- One step of one request, from what it does to the tables and to its own phase. -/
theorem AskInvariant.move (inv : AskInvariant s) {id : Nat} {payload : RagAskRequest}
    {phase : AskPhase} (touched : Option Nat)
    (requests : s'.requests = (s.setPhase id payload phase).requests) (tables : TablesOk s')
    (keeps : Keeps touched s.tables s'.tables)
    (own : ∀ runId, touched = some runId → s.Owns id runId)
    (ok : PhaseOk s'.tables payload phase)
    (runs : ∀ runId, phase.runOf = some runId → s.Owns id runId ∨ s.nextRunId ≤ runId) :
    AskStep s s' := by
  have at_id : s'.requests id = some ⟨payload, phase⟩ := by simp [requests, AskSystem.setPhase]
  have elsewhere {other : Nat} (ne : other ≠ id) : s'.requests other = s.requests other := by
    simp [requests, AskSystem.setPhase, ne]
  have ownsElsewhere {other runId : Nat} (ne : other ≠ id) (owns : s'.Owns other runId) :
      s.Owns other runId := by
    obtain ⟨q, found, runOf⟩ := owns
    exact ⟨q, elsewhere ne ▸ found, runOf⟩
  -- Nobody else owns a run that this request owns now.
  have apart {other runId : Nat} (ne : other ≠ id) (owns : s'.Owns other runId)
      (mine : s'.Owns id runId) : False := by
    obtain ⟨q, found, runOf⟩ := mine
    rw [at_id] at found
    cases found
    rcases runs runId runOf with before | fresh
    · exact ne (inv.owners _ _ _ (ownsElsewhere ne owns) before)
    · obtain ⟨r, member, sameId, _⟩ := inv.owned (ownsElsewhere ne owns)
      have := inv.tables.runBound r member
      omega
  refine ⟨⟨tables, ?_, ?_⟩, fun r member notRunning => keeps.runs r member fun mine =>
    notRunning (inv.unfinished (own _ mine) member rfl)⟩
  · intro other q found
    by_cases same : other = id
    · subst same
      rw [at_id] at found
      cases found
      exact ok
    · rw [elsewhere same] at found
      refine (inv.phases other q found).keep keeps ?_ ?_
      · intro runId runOf mine
        exact same (inv.owners _ _ _ ⟨q, found, runOf⟩ (own runId mine))
      · intro r member succeeded mine
        rw [inv.unfinished (own _ mine) member rfl] at succeeded
        cases succeeded
  · intro a b runId ownsA ownsB
    by_cases sameA : a = id
    · by_cases sameB : b = id
      · exact sameA.trans sameB.symm
      · subst sameA
        exact (apart sameB ownsB ownsA).elim
    · by_cases sameB : b = id
      · subst sameB
        exact (apart sameA ownsA ownsB).elim
      · exact inv.owners a b runId (ownsElsewhere sameA ownsA) (ownsElsewhere sameB ownsB)

end Frames

section Transactions
variable {s s' : AskSystem}

theorem RunKeys.local (keys : RunKeys s) (runs : s'.tables.runs = s.tables.runs)
    (nextMessage : s.nextMessageId ≤ s'.nextMessageId) (nextRun : s.nextRunId ≤ s'.nextRunId) :
    RunKeys s' := by
  constructor
  · rw [runs]
    exact keys.runIds
  · intro r member
    rw [runs] at member
    have := keys.runBound r member
    omega
  · rw [runs]
    exact keys.request
  · intro r member id request
    rw [runs] at member
    have := keys.requestBound r member id request
    omega

theorem TablesOk.local (ok : TablesOk s) (tables : s'.tables = s.tables)
    (nextMessage : s.nextMessageId ≤ s'.nextMessageId) (nextRun : s.nextRunId ≤ s'.nextRunId) :
    TablesOk s' := by
  refine ⟨ok.toRunKeys.local (by rw [tables]) nextMessage nextRun, ?_, ?_, ?_, ?_, ?_, ?_⟩ <;>
    rw [tables]
  · exact ok.client
  · exact ok.clientRole
  · exact ok.answer
  · exact ok.answered
  · exact ok.hasAnswer
  · exact ok.scored

/-- A step of a request that writes nothing. -/
theorem AskInvariant.stay (inv : AskInvariant s) {id : Nat} {payload : RagAskRequest}
    {phase : AskPhase} (requests : s'.requests = (s.setPhase id payload phase).requests)
    (tables : s'.tables = s.tables) (messages : s.nextMessageId ≤ s'.nextMessageId)
    (nextRun : s'.nextRunId = s.nextRunId) (ok : PhaseOk s.tables payload phase)
    (runs : ∀ runId, phase.runOf = some runId → s.Owns id runId) : AskStep s s' := by
  refine inv.move none requests
    (inv.tables.local tables messages (Nat.le_of_eq nextRun.symm)) ?_ ?_ ?_ ?_
  · rw [tables]
    exact Keeps.refl _
  · intro runId none
    cases none
  · rw [tables]
    exact ok
  · exact fun runId mine => .inl (runs runId mine)

variable {t : AskTables} {runId : Nat} {values : RetrievalRun → RetrievalRun}

theorem keeps_update : Keeps (some runId) t (updateRun t runId values) := by
  constructor
  · exact fun m member => member
  · intro r member other
    have ne : r.retrievalRunId ≠ runId := fun same => other (by rw [same])
    exact List.mem_map.mpr ⟨r, member, if_neg ne⟩
  · exact fun _ _ => rfl

theorem keeps_write {pending : Pending} (items : ∀ item ∈ pending.items, item.retrievalRunId = runId)
    (citations : ∀ c ∈ pending.citations, c.retrievalRunId = runId) :
    Keeps (some runId) t (pending.write t) := by
  constructor
  · exact fun m member => List.mem_append_left _ member
  · exact fun r member _ => member
  · intro other ne
    have ne : other ≠ runId := fun same => ne (by rw [same])
    have drop : pending.citations.filter (fun c => c.retrievalRunId == other &&
        (pending.write t).items.any fun item => item.retrievalRunId == c.retrievalRunId &&
          item.documentChunkId == c.documentChunkId && item.selectedFlag) = [] := by
      rw [List.filter_eq_nil_iff]
      intro c member
      simp [citations c member, ne.symm]
    have same : ∀ c ∈ t.citations, (c.retrievalRunId == other &&
        (pending.write t).items.any fun item => item.retrievalRunId == c.retrievalRunId &&
          item.documentChunkId == c.documentChunkId && item.selectedFlag) =
        (c.retrievalRunId == other && t.items.any fun item =>
          item.retrievalRunId == c.retrievalRunId && item.documentChunkId == c.documentChunkId &&
            item.selectedFlag) := by
      intro c _
      by_cases id : c.retrievalRunId = other
      · have unmatched : pending.items.any (fun item => item.retrievalRunId == c.retrievalRunId &&
            item.documentChunkId == c.documentChunkId && item.selectedFlag) = false := by
          rw [List.any_eq_false]
          intro item member
          simp [items item member, id, ne.symm]
        have items : (pending.write t).items = t.items ++ pending.items := rfl
        rw [items, List.any_append, unmatched, Bool.or_false]
      · have unequal : (c.retrievalRunId == other) = false := beq_eq_false_iff_ne.mpr id
        rw [unequal, Bool.false_and, Bool.false_and]
    unfold listCitationsForRun
    rw [show (pending.write t).citations = t.citations ++ pending.citations from rfl,
      List.filter_append, drop, List.append_nil, List.filter_congr same]

theorem Keeps.trans {touched : Option Nat} {t t' t'' : AskTables} (first : Keeps touched t t')
    (second : Keeps touched t' t'') : Keeps touched t t'' := by
  constructor
  · exact fun m member => second.messages m (first.messages m member)
  · exact fun r member other => second.runs r (first.runs r member other) other
  · exact fun id other => (second.citations id other).trans (first.citations id other)

theorem keeps_append {messages : List ChatMessage} {runs : List RetrievalRun} :
    Keeps none t { t with messages := t.messages ++ messages, runs := t.runs ++ runs } := by
  constructor
  · exact fun m member => List.mem_append_left _ member
  · exact fun r member _ => List.mem_append_left _ member
  · exact fun _ _ => rfl

theorem answerIndex_some {m : ChatMessage} {runId : Nat} :
    answerIndex m = some runId ↔ m.role = .assistant ∧ m.linkedRetrievalRunId = some runId := by
  unfold answerIndex
  split
  · rename_i assistant
    simp [assistant]
  · rename_i other
    simp [other]

theorem isAnswerOf_iff {m : ChatMessage} {chatSessionId runId : Nat} :
    isAnswerOf chatSessionId runId m = true ↔
      m.chatSessionId = chatSessionId ∧ answerIndex m = some runId := by
  simp [isAnswerOf, answerIndex_some, and_assoc]

theorem isUserMessage_iff {m : ChatMessage} {chatSessionId : Nat} {clientMessageId : String} :
    isUserMessage chatSessionId clientMessageId m = true ↔
      m.role = .user ∧ clientIndex m = some (chatSessionId, clientMessageId) := by
  cases h : m.clientMessageId <;> simp [isUserMessage, clientIndex, h, and_left_comm, and_assoc]

theorem isRunFor_iff {r : RetrievalRun} {chatSessionId messageId : Nat} :
    isRunFor chatSessionId messageId r = true ↔
      r.chatSessionId = some chatSessionId ∧ r.requestMessageId = some messageId := by
  simp [isRunFor]

/-- The first transaction, when the index accepts the message. -/
theorem tablesOk_create (ok : TablesOk s) {payload : RagAskRequest} {now : Time}
    (accepted : ∀ m ∈ s.tables.messages,
      clientIndex m ≠ some (payload.chatSessionId, payload.clientMessageId)) :
    TablesOk (s.createFirst payload now) := by
  have noAnswer : answerIndex (s.newUserMessage payload now) = none := rfl
  refine ⟨⟨?_, ?_, ?_, ?_⟩, ?_, ?_, ?_, ?_, ?_, ?_⟩
  · refine Table.append_distinct ok.runIds ?_
    intro r member
    exact Nat.ne_of_lt (ok.runBound r member)
  · intro r member
    rcases List.mem_append.mp member with old | new
    · exact Nat.lt_succ_of_lt (ok.runBound r old)
    · rw [List.mem_singleton.mp new]
      exact Nat.lt_succ_self _
  · refine ok.request.append ?_
    intro i new r member old
    cases new
    exact Nat.lt_irrefl _ (ok.requestBound r member _ old)
  · intro r member id request
    rcases List.mem_append.mp member with old | new
    · exact Nat.lt_succ_of_lt (ok.requestBound r old id request)
    · rw [List.mem_singleton.mp new] at request
      cases request
      exact Nat.lt_succ_self _
  · refine ok.client.append ?_
    intro i new m member old
    cases new
    exact accepted m member old
  · intro m member hasId
    rcases List.mem_append.mp member with old | new
    · exact ok.clientRole m old hasId
    · rw [List.mem_singleton.mp new]
      rfl
  · refine ok.answer.append ?_
    intro i new
    cases noAnswer.symm.trans new
  · intro m member id index
    rcases List.mem_append.mp member with old | new
    · obtain ⟨r, hr, rest⟩ := ok.answered m old id index
      exact ⟨r, List.mem_append_left _ hr, rest⟩
    · rw [List.mem_singleton.mp new] at index
      cases noAnswer.symm.trans index
  · intro r member request succeeded
    rcases List.mem_append.mp member with old | new
    · obtain ⟨m, hm, rest⟩ := ok.hasAnswer r old request succeeded
      exact ⟨m, List.mem_append_left _ hm, rest⟩
    · rw [List.mem_singleton.mp new] at succeeded
      cases succeeded
  · intro r member request succeeded
    rcases List.mem_append.mp member with old | new
    · exact ok.scored r old request succeeded
    · rw [List.mem_singleton.mp new] at succeeded
      cases succeeded

/-- An update of a run that leaves its keys alone. -/
structure SameKeys (values : RetrievalRun → RetrievalRun) : Prop where
  id : ∀ r, (values r).retrievalRunId = r.retrievalRunId
  request : ∀ r, (values r).requestMessageId = r.requestMessageId
  session : ∀ r, (values r).chatSessionId = r.chatSessionId

theorem ite_field {B : Type} {f : RetrievalRun → B} (same : ∀ r, f (values r) = f r) (runId : Nat)
    (r : RetrievalRun) : f (if r.retrievalRunId = runId then values r else r) = f r := by
  split
  · exact same r
  · rfl

theorem SameKeys.ite (same : SameKeys values) (runId : Nat) :
    SameKeys fun r => if r.retrievalRunId = runId then values r else r :=
  ⟨ite_field same.id runId, ite_field same.request runId, ite_field same.session runId⟩

theorem RunKeys.update (keys : RunKeys s) (same : SameKeys values)
    (runs : s'.tables.runs = (updateRun s.tables runId values).runs)
    (nextMessage : s'.nextMessageId = s.nextMessageId) (nextRun : s'.nextRunId = s.nextRunId) :
    RunKeys s' := by
  have every := same.ite runId
  constructor
  · rw [runs, updateRun, Table.map_keys fun r _ => every.id r]
    exact keys.runIds
  · intro r' member
    rw [runs] at member
    obtain ⟨r, hr, rfl⟩ := List.mem_map.mp member
    rw [every.id, nextRun]
    exact keys.runBound r hr
  · rw [runs]
    exact keys.request.map fun r _ => every.request r
  · intro r' member id request
    rw [runs] at member
    obtain ⟨r, hr, rfl⟩ := List.mem_map.mp member
    rw [every.request] at request
    rw [nextMessage]
    exact keys.requestBound r hr id request

/-- A running run has no answer. -/
theorem answered_ne (ok : TablesOk s)
    (running : ∀ r ∈ s.tables.runs, r.retrievalRunId = runId → r.status = .running)
    {m : ChatMessage} (member : m ∈ s.tables.messages) : answerIndex m ≠ some runId := by
  intro index
  obtain ⟨r, hr, same, succeeded, _⟩ := ok.answered m member runId index
  rw [running r hr same] at succeeded
  cases succeeded

/-- The answered messages keep their runs while a running run is updated. -/
theorem answered_elsewhere (ok : TablesOk s)
    (running : ∀ r ∈ s.tables.runs, r.retrievalRunId = runId → r.status = .running)
    {m : ChatMessage} (member : m ∈ s.tables.messages) {id : Nat} (index : answerIndex m = some id) :
    ∃ r ∈ (updateRun s.tables runId values).runs, r.retrievalRunId = id ∧
      r.status = .succeeded ∧ r.chatSessionId = some m.chatSessionId := by
  obtain ⟨r, hr, same, rest⟩ := ok.answered m member id index
  have other : r.retrievalRunId ≠ runId := by
    intro touched
    exact answered_ne ok running member (by rw [index, ← same, touched])
  exact ⟨r, List.mem_map.mpr ⟨r, hr, if_neg other⟩, same, rest⟩

theorem tablesOk_fail (ok : TablesOk s) {errorCode : String} {now : Time}
    (running : ∀ r ∈ s.tables.runs, r.retrievalRunId = runId → r.status = .running)
    (tables : s'.tables = updateRun s.tables runId (markFailed errorCode now))
    (nextMessage : s'.nextMessageId = s.nextMessageId) (nextRun : s'.nextRunId = s.nextRunId) :
    TablesOk s' := by
  have same : SameKeys (markFailed errorCode now) := ⟨fun _ => rfl, fun _ => rfl, fun _ => rfl⟩
  refine ⟨ok.toRunKeys.update same (by rw [tables]) nextMessage nextRun, ?_, ?_, ?_, ?_, ?_, ?_⟩ <;>
    rw [tables]
  · exact ok.client
  · exact ok.clientRole
  · exact ok.answer
  · exact fun m member id index => answered_elsewhere ok running member index
  · intro r' member request succeeded
    obtain ⟨r, hr, rfl⟩ := List.mem_map.mp member
    split at succeeded
    · cases succeeded
    · rename_i other
      rw [if_neg other] at request ⊢
      exact ok.hasAnswer r hr request succeeded
  · intro r' member request succeeded
    obtain ⟨r, hr, rfl⟩ := List.mem_map.mp member
    split at succeeded
    · cases succeeded
    · rename_i other
      rw [if_neg other] at request ⊢
      exact ok.scored r hr request succeeded

/-- The second transaction: the answer and the success of the run together. -/
theorem tablesOk_commit (ok : TablesOk s) {scores : Scores} {now : Time} {pending : Pending}
    {chatSessionId : Nat}
    (running : ∀ r ∈ s.tables.runs, r.retrievalRunId = runId → r.status = .running)
    (present : ∃ r ∈ s.tables.runs, r.retrievalRunId = runId ∧ r.chatSessionId = some chatSessionId)
    (answer : isAnswerOf chatSessionId runId pending.answer = true)
    (noClient : pending.answer.clientMessageId = none)
    (tables : s'.tables = pending.write (updateRun s.tables runId (markSucceeded scores now)))
    (nextMessage : s'.nextMessageId = s.nextMessageId) (nextRun : s'.nextRunId = s.nextRunId) :
    TablesOk s' := by
  obtain ⟨session, index⟩ := isAnswerOf_iff.mp answer
  have same : SameKeys (markSucceeded scores now) := ⟨fun _ => rfl, fun _ => rfl, fun _ => rfl⟩
  have messages : s'.tables.messages = s.tables.messages ++ [pending.answer] := by
    rw [tables]
    rfl
  have runs : s'.tables.runs = (updateRun s.tables runId (markSucceeded scores now)).runs := by
    rw [tables]
    rfl
  obtain ⟨owned, hOwned, ownedId, inSession⟩ := present
  refine ⟨ok.toRunKeys.update same runs nextMessage nextRun, ?_, ?_, ?_, ?_, ?_, ?_⟩
  · rw [messages]
    refine ok.client.append ?_
    intro i new
    simp [clientIndex, noClient] at new
  · rw [messages]
    intro m member hasId
    rcases List.mem_append.mp member with old | new
    · exact ok.clientRole m old hasId
    · rw [List.mem_singleton.mp new, noClient] at hasId
      cases hasId
  · rw [messages]
    refine ok.answer.append ?_
    intro id new m member old
    cases index.symm.trans new
    exact answered_ne ok running member old
  · rw [messages]
    intro m member id answered
    rw [runs]
    rcases List.mem_append.mp member with old | new
    · exact answered_elsewhere ok running old answered
    · rw [List.mem_singleton.mp new] at answered ⊢
      cases index.symm.trans answered
      refine ⟨_, List.mem_map.mpr ⟨owned, hOwned, if_pos ownedId⟩, ownedId, rfl, ?_⟩
      rw [session]
      exact inSession
  · rw [messages]
    intro r' member request succeeded
    rw [runs] at member
    obtain ⟨r, hr, rfl⟩ := List.mem_map.mp member
    have every := same.ite runId
    rw [every.request] at request
    rw [every.id, every.session]
    by_cases touched : r.retrievalRunId = runId
    · cases Table.unique ok.runIds hr hOwned (touched.trans ownedId.symm)
      refine ⟨pending.answer, List.mem_append_right _ List.mem_cons_self, ?_, ?_⟩
      · rw [index, touched]
      · rw [inSession, session]
    · rw [if_neg touched] at succeeded
      obtain ⟨m, hm, rest⟩ := ok.hasAnswer r hr request succeeded
      exact ⟨m, List.mem_append_left _ hm, rest⟩
  · intro r' member request succeeded
    rw [runs] at member
    obtain ⟨r, hr, rfl⟩ := List.mem_map.mp member
    split at succeeded
    · rename_i touched
      rw [if_pos touched]
      rfl
    · rename_i other
      rw [if_neg other] at request ⊢
      exact ok.scored r hr request succeeded

end Transactions

section Steps
variable {s s' : AskSystem}

def AskPhase.isCommitted : AskPhase → Bool
  | .committed _ _ _ => true
  | _ => false

theorem clientIndex_of_key {m : ChatMessage} {chatSessionId : Nat} {clientMessageId : String} :
    (m.chatSessionId == chatSessionId && m.clientMessageId == some clientMessageId) = true ↔
      clientIndex m = some (chatSessionId, clientMessageId) := by
  cases h : m.clientMessageId <;> simp [clientIndex, h]

/-- No exception between the final commit of a request and its return. -/
def Timely (s : AskSystem) : AskAction → Prop
  | .event id (.raise _) => ∀ q, s.requests id = some q → q.phase.isCommitted = false
  | _ => True

theorem classify_ok {payload : RagAskRequest} {existing : ChatMessage}
    (ok : PhaseOk s.tables payload (.classify existing)) :
    PhaseOk s.tables payload (s.classifyDuplicate payload existing) ∧
      (s.classifyDuplicate payload existing).runOf = none := by
  unfold AskSystem.classifyDuplicate
  split
  · rename_i otherText
    exact ⟨⟨existing, ok.1, ok.2, otherText⟩, rfl⟩
  · rename_i sameText
    have serves : Serves s.tables payload existing := ⟨ok.1, ok.2, not_not.mp sameText⟩
    split
    · exact ⟨⟨existing, serves⟩, rfl⟩
    · rename_i run found
      have member : run ∈ (s.tables.runs.filter
          (isRunFor payload.chatSessionId existing.chatMessageId)) :=
        (List.mem_insertionSort _).mp (List.mem_of_mem_head? found)
      obtain ⟨hr, ofMessage⟩ := List.mem_filter.mp member
      split
      · exact ⟨⟨existing, serves⟩, rfl⟩
      · exact ⟨⟨existing, serves⟩, rfl⟩
      · rename_i succeeded
        exact ⟨⟨serves, hr, succeeded, ofMessage⟩, rfl⟩

theorem askResponse_replayed {user assistant : ChatMessage} {citations : List Citation}
    {run : RetrievalRun} {replayed : Bool} {body : RagAskResponse}
    (built : askResponse user assistant citations run replayed = some body) :
    body.replayed = replayed := by
  obtain ⟨confidence, _, same⟩ := Option.bind_eq_some_iff.mp built
  cases same
  rfl

theorem askResponse_isSome {user assistant : ChatMessage} {citations : List Citation}
    {run : RetrievalRun} {replayed : Bool} (scored : (confidenceResponse run).isSome) :
    (askResponse user assistant citations run replayed).isSome := by
  obtain ⟨confidence, has⟩ := Option.isSome_iff_exists.mp scored
  simp [askResponse, has]

theorem lookup_ok {payload : RagAskRequest} {existing : ChatMessage}
    (found : getUserMessageByClientMessageId s.tables payload.chatSessionId
      payload.clientMessageId = some existing) :
    PhaseOk s.tables payload (.classify existing) :=
  ⟨List.mem_of_find?_eq_some found, List.find?_some found⟩

theorem invariant_advance (inv : AskInvariant s) {id : Nat} {payload : RagAskRequest}
    {phase : AskPhase} {event : AskEvent} (found : s.requests id = some ⟨payload, phase⟩)
    (timely : Timely s (.event id event))
    (done : s.advance id payload phase event = some s') : AskStep s s' := by
  have ok := inv.phases id _ found
  have owns {runId : Nat} (runOf : phase.runOf = some runId) : s.Owns id runId := ⟨_, found, runOf⟩
  unfold AskSystem.advance at done
  split at done
  · -- start
    split at done <;> cases done
    · rename_i existing hit
      exact inv.stay rfl rfl (Nat.le_refl _) rfl (lookup_ok hit) (fun _ h => nomatch h)
    · exact inv.stay rfl rfl (Nat.le_refl _) rfl trivial (fun _ h => nomatch h)
  · -- create
    rename_i now
    split at done <;> cases done
    · rename_i taken
      obtain ⟨m, member, same⟩ := List.any_eq_true.mp taken
      have index := clientIndex_of_key.mp same
      have hasId : m.clientMessageId.isSome := by
        simpa [clientIndex] using congrArg Option.isSome index
      have role := inv.tables.clientRole m member hasId
      exact inv.stay rfl rfl (Nat.le_succ _) rfl ⟨m, member, isUserMessage_iff.mpr ⟨role, index⟩⟩
        (fun _ h => nomatch h)
    · rename_i free
      have accepted : ∀ m ∈ s.tables.messages,
          clientIndex m ≠ some (payload.chatSessionId, payload.clientMessageId) := by
        intro m member index
        apply free
        rw [List.any_eq_true]
        exact ⟨m, member, clientIndex_of_key.mpr index⟩
      refine inv.move none rfl ((tablesOk_create inv.tables accepted).local rfl (Nat.le_refl _)
        (Nat.le_refl _)) keeps_append (fun _ h => nomatch h) ?_ ?_
      · refine ⟨⟨List.mem_append_right _ List.mem_cons_self, ?_, rfl⟩, s.newRun payload now,
          ⟨List.mem_append_right _ List.mem_cons_self, rfl, ?_⟩, rfl⟩
        · simp [isUserMessage, AskSystem.newUserMessage]
        · simp [isRunFor, AskSystem.newRun, AskSystem.newUserMessage]
      · intro runId mine
        cases mine
        exact .inr (Nat.le_refl _)
  · -- raced
    split at done <;> cases done
    · rename_i existing hit
      exact inv.stay rfl rfl (Nat.le_refl _) rfl (lookup_ok hit) (fun _ h => nomatch h)
    · -- The message that won the race is still there.
      rename_i missing
      obtain ⟨m, member, same⟩ := ok
      exact absurd same (List.find?_eq_none.mp missing m member)
  · -- classify
    cases done
    obtain ⟨next, noRun⟩ := classify_ok ok
    exact inv.stay rfl rfl (Nat.le_refl _) rfl next (fun _ h => by rw [noRun] at h; cases h)
  · -- replay
    rename_i existing run
    split at done <;> cases done
    · rename_i assistant hit
      have member : assistant ∈ s.tables.messages.filter
          (isAnswerOf payload.chatSessionId run.retrievalRunId) :=
        (List.mem_insertionSort _).mp (List.mem_of_mem_head? hit)
      exact inv.stay rfl rfl (Nat.le_refl _) rfl ⟨ok.1, ok.2, List.mem_filter.mp member⟩
        (fun _ h => nomatch h)
    · exact inv.stay rfl rfl (Nat.le_refl _) rfl ⟨existing, ok.1⟩ (fun _ h => nomatch h)
  · -- replayAnswer
    rename_i existing run assistant
    cases done
    obtain ⟨serves, has, answer⟩ := ok
    cases built : askResponse existing assistant
        (listCitationsForRun s.tables run.retrievalRunId) run true with
    | none => exact inv.stay rfl rfl (Nat.le_refl _) rfl trivial (fun _ h => nomatch h)
    | some body =>
      refine inv.stay rfl rfl (Nat.le_refl _) rfl ⟨existing, run, assistant, serves, has, answer, ?_⟩
        (fun _ h => nomatch h)
      rw [askResponse_replayed built]
      exact built
  · -- enter
    cases done
    exact inv.stay rfl rfl (Nat.le_refl _) rfl ok (fun _ h => owns h)
  · -- noContext
    cases done
    exact inv.stay rfl rfl (Nat.le_refl _) rfl ⟨⟨_, ok⟩, fun _ => rfl⟩ (fun _ h => owns h)
  · -- answer
    rename_i user runId content items citations now
    split at done <;> cases done
    rename_i same
    simp only [Bool.and_eq_true, List.all_eq_true, beq_iff_eq] at same
    refine inv.stay rfl rfl (Nat.le_succ _) rfl ⟨ok, ?_, rfl, same⟩ (fun _ h => owns h)
    simp [isAnswerOf, AskSystem.answerMessage]
  · -- commit
    rename_i user runId pending scores now
    obtain ⟨⟨serves, run, has, sameId⟩, answer, noClient, items, citations⟩ := ok
    obtain ⟨session, request⟩ := isRunFor_iff.mp has.2.2
    split at done <;> cases done
    have running : ∀ r ∈ s.tables.runs, r.retrievalRunId = runId → r.status = .running :=
      fun r member same => inv.unfinished (owns rfl) member same
    have keeps : Keeps (some runId) s.tables
        (pending.write (updateRun s.tables runId (markSucceeded scores now))) :=
      keeps_update.trans (keeps_write items citations)
    refine inv.move (some runId) rfl (tablesOk_commit inv.tables running
      ⟨run, has.1, sameId, session⟩ answer noClient rfl rfl rfl) keeps (fun r h => owns h) ?_
      (fun _ h => nomatch h)
    refine ⟨serves.keep keeps, markSucceeded scores now run, ⟨?_, rfl, has.2.2⟩, sameId, ?_, ?_⟩
    · exact List.mem_map.mpr ⟨run, has.1, if_pos sameId⟩
    · exact List.mem_append_right _ List.mem_cons_self
    · rw [← sameId] at answer
      exact answer
  · -- respond
    rename_i user runId answer
    obtain ⟨serves, run, has, sameId, hasAnswer⟩ := ok
    have scored : (confidenceResponse run).isSome := by
      refine inv.tables.scored run has.1 ?_ has.2.1
      rw [(isRunFor_iff.mp has.2.2).2]
      rfl
    have row : getRun s.tables runId = some run := by
      rw [← sameId]
      exact Table.row_of_mem inv.tables.runIds has.1
    rw [row, Option.bind_some] at done
    split at done <;> cases done
    · rename_i body built
      refine inv.stay rfl rfl (Nat.le_refl _) rfl ⟨user, run, answer, serves, has, hasAnswer, ?_⟩
        (fun _ h => nomatch h)
      rw [askResponse_replayed built, sameId]
      exact built
    · rename_i missing
      have present : (askResponse user answer (listCitationsForRun s.tables runId) run
          false).isSome := askResponse_isSome scored
      rw [missing] at present
      cases present
  · -- markFailed
    rename_i runId handler pending inTry now
    obtain ⟨⟨user, serves, run, has, sameId⟩, rolledBack⟩ := ok
    have dropped : (if handler.rollback then none else pending) = none := by
      split
      · rfl
      · rename_i keeps
        exact rolledBack (by simpa using keeps)
    rw [dropped] at done
    split at done <;> cases done
    · exact inv.stay rfl rfl (Nat.le_refl _) rfl ⟨user, serves⟩ (fun _ h => nomatch h)
    · have running : ∀ r ∈ s.tables.runs, r.retrievalRunId = runId → r.status = .running :=
        fun r member same => inv.unfinished (owns rfl) member same
      exact inv.move (some runId) rfl (tablesOk_fail inv.tables running rfl rfl rfl) keeps_update
        (fun r h => owns h) ⟨user, serves⟩ (fun _ h => nomatch h)
  · -- raise in the pipeline
    cases done
    exact inv.stay rfl rfl (Nat.le_refl _) rfl ⟨⟨_, ok⟩, fun _ => rfl⟩ (fun _ h => owns h)
  · -- raise after the answer
    split at done <;> cases done
    rename_i rollback
    refine inv.stay rfl rfl (Nat.le_refl _) rfl ⟨⟨_, ok.1⟩, fun kept => ?_⟩ (fun _ h => owns h)
    rw [rollback] at kept
    cases kept
  · -- raise after the commit
    cases timely _ found
  · -- raise while no_context_found is handled
    cases done
    exact inv.stay rfl rfl (Nat.le_refl _) rfl ⟨ok.1, fun kept => nomatch kept⟩ (fun _ h => owns h)
  all_goals cases done
  all_goals exact inv.stay rfl rfl (Nat.le_refl _) rfl trivial (fun _ h => nomatch h)

end Steps

section Results
variable {s s' : AskSystem}

theorem AskInvariant.step (inv : AskInvariant s) {action : AskAction} (timely : Timely s action)
    (done : s.step action = some s') : AskStep s s' := by
  cases action with
  | ask id payload =>
    simp only [AskSystem.step] at done
    split at done <;> cases done
    exact inv.stay rfl rfl (Nat.le_refl _) rfl trivial (fun _ h => nomatch h)
  | event id event =>
    obtain ⟨⟨payload, phase⟩, found, advanced⟩ := Option.bind_eq_some_iff.mp done
    exact invariant_advance inv found timely advanced

theorem finished_run {actions : List AskAction} (inv : AskInvariant s)
    (run : Run AskSystem.step Timely s actions s') :
    AskInvariant s' ∧ ∀ r ∈ s.tables.runs, r.status ≠ .running → r ∈ s'.tables.runs := by
  induction run with
  | nil => exact ⟨inv, fun r member _ => member⟩
  | cons timely done _ ih =>
    have one := inv.step timely done
    obtain ⟨last, rest⟩ := ih one.invariant
    exact ⟨last, fun r member finished => rest r (one.finished r member finished) finished⟩

/-- The rows under one message of a client. -/
structure ExactlyOnce (t : AskTables) (chatSessionId : Nat) (clientMessageId : String) : Prop where
  message : (t.messages.filter (isUserMessage chatSessionId clientMessageId)).length ≤ 1
  run : ∀ m ∈ t.messages, isUserMessage chatSessionId clientMessageId m = true →
    (t.runs.filter (isRunFor chatSessionId m.chatMessageId)).length ≤ 1
  answer : ∀ m ∈ t.messages, isUserMessage chatSessionId clientMessageId m = true →
    ∀ r ∈ t.runs, isRunFor chatSessionId m.chatMessageId r = true →
      (t.messages.filter (isAnswerOf chatSessionId r.retrievalRunId)).length ≤ 1 ∧
      ((∃ a ∈ t.messages, isAnswerOf chatSessionId r.retrievalRunId a = true) ↔
        r.status = .succeeded)

theorem TablesOk.exactlyOnce (ok : TablesOk s) (chatSessionId : Nat) (clientMessageId : String) :
    ExactlyOnce s.tables chatSessionId clientMessageId := by
  constructor
  · exact ok.client.at_most_one fun m _ same => (isUserMessage_iff.mp same).2
  · exact fun m _ _ => ok.request.at_most_one fun r _ same => (isRunFor_iff.mp same).2
  · intro m _ _ r hr serves
    obtain ⟨session, request⟩ := isRunFor_iff.mp serves
    refine ⟨ok.answer.at_most_one fun a _ same => (isAnswerOf_iff.mp same).2, ?_⟩
    constructor
    · rintro ⟨a, ha, answer⟩
      obtain ⟨r', hr', same, succeeded, _⟩ := ok.answered a ha _ (isAnswerOf_iff.mp answer).2
      rw [← Table.unique ok.runIds hr' hr same]
      exact succeeded
    · intro succeeded
      obtain ⟨a, ha, index, inSession⟩ := ok.hasAnswer r hr (by rw [request]; rfl) succeeded
      rw [session] at inSession
      exact ⟨a, ha, isAnswerOf_iff.mpr ⟨(Option.some.inj inSession).symm, index⟩⟩

/-- Two responses under one message of a client differ in their replay flag at most. -/
theorem stored_same (ok : TablesOk s) {payload payload' : RagAskRequest}
    (session : payload.chatSessionId = payload'.chatSessionId)
    (client : payload.clientMessageId = payload'.clientMessageId) {body body' : RagAskResponse}
    (first : Stored s.tables payload body) (second : Stored s.tables payload' body') :
    { body with replayed := body'.replayed } = body' := by
  obtain ⟨user, run, assistant, serves, has, answer, built⟩ := first
  obtain ⟨user', run', assistant', serves', has', answer', built'⟩ := second
  have sameUser : user = user' := by
    refine ok.client.eq serves.1 serves'.1 (isUserMessage_iff.mp serves.2.1).2 ?_
    rw [session, client]
    exact (isUserMessage_iff.mp serves'.2.1).2
  subst sameUser
  have sameRun : run = run' :=
    ok.request.eq has.1 has'.1 (isRunFor_iff.mp has.2.2).2 (isRunFor_iff.mp has'.2.2).2
  subst sameRun
  have sameAnswer : assistant = assistant' :=
    ok.answer.eq answer.1 answer'.1 (isAnswerOf_iff.mp answer.2).2 (isAnswerOf_iff.mp answer'.2).2
  subst sameAnswer
  obtain ⟨confidence, has, same⟩ := Option.bind_eq_some_iff.mp built
  obtain ⟨confidence', has', same'⟩ := Option.bind_eq_some_iff.mp built'
  rw [has] at has'
  cases has'
  calc
    { body with replayed := body'.replayed } =
        ⟨user, assistant, listCitationsForRun s.tables run.retrievalRunId, confidence,
          run.retrievalRunId, run.retrievalScoreSummary, body'.replayed⟩ := by
      rw [← Option.some.inj same]
    _ = body' := Option.some.inj same'

/-- A request that the stored text refuses: it has no run and will not get one. -/
def Refused (stored : ChatMessage) : AskPhase → Prop
  | .start | .create | .raced => True
  | .classify existing => existing = stored
  | .done .clientMessageConflict | .done .raised => True
  | _ => False

theorem AskInvariant.refused (inv : AskInvariant s) {id : Nat} {payload : RagAskRequest}
    {phase : AskPhase} (found : s.requests id = some ⟨payload, phase⟩) {stored : ChatMessage}
    (member : stored ∈ s.tables.messages)
    (same : isUserMessage payload.chatSessionId payload.clientMessageId stored = true)
    (otherText : stored.content ≠ payload.message) : Refused stored phase := by
  have only {m : ChatMessage} (hm : m ∈ s.tables.messages)
      (key : isUserMessage payload.chatSessionId payload.clientMessageId m = true) : m = stored :=
    inv.tables.client.eq hm member (isUserMessage_iff.mp key).2 (isUserMessage_iff.mp same).2
  have unserved {user : ChatMessage} (serves : Serves s.tables payload user) : False := by
    apply otherText
    rw [← only serves.1 serves.2.1]
    exact serves.2.2
  have ok := inv.phases id _ found
  cases phase with
  | start => trivial
  | create => trivial
  | raced => trivial
  | classify existing => exact only ok.1 ok.2
  | replay existing run => exact unserved ok.1
  | replayAnswer existing run assistant => exact unserved ok.1
  | created user runId => exact unserved ok.1
  | pipeline user runId => exact unserved ok.1
  | answered user runId pending => exact unserved ok.1.1
  | committed user runId answer => exact unserved ok.1
  | handling runId handler pending inTry =>
    obtain ⟨⟨user, serves, _⟩, _⟩ := ok
    exact unserved serves
  | done outcome =>
    cases outcome with
    | response body =>
      obtain ⟨user, _, _, serves, _⟩ := ok
      exact unserved serves
    | clientMessageConflict => trivial
    | requestInProgress => exact unserved ok.choose_spec
    | conflict => exact unserved ok.choose_spec
    | failed errorCode => exact unserved ok.choose_spec
    | raised => trivial

/-- A refused request changes nothing, and its classification raises the conflict. -/
theorem refused_step {id : Nat} {payload : RagAskRequest} {phase : AskPhase} {stored : ChatMessage}
    (member : stored ∈ s.tables.messages)
    (same : isUserMessage payload.chatSessionId payload.clientMessageId stored = true)
    (otherText : stored.content ≠ payload.message) (refused : Refused stored phase)
    {event : AskEvent} (done : s.advance id payload phase event = some s') :
    s'.tables = s.tables ∧ ∀ existing, phase = .classify existing → event = .classify →
      s'.requests id = some ⟨payload, .done .clientMessageConflict⟩ := by
  have taken : (s.tables.messages.any fun m => m.chatSessionId == payload.chatSessionId &&
      m.clientMessageId == some payload.clientMessageId) = true :=
    List.any_eq_true.mpr ⟨stored, member, clientIndex_of_key.mpr (isUserMessage_iff.mp same).2⟩
  cases phase with
  | start =>
    refine ⟨?_, fun _ h => nomatch h⟩
    cases event with
    | lookup =>
      simp only [AskSystem.advance] at done
      split at done <;> cases done <;> rfl
    | raise error =>
      cases done
      rfl
    | _ => cases done
  | create =>
    refine ⟨?_, fun _ h => nomatch h⟩
    cases event with
    | create now =>
      simp only [AskSystem.advance, taken, if_true] at done
      cases done
      rfl
    | raise error =>
      cases done
      rfl
    | _ => cases done
  | raced =>
    refine ⟨?_, fun _ h => nomatch h⟩
    cases event with
    | lookup =>
      simp only [AskSystem.advance] at done
      split at done <;> cases done <;> rfl
    | raise error =>
      cases done
      rfl
    | _ => cases done
  | classify existing =>
    cases refused
    cases event with
    | classify =>
      cases done
      refine ⟨rfl, fun _ _ _ => ?_⟩
      simp [AskSystem.setPhase, AskSystem.classifyDuplicate, otherText]
    | raise error =>
      cases done
      exact ⟨rfl, fun _ _ h => nomatch h⟩
    | _ => cases done
  | done outcome => cases event <;> cases done
  | _ => exact refused.elim

end Results

section Main
variable {s s' : AskSystem}

theorem find_of_unique {R : Type} {p : R → Bool} {rows : List R} {r : R} (member : r ∈ rows)
    (hit : p r = true) (only : ∀ q ∈ rows, p q = true → q = r) : rows.find? p = some r := by
  cases found : rows.find? p with
  | none => exact absurd hit (List.find?_eq_none.mp found r member)
  | some q => rw [only q (List.mem_of_find?_eq_some found) (List.find?_some found)]

theorem head_of_unique {R : Type} {p : R → Bool} {rows : List R} {r : R} (member : r ∈ rows)
    (hit : p r = true) (only : ∀ q ∈ rows, p q = true → q = r) (rel : R → R → Prop)
    [DecidableRel rel] : ((rows.filter p).insertionSort rel).head? = some r := by
  cases sorted : (rows.filter p).insertionSort rel with
  | nil =>
    have present : r ∈ (rows.filter p).insertionSort rel :=
      (List.mem_insertionSort _).mpr (List.mem_filter.mpr ⟨member, hit⟩)
    rw [sorted] at present
    cases present
  | cons q rest =>
    have present : q ∈ (rows.filter p).insertionSort rel := sorted ▸ List.mem_cons_self
    obtain ⟨hq, same⟩ := List.mem_filter.mp ((List.mem_insertionSort _).mp present)
    rw [List.head?_cons, only q hq same]

theorem step_event {id : Nat} {payload : RagAskRequest} {phase : AskPhase} {event : AskEvent}
    (found : s.requests id = some ⟨payload, phase⟩) :
    s.step (.event id event) = s.advance id payload phase event := by
  simp only [AskSystem.step, found, Option.bind_some]

theorem setPhase_self {id : Nat} {payload : RagAskRequest} {phase : AskPhase} :
    (s.setPhase id payload phase).requests id = some ⟨payload, phase⟩ := if_pos rfl

/-- A later request with the text of an answered one replays the answer. -/
theorem replay_of_answered (ok : TablesOk s) {id : Nat} {payload : RagAskRequest}
    (found : s.requests id = some ⟨payload, .start⟩) {user : ChatMessage} {run : RetrievalRun}
    (serves : Serves s.tables payload user) (has : HasRun s.tables payload user run .succeeded) :
    ∃ s' body, exec AskSystem.step s [.event id .lookup, .event id .classify,
        .event id .readAssistant, .event id .respond] = some s' ∧
      s'.requests id = some ⟨payload, .done (.response body)⟩ ∧ s'.tables = s.tables ∧
      Stored s.tables payload body ∧ body.replayed = true := by
  obtain ⟨session, request⟩ := isRunFor_iff.mp has.2.2
  have fromChat : run.requestMessageId.isSome := by rw [request]; rfl
  obtain ⟨answer, hAnswer, index, inSession⟩ := ok.hasAnswer run has.1 fromChat has.2.1
  have isAnswer : isAnswerOf payload.chatSessionId run.retrievalRunId answer = true :=
    isAnswerOf_iff.mpr ⟨Option.some.inj (inSession.symm.trans session), index⟩
  obtain ⟨body, built⟩ := Option.isSome_iff_exists.mp (askResponse_isSome
    (ok.scored run has.1 fromChat has.2.1) : (askResponse user answer
      (listCitationsForRun s.tables run.retrievalRunId) run true).isSome)
  have looked : getUserMessageByClientMessageId s.tables payload.chatSessionId
      payload.clientMessageId = some user :=
    find_of_unique serves.1 serves.2.1 fun m hm same => ok.client.eq hm serves.1
      (isUserMessage_iff.mp same).2 (isUserMessage_iff.mp serves.2.1).2
  have latest : getLatestRunForRequestMessage s.tables payload.chatSessionId user.chatMessageId =
      some run :=
    head_of_unique has.1 has.2.2 (fun r hr same => ok.request.eq hr has.1
      (isRunFor_iff.mp same).2 request) _
  have answered : getAssistantMessageForRetrievalRun s.tables payload.chatSessionId
      run.retrievalRunId = some answer :=
    head_of_unique hAnswer isAnswer (fun m hm same => ok.answer.eq hm hAnswer
      (isAnswerOf_iff.mp same).2 index) _
  have stored : Stored s.tables payload body :=
    ⟨user, run, answer, serves, has, ⟨hAnswer, isAnswer⟩, by rw [askResponse_replayed built, built]⟩
  have classified : s.classifyDuplicate payload user = .replay user run := by
    simp [AskSystem.classifyDuplicate, serves.2.2, latest, has.2.1]
  have first : s.step (.event id .lookup) = some (s.setPhase id payload (.classify user)) := by
    rw [step_event found]
    simp only [AskSystem.advance, looked]
  have second : (s.setPhase id payload (.classify user)).step (.event id .classify) =
      some ((s.setPhase id payload (.classify user)).setPhase id payload (.replay user run)) := by
    rw [step_event setPhase_self, ← classified]
    rfl
  obtain ⟨m, middle⟩ : ∃ m, m = (s.setPhase id payload (.classify user)).setPhase id payload
    (.replay user run) := ⟨_, rfl⟩
  have sameTables : m.tables = s.tables := by rw [middle]; rfl
  have third : m.step (.event id .readAssistant) =
      some (m.setPhase id payload (.replayAnswer user run answer)) := by
    rw [step_event (middle ▸ setPhase_self)]
    simp only [AskSystem.advance, sameTables, answered]
  have fourth : (m.setPhase id payload (.replayAnswer user run answer)).step (.event id .respond) =
      some ((m.setPhase id payload (.replayAnswer user run answer)).setPhase id payload
        (.done (.response body))) := by
    rw [step_event setPhase_self]
    have listed : (m.setPhase id payload (.replayAnswer user run answer)).tables = s.tables :=
      sameTables
    simp only [AskSystem.advance, listed, built, AskSystem.outcomeOf]
  refine ⟨(m.setPhase id payload (.replayAnswer user run answer)).setPhase id payload
    (.done (.response body)), body, ?_, setPhase_self, sameTables, stored, askResponse_replayed built⟩
  rw [← middle] at second
  simp only [exec, first, second, third, fourth, Option.bind_some]

/-- An exception after the final commit: the handler fails a run that had succeeded. -/
theorem late_error (inv : AskInvariant s) {id runId : Nat} {payload : RagAskRequest}
    {user answer : ChatMessage} {now : Time} {s'' : AskSystem}
    (found : s.requests id = some ⟨payload, .committed user runId answer⟩)
    (raised : s.step (.event id (.raise .other)) = some s')
    (handled : s'.step (.event id (.markFailed now)) = some s'') :
    ∃ r ∈ s.tables.runs, r.retrievalRunId = runId ∧ r.status = .succeeded ∧
      ∃ r' ∈ s''.tables.runs, r'.retrievalRunId = runId ∧ r'.status = .failed := by
  obtain ⟨_, run, has, sameId, _⟩ := inv.phases id _ found
  rw [step_event found] at raised
  cases raised
  rw [step_event setPhase_self] at handled
  have row : getRun s.tables runId = some run := by
    rw [← sameId]
    exact Table.row_of_mem inv.tables.runIds has.1
  simp only [AskSystem.advance, AskSystem.setPhase, row, handlerOf] at handled
  cases handled
  exact ⟨run, has.1, sameId, has.2.1, _, List.mem_map.mpr ⟨run, has.1, if_pos sameId⟩, sameId, rfl⟩

/-- What the requests under one message of a client can rely on. -/
structure AskGuarantee (s : AskSystem) : Prop where
  once : ∀ chatSessionId clientMessageId, ExactlyOnce s.tables chatSessionId clientMessageId
  stored : ∀ id payload body, s.requests id = some ⟨payload, .done (.response body)⟩ →
    Stored s.tables payload body
  same : ∀ id id' payload payload' body body',
    s.requests id = some ⟨payload, .done (.response body)⟩ →
    s.requests id' = some ⟨payload', .done (.response body')⟩ →
    payload.chatSessionId = payload'.chatSessionId →
    payload.clientMessageId = payload'.clientMessageId →
    { body with replayed := body'.replayed } = body'
  replays : ∀ id payload user run, s.requests id = some ⟨payload, .start⟩ →
    Serves s.tables payload user → HasRun s.tables payload user run .succeeded →
    ∃ s' body, exec AskSystem.step s [.event id .lookup, .event id .classify,
        .event id .readAssistant, .event id .respond] = some s' ∧
      s'.requests id = some ⟨payload, .done (.response body)⟩ ∧ s'.tables = s.tables ∧
      Stored s.tables payload body ∧ body.replayed = true
  refused : ∀ id payload phase stored, s.requests id = some ⟨payload, phase⟩ →
    stored ∈ s.tables.messages →
    isUserMessage payload.chatSessionId payload.clientMessageId stored = true →
    stored.content ≠ payload.message → Refused stored phase ∧
      ∀ event s', s.step (.event id event) = some s' → s'.tables = s.tables ∧
        ∀ existing, phase = .classify existing → event = .classify →
          s'.requests id = some ⟨payload, .done .clientMessageConflict⟩

theorem AskInvariant.guarantee (inv : AskInvariant s) : AskGuarantee s := by
  constructor
  · exact inv.tables.exactlyOnce
  · exact fun id payload body found => inv.phases id _ found
  · intro id id' payload payload' body body' first second session client
    exact stored_same inv.tables session client (inv.phases id _ first) (inv.phases id' _ second)
  · exact fun id payload user run found serves has => replay_of_answered inv.tables found serves has
  · intro id payload phase stored found member same otherText
    have refused := inv.refused found member same otherText
    refine ⟨refused, fun event s' done => ?_⟩
    rw [step_event found] at done
    exact refused_step member same otherText refused done

/-- Tables as they may be found, and no request in flight. -/
structure AskStart (s : AskSystem) : Prop where
  tables : TablesOk s
  idle : ∀ id, s.requests id = none

theorem AskStart.invariant (initial : AskStart s) : AskInvariant s := by
  refine ⟨initial.tables, ?_, ?_⟩
  · intro id q found
    rw [initial.idle id] at found
    cases found
  · rintro id id' runId ⟨q, found, _⟩
    rw [initial.idle id] at found
    cases found

/-- Every interleaving in which no exception comes after a final commit is exactly once, and no
finished run changes again. The first such exception, once handled, fails a run that had
succeeded. -/
theorem ask_exactly_once (start : AskSystem) (initial : AskStart start) (actions : List AskAction)
    (s : AskSystem) (run : Run AskSystem.step Timely start actions s) :
    AskGuarantee s ∧
    (∀ more t, Run AskSystem.step Timely s more t → ∀ r ∈ s.tables.runs, r.status ≠ .running →
      r ∈ t.tables.runs ∧ ∀ r' ∈ t.tables.runs, r'.retrievalRunId = r.retrievalRunId → r' = r) ∧
    ∀ id payload user runId answer, s.requests id = some ⟨payload, .committed user runId answer⟩ →
      ∀ s' s'' now, s.step (.event id (.raise .other)) = some s' →
        s'.step (.event id (.markFailed now)) = some s'' →
        ∃ r ∈ s.tables.runs, r.retrievalRunId = runId ∧ r.status = .succeeded ∧
          ∃ r' ∈ s''.tables.runs, r'.retrievalRunId = runId ∧ r'.status = .failed := by
  obtain ⟨inv, _⟩ := finished_run initial.invariant run
  refine ⟨inv.guarantee, ?_, ?_⟩
  · intro more t further r member finished
    obtain ⟨last, kept⟩ := finished_run inv further
    have still := kept r member finished
    exact ⟨still, fun r' member' same => Table.unique last.tables.runIds member' still same⟩
  · intro id payload user runId answer found s' s'' now raised handled
    exact late_error inv found raised handled

end Main

section Witness

/-- No messages and no requests. -/
def emptyAsk : AskSystem where
  tables := ⟨[], [], [], []⟩
  nextMessageId := 1
  nextRunId := 1
  requests _ := none

theorem emptyAsk_start : AskStart emptyAsk := by
  refine ⟨⟨⟨?_, ?_, ?_, ?_⟩, ?_, ?_, ?_, ?_, ?_, ?_⟩, fun _ => rfl⟩ <;>
    simp [emptyAsk, Table.UniqueIndex]

def question : RagAskRequest := ⟨1, "c-1", "What is the limit?"⟩

def highScores : Scores := ⟨[], some 1, 1, 1, .high⟩

/-- One request up to its second commit. -/
def answeredRun : List AskAction :=
  [.ask 1 question, .event 1 .lookup, .event 1 (.create 10), .event 1 .enter,
   .event 1 (.answer "Ten [1]." [⟨1, 7, true⟩] [⟨1, 1, 7, "limit: ten", none, none, "handbook", 1⟩] 11),
   .event 1 (.commit highScores 12)]

def timelyTest (s : AskSystem) : AskAction → Bool
  | .event id (.raise _) => (s.requests id).all fun q => !q.phase.isCommitted
  | _ => true

theorem timely_of_test (s : AskSystem) (action : AskAction) (passed : timelyTest s action = true) :
    Timely s action := by
  cases action with
  | ask id payload => trivial
  | event id event =>
    cases event with
    | raise error =>
      intro q found
      simpa [timelyTest, found] using passed
    | _ => trivial

theorem ask_exactly_once_answered :
    ∃ s, exec (guarded AskSystem.step timelyTest) emptyAsk answeredRun = some s ∧
      AskGuarantee s ∧ ∀ more t, Run AskSystem.step Timely s more t →
        ∀ r ∈ s.tables.runs, r.status ≠ .running → r ∈ t.tables.runs ∧
          ∀ r' ∈ t.tables.runs, r'.retrievalRunId = r.retrievalRunId → r' = r := by
  have completes : (exec (guarded AskSystem.step timelyTest) emptyAsk answeredRun).isSome := by
    decide +kernel
  obtain ⟨s, done⟩ := Option.isSome_iff_exists.mp completes
  obtain ⟨guarantee, final, _⟩ := ask_exactly_once emptyAsk emptyAsk_start answeredRun s
    (run_of_guarded timely_of_test done)
  exact ⟨s, done, guarantee, final⟩

/-- The final commit is followed by an exception, for example in a refresh after the trace export
has broken the session: the run is failed although its answer is stored, and a duplicate request
gets a conflict instead of the answer. -/
theorem late_error_fails_run :
    ((exec AskSystem.step emptyAsk answeredRun).any fun s =>
      s.tables.runs.map (·.status) == [.succeeded]) ∧
    (exec AskSystem.step emptyAsk (answeredRun ++ [.event 1 (.raise .other),
        .event 1 (.markFailed 13), .ask 2 question, .event 2 .lookup, .event 2 .classify])).any
      fun s => s.tables.runs.map (·.status) == [.failed] &&
        s.tables.messages.any (isAnswerOf 1 1) &&
        (s.requests 2).map (·.phase) == some (.done .conflict) := by
  decide +kernel

end Witness

end RagProject.Rag
