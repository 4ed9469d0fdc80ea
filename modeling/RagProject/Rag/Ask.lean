import RagProject.Jobs.Repository
import RagProject.Lib.Interleaving
import RagProject.Lib.Python

/-! RagService.ask (services/rag_service.py) as its committed transactions, with the parts of
ChatRepository and RetrievalRepository that it reads and writes. Any number of requests run at
once, and any step may raise. -/
namespace RagProject.Rag
open Python Jobs

section Rows

inductive Role where
  | user | assistant | system
  deriving DecidableEq, Repr

structure ChatMessage where
  chatMessageId : Nat
  chatSessionId : Nat
  role : Role
  content : String
  clientMessageId : Option String
  linkedRetrievalRunId : Option Nat
  createdAt : Time
  deriving DecidableEq, Repr

inductive RunStatus where
  | running | succeeded | failed
  deriving DecidableEq, Repr

inductive ConfidenceLabel where
  | high | medium | low
  deriving DecidableEq, Repr

structure RetrievalRun where
  retrievalRunId : Nat
  chatSessionId : Option Nat
  requestMessageId : Option Nat
  status : RunStatus
  errorCode : Option String
  retrievalScoreSummary : Option Dict
  rerankScoreTop1 : Option Rat
  answerConfidence : Option Rat
  groundednessScore : Option Rat
  confidenceLabel : Option ConfidenceLabel
  startedAt : Option Time
  finishedAt : Option Time
  createdAt : Time
  deriving DecidableEq, Repr

structure RetrievalRunItem where
  retrievalRunId : Nat
  documentChunkId : Nat
  selectedFlag : Bool
  deriving DecidableEq, Repr

structure Citation where
  citationId : Nat
  retrievalRunId : Nat
  documentChunkId : Nat
  snippet : String
  pageFrom : Option Nat
  pageTo : Option Nat
  displayLabel : String
  rankOrder : Nat
  deriving DecidableEq, Repr

structure AskTables where
  messages : List ChatMessage
  runs : List RetrievalRun
  items : List RetrievalRunItem
  citations : List Citation
  deriving DecidableEq, Repr

end Rows

section Repositories
variable (t : AskTables)

def isUserMessage (chatSessionId : Nat) (clientMessageId : String) (m : ChatMessage) : Bool :=
  m.chatSessionId == chatSessionId && m.role == .user && m.clientMessageId == some clientMessageId

def getUserMessageByClientMessageId (chatSessionId : Nat) (clientMessageId : String) :
    Option ChatMessage :=
  t.messages.find? (isUserMessage chatSessionId clientMessageId)

def isRunFor (chatSessionId requestMessageId : Nat) (r : RetrievalRun) : Bool :=
  r.chatSessionId == some chatSessionId && r.requestMessageId == some requestMessageId

/-- The newest run of a message: by creation time, then by id. -/
def getLatestRunForRequestMessage (chatSessionId requestMessageId : Nat) : Option RetrievalRun :=
  ((t.runs.filter (isRunFor chatSessionId requestMessageId)).insertionSort fun a b =>
    b.createdAt < a.createdAt ∨ b.createdAt = a.createdAt ∧ b.retrievalRunId ≤ a.retrievalRunId).head?

def isAnswerOf (chatSessionId retrievalRunId : Nat) (m : ChatMessage) : Bool :=
  m.chatSessionId == chatSessionId && m.role == .assistant &&
    m.linkedRetrievalRunId == some retrievalRunId

def getAssistantMessageForRetrievalRun (chatSessionId retrievalRunId : Nat) : Option ChatMessage :=
  ((t.messages.filter (isAnswerOf chatSessionId retrievalRunId)).insertionSort fun a b =>
    a.chatMessageId ≤ b.chatMessageId).head?

/-- The citations of a run whose retrieval item is selected, by rank. -/
def listCitationsForRun (retrievalRunId : Nat) : List Citation :=
  (t.citations.filter fun c => c.retrievalRunId == retrievalRunId && t.items.any fun item =>
    item.retrievalRunId == c.retrievalRunId && item.documentChunkId == c.documentChunkId &&
      item.selectedFlag).insertionSort
    fun a b => a.rankOrder < b.rankOrder ∨ a.rankOrder = b.rankOrder ∧ a.citationId ≤ b.citationId

def getRun (retrievalRunId : Nat) : Option RetrievalRun :=
  Table.row RetrievalRun.retrievalRunId t.runs retrievalRunId

def terminalTime (run : RetrievalRun) (finishedAt : Time) : Time :=
  match run.startedAt with
  | some startedAt => if finishedAt < startedAt then startedAt else finishedAt
  | none => finishedAt

/-- What mark_succeeded is given. -/
structure Scores where
  retrievalScoreSummary : Dict
  rerankScoreTop1 : Option Rat
  answerConfidence : Rat
  groundednessScore : Rat
  confidenceLabel : ConfidenceLabel
  deriving DecidableEq, Repr

def markSucceeded (scores : Scores) (finishedAt : Time) (run : RetrievalRun) : RetrievalRun :=
  { run with
    status := .succeeded
    errorCode := none
    retrievalScoreSummary := some scores.retrievalScoreSummary
    rerankScoreTop1 := scores.rerankScoreTop1
    answerConfidence := some scores.answerConfidence
    groundednessScore := some scores.groundednessScore
    confidenceLabel := some scores.confidenceLabel
    finishedAt := some (terminalTime run finishedAt) }

def markFailed (errorCode : String) (finishedAt : Time) (run : RetrievalRun) : RetrievalRun :=
  { run with
    status := .failed
    errorCode := some errorCode
    finishedAt := some (terminalTime run finishedAt)
    answerConfidence := none
    groundednessScore := none
    confidenceLabel := none }

def updateRun (retrievalRunId : Nat) (values : RetrievalRun → RetrievalRun) : AskTables :=
  { t with runs := t.runs.map fun r => if r.retrievalRunId = retrievalRunId then values r else r }

end Repositories

section Requests

structure RagAskRequest where
  chatSessionId : Nat
  clientMessageId : String
  message : String
  deriving DecidableEq, Repr

structure RagAskConfidence where
  answerConfidence : Rat
  groundednessScore : Rat
  confidenceLabel : ConfidenceLabel
  deriving DecidableEq, Repr

/-- The stored parts of a response. -/
structure RagAskResponse where
  userMessage : ChatMessage
  assistantMessage : ChatMessage
  citations : List Citation
  confidence : RagAskConfidence
  retrievalRunId : Nat
  retrievalScoreSummary : Option Dict
  replayed : Bool
  deriving DecidableEq, Repr

/-- _confidence_response; it raises when a part is missing. -/
def confidenceResponse (run : RetrievalRun) : Option RagAskConfidence := do
  let answerConfidence ← run.answerConfidence
  let groundednessScore ← run.groundednessScore
  let confidenceLabel ← run.confidenceLabel
  return ⟨answerConfidence, groundednessScore, confidenceLabel⟩

def askResponse (userMessage assistantMessage : ChatMessage) (citations : List Citation)
    (run : RetrievalRun) (replayed : Bool) : Option RagAskResponse := do
  let confidence ← confidenceResponse run
  return ⟨userMessage, assistantMessage, citations, confidence, run.retrievalRunId,
    run.retrievalScoreSummary, replayed⟩

/-- The classes of exceptions that the handlers of ask tell apart. -/
inductive AskError where
  | insufficientEvidence | citationBuild | retrieval | rerank | answerGeneration | other
  deriving DecidableEq, Repr

structure Handler where
  errorCode : String
  rollback : Bool
  deriving DecidableEq, Repr

def handlerOf : AskError → Handler
  | .insufficientEvidence => ⟨"no_context_found", false⟩
  | .citationBuild => ⟨"citation_build_failed", false⟩
  | .retrieval => ⟨"retrieval_failed", true⟩
  | .rerank => ⟨"rerank_failed", true⟩
  | .answerGeneration => ⟨"generation_failed", false⟩
  | .other => ⟨"internal_error", true⟩

inductive AskOutcome where
  | response (body : RagAskResponse)
  | clientMessageConflict
  | requestInProgress
  | conflict
  | failed (errorCode : String)
  | raised
  deriving DecidableEq, Repr

/-- The rows of the second transaction before its commit. The items that a handler without a
rollback commits with a failed run are left out: nothing reads them. -/
structure Pending where
  answer : ChatMessage
  items : List RetrievalRunItem
  citations : List Citation
  deriving DecidableEq, Repr

def Pending.write (pending : Pending) (t : AskTables) : AskTables :=
  { t with
    messages := t.messages ++ [pending.answer]
    items := t.items ++ pending.items
    citations := t.citations ++ pending.citations }

/-- Where a request is between two of its steps. -/
inductive AskPhase where
  | start
  | create
  | raced
  | classify (existing : ChatMessage)
  | replay (existing : ChatMessage) (run : RetrievalRun)
  | replayAnswer (existing : ChatMessage) (run : RetrievalRun) (assistant : ChatMessage)
  | created (userMessage : ChatMessage) (runId : Nat)
  | pipeline (userMessage : ChatMessage) (runId : Nat)
  | answered (userMessage : ChatMessage) (runId : Nat) (pending : Pending)
  | committed (userMessage : ChatMessage) (runId : Nat) (answer : ChatMessage)
  | handling (runId : Nat) (handler : Handler) (pending : Option Pending) (inTry : Bool)
  | done (outcome : AskOutcome)
  deriving DecidableEq, Repr

structure AskInFlight where
  payload : RagAskRequest
  phase : AskPhase
  deriving DecidableEq, Repr

end Requests

section Steps

structure AskSystem where
  tables : AskTables
  nextMessageId : Nat
  nextRunId : Nat
  requests : Nat → Option AskInFlight

inductive AskEvent where
  | lookup
  | create (now : Time)
  | classify
  | readAssistant
  | enter
  | noContext
  | answer (content : String) (items : List RetrievalRunItem) (citations : List Citation) (now : Time)
  | commit (scores : Scores) (now : Time)
  | respond
  | raise (error : AskError)
  | markFailed (now : Time)
  deriving DecidableEq, Repr

inductive AskAction where
  | ask (requestId : Nat) (payload : RagAskRequest)
  | event (requestId : Nat) (event : AskEvent)
  deriving DecidableEq, Repr

namespace AskSystem
variable (s : AskSystem)

def setPhase (requestId : Nat) (payload : RagAskRequest) (phase : AskPhase) : AskSystem :=
  { s with requests := fun id => if id = requestId then some ⟨payload, phase⟩ else s.requests id }

def newUserMessage (payload : RagAskRequest) (now : Time) : ChatMessage where
  chatMessageId := s.nextMessageId
  chatSessionId := payload.chatSessionId
  role := .user
  content := payload.message
  clientMessageId := some payload.clientMessageId
  linkedRetrievalRunId := none
  createdAt := now

def newRun (payload : RagAskRequest) (now : Time) : RetrievalRun where
  retrievalRunId := s.nextRunId
  chatSessionId := some payload.chatSessionId
  requestMessageId := some s.nextMessageId
  status := .running
  errorCode := none
  retrievalScoreSummary := none
  rerankScoreTop1 := none
  answerConfidence := none
  groundednessScore := none
  confidenceLabel := none
  startedAt := some now
  finishedAt := none
  createdAt := now

/-- The first transaction: the user message and the running run. -/
def createFirst (payload : RagAskRequest) (now : Time) : AskSystem :=
  { s with
    tables := { s.tables with
      messages := s.tables.messages ++ [s.newUserMessage payload now]
      runs := s.tables.runs ++ [s.newRun payload now] }
    nextMessageId := s.nextMessageId + 1
    nextRunId := s.nextRunId + 1 }

/-- _classify_duplicate up to the status of the run. -/
def classifyDuplicate (payload : RagAskRequest) (existing : ChatMessage) : AskPhase :=
  if existing.content ≠ payload.message then .done .clientMessageConflict
  else match getLatestRunForRequestMessage s.tables payload.chatSessionId existing.chatMessageId with
    | none => .done .requestInProgress
    | some run => match run.status with
      | .running => .done .requestInProgress
      | .failed => .done .conflict
      | .succeeded => .replay existing run

def answerMessage (payload : RagAskRequest) (runId : Nat) (content : String) (now : Time) :
    ChatMessage where
  chatMessageId := s.nextMessageId
  chatSessionId := payload.chatSessionId
  role := .assistant
  content := content
  clientMessageId := none
  linkedRetrievalRunId := some runId
  createdAt := now

def outcomeOf : Option RagAskResponse → AskPhase
  | some body => .done (.response body)
  | none => .done .raised

/-- One step of a request in flight. -/
def advance (requestId : Nat) (payload : RagAskRequest) :
    AskPhase → AskEvent → Option AskSystem
  | .start, .lookup =>
    match getUserMessageByClientMessageId s.tables payload.chatSessionId payload.clientMessageId with
    | some existing => some (s.setPhase requestId payload (.classify existing))
    | none => some (s.setPhase requestId payload .create)
  | .create, .create now =>
    -- ux_chat_messages_client_message_id refuses a second message of the client.
    if s.tables.messages.any fun m => m.chatSessionId == payload.chatSessionId &&
        m.clientMessageId == some payload.clientMessageId then
      some { s.setPhase requestId payload .raced with nextMessageId := s.nextMessageId + 1 }
    else
      some ((s.createFirst payload now).setPhase requestId payload
        (.created (s.newUserMessage payload now) s.nextRunId))
  | .raced, .lookup =>
    match getUserMessageByClientMessageId s.tables payload.chatSessionId payload.clientMessageId with
    | some existing => some (s.setPhase requestId payload (.classify existing))
    | none => some (s.setPhase requestId payload (.done .conflict))
  | .classify existing, .classify =>
    some (s.setPhase requestId payload (s.classifyDuplicate payload existing))
  | .replay existing run, .readAssistant =>
    match getAssistantMessageForRetrievalRun s.tables payload.chatSessionId run.retrievalRunId with
    | some assistant => some (s.setPhase requestId payload (.replayAnswer existing run assistant))
    | none => some (s.setPhase requestId payload (.done .conflict))
  | .replayAnswer existing run assistant, .respond =>
    some (s.setPhase requestId payload (outcomeOf (askResponse existing assistant
      (listCitationsForRun s.tables run.retrievalRunId) run true)))
  | .created userMessage runId, .enter =>
    some (s.setPhase requestId payload (.pipeline userMessage runId))
  | .pipeline _ runId, .noContext =>
    some (s.setPhase requestId payload (.handling runId (handlerOf .insufficientEvidence) none true))
  | .pipeline userMessage runId, .answer content items citations now =>
    -- The items and the citations of a run carry its id.
    if (items.all (·.retrievalRunId == runId)) && citations.all (·.retrievalRunId == runId) then
      some ({ s with nextMessageId := s.nextMessageId + 1 }.setPhase requestId payload
        (.answered userMessage runId
          ⟨s.answerMessage payload runId content now, items, citations⟩))
    else none
  | .answered userMessage runId pending, .commit scores now =>
    match getRun s.tables runId with
    | none => none
    | some _ =>
      some ({ s with tables := pending.write (updateRun s.tables runId (markSucceeded scores now)) }.setPhase
        requestId payload (.committed userMessage runId pending.answer))
  | .committed userMessage runId answer, .respond =>
    -- Still inside the try block: what fails here is handled as well.
    match (getRun s.tables runId).bind fun run => askResponse userMessage answer
        (listCitationsForRun s.tables runId) run false with
    | some body => some (s.setPhase requestId payload (.done (.response body)))
    | none => some (s.setPhase requestId payload (.handling runId (handlerOf .other) none false))
  | .handling runId handler pending _, .markFailed now =>
    -- Without a rollback the commit takes what is pending along.
    let kept := if handler.rollback then none else pending
    let tables := (kept.map fun p => p.write s.tables).getD s.tables
    match getRun s.tables runId with
    | none => some (s.setPhase requestId payload (.done (.failed handler.errorCode)))
    | some _ =>
      some ({ s with tables := updateRun tables runId (markFailed handler.errorCode now) }.setPhase
        requestId payload (.done (.failed handler.errorCode)))
  | .pipeline _ runId, .raise error =>
    some (s.setPhase requestId payload (.handling runId (handlerOf error) none false))
  | .answered _ runId pending, .raise error =>
    -- Only generation and validation raise the classes that are handled without a rollback.
    if (handlerOf error).rollback then
      some (s.setPhase requestId payload (.handling runId (handlerOf error) (some pending) false))
    else none
  | .committed _ runId _, .raise .other =>
    some (s.setPhase requestId payload (.handling runId (handlerOf .other) none false))
  | .handling runId _ pending true, .raise _ =>
    some (s.setPhase requestId payload (.handling runId (handlerOf .other) pending false))
  | .handling _ _ _ false, .raise _ => some (s.setPhase requestId payload (.done .raised))
  | .start, .raise _ | .create, .raise _ | .raced, .raise _ | .classify _, .raise _
  | .replay _ _, .raise _ | .replayAnswer _ _ _, .raise _ | .created _ _, .raise _ =>
    some (s.setPhase requestId payload (.done .raised))
  | _, _ => none

def step : AskAction → Option AskSystem
  | .ask requestId payload =>
    if (s.requests requestId).isSome then none else some (s.setPhase requestId payload .start)
  | .event requestId event =>
    (s.requests requestId).bind fun request => s.advance requestId request.payload request.phase event

end AskSystem

end Steps

end RagProject.Rag
