import RagProject.Rag.Ask

/-! EvaluationRagQuestionService (evaluation/rag_service.py): a question is searched and answered
in its own transactions, any number of calls at once. evaluate_question on the default strategy
remembers its run. answer_question_with_strategy on the dense and the graph path looks the run up
again, by request id, when it has to report a failure. -/
namespace RagProject.Evaluation
open Python Jobs Rag

section Rows

/-- A retrieval run with the id of the request that made it. -/
structure StandaloneRun extends RetrievalRun where
  requestId : Option String
  deriving DecidableEq, Repr

structure RunTables where
  runs : List StandaloneRun
  citations : List Citation
  deriving DecidableEq, Repr

def createStandaloneRun (runId : Nat) (requestId : Option String) (now createdAt : Time) :
    StandaloneRun where
  retrievalRunId := runId
  chatSessionId := none
  requestMessageId := none
  status := .running
  errorCode := none
  retrievalScoreSummary := none
  rerankScoreTop1 := none
  answerConfidence := none
  groundednessScore := none
  confidenceLabel := none
  startedAt := some now
  finishedAt := none
  createdAt := createdAt
  requestId := requestId

/-- mark_succeeded without a confidence: the run of a search, or of an abstention. -/
def markSearched (retrievalScoreSummary : Dict) (rerankScoreTop1 : Option Rat) (finishedAt : Time)
    (run : RetrievalRun) : RetrievalRun :=
  { run with
    status := .succeeded
    errorCode := none
    retrievalScoreSummary := some retrievalScoreSummary
    rerankScoreTop1 := rerankScoreTop1
    answerConfidence := none
    groundednessScore := none
    confidenceLabel := none
    finishedAt := some (terminalTime run finishedAt) }

variable (t : RunTables)

def updateStandaloneRun (runId : Nat) (values : RetrievalRun → RetrievalRun) : RunTables :=
  { t with runs := t.runs.map fun r =>
      if r.retrievalRunId = runId then { r with toRetrievalRun := values r.toRetrievalRun } else r }

/-- The order created_at DESC, retrieval_run_id DESC. -/
def laterRun (a b : StandaloneRun) : Prop :=
  b.createdAt < a.createdAt ∨ b.createdAt = a.createdAt ∧ b.retrievalRunId ≤ a.retrievalRunId

instance : DecidableRel laterRun := fun a b => by unfold laterRun; infer_instance

def latestRetrievalRunId : Option String → Option Nat
  | none => none
  | some requestId =>
    ((t.runs.filter (·.requestId == some requestId)).insertionSort laterRun).head?.map
      (·.retrievalRunId)

end Rows

section Calls

structure RagEvaluationResult where
  retrievalRunId : Option Nat
  status : RunStatus
  answerText : String
  errorCode : Option String
  deriving DecidableEq, Repr

def failedEvaluationResult (retrievalRunId : Option Nat) (errorCode : String) :
    RagEvaluationResult :=
  ⟨retrievalRunId, .failed, "", some errorCode⟩

/-- Where a call is between two of its transactions. -/
inductive AnswerPhase where
  | start
  | searching
  | searched
  | answered (answerText : String)
  | handling (errorCode : String)
  | marking (errorCode : String) (found : Option Nat)
  | returning (errorCode : String)
  | done (result : RagEvaluationResult)
  | raised
  deriving DecidableEq, Repr

structure AnswerCall where
  requestId : Option String
  /-- evaluate_question on the default strategy keeps run_id at hand. -/
  remembersRun : Bool
  createdRun : Option Nat
  phase : AnswerPhase
  deriving DecidableEq, Repr

inductive AnswerError where
  | citationBuild | answerGeneration | other
  deriving DecidableEq, Repr

inductive SearchError where
  | retrieval | rerank
  deriving DecidableEq, Repr

def SearchError.code : SearchError → String
  | .retrieval => "retrieval_failed"
  | .rerank => "rerank_failed"

inductive AnswerEvent where
  | reject
  | create (runId : Nat) (now createdAt : Time)
  | searchFails (error : SearchError) (now : Time)
  | searchRaises (now : Time)
  | search (summary : Dict) (top1 : Option Rat) (now : Time)
  | noContext (now : Time)
  | providerSkipped
  | abstain (answerText : String) (summary : Dict) (top1 : Option Rat) (now : Time)
  | answer (answerText : String) (citations : List Citation) (scores : Scores) (now : Time)
  | respond
  | raise (error : AnswerError) (now : Time)
  | lookup
  | markFailed (now : Time)
  | readLatest
  deriving DecidableEq, Repr

structure AnswerSystem where
  tables : RunTables
  calls : Nat → Option AnswerCall

inductive AnswerAction where
  | call (callId : Nat) (requestId : Option String) (remembersRun : Bool)
  | event (callId : Nat) (event : AnswerEvent)
  deriving DecidableEq, Repr

namespace AnswerSystem
variable (s : AnswerSystem)

def setCall (callId : Nat) (call : AnswerCall) : AnswerSystem :=
  { s with calls := fun id => if id = callId then some call else s.calls id }

/-- A transaction that writes the run of the call. -/
def writeRun (runId : Nat) (values : RetrievalRun → RetrievalRun) : AnswerSystem :=
  { s with tables := updateStandaloneRun s.tables runId values }

/-- One step of a call. `move` goes to another phase of the same call. -/
def advance (callId : Nat) (call : AnswerCall) (event : AnswerEvent) : Option AnswerSystem :=
  let move (s : AnswerSystem) (phase : AnswerPhase) : Option AnswerSystem :=
    some (s.setCall callId { call with phase := phase })
  match call.phase, call.createdRun, event with
  | .start, none, .reject =>
    -- RagSearchPipelineError before the run is created; the other entry checks no strategy.
    if call.remembersRun then none else move s (.returning "strategy_not_enabled")
  | .start, none, .create runId now createdAt =>
    if s.tables.runs.any (·.retrievalRunId == runId) then none
    else
      let run := createStandaloneRun runId call.requestId now createdAt
      some ({ s with tables := { s.tables with runs := s.tables.runs ++ [run] } }.setCall callId
        { call with createdRun := some runId, phase := .searching })
  | .start, none, .raise _ _ => move s .raised
  | .searching, some runId, .searchFails error now =>
    let failed := s.writeRun runId (markFailed error.code now)
    if call.remembersRun then
      move failed (.done (failedEvaluationResult (some runId) error.code))
    else move failed (.returning error.code)
  | .searching, some runId, .searchRaises now =>
    move (s.writeRun runId (markFailed "internal_error" now)) .raised
  | .searching, some runId, .search summary top1 now =>
    -- RagService.search commits its run as succeeded; evaluate_question has not searched through it.
    if call.remembersRun then move s .searched
    else move (s.writeRun runId (markSearched summary top1 now)) .searched
  | .searched, some runId, .noContext now =>
    move (s.writeRun runId (markFailed "no_context_found" now))
      (.done (failedEvaluationResult (some runId) "no_context_found"))
  | .searched, some runId, .providerSkipped =>
    if call.remembersRun then none
    else move s (.done (failedEvaluationResult (some runId) "graph_provider_skipped"))
  | .searched, some runId, .abstain answerText summary top1 now =>
    move (s.writeRun runId (markSearched summary top1 now))
      (.done ⟨some runId, .succeeded, answerText, none⟩)
  | .searched, some runId, .answer answerText citations scores now =>
    if citations.all (·.retrievalRunId == runId) then
      let saved := { s with tables := { s.tables with citations := s.tables.citations ++ citations } }
      move (saved.writeRun runId (markSucceeded scores now)) (.answered answerText)
    else none
  | .searched, some runId, .raise error now =>
    let errorCode := match error with
      | .citationBuild => "citation_build_failed"
      | .answerGeneration => "generation_failed"
      | .other => "internal_error"
    if call.remembersRun then
      let failed := s.writeRun runId (markFailed errorCode now)
      if error = .other then move failed .raised
      else move failed (.done (failedEvaluationResult (some runId) errorCode))
    else if error = .other then move s .raised
    else move s (.handling errorCode)
  | .answered answerText, some runId, .respond =>
    move s (.done ⟨some runId, .succeeded, answerText, none⟩)
  | .answered _, some runId, .raise .other now =>
    if call.remembersRun then move (s.writeRun runId (markFailed "internal_error" now)) .raised
    else move s .raised
  -- _mark_latest_failed_safely: a look-up, then the update of what it found.
  | .handling errorCode, _, .lookup =>
    move s (.marking errorCode (latestRetrievalRunId s.tables call.requestId))
  | .marking errorCode none, _, .markFailed _ => move s (.returning errorCode)
  | .marking errorCode (some found), _, .markFailed now =>
    move (s.writeRun found (markFailed errorCode now)) (.returning errorCode)
  | .returning errorCode, _, .readLatest =>
    move s (.done (failedEvaluationResult (latestRetrievalRunId s.tables call.requestId) errorCode))
  | .handling _, _, .raise _ _ | .marking _ _, _, .raise _ _ | .returning _, _, .raise _ _ =>
    move s .raised
  | _, _, _ => none

def step : AnswerAction → Option AnswerSystem
  | .call callId requestId remembersRun =>
    if (s.calls callId).isSome then none
    else some (s.setCall callId ⟨requestId, remembersRun, none, .start⟩)
  | .event callId event => (s.calls callId).bind fun call => s.advance callId call event

end AnswerSystem

end Calls

end RagProject.Evaluation
