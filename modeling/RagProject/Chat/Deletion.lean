import RagProject.Chat.Sessions
import RagProject.Lib.References
import RagProject.Lib.Table

/-! ChatRepository.delete_session (repositories/chat_repository.py) over the tables it touches, with
the foreign keys and check constraints that db/models.py and db/graph_models.py declare for them.
A column that neither a statement nor a constraint reads is kept in `others`. -/
namespace RagProject.Chat.Deletion
open Python Jobs References

section Rows

/-- btrim(text) <> ''. -/
def notBlank (text : String) : Bool := text.toList.any (· != ' ')

def inUnit (score : Option Rat) : Bool := score.all fun q => 0 ≤ q && q ≤ 1

def notNegative (n : Option Int) : Bool := n.all (0 ≤ ·)

def retrievalStrategyValues : List String :=
  ["dense", "sparse", "hybrid", "graph", "multi_query_dense", "multi_query_hybrid",
   "metadata_filtered", "version_aware", "agentic_router", "llm_tool_orchestrator",
   "langchain_agentic", "langgraph_agentic", "fallback_dense"]

def retrievalSourceValues : List String :=
  ["dense", "sparse", "hybrid", "graph", "rerank", "fallback_dense", "metadata_filter"]

structure ChatMessage where
  chatMessageId : Nat
  chatSessionId : Nat
  role : String
  content : String
  clientMessageId : Option String
  linkedRetrievalRunId : Option Nat
  editedFlag : Bool
  createdAt : Time
  updatedAt : Time
  deriving DecidableEq, Repr

def ChatMessage.checks (m : ChatMessage) : List (String × Bool) := [
  ("ck_chat_messages_role", ["user", "assistant", "system"].contains m.role),
  ("ck_chat_messages_content_not_empty", notBlank m.content),
  ("ck_chat_messages_client_message_user_only", m.clientMessageId.isNone || m.role == "user"),
  ("ck_chat_messages_client_message_not_empty", m.clientMessageId.all (· != "")),
  ("ck_chat_messages_linked_retrieval_assistant_only",
    m.linkedRetrievalRunId.isNone || m.role == "assistant")]

def tagChecks (t : ChatTag) : List (String × Bool) :=
  [("ck_chat_tags_tag_name_not_empty", notBlank t.tagName)]

structure SummaryMemory where
  summaryMemoryId : Nat
  chatSessionId : Nat
  sourceMessageUptoId : Nat
  summaryText : String
  createdAt : Time
  deriving DecidableEq, Repr

def SummaryMemory.checks (m : SummaryMemory) : List (String × Bool) :=
  [("ck_summary_memories_summary_text_not_empty", notBlank m.summaryText)]

structure RetrievalRun where
  retrievalRunId : Nat
  chatSessionId : Option Nat
  requestMessageId : Option Nat
  status : String
  errorCode : Option String
  startedAt : Option Time
  finishedAt : Option Time
  topK : Option Int
  strategyType : String
  queryHash : Option String
  answerConfidence : Option Rat
  groundednessScore : Option Rat
  confidenceLabel : Option String
  requestId : Option String
  others : Dict
  deriving DecidableEq, Repr

def isHexDigest (text : String) : Bool :=
  text.length == 64 && text.toList.all fun c => c.isDigit || ('a' ≤ c && c ≤ 'f')

def RetrievalRun.checks (r : RetrievalRun) : List (String × Bool) := [
  ("ck_retrieval_runs_origin", r.chatSessionId.isNone == r.requestMessageId.isNone),
  ("ck_retrieval_runs_status", ["running", "succeeded", "failed"].contains r.status),
  ("ck_retrieval_runs_running_times", r.status != "running" ||
    (r.startedAt.isSome && r.finishedAt.isNone && r.errorCode.isNone)),
  ("ck_retrieval_runs_terminal_times", !(["succeeded", "failed"].contains r.status) ||
    (r.startedAt.isSome && r.finishedAt.isSome)),
  ("ck_retrieval_runs_failed_error", r.status != "failed" || r.errorCode.isSome),
  ("ck_retrieval_runs_succeeded_error_null", r.status != "succeeded" || r.errorCode.isNone),
  ("ck_retrieval_runs_finished_after_started",
    r.finishedAt.all fun finished => r.startedAt.all (· ≤ finished)),
  ("ck_retrieval_runs_failed_confidence_null", r.status != "failed" ||
    (r.answerConfidence.isNone && r.groundednessScore.isNone && r.confidenceLabel.isNone)),
  ("ck_retrieval_runs_confidence_range", inUnit r.answerConfidence),
  ("ck_retrieval_runs_groundedness_range", inUnit r.groundednessScore),
  ("ck_retrieval_runs_confidence_label",
    r.confidenceLabel.all fun label => ["High", "Medium", "Low"].contains label),
  ("ck_retrieval_runs_top_k", r.topK.all fun k => 1 ≤ k && k ≤ 20),
  ("ck_retrieval_runs_strategy_type", retrievalStrategyValues.contains r.strategyType),
  ("ck_retrieval_runs_query_hash_format", r.queryHash.all isHexDigest),
  ("ck_retrieval_runs_request_id_not_empty", r.requestId.all notBlank)]

structure RetrievalRunItem where
  retrievalRunItemId : Nat
  retrievalRunId : Nat
  documentChunkId : Nat
  rankOrder : Int
  rerankOrder : Option Int
  retrievalSource : Option String
  others : Dict
  deriving DecidableEq, Repr

def RetrievalRunItem.checks (i : RetrievalRunItem) : List (String × Bool) := [
  ("ck_retrieval_run_items_rank_order", 1 ≤ i.rankOrder),
  ("ck_retrieval_run_items_rerank_order", i.rerankOrder.all (1 ≤ ·)),
  ("ck_retrieval_run_items_source", i.retrievalSource.all (retrievalSourceValues.contains ·))]

structure Citation where
  citationId : Nat
  retrievalRunId : Nat
  documentChunkId : Nat
  snippet : String
  pageFrom : Option Int
  pageTo : Option Int
  sourceType : String
  sourceUrl : Option String
  displayLabel : String
  rankOrder : Int
  createdAt : Time
  deriving DecidableEq, Repr

def Citation.checks (c : Citation) : List (String × Bool) := [
  ("ck_citations_snippet_not_empty", notBlank c.snippet),
  ("ck_citations_display_label_not_empty", notBlank c.displayLabel),
  ("ck_citations_rank_order", 1 ≤ c.rankOrder),
  ("ck_citations_page_range", c.pageFrom.all fun first => c.pageTo.all (first ≤ ·)),
  ("ck_citations_page_positive", c.pageFrom.all (1 ≤ ·) && c.pageTo.all (1 ≤ ·)),
  ("ck_citations_source_type", ["upload", "external_url"].contains c.sourceType)]

structure GraphRetrievalPath where
  graphRetrievalPathId : Nat
  retrievalRunId : Nat
  pathJson : Value
  scoreBreakdownJson : Value
  sourceChunkIdsJson : Value
  createdAt : Time
  deriving DecidableEq, Repr

def isObject : Value → Bool
  | .dict _ => true
  | _ => false

def isArray : Value → Bool
  | .list _ => true
  | _ => false

def GraphRetrievalPath.checks (p : GraphRetrievalPath) : List (String × Bool) := [
  ("ck_graph_paths_path_object", isObject p.pathJson),
  ("ck_graph_paths_score_object", isObject p.scoreBreakdownJson),
  ("ck_graph_paths_source_chunks_array", isArray p.sourceChunkIdsJson)]

structure EvaluationRunItem where
  evaluationRunItemId : Nat
  evaluationRunId : Nat
  evaluationCaseId : Option Nat
  retrievalRunId : Option Nat
  strategyType : String
  status : String
  answerOutcome : Option String
  faithfulnessScore : Option Rat
  groundednessScore : Option Rat
  citationCoverage : Option Rat
  latencyMs : Option Int
  inputTokens : Option Int
  outputTokens : Option Int
  totalTokens : Option Int
  estimatedCostUsd : Option Rat
  generationLatencyMs : Option Int
  errorCode : Option String
  others : Dict
  deriving DecidableEq, Repr

def EvaluationRunItem.checks (i : EvaluationRunItem) : List (String × Bool) := [
  ("ck_evaluation_run_items_status",
    ["queued", "running", "succeeded", "failed", "canceled"].contains i.status),
  ("ck_evaluation_run_items_answer_outcome", i.answerOutcome.all fun outcome =>
    ["answered", "abstained", "no_context", "citation_error", "generation_error",
     "retrieval_error"].contains outcome),
  ("ck_evaluation_run_items_scores",
    inUnit i.faithfulnessScore && inUnit i.groundednessScore && inUnit i.citationCoverage),
  ("ck_evaluation_run_items_latency", notNegative i.latencyMs),
  ("ck_evaluation_run_items_generation_non_negative",
    notNegative i.inputTokens && notNegative i.outputTokens && notNegative i.totalTokens &&
      i.estimatedCostUsd.all (0 ≤ ·) && notNegative i.generationLatencyMs),
  ("ck_evaluation_run_items_failed_error_code", i.status != "failed" || i.errorCode.isSome),
  ("ck_evaluation_run_items_strategy_type", retrievalStrategyValues.contains i.strategyType)]

/-- The tables. Of those that are only referred to, the keys; of those that refer to
evaluation_run_items, what they refer to. -/
structure Db where
  sessions : List ChatSession
  messages : List ChatMessage
  tags : List ChatTag
  memories : List SummaryMemory
  runs : List RetrievalRun
  items : List RetrievalRunItem
  citations : List Citation
  paths : List GraphRetrievalPath
  evaluationItems : List EvaluationRunItem
  users : List Nat
  documentChunks : List Nat
  evaluationRuns : List Nat
  evaluationCases : List Nat
  evaluationResults : List Nat
  deriving DecidableEq, Repr

end Rows

section Keys

/-- (chat_session_id, linked_retrieval_run_id). -/
def ChatMessage.linked (m : ChatMessage) : Option (Nat × Nat) :=
  m.linkedRetrievalRunId.map fun run => (m.chatSessionId, run)

def ChatMessage.key (m : ChatMessage) : Option (Nat × Nat) := some (m.chatSessionId, m.chatMessageId)

def SummaryMemory.source (m : SummaryMemory) : Option (Nat × Nat) :=
  some (m.chatSessionId, m.sourceMessageUptoId)

/-- (chat_session_id, request_message_id), which refers to nothing when a part is null. -/
def RetrievalRun.request (r : RetrievalRun) : Option (Nat × Nat) :=
  r.chatSessionId.bind fun session => r.requestMessageId.map fun message => (session, message)

/-- uq_retrieval_runs_session_run. -/
def RetrievalRun.inSession (r : RetrievalRun) : Option (Nat × Nat) :=
  r.chatSessionId.map fun session => (session, r.retrievalRunId)

def RetrievalRunItem.key (i : RetrievalRunItem) : Option (Nat × Nat) :=
  some (i.retrievalRunId, i.documentChunkId)

def Citation.item (c : Citation) : Option (Nat × Nat) := some (c.retrievalRunId, c.documentChunkId)

def holds (checks : List (String × Bool)) : Prop := ∀ check ∈ checks, check.2 = true

instance (checks : List (String × Bool)) : Decidable (holds checks) :=
  inferInstanceAs (Decidable (∀ check ∈ checks, check.2 = true))

/-- The foreign keys, then the check constraints. The check constraints of chat_sessions are part
of its rows. -/
structure Constraints (db : Db) : Prop where
  sessionUser : Refers db.sessions (some ·.userId) db.users some
  messageSession : Refers db.messages (some ·.chatSessionId) db.sessions (some ·.chatSessionId)
  messageLinked : Refers db.messages (·.linked) db.runs (·.inSession)
  tagSession : Refers db.tags (some ·.chatSessionId) db.sessions (some ·.chatSessionId)
  memorySession : Refers db.memories (some ·.chatSessionId) db.sessions (some ·.chatSessionId)
  memorySource : Refers db.memories (·.source) db.messages (·.key)
  runSession : Refers db.runs (·.chatSessionId) db.sessions (some ·.chatSessionId)
  runRequest : Refers db.runs (·.request) db.messages (·.key)
  itemRun : Refers db.items (some ·.retrievalRunId) db.runs (some ·.retrievalRunId)
  itemChunk : Refers db.items (some ·.documentChunkId) db.documentChunks some
  citationItem : Refers db.citations (·.item) db.items (·.key)
  pathRun : Refers db.paths (some ·.retrievalRunId) db.runs (some ·.retrievalRunId)
  evaluationRun : Refers db.evaluationItems (some ·.evaluationRunId) db.evaluationRuns some
  evaluationCase : Refers db.evaluationItems (·.evaluationCaseId) db.evaluationCases some
  evaluationRetrieval : Refers db.evaluationItems (·.retrievalRunId) db.runs (some ·.retrievalRunId)
  evaluationResult : Refers db.evaluationResults some db.evaluationItems (some ·.evaluationRunItemId)
  messageChecks : ∀ m ∈ db.messages, holds m.checks
  tagsChecked : ∀ t ∈ db.tags, holds (tagChecks t)
  memoryChecks : ∀ m ∈ db.memories, holds m.checks
  runChecks : ∀ r ∈ db.runs, holds r.checks
  itemChecks : ∀ i ∈ db.items, holds i.checks
  citationChecks : ∀ c ∈ db.citations, holds c.checks
  pathChecks : ∀ p ∈ db.paths, holds p.checks
  evaluationChecks : ∀ i ∈ db.evaluationItems, holds i.checks

/-- The primary keys of the tables that are referred to. -/
structure PrimaryKeys (db : Db) : Prop where
  messages : (db.messages.map (·.chatMessageId)).Nodup
  runs : (db.runs.map (·.retrievalRunId)).Nodup

end Keys

section Statements

inductive Statement where
  | deleteCitations (runs : List Nat)
  | detachEvaluationItems (runs : List Nat)
  | deleteRunItems (runs : List Nat)
  | unlinkMessages (chatSessionId : Nat)
  | detachRuns (runs : List Nat)
  | deleteMemories (chatSessionId : Nat)
  | deleteTags (chatSessionId : Nat)
  | deleteMessages (chatSessionId : Nat)
  | deleteRuns (runs : List Nat)
  | deleteSession (chatSessionId : Nat)
  deriving DecidableEq, Repr

def EvaluationRunItem.detach (runs : List Nat) (i : EvaluationRunItem) : EvaluationRunItem :=
  if i.retrievalRunId.any (runs.contains ·) then { i with retrievalRunId := none } else i

def ChatMessage.unlink (chatSessionId : Nat) (m : ChatMessage) : ChatMessage :=
  if m.chatSessionId = chatSessionId then { m with linkedRetrievalRunId := none } else m

def RetrievalRun.detach (runs : List Nat) (r : RetrievalRun) : RetrievalRun :=
  if runs.contains r.retrievalRunId then { r with chatSessionId := none, requestMessageId := none }
  else r

/-- Deleting a run takes its graph retrieval paths along. -/
def Statement.exec (db : Db) : Statement → Db
  | .deleteCitations runs =>
    { db with citations := db.citations.filter fun c => !runs.contains c.retrievalRunId }
  | .detachEvaluationItems runs =>
    { db with evaluationItems := db.evaluationItems.map (·.detach runs) }
  | .deleteRunItems runs =>
    { db with items := db.items.filter fun i => !runs.contains i.retrievalRunId }
  | .unlinkMessages chatSessionId => { db with messages := db.messages.map (·.unlink chatSessionId) }
  | .detachRuns runs => { db with runs := db.runs.map (·.detach runs) }
  | .deleteMemories chatSessionId =>
    { db with memories := db.memories.filter (·.chatSessionId != chatSessionId) }
  | .deleteTags chatSessionId =>
    { db with tags := db.tags.filter (·.chatSessionId != chatSessionId) }
  | .deleteMessages chatSessionId =>
    { db with messages := db.messages.filter (·.chatSessionId != chatSessionId) }
  | .deleteRuns runs =>
    { db with
      runs := db.runs.filter fun r => !runs.contains r.retrievalRunId
      paths := db.paths.filter fun p => !runs.contains p.retrievalRunId }
  | .deleteSession chatSessionId =>
    { db with sessions := db.sessions.filter (·.chatSessionId != chatSessionId) }

def retrievalRunIds (db : Db) (chatSessionId : Nat) : List Nat :=
  (db.runs.filter (·.chatSessionId == some chatSessionId)).map (·.retrievalRunId)

/-- The statements of delete_session, in order. -/
def deleteSession (db : Db) (chatSessionId : Nat) : List Statement :=
  let runs := retrievalRunIds db chatSessionId
  (if runs.isEmpty then []
    else [.deleteCitations runs, .detachEvaluationItems runs, .deleteRunItems runs,
      .unlinkMessages chatSessionId, .detachRuns runs]) ++
  [.deleteMemories chatSessionId, .deleteTags chatSessionId, .deleteMessages chatSessionId] ++
  (if runs.isEmpty then [] else [.deleteRuns runs]) ++
  [.deleteSession chatSessionId]

/-- The states after each statement. -/
def states (db : Db) : List Statement → List Db
  | [] => []
  | statement :: later => statement.exec db :: states (statement.exec db) later

def execAll (db : Db) (statements : List Statement) : Db := statements.foldl Statement.exec db

end Statements

end RagProject.Chat.Deletion
