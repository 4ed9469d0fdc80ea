import RagProject.Evaluation.Metrics
import RagProject.Retrieval.SearchPaths

/-! The answers that are evaluated (evaluation/rag_service.py): what a search or an orchestrator
found is numbered for the generator, and the citations of its answer are saved and read back. -/
namespace RagProject.Evaluation
open Python Documents Context Generation Retrieval

section Generating
variable [DigitTables]

/-- A request with the instruction of the second try, if it has one. -/
structure EvaluationRequest extends GenerationRequest where
  citationRetry : Bool
  deriving DecidableEq, Repr

/-- Why a question ends without an answer. -/
inductive QuestionFailure where
  | search (failure : RetrievalFailure)
  | graphProviderSkipped
  | ask (failure : AskFailure)
  deriving DecidableEq, Repr

def failing {E A : Type} (failure : E → QuestionFailure) : Except E A → Except QuestionFailure A
  | .ok a => .ok a
  | .error e => .error (failure e)

/-- _needs_citation_retry. -/
def needsCitationRetry (content : String) : Except Generation.AnswerError Bool := do
  let parsed ← parseGenerationOutput content
  .ok (parsed.markers.isEmpty && !isInsufficientEvidenceAnswer parsed.answerText)

def citationRetryRequest (request : EvaluationRequest) : EvaluationRequest :=
  { request with citationRetry := true, temperature := some 0 }

/-- _generate_answer: when the second try fails, the first one stays. -/
def generateAnswer (generate : EvaluationRequest → Option String) (request : EvaluationRequest) :
    Except QuestionFailure String :=
  match generate request with
  | none => .error (.ask .generation)
  | some content => do
    let again ← failing (fun e => .ask (.answer e)) (needsCitationRetry content)
    if again then .ok ((generate (citationRetryRequest request)).getD content) else .ok content

end Generating

section Passages

/-- A passage of the context with the number that it gets; its chunk may be gone. -/
structure Passage where
  localCitationId : Int
  documentChunkId : Nat
  sourceLabel : String
  contentText : Option String
  pageFrom : Option Int
  pageTo : Option Int

/-- The loop of _assemble_context and of _context_items_from_search_items: the texts are clipped to
what remains. -/
def clipPassages : Nat → List Passage → List GenerationContextItem
  | _, [] => []
  | 0, _ => []
  | remaining + 1, passage :: passages =>
    match passage.contentText.map fun text => (cleanText text).toList with
    | none | some [] => clipPassages (remaining + 1) passages
    | some text =>
      let clipped := text.take (remaining + 1)
      { documentChunkId := passage.documentChunkId
        sourceLabel := passage.sourceLabel
        text := String.ofList clipped
        localCitationId := some passage.localCitationId
        pageFrom := passage.pageFrom
        pageTo := passage.pageTo } :: clipPassages (remaining + 1 - clipped.length) passages

/-- _assemble_context. -/
def assembleContext (display : Display) (candidates : List SearchedCandidate)
    (citationSources : List CitationSource) (maxContextChars : Nat) : List GenerationContextItem :=
  clipPassages maxContextChars ((candidates.zip citationSources).map fun pair =>
    { localCitationId := pair.2.localCitationId
      documentChunkId := pair.1.chunk.documentChunkId
      sourceLabel := display.labels.sourceLabel pair.1.toCheckedRetrievalCandidate
      contentText := some pair.1.chunk.contentText
      pageFrom := pair.1.chunk.pageFrom
      pageTo := pair.1.chunk.pageTo })

def searchPassage (chunks : List DocumentChunk) (index : Nat) (item : RagSearchItem) : Passage where
  localCitationId := index
  documentChunkId := item.documentChunkId
  sourceLabel := item.sourceLabel
  contentText :=
    (Table.row DocumentChunk.documentChunkId chunks item.documentChunkId).map (·.contentText)
  pageFrom := item.pageFrom
  pageTo := item.pageTo

/-- _context_items_from_search_items. -/
def contextItemsFromSearchItems (chunks : List DocumentChunk) (items : List RagSearchItem)
    (maxContextChars : Nat) : List GenerationContextItem :=
  clipPassages maxContextChars ((items.zipIdx 1).map fun e => searchPassage chunks e.2 e.1)

/-- _safe_string. -/
def safeStringValue : Option Value → Option String
  | some (.str value) => some (cleanText value) |>.filter (· ≠ "")
  | _ => none

/-- _citation_source_from_search_item. -/
def citationSourceFromSearchItem (index : Nat) (item : RagSearchItem) : CitationSource :=
  let payload := item.payloadSnapshot
  let sourceUrl := ((Dict.get payload "safe_source_url").filter Value.truthy).orElse
    fun _ => Dict.get payload "source_url"
  { localCitationId := index
    retrievalRunItemId := item.retrievalRunItemId
    documentChunkId := item.documentChunkId
    sourceLabel := item.sourceLabel
    snippet := item.snippet
    pageFrom := item.pageFrom
    pageTo := item.pageTo
    sectionTitle := safeStringValue (Dict.get payload "section_title")
    sourceType :=
      if Dict.get payload "source_type" = some (.str "url") then "external_url" else "upload"
    sourceUrl := match sourceUrl with
      | some (.str url) => some url
      | _ => none }

def searchCitationSources (items : List RagSearchItem) : List CitationSource :=
  (items.zipIdx 1).map fun e => citationSourceFromSearchItem e.2 e.1

/-- _safe_int. -/
def safeInt : Option Value → Option Int
  | some (.int value) => if 0 < value then some value else none
  | _ => none

/-- _retrieved_item_from_search_item. -/
def retrievedItemFromSearchItem (item : RagSearchItem) : RetrievedEvaluationItem where
  documentChunkId := item.documentChunkId
  logicalDocumentId := safeInt (Dict.get item.payloadSnapshot "logical_document_id")
  rankOrder := item.rankOrder
  snippet := item.snippet

/-- _retrieved_item_from_context_ref. -/
def retrievedItemFromContextRef (snippetMaxChars : Nat) (ref : ContextCandidateRef)
    (rankOrder : Nat) : RetrievedEvaluationItem where
  documentChunkId := ref.candidate.chunk.documentChunkId
  logicalDocumentId := some ref.candidate.logicalDocument.logicalDocumentId
  rankOrder := rankOrder
  snippet := String.ofList ((cleanText ref.candidate.chunk.contentText).toList.take snippetMaxChars)

end Passages

section Answering

structure RagAskCitation where
  citationId : Nat
  localCitationId : Int
  documentChunkId : Nat
  sourceLabel : String
  snippet : String
  pageFrom : Option Int
  pageTo : Option Int
  sectionTitle : Option String
  oldVersionFlag : Bool
  deriving DecidableEq, Repr

/-- _old_version_flag. -/
def oldVersionFlag (record : CitationRecord) : Bool :=
  record.documentVersion.status != .ready || !record.documentVersion.isActive ||
    record.logicalDocument.status != .active

/-- _citation_response. -/
def citationResponse (display : Display) (record : CitationRecord) : RagAskCitation where
  citationId := record.citation.citationId
  localCitationId := record.citation.rankOrder
  documentChunkId := record.citation.documentChunkId
  sourceLabel := record.citation.displayLabel
  snippet := record.citation.snippet
  pageFrom := record.citation.pageFrom
  pageTo := record.citation.pageTo
  sectionTitle := display.safeDisplayText record.chunk.sectionTitle
  oldVersionFlag := oldVersionFlag record

inductive AnswerOutcome where
  | answered | abstained
  deriving DecidableEq, Repr

/-- What a succeeded result says of the answer, with the items that the generator received and the
tables that are committed. -/
structure EvaluatedAnswer where
  answerOutcome : AnswerOutcome
  answerText : String
  citations : List RagAskCitation
  retrievedItems : List RetrievedEvaluationItem
  contextItems : List GenerationContextItem
  tables : AnswerTables
  deriving DecidableEq, Repr

variable [DigitTables] (display : Display)

def outputSafety (isChecked : Bool) (answerText : String)
    (contextItems : List GenerationContextItem) : Except QuestionFailure Unit :=
  if isChecked then
    failing (fun e => .ask (.answer e)) (validateGenerationOutputSafety answerText contextItems)
  else .ok ()

/-- From the output of the generator to the result; the orchestrators check the safety of an
insufficient answer too. -/
def settle (safetyFirst : Bool) (retrievalRunId : Nat)
    (retrievedItems : List RetrievedEvaluationItem) (contextItems : List GenerationContextItem)
    (promptCitationSources : List CitationSource) (content : String) (t : AnswerTables) :
    Except QuestionFailure EvaluatedAnswer := do
  let parsed ← failing (fun e => .ask (.answer e)) (parseGenerationOutput content)
  let insufficient := isInsufficientEvidenceAnswer parsed.answerText
  outputSafety (safetyFirst || !insufficient) parsed.answerText contextItems
  if insufficient then
    .ok ⟨.abstained, parsed.answerText, [], retrievedItems, contextItems, t⟩
  else
    let cited ← failing (fun e => .ask (.answer e))
      (validateGenerationCitations parsed promptCitationSources)
    let t ← failing (fun name => .ask (.constraint name)) (saveCitations t retrievalRunId cited)
    .ok ⟨.answered, parsed.answerText,
      (listCitationsForRun t retrievalRunId).map (citationResponse display), retrievedItems,
      contextItems, t⟩

/-- The tables of a question. -/
structure QuestionTables where
  db : Db
  runItems : RunItems
  citations : List Citation
  nextCitationId : Nat

def QuestionTables.answerTables (t : QuestionTables) : AnswerTables where
  documents := t.db.documents
  versions := t.db.versions
  chunks := t.db.chunks
  items := t.runItems.rows
  citations := t.citations
  messages := []
  nextCitationId := t.nextCitationId
  nextMessageId := 0

structure QuestionSettings where
  pipeline : PipelineSettings
  generationMaxContextChars : Nat
  generationMaxOutputChars : Nat

variable (services : RetrievalServices) (settings : QuestionSettings)
variable (generate : EvaluationRequest → Option String) (question : String)

def answerRequest (contextItems : List GenerationContextItem) : EvaluationRequest where
  message := question
  contextItems := contextItems
  maxOutputChars := settings.generationMaxOutputChars
  systemInstructions := .standard
  temperature := none
  citationRetry := false

/-- _graph_provider_unavailable. -/
def graphProviderUnavailable (summary : RetrievalScoreSummary) : Bool :=
  match Dict.get summary.modelDump "graph_reason_codes" with
  | some (.list codes) => codes.contains (.str "graph_store_provider_unavailable")
  | _ => false

/-- answer_question_with_strategy from the response of its search on. -/
def answerFromSearch (graph : Bool) (retrievalRunId : Nat) (response : RetrievalPipelineResult)
    (t : AnswerTables) : Except QuestionFailure EvaluatedAnswer := do
  if response.items = [] then
    if graph && graphProviderUnavailable response.summary then .error .graphProviderSkipped
    else .error (.ask .noContextFound)
  else
    let contextItems := contextItemsFromSearchItems t.chunks response.items
      settings.generationMaxContextChars
    let sources := promptCitationSources contextItems (searchCitationSources response.items)
    if contextItems = [] ∨ sources = [] then .error (.ask .noContextFound)
    else
      let content ← generateAnswer generate (answerRequest settings question contextItems)
      settle display false retrievalRunId (response.items.map retrievedItemFromSearchItem)
        contextItems sources content t

variable (request : SearchRequest) (t : QuestionTables) [Rounding]

/-- evaluate_question on the default strategy. -/
def evaluateQuestion : Except QuestionFailure EvaluatedAnswer := do
  let (result, runItems) ← failing .search
    (retrieveAndRerank services display settings.pipeline request t.db .dense t.runItems)
  if result.selectedCandidates = [] then .error (.ask .noContextFound)
  else
    let contextItems := assembleContext display result.selectedCandidates result.citationSources
      settings.generationMaxContextChars
    let sources := promptCitationSources contextItems result.citationSources
    let content ← generateAnswer generate (answerRequest settings question contextItems)
    settle display false request.retrievalRunId [] contextItems sources content
      { t with runItems := runItems }.answerTables

/-- answer_question_with_strategy on the strategies that search. -/
def answerQuestionWithStrategy (cached : Option CachedRetrievalPayload) (path : SearchPath) :
    Except QuestionFailure EvaluatedAnswer := do
  let (response, runItems) ← failing .search
    (Retrieval.search services display settings.pipeline request t.db cached path t.runItems)
  answerFromSearch display settings generate question path.isGraph request.retrievalRunId response
    { t with runItems := runItems }.answerTables

/-- _citation_from_search_item. -/
def citationFromSearchItem (index : Nat) (item : RagSearchItem) : RagAskCitation where
  citationId := index
  localCitationId := index
  documentChunkId := item.documentChunkId
  sourceLabel := item.sourceLabel
  snippet := item.snippet
  pageFrom := item.pageFrom
  pageTo := item.pageTo
  sectionTitle := none
  oldVersionFlag := false

/-- What evaluate_strategy says of a search. -/
structure EvaluatedSearch where
  citations : List RagAskCitation
  retrievedItems : List RetrievedEvaluationItem
  noContextFound : Bool

/-- evaluate_strategy: the search alone. -/
def evaluateStrategy (cached : Option CachedRetrievalPayload) (path : SearchPath) :
    Except QuestionFailure EvaluatedSearch := do
  let (response, _) ← failing .search
    (Retrieval.search services display settings.pipeline request t.db cached path t.runItems)
  .ok ⟨(response.items.zipIdx 1).map fun e => citationFromSearchItem e.2 e.1,
    response.items.map retrievedItemFromSearchItem, response.items.isEmpty⟩

/-- The orchestrators from their retrieval on. -/
def answerOrchestrated [CaseFold] (inputs : AskInputs) (t : AnswerTables) :
    Except QuestionFailure EvaluatedAnswer := do
  let (decision, t) ← failing .ask (applyContextBudget inputs t)
  let prompt ← failing .ask (assemblePrompt inputs decision)
  let t ← failing .ask (finalizeContextBudgetAfterAssembly inputs t decision prompt.contextRefs)
  let content ← generateAnswer generate (answerRequest settings question prompt.contextItems)
  let retrieved := ((selectedContextRefs inputs.contextCandidates decision).zipIdx 1).map fun e =>
    retrievedItemFromContextRef settings.pipeline.searchSnippetMaxChars e.1 e.2
  settle display true inputs.retrievalRunId retrieved prompt.contextItems prompt.citationSources
    content t

end Answering

end RagProject.Evaluation
