import RagProject.Context.Pack
import RagProject.Generation.Answer
import RagProject.Retrieval.Candidates

/-! RagService.ask from its context candidates to the stored citations (services/rag_service.py),
with list_citations_for_runs, which reads them back (repositories/retrieval_repository.py). -/
namespace RagProject.Generation
open Python Markers Context Documents Retrieval

section Rows

structure ChatMessage where
  chatMessageId : Nat
  chatSessionId : Nat
  role : String
  content : String
  linkedRetrievalRunId : Option Nat
  deriving DecidableEq, Repr

structure Citation where
  citationId : Nat
  retrievalRunId : Nat
  documentChunkId : Nat
  snippet : String
  pageFrom : Option Int
  pageTo : Option Int
  sourceType : String
  sourceUrl : Option String
  displayLabel : String
  rankOrder : Int
  deriving DecidableEq, Repr

structure CitationRecord where
  citation : Citation
  chunk : DocumentChunk
  documentVersion : DocumentVersion
  logicalDocument : LogicalDocument
  deriving DecidableEq, Repr

/-- The tables that the end of ask reads and writes. -/
structure AnswerTables where
  documents : List LogicalDocument
  versions : List DocumentVersion
  chunks : List DocumentChunk
  items : List RetrievalRunItem
  citations : List Citation
  messages : List ChatMessage
  nextCitationId : Nat
  nextMessageId : Nat
  deriving DecidableEq, Repr

/-- btrim(s) <> ''. -/
def trimmedShows (s : String) : Bool := s.toList.any (· != ' ')

def Citation.checks (c : Citation) : List (String × Bool) := [
  ("ck_citations_snippet_not_empty", trimmedShows c.snippet),
  ("ck_citations_display_label_not_empty", trimmedShows c.displayLabel),
  ("ck_citations_rank_order", 1 ≤ c.rankOrder),
  ("ck_citations_page_range", match c.pageFrom, c.pageTo with
    | some pageFrom, some pageTo => pageFrom ≤ pageTo
    | _, _ => true),
  ("ck_citations_page_positive", c.pageFrom.all (1 ≤ ·) && c.pageTo.all (1 ≤ ·)),
  ("ck_citations_source_type", ["upload", "external_url"].contains c.sourceType)]

end Rows

section Repository
variable (t : AnswerTables)

def createMessage (chatSessionId : Nat) (role content : String)
    (linkedRetrievalRunId : Option Nat) : AnswerTables :=
  { t with
    messages := t.messages ++
      [⟨t.nextMessageId, chatSessionId, role, content, linkedRetrievalRunId⟩]
    nextMessageId := t.nextMessageId + 1 }

def citationOf (source : CitationSource) (retrievalRunId citationId : Nat) : Citation where
  citationId := citationId
  retrievalRunId := retrievalRunId
  documentChunkId := source.documentChunkId
  snippet := source.snippet
  pageFrom := source.pageFrom
  pageTo := source.pageTo
  sourceType := source.sourceType
  sourceUrl := source.sourceUrl
  displayLabel := source.sourceLabel
  rankOrder := source.localCitationId

def hasRunItem (retrievalRunId documentChunkId : Nat) : Bool :=
  t.items.any fun item =>
    item.retrievalRunId == retrievalRunId && item.documentChunkId == documentChunkId

def hasRank (retrievalRunId : Nat) (rankOrder : Int) : Bool :=
  t.citations.any fun c => c.retrievalRunId == retrievalRunId && c.rankOrder == rankOrder

/-- One row of save_citations; an error names the constraint. -/
def insertCitation (retrievalRunId : Nat) (t : AnswerTables) (source : CitationSource) :
    Except String AnswerTables :=
  let row := citationOf source retrievalRunId t.nextCitationId
  match row.checks.find? fun check => !check.2 with
  | some check => .error check.1
  | none =>
    if !hasRunItem t retrievalRunId row.documentChunkId then .error "fk_citations_retrieval_item"
    else if hasRank t retrievalRunId row.rankOrder then .error "ux_citations_run_rank"
    else .ok
      { t with citations := t.citations ++ [row], nextCitationId := t.nextCitationId + 1 }

def saveCitations (retrievalRunId : Nat) (citedSources : List CitationSource) :
    Except String AnswerTables :=
  citedSources.foldlM (insertCitation retrievalRunId) t

/-- The rows of the join for one citation: one for each selected item of its chunk. -/
def joinedRecords (citation : Citation) : List CitationRecord :=
  let selected := t.items.filter fun item =>
    (item.retrievalRunId, item.documentChunkId) =
        (citation.retrievalRunId, citation.documentChunkId) ∧ item.selectedFlag
  selected.flatMap fun _ =>
    (t.chunks.filter (·.documentChunkId = citation.documentChunkId)).flatMap fun chunk =>
      (t.versions.filter (·.documentVersionId = chunk.documentVersionId)).flatMap fun version =>
        (t.documents.filter (·.logicalDocumentId = version.logicalDocumentId)).map fun document =>
          ⟨citation, chunk, version, document⟩

def beforeRank (a b : Citation) : Prop :=
  a.rankOrder < b.rankOrder ∨ a.rankOrder = b.rankOrder ∧ a.citationId ≤ b.citationId

instance : DecidableRel beforeRank := fun _ _ => inferInstanceAs (Decidable (_ ∨ _))

def listCitationsForRun (retrievalRunId : Nat) : List CitationRecord :=
  ((t.citations.filter (·.retrievalRunId == retrievalRunId)).insertionSort beforeRank).flatMap
    (joinedRecords t)

end Repository

section Candidates

/-- The texts and the origin that a candidate shows besides its chunk. -/
structure Labels where
  sourceLabel : CheckedRetrievalCandidate → String
  safeDisplayText : Option String → Option String
  sourceType : CheckedRetrievalCandidate → String
  sourceUrl : CheckedRetrievalCandidate → Option String

variable (labels : Labels)

def sourceGroupKey (candidate : CheckedRetrievalCandidate) : String :=
  "logical_document:" ++ toString candidate.logicalDocument.logicalDocumentId

def selectedContextRefs (refs : List ContextCandidateRef) (decision : ContextBudgetDecision) :
    List ContextCandidateRef :=
  refs.filter fun ref => ref.runItemId ∈ decision.selectedItemIds

def snippet (text : String) (maxChars : Nat) : String :=
  let cleaned := cleanText text
  if cleaned.length ≤ maxChars then cleaned
  else String.ofList (cleaned.toList.take (maxChars - 3)) ++ "..."

def citationSource (snippetMaxChars : Nat) (ref : ContextCandidateRef) (localCitationId : Nat) :
    CitationSource where
  localCitationId := localCitationId
  retrievalRunItemId := ref.runItemId
  documentChunkId := ref.candidate.chunk.documentChunkId
  sourceLabel := labels.sourceLabel ref.candidate
  snippet := snippet ref.candidate.chunk.contentText snippetMaxChars
  pageFrom := ref.candidate.chunk.pageFrom
  pageTo := ref.candidate.chunk.pageTo
  sectionTitle := labels.safeDisplayText ref.candidate.chunk.sectionTitle
  sourceType := labels.sourceType ref.candidate
  sourceUrl := labels.sourceUrl ref.candidate

/-- The sources are numbered from one. -/
def contextCitationSources (snippetMaxChars : Nat) (refs : List ContextCandidateRef) :
    List CitationSource :=
  (refs.zipIdx 1).map fun entry => citationSource labels snippetMaxChars entry.1 entry.2

/-- A later source of a run item replaces an earlier one in the dictionary. -/
def sourceByRunItemId (sources : List CitationSource) (runItemId : Nat) : Option CitationSource :=
  sources.reverse.find? (·.retrievalRunItemId == runItemId)

def toGenerationContextItems (items : List EvidenceItem) : List GenerationContextItem :=
  items.map fun item =>
    { documentChunkId := item.documentChunkId
      sourceLabel := (item.sourceLabel.filter (· ≠ "")).getD
        ("chunk:" ++ toString item.documentChunkId)
      text := item.evidenceTextForGeneration
      localCitationId := item.localCitationId
      pageFrom := item.pageFrom
      pageTo := item.pageTo }

def promptCitationSources (contextItems : List GenerationContextItem)
    (citationSources : List CitationSource) : List CitationSource :=
  citationSources.filter fun source =>
    contextItems.any fun item => item.localCitationId == some source.localCitationId

def contextRefsForCitationSources (refs : List ContextCandidateRef)
    (citationSources : List CitationSource) : List ContextCandidateRef :=
  refs.filter fun ref => citationSources.any (·.retrievalRunItemId == ref.runItemId)

variable [Rounding]

def roundScore : Number → Number
  | .finite q => .finite (Rounding.round 6 q)
  | .nonFinite => .nonFinite

def contextBudgetCandidates (refs : List ContextCandidateRef) : List ContextBudgetCandidate :=
  refs.map fun ref =>
    { retrievalRunItemId := ref.runItemId
      documentChunkId := ref.candidate.chunk.documentChunkId
      sourceLabel := labels.sourceLabel ref.candidate
      sectionTitle := labels.safeDisplayText ref.candidate.chunk.sectionTitle
      pageFrom := ref.candidate.chunk.pageFrom
      pageTo := ref.candidate.chunk.pageTo
      score := roundScore ref.candidate.retrievalScore
      rank := some ref.rank
      rerankScore := ref.rerankScore.map roundScore
      rerankOrder := ref.rerankOrder.map Int.ofNat
      text := cleanText ref.candidate.chunk.contentText
      citationCandidate := ref.citationCandidate
      sourceGroupKey := sourceGroupKey ref.candidate
      retrievalSource := ref.savedItem.retrievalSource }

def evidenceCandidate (ref : ContextCandidateRef) (localCitationId : Int) : EvidenceCandidate where
  retrievalRunItemId := ref.runItemId
  documentChunkId := ref.candidate.chunk.documentChunkId
  localCitationId := localCitationId
  text := cleanText ref.candidate.chunk.contentText
  sourceLabel := labels.sourceLabel ref.candidate
  sectionTitle := labels.safeDisplayText ref.candidate.chunk.sectionTitle
  pageFrom := ref.candidate.chunk.pageFrom
  pageTo := ref.candidate.chunk.pageTo
  score := roundScore ref.candidate.retrievalScore
  rerankScore := ref.rerankScore.map roundScore
  rank := some ref.rank
  rerankOrder := ref.rerankOrder.map Int.ofNat
  sourceGroupKey := sourceGroupKey ref.candidate
  citationCandidate := ref.citationCandidate
  retrievalSource := ref.savedItem.retrievalSource
  logicalDocumentId := ref.candidate.logicalDocument.logicalDocumentId
  documentVersionId := ref.candidate.documentVersion.documentVersionId

def evidenceCandidates (refs : List ContextCandidateRef) (sources : List CitationSource) :
    List EvidenceCandidate :=
  refs.filterMap fun ref => (sourceByRunItemId sources ref.runItemId).map fun source =>
    evidenceCandidate labels ref source.localCitationId

end Candidates

section Generating
variable [DigitTables]

/-- The instructions of a request: the usual ones, or those of the second attempt. -/
inductive SystemInstructions where
  | standard | supportedAnswerRetry
  deriving DecidableEq, Repr

structure GenerationRequest where
  message : String
  contextItems : List GenerationContextItem
  maxOutputChars : Nat
  systemInstructions : SystemInstructions
  temperature : Option Rat
  deriving DecidableEq, Repr

structure GenerationAttempt where
  content : String
  allowValidationErrorFallback : Bool
  deriving DecidableEq, Repr

/-- Why ask ends without an answer. -/
inductive AskFailure where
  | noContextFound
  | budget (error : BudgetError)
  | evidence (error : EvidenceError)
  | generation
  | answer (error : AnswerError)
  | constraint (name : String)
  deriving DecidableEq, Repr

def raising {E A : Type} (failure : E → AskFailure) : Except E A → Except AskFailure A
  | .ok a => .ok a
  | .error e => .error (failure e)

def supportedAnswerRetryRequest (request : GenerationRequest) : GenerationRequest :=
  { request with systemInstructions := .supportedAnswerRetry, temperature := some 0 }

def shouldRetryInsufficientEvidenceGeneration (content : String) (highRetrievalSupport enabled : Bool) :
    Except AskFailure Bool :=
  if !enabled then .ok false
  else do
    let parsed ← raising .answer (parseGenerationOutput content)
    .ok (isInsufficientEvidenceAnswer parsed.answerText && highRetrievalSupport)

/-- The generator may fail, and it may fail in the second attempt only. -/
def generateWithInsufficientEvidenceRetry (generate : GenerationRequest → Option String)
    (request : GenerationRequest) (highRetrievalSupport enabled : Bool) :
    Except AskFailure GenerationAttempt :=
  match generate request with
  | none => .error .generation
  | some content => do
    let again ← shouldRetryInsufficientEvidenceGeneration content highRetrievalSupport enabled
    if again then
      match generate (supportedAnswerRetryRequest request) with
      | none => .ok ⟨content, false⟩
      | some content => .ok ⟨content, true⟩
    else .ok ⟨content, false⟩

end Generating

section Answering

/-- What retrieval, the request and the settings give to the end of ask. -/
structure AskInputs where
  labels : Labels
  chatSessionId : Nat
  message : String
  retrievalRunId : Nat
  contextCandidates : List ContextCandidateRef
  noContext : Bool
  strategy : ContextBudgetStrategySummary
  budgetPolicy : ContextBudgetPolicy
  packPolicy : EvidencePackPolicy
  citationPreviewMaxChars : Nat
  maxOutputChars : Nat
  retryOnInsufficientEvidence : Bool
  highRetrievalSupport : List ContextCandidateRef → Bool
  generate : GenerationRequest → Option String

variable (inputs : AskInputs) (t : AnswerTables)

def selectItems (decision : ContextBudgetDecision) : AnswerTables :=
  { t with
    items := updateContextSelection inputs.retrievalRunId decision.selectedItemIds t.items }

def sameItems (decision : ContextBudgetDecision) (selectedItemIds : List Nat) : Bool :=
  decision.selectedItemIds.all (selectedItemIds.contains ·) &&
    selectedItemIds.all (decision.selectedItemIds.contains ·)

/-- The prompt: its items, their sources and the candidates behind them. -/
structure Prompt where
  contextItems : List GenerationContextItem
  citationSources : List CitationSource
  contextRefs : List ContextCandidateRef

/-- What is committed, with the prompt and the parsed answer it came from. -/
structure Answered where
  tables : AnswerTables
  prompt : Prompt
  parsed : ParsedGenerationOutput
  cited : List CitationSource

variable [DigitTables] [CaseFold] [Rounding]

def applyContextBudget : Except AskFailure (ContextBudgetDecision × AnswerTables) := do
  let policy :=
    if inputs.noContext then { inputs.budgetPolicy with minCitationCandidates := 0 }
    else inputs.budgetPolicy
  let decision ← raising .budget (apply
    (contextBudgetCandidates inputs.labels inputs.contextCandidates) policy
    (estimateTokens inputs.message) (some inputs.strategy))
  .ok (decision, selectItems inputs t decision)

/-- The selection is written again when the prompt holds other items. -/
def finalizeContextBudgetAfterAssembly (decision : ContextBudgetDecision)
    (promptContextRefs : List ContextCandidateRef) : Except AskFailure AnswerTables := do
  let selectedItemIds := promptContextRefs.map (·.runItemId)
  let final ← raising .budget (finalizeContextBudgetSelection decision selectedItemIds .overBudget)
  if sameItems decision selectedItemIds then .ok t
  else .ok (selectItems inputs t final)

def assemblePrompt (decision : ContextBudgetDecision) : Except AskFailure Prompt := do
  let selectedRefs := selectedContextRefs inputs.contextCandidates decision
  let sources := contextCitationSources inputs.labels inputs.citationPreviewMaxChars selectedRefs
  let items ← raising .evidence
    (buildItems inputs.packPolicy (evidenceCandidates inputs.labels selectedRefs sources))
  if inputs.noContext ∨ items = [] then .error .noContextFound
  else
    let contextItems := toGenerationContextItems items
    let promptSources := promptCitationSources contextItems sources
    .ok ⟨contextItems, promptSources, contextRefsForCitationSources selectedRefs promptSources⟩

def answer : Except AskFailure Answered := do
  let (decision, t) ← applyContextBudget inputs t
  let prompt ← assemblePrompt inputs decision
  let t ← finalizeContextBudgetAfterAssembly inputs t decision prompt.contextRefs
  let attempt ← generateWithInsufficientEvidenceRetry inputs.generate
    ⟨inputs.message, prompt.contextItems, inputs.maxOutputChars, .standard, none⟩
    (inputs.highRetrievalSupport prompt.contextRefs) inputs.retryOnInsufficientEvidence
  let (parsed, cited, _) ← raising .answer (validatedGenerationOrFallback attempt.content
    prompt.contextItems prompt.citationSources true attempt.allowValidationErrorFallback)
  let t := createMessage t inputs.chatSessionId "assistant" parsed.answerText
    (some inputs.retrievalRunId)
  let t ← raising .constraint (saveCitations t inputs.retrievalRunId cited)
  .ok ⟨t, prompt, parsed, cited⟩

end Answering

end RagProject.Generation
