import RagProject.Generation.Assembly
import RagProject.Rag.Cache
import RagProject.Retrieval.Fusion

/-! The dense, the sparse and the hybrid retrieval of RagService (services/rag_service.py), each
from the candidates of its searches to the saved run items and the result. -/
namespace RagProject.Retrieval
open Python Documents Generation

section Candidates

structure RetrievalFilters where
  logicalDocumentIds : List Nat
  modality : String
  deriving DecidableEq, Repr

inductive RetrievalSource where
  | dense | sparse | hybrid | graph | rerank | fallbackDense | metadataFilter
  deriving DecidableEq, Repr

def RetrievalSource.value : RetrievalSource → String
  | .dense => "dense"
  | .sparse => "sparse"
  | .hybrid => "hybrid"
  | .graph => "graph"
  | .rerank => "rerank"
  | .fallbackDense => "fallback_dense"
  | .metadataFilter => "metadata_filter"

def retrievalSourceValues : List String :=
  ["dense", "sparse", "hybrid", "graph", "rerank", "fallback_dense", "metadata_filter"]

/-- A candidate of a search with the payload that the search returned. -/
structure SearchHit extends VectorSearchCandidate where
  payload : Dict
  deriving DecidableEq, Repr

/-- A checked candidate keeps the payload of its search. -/
structure SearchedCandidate extends CheckedRetrievalCandidate where
  payload : Dict
  deriving DecidableEq, Repr

/-- The row of the join for one chunk id. -/
structure JoinedRow (documentChunkId : Nat) where
  chunk : DocumentChunk
  documentVersion : DocumentVersion
  logicalDocument : LogicalDocument
  sameChunk : chunk.documentChunkId = documentChunkId

def readyVersion (db : Db) (documentVersionId : Nat) : Option DocumentVersion :=
  (db.getVersionById documentVersionId).filter fun v => v.status == .ready && v.isActive

def activeDocument (db : Db) (logicalDocumentId : Nat) : Option LogicalDocument :=
  (db.getDocument logicalDocumentId).filter (·.status == .active)

def isModalityChunk (modality : String) (documentChunkId : Nat) (c : DocumentChunk) : Bool :=
  c.documentChunkId == documentChunkId && c.modality == modality

theorem chunk_of_found {modality : String} {documentChunkId : Nat} {chunks : List DocumentChunk}
    {c : DocumentChunk} (found : chunks.find? (isModalityChunk modality documentChunkId) = some c) :
    c.documentChunkId = documentChunkId ∧ c.modality = modality := by
  have same := List.find?_some found
  simpa only [isModalityChunk, Bool.and_eq_true, beq_iff_eq] using same

/-- The chunk of the modality, its ready and active version, and the active document. -/
def joinedRow (modality : String) (db : Db) (documentChunkId : Nat) :
    Option (JoinedRow documentChunkId) :=
  match found : db.chunks.find? (isModalityChunk modality documentChunkId) with
  | none => none
  | some chunk => do
    let version ← readyVersion db chunk.documentVersionId
    let document ← activeDocument db version.logicalDocumentId
    some ⟨chunk, version, document, (chunk_of_found found).1⟩

/-- The candidates that name a chunk, the first one of each. -/
def orderedHits (candidates : List SearchHit) : List (Nat × SearchHit) :=
  candidates.foldl (fun ordered candidate =>
    match candidate.documentChunkId with
    | none => ordered
    | some id => if ordered.any (·.1 == id) then ordered else ordered ++ [(id, candidate)]) []

def withinDocuments (filters : RetrievalFilters) (logicalDocumentId : Nat) : Bool :=
  filters.logicalDocumentIds.isEmpty || filters.logicalDocumentIds.contains logicalDocumentId

/-- The joined row, within the documents of the filter. -/
def visibleRow (filters : RetrievalFilters) (db : Db) (documentChunkId : Nat) :
    Option (JoinedRow documentChunkId) :=
  (joinedRow filters.modality db documentChunkId).filter fun row =>
    withinDocuments filters row.logicalDocument.logicalDocumentId

/-- One turn of the loop over the ordered ids. -/
def checkHit (filters : RetrievalFilters) (db : Db) (checked : List SearchedCandidate)
    (entry : Nat × SearchHit) : List SearchedCandidate :=
  match visibleRow filters db entry.1 with
  | none => checked
  | some row => checked ++ [
    { chunk := row.chunk
      documentVersion := row.documentVersion
      logicalDocument := row.logicalDocument
      retrievalScore := entry.2.retrievalScore
      rankOrder := checked.length + 1
      payload := entry.2.payload }]

/-- final_check_candidates. -/
def finalCheckCandidates (filters : RetrievalFilters) (db : Db) (candidates : List SearchHit) :
    List SearchedCandidate :=
  (orderedHits candidates).foldl (checkHit filters db) []

end Candidates

section RunItems

structure RetrievalRunItemInput where
  documentChunkId : Nat
  retrievalScore : Number
  rerankScore : Option Number
  rankOrder : Nat
  rerankOrder : Option Nat
  selectedFlag : Bool
  retrievalSource : Option String
  scoreBreakdownJson : Option Dict
  deriving DecidableEq, Repr

/-- retrieval_run_items, with the next value of its sequence. -/
structure RunItems where
  rows : List RetrievalRunItem
  nextId : Nat
  deriving DecidableEq, Repr

/-- What NUMERIC(10, 6) holds of a score that is rounded to six places. -/
def fitsNumeric : Number → Bool
  | .finite q => -10000 < q && q < 10000
  | .nonFinite => false

def RetrievalRunItem.checks (item : RetrievalRunItem) : List (String × Bool) := [
  ("numeric_value_out_of_range",
    fitsNumeric item.retrievalScore && item.rerankScore.all fitsNumeric),
  ("ck_retrieval_run_items_rank_order", 1 ≤ item.rankOrder),
  ("ck_retrieval_run_items_rerank_order", item.rerankOrder.all (1 ≤ ·)),
  ("ck_retrieval_run_items_source", item.retrievalSource.all (retrievalSourceValues.contains ·))]

/-- The unique index that two rows would break. -/
def RetrievalRunItem.clash (a b : RetrievalRunItem) : Option String :=
  if a.retrievalRunId ≠ b.retrievalRunId then none
  else if a.documentChunkId = b.documentChunkId then some "uq_retrieval_run_items_run_chunk"
  else if a.rankOrder = b.rankOrder then some "ux_retrieval_run_items_run_rank"
  else if a.rerankOrder.isSome ∧ a.rerankOrder = b.rerankOrder then
    some "ux_retrieval_run_items_run_rerank_order"
  else none

def savedItem (retrievalRunId retrievalRunItemId : Nat) (input : RetrievalRunItemInput) :
    RetrievalRunItem where
  retrievalRunItemId := retrievalRunItemId
  retrievalRunId := retrievalRunId
  documentChunkId := input.documentChunkId
  retrievalScore := input.retrievalScore
  rerankScore := input.rerankScore
  rankOrder := input.rankOrder
  rerankOrder := input.rerankOrder
  selectedFlag := input.selectedFlag
  retrievalSource :=
    some ((input.retrievalSource.filter (· ≠ "")).getD RetrievalSource.dense.value)
  scoreBreakdownJson := input.scoreBreakdownJson

/-- One INSERT; an error names the constraint. -/
def insertItem (retrievalRunId : Nat) (t : RunItems) (input : RetrievalRunItemInput) :
    Except String RunItems :=
  let row := savedItem retrievalRunId t.nextId input
  match row.checks.find? fun check => !check.2 with
  | some check => .error check.1
  | none =>
    match t.rows.findSome? (·.clash row) with
    | some constraint => .error constraint
    | none => .ok ⟨t.rows ++ [row], t.nextId + 1⟩

/-- save_items. -/
def saveItems (retrievalRunId : Nat) (inputs : List RetrievalRunItemInput) (t : RunItems) :
    Except String RunItems :=
  inputs.foldlM (insertItem retrievalRunId) t

end RunItems

section Results

/-- RetrievalScoreSummary, which keeps the fields that it does not declare. -/
structure RetrievalScoreSummary where
  requestedTopK : Int
  qdrantCandidateCount : Int
  sparseCandidateCount : Option Int
  postFilterCandidateCount : Int
  selectedCount : Int
  excludedByRdbCheckCount : Int
  top1RetrievalScore : Option Number
  top3AvgRetrievalScore : Option Number
  top1RerankScore : Option Number
  extra : Dict
  deriving DecidableEq, Repr

structure RagSearchItem where
  retrievalRunItemId : Nat
  documentChunkId : Nat
  sourceLabel : String
  snippet : String
  pageFrom : Option Int
  pageTo : Option Int
  retrievalScore : Number
  rerankScore : Option Number
  rankOrder : Nat
  rerankOrder : Option Nat
  selectedFlag : Bool
  payloadSnapshot : Dict
  deriving DecidableEq, Repr

structure RetrievalPipelineResult where
  summary : RetrievalScoreSummary
  items : List RagSearchItem
  selectedCandidates : List SearchedCandidate
  citationSources : List CitationSource
  contextCandidates : List ContextCandidateRef
  noContext : Bool
  deriving DecidableEq, Repr

/-- What is shown of a candidate: the chunk, and the names of its version and document. -/
structure ShownRows where
  chunk : DocumentChunk
  documentVersionId : Nat
  versionNo : Nat
  fileName : String
  logicalDocumentId : Nat
  title : String
  deriving DecidableEq, Repr

def shown (candidate : CheckedRetrievalCandidate) : ShownRows where
  chunk := candidate.chunk
  documentVersionId := candidate.documentVersion.documentVersionId
  versionNo := candidate.documentVersion.versionNo
  fileName := candidate.documentVersion.fileName
  logicalDocumentId := candidate.logicalDocument.logicalDocumentId
  title := candidate.logicalDocument.title

/-- _source_label, _safe_display_text, _citation_source_type, _citation_source_url,
_payload_snapshot, and the breakdown of the scores. -/
structure Display where
  sourceLabel : ShownRows → String
  safeDisplayText : Option String → Option String
  sourceType : ShownRows → String
  sourceUrl : ShownRows → Option String
  payloadSnapshot : ShownRows → Dict
  scoreBreakdown : RetrievalSource → SearchedCandidate → Option Number → Option Nat →
    (finalRank : Nat) → (selectedFlag : Bool) → Dict

def Display.labels (display : Display) : Labels where
  sourceLabel candidate := display.sourceLabel (shown candidate)
  safeDisplayText := display.safeDisplayText
  sourceType candidate := display.sourceType (shown candidate)
  sourceUrl candidate := display.sourceUrl (shown candidate)

structure PipelineSettings where
  searchSnippetMaxChars : Nat
  citationPreviewMaxChars : Nat

/-- A candidate with the row that is to be saved for it, and what its result says of the rerank
and of the selection. -/
structure PipelineEntry where
  candidate : SearchedCandidate
  input : RetrievalRunItemInput
  rerankScore : Option Number
  rerankOrder : Option Nat
  selected : Bool
  sameChunk : input.documentChunkId = candidate.chunk.documentChunkId

structure SavedCandidate where
  entry : PipelineEntry
  savedItem : RetrievalRunItem
  sameChunk : savedItem.documentChunkId = entry.candidate.chunk.documentChunkId

/-- The entries with their rows, which take the next ids. -/
def savedCandidates (retrievalRunId nextId : Nat) (entries : List PipelineEntry) :
    List SavedCandidate :=
  (entries.zipIdx nextId).map fun e =>
    ⟨e.1, savedItem retrievalRunId e.2 e.1.input, e.1.sameChunk⟩

def contextRef (saved : SavedCandidate) (rank : Nat) : ContextCandidateRef where
  candidate := saved.entry.candidate.toCheckedRetrievalCandidate
  savedItem := saved.savedItem
  rank := rank
  rerankScore := saved.entry.rerankScore
  rerankOrder := saved.entry.rerankOrder
  citationCandidate := saved.entry.selected
  sameChunk := saved.sameChunk

variable (display : Display) (settings : PipelineSettings) [Rounding]

def responseItem (saved : SavedCandidate) : RagSearchItem :=
  let candidate := saved.entry.candidate
  { retrievalRunItemId := saved.savedItem.retrievalRunItemId
    documentChunkId := candidate.chunk.documentChunkId
    sourceLabel := display.sourceLabel (shown candidate.toCheckedRetrievalCandidate)
    snippet := snippet candidate.chunk.contentText settings.searchSnippetMaxChars
    pageFrom := candidate.chunk.pageFrom
    pageTo := candidate.chunk.pageTo
    retrievalScore := roundScore candidate.retrievalScore
    rerankScore := saved.entry.rerankScore.map roundScore
    rankOrder := candidate.rankOrder
    rerankOrder := saved.entry.rerankOrder
    selectedFlag := saved.entry.selected
    payloadSnapshot := display.payloadSnapshot (shown candidate.toCheckedRetrievalCandidate) }

def pipelineResult (summary : RetrievalScoreSummary) (saved selected : List SavedCandidate)
    (noContext : Bool) : RetrievalPipelineResult where
  summary := summary
  items := saved.map (responseItem display settings)
  selectedCandidates := selected.map (·.entry.candidate)
  citationSources := (selected.zipIdx 1).map fun e =>
    citationSource display.labels settings.citationPreviewMaxChars (contextRef e.1 e.2) e.2
  contextCandidates := (saved.zipIdx 1).map fun e => contextRef e.1 e.2
  noContext := noContext

end Results

section Affinity

def sourceAffinityStopWords : List String :=
  ["and", "compare", "comparison", "please", "search", "retrieval", "method", "methods",
    "strategy", "strategies"]

def asciiLetter (c : Char) : Bool := ('a' ≤ c && c ≤ 'z') || ('A' ≤ c && c ≤ 'Z')

def tokenChar (c : Char) : Bool :=
  asciiLetter c || ('0' ≤ c && c ≤ '9') || c == '_' || c == '.' || c == '-'

/-- finditer of [A-Za-z][A-Za-z0-9_.-]{2,}, where the first characters belong to the match before
them. -/
def affinityMatches : Nat → List Char → List (List Char)
  | _, [] => []
  | skip + 1, _ :: cs => affinityMatches skip cs
  | 0, c :: cs =>
    let more := cs.takeWhile tokenChar
    if asciiLetter c && 2 ≤ more.length then (c :: more) :: affinityMatches more.length cs
    else affinityMatches 0 cs

def stripMarks (s : List Char) : List Char :=
  let marks := fun c => c == '.' || c == '_' || c == '-'
  ((s.dropWhile marks).reverse.dropWhile marks).reverse

variable [UnicodeTables]

/-- _source_affinity_tokens: eight at most, the first ones. -/
def sourceAffinityTokens (query : String) : List (List Char) :=
  ((affinityMatches 0 query.toList).foldl (fun tokens found =>
    let token := lower (stripMarks found)
    if token.length < 4 || sourceAffinityStopWords.contains (String.ofList token) ||
      tokens.contains token then tokens
    else tokens ++ [token]) []).take 8

def sourceAffinityScore (candidate : SearchedCandidate) (tokens : List (List Char)) : Nat :=
  let fileName := lower candidate.documentVersion.fileName.toList
  let title := lower candidate.logicalDocument.title.toList
  let sectionTitle := lower (candidate.chunk.sectionTitle.getD "").toList
  let combined := fileName ++ ' ' :: title ++ ' ' :: sectionTitle
  (tokens.map fun token =>
    if !contains combined token then 0
    else 1 + (if contains title token then 2 else 0) + (if contains fileName token then 1 else 0) +
      (if contains sectionTitle token then 1 else 0)).sum

/-- _order_by_source_affinity; the sort is stable. -/
def orderBySourceAffinity (query : String) (candidates : List SearchedCandidate) :
    List SearchedCandidate :=
  let tokens := sourceAffinityTokens query
  let score := fun candidate => sourceAffinityScore candidate tokens
  if tokens.isEmpty || candidates.length < 2 then candidates
  else if candidates.all (score · == 0) then candidates
  else candidates.insertionSort fun a b => score b ≤ score a

end Affinity

section Paths

structure RerankCandidate where
  documentChunkId : Nat
  text : String
  retrievalScore : Number
  deriving DecidableEq, Repr

/-- The searches, the fusion and the reranker, where a search and the reranker may raise; average
is the mean of at most three scores. -/
structure RetrievalServices where
  vectorSearch : (query : String) → (limit : Nat) → RetrievalFilters → Option (List SearchHit)
  sparseSearch : (query : String) → (topK : Nat) → RetrievalFilters → Option (List SearchHit)
  fuse : (denseCandidates sparseCandidates : List SearchHit) → FusionMethod → (limit : Nat) →
    List SearchHit
  rerank : (query : String) → List RerankCandidate → Option (List Rag.RerankResult)
  average : List Rat → Rat

inductive RetrievalFailure where
  | search | rerank
  | constraint (name : String)
  deriving DecidableEq, Repr

structure SearchRequest where
  query : String
  topK : Nat
  rerankTopN : Nat
  filters : RetrievalFilters
  retrievalRunId : Nat

/-- The settings of the hybrid search. -/
structure HybridSettings where
  fusionMethod : FusionMethod
  candidateMultiplier : Nat
  usesDense : Bool
  usesSparse : Bool

variable (services : RetrievalServices) (display : Display) (settings : PipelineSettings)
variable (request : SearchRequest) (db : Db) [Rounding]

def averageScore (scores : List Number) : Number :=
  match scores.mapM finiteScore with
  | some scores => roundScore (.finite (services.average scores))
  | none => .nonFinite

/-- _score_summary. -/
def scoreSummary (qdrantCandidateCount : Nat)
    (sparseCandidateCount hybridCandidateCount : Option Nat)
    (checkedCandidates : List SearchedCandidate) (selectedCount : Nat)
    (top1RerankScore : Option Number) (fusionMethod : Option String)
    (excludedByRdbCheckCount : Option Nat) : RetrievalScoreSummary :=
  let sourceCandidateCount :=
    (hybridCandidateCount <|> sparseCandidateCount).getD qdrantCandidateCount
  let scores := checkedCandidates.map (·.retrievalScore)
  { requestedTopK := request.topK
    qdrantCandidateCount := qdrantCandidateCount
    sparseCandidateCount := sparseCandidateCount.map Int.ofNat
    postFilterCandidateCount := checkedCandidates.length
    selectedCount := selectedCount
    excludedByRdbCheckCount := (excludedByRdbCheckCount.map Int.ofNat).getD
      (sourceCandidateCount - checkedCandidates.length)
    top1RetrievalScore := scores.head?.map roundScore
    top3AvgRetrievalScore :=
      if scores.isEmpty then none else some (averageScore services (scores.take 3))
    top1RerankScore := top1RerankScore.map roundScore
    extra := (hybridCandidateCount.map fun n => ("hybrid_candidate_count", Value.int n)).toList ++
      (fusionMethod.map fun name => ("fusion_method", Value.str name)).toList }

def emptyResult (summary : RetrievalScoreSummary) (noContext : Bool) : RetrievalPipelineResult :=
  ⟨summary, [], [], [], [], noContext⟩

/-- The row of a candidate: a score is stored with six places. -/
def itemInput (retrievalSource : RetrievalSource) (candidate : SearchedCandidate)
    (rerankScore : Option Number) (rerankOrder : Option Nat) (finalRank : Nat)
    (selectedFlag : Bool) : RetrievalRunItemInput where
  documentChunkId := candidate.chunk.documentChunkId
  retrievalScore := roundScore candidate.retrievalScore
  rerankScore := rerankScore.map roundScore
  rankOrder := candidate.rankOrder
  rerankOrder := rerankOrder
  selectedFlag := selectedFlag
  retrievalSource := some retrievalSource.value
  scoreBreakdownJson := some (display.scoreBreakdown retrievalSource candidate rerankScore
    rerankOrder finalRank selectedFlag)

def runItemInput (retrievalSource : RetrievalSource) (candidate : SearchedCandidate)
    (rerankScore : Number) (rerankOrder : Nat) : (finalRank : Nat) → (selectedFlag : Bool) →
      RetrievalRunItemInput :=
  itemInput display retrievalSource candidate (some rerankScore) (some rerankOrder)

def sparseRunItemInput (candidate : SearchedCandidate) : (finalRank : Nat) →
    (selectedFlag : Bool) → RetrievalRunItemInput :=
  itemInput display .sparse candidate none none

def hybridRunItemInput (candidate : SearchedCandidate) : (finalRank : Nat) →
    (selectedFlag : Bool) → RetrievalRunItemInput :=
  itemInput display .hybrid candidate none none

/-- The rows are saved and make the result with the first ones selected. -/
def savedResult (entries : List PipelineEntry) (selectedCount : Nat)
    (summary : RetrievalScoreSummary) (t : RunItems) :
    Except RetrievalFailure (RetrievalPipelineResult × RunItems) :=
  match saveItems request.retrievalRunId (entries.map (·.input)) t with
  | .error constraint => .error (.constraint constraint)
  | .ok t' =>
    let saved := savedCandidates request.retrievalRunId t.nextId entries
    .ok (pipelineResult display settings summary saved (saved.take selectedCount) false, t')

/-- The candidates by the order of their results, whose scores are clamped. -/
def rerankedCandidates (checked : List SearchedCandidate) (results : List Rag.RerankResult) :
    List (SearchedCandidate × Rag.RerankResult) :=
  let byChunkId := results.map fun r =>
    (r.documentChunkId, { r with rerankScore := min 1 (max 0 r.rerankScore) })
  let paired := checked.filterMap fun c =>
    (byChunkId.lookup c.chunk.documentChunkId).map fun r => (c, r)
  paired.insertionSort fun a b => a.2.rerankOrder ≤ b.2.rerankOrder

def rerankedEntries (retrievalSource : RetrievalSource)
    (ordered : List (SearchedCandidate × Rag.RerankResult)) (selectedCount : Nat) :
    List PipelineEntry :=
  (ordered.zipIdx 1).map fun e =>
    { candidate := e.1.1
      input := runItemInput display retrievalSource e.1.1 (.finite e.1.2.rerankScore)
        e.1.2.rerankOrder e.2 (e.2 ≤ selectedCount)
      rerankScore := some (.finite e.1.2.rerankScore)
      rerankOrder := some e.1.2.rerankOrder
      selected := e.2 ≤ selectedCount
      sameChunk := rfl }

/-- _retrieve_and_rerank. -/
def retrieveAndRerank (retrievalSource : RetrievalSource) (t : RunItems) :
    Except RetrievalFailure (RetrievalPipelineResult × RunItems) :=
  match services.vectorSearch request.query request.topK request.filters with
  | none => .error .search
  | some vectorCandidates =>
    let checked := finalCheckCandidates request.filters db vectorCandidates
    if checked = [] then
      .ok (emptyResult (scoreSummary services request vectorCandidates.length none none [] 0 none
        none none) false, t)
    else
      let expected := (checked.map (·.chunk.documentChunkId)).dedup
      match services.rerank request.query (checked.map fun c =>
        ⟨c.chunk.documentChunkId, c.chunk.contentText, c.retrievalScore⟩) with
      | none => .error .rerank
      | some results =>
        if !Rag.rerankResultsValid expected results then .error .rerank
        else
          let ordered := rerankedCandidates checked results
          let selectedCount := min request.rerankTopN ordered.length
          let entries := rerankedEntries display retrievalSource ordered selectedCount
          let summary := scoreSummary services request vectorCandidates.length none none checked
            selectedCount (ordered.head?.map fun e => .finite e.2.rerankScore) none none
          savedResult display settings request entries selectedCount summary t

/-- The entries of a path that does not rerank. -/
def unrankedEntries (input : SearchedCandidate → Nat → Bool → RetrievalRunItemInput)
    (same : ∀ c n b, (input c n b).documentChunkId = c.chunk.documentChunkId)
    (candidates : List SearchedCandidate) (selectedCount : Nat) : List PipelineEntry :=
  (candidates.zipIdx 1).map fun e =>
    ⟨e.1, input e.1 e.2 (e.2 ≤ selectedCount), none, none, e.2 ≤ selectedCount, same _ _ _⟩

/-- _retrieve_sparse. -/
def retrieveSparse (t : RunItems) : Except RetrievalFailure (RetrievalPipelineResult × RunItems) :=
  match services.sparseSearch request.query request.topK request.filters with
  | none => .error .search
  | some sparseCandidates =>
    let checked := finalCheckCandidates request.filters db sparseCandidates
    let selectedCount := min request.rerankTopN checked.length
    let summary := scoreSummary services request 0 (some sparseCandidates.length) none checked
      selectedCount none none none
    if checked = [] then .ok (emptyResult summary false, t)
    else
      let entries := unrankedEntries (sparseRunItemInput display) (fun _ _ _ => rfl) checked
        selectedCount
      savedResult display settings request entries selectedCount summary t

/-- _retrieve_hybrid. -/
def retrieveHybrid [UnicodeTables] (hybrid : HybridSettings) (t : RunItems) :
    Except RetrievalFailure (RetrievalPipelineResult × RunItems) :=
  let candidateLimit := min (request.topK * hybrid.candidateMultiplier) 50
  match (if hybrid.usesDense then
      services.vectorSearch request.query candidateLimit request.filters else some []),
    (if hybrid.usesSparse then
      services.sparseSearch request.query candidateLimit request.filters else some []) with
  | some denseCandidates, some sparseCandidates =>
    let fused := services.fuse denseCandidates sparseCandidates hybrid.fusionMethod candidateLimit
    let checked := finalCheckCandidates request.filters db fused
    let visible := (orderBySourceAffinity request.query checked).take request.topK
    let selectedCount := min request.rerankTopN visible.length
    let summary := fun counted => scoreSummary services request denseCandidates.length
      (some sparseCandidates.length) (some fused.length) counted selectedCount none
      (some hybrid.fusionMethod.value) (some (fused.length - checked.length))
    if visible = [] then .ok (emptyResult (summary []) false, t)
    else
      let entries := unrankedEntries (hybridRunItemInput display) (fun _ _ _ => rfl) visible
        selectedCount
      savedResult display settings request entries selectedCount (summary checked) t
  | _, _ => .error .search

/-- The three paths. -/
inductive RetrievalPath where
  | dense (retrievalSource : RetrievalSource)
  | sparse
  | hybrid (settings : HybridSettings)

def RetrievalPath.run [UnicodeTables] (t : RunItems) : RetrievalPath →
    Except RetrievalFailure (RetrievalPipelineResult × RunItems)
  | .dense retrievalSource =>
    retrieveAndRerank services display settings request db retrievalSource t
  | .sparse => retrieveSparse services display settings request db t
  | .hybrid hybridSettings =>
    retrieveHybrid services display settings request db hybridSettings t

end Paths

end RagProject.Retrieval
