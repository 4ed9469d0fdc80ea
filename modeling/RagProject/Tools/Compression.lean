import RagProject.Context.Evidence
import RagProject.Lib.Markers

/-! ToolResultCompressor and ToolResultBudgetManager (rag/tool_result_compression.py): what the
planner gets of the results of a search, within the budgets of a turn. -/
namespace RagProject.Tools
open Python Regex Markers Context

inductive ToolResultDropReason where
  | maxItemsLimit | maxTotalItemsLimit | maxTokensLimit | maxTotalTokensLimit
  | exactDuplicateRemoved | sameChunkDeduped | sameSourceGrouped | lowScoreDropped
  | oversizedRejected | unsafeRedacted | repeatedResult | missingText | unknown
  deriving DecidableEq, Repr

inductive ToolResultCompressionMethod where
  | none | maxCharsPerSnippet | exactDuplicateRemoved | sameChunkDeduped | sameSourceGrouped
  | lowScoreDropped | unsafeRedacted
  deriving DecidableEq, Repr

structure ToolResultCandidate where
  toolCallId : String
  toolName : String
  documentChunkId : Nat
  text : Option String
  sourceLabel : Option String
  sectionTitle : Option String
  pageFrom : Option Int
  pageTo : Option Int
  rank : Option Int
  retrievalScore : Option Rat
  rerankScore : Option Rat
  fusionScore : Option Rat
  citationCandidate : Bool
  sourceGroupKey : Option String
  deriving DecidableEq, Repr

structure ToolResultCompressionPolicy where
  enabled : Bool
  maxItemsPerTool : Nat
  maxTotalItemsPerTurn : Nat
  maxSnippetChars : Nat
  maxTokensPerTool : Nat
  maxTotalToolResultTokens : Nat
  dropLowScoreFirst : Bool
  groupBySource : Bool
  rejectOversizedOutput : Bool
  deriving DecidableEq, Repr

/-- The bounds of the fields, and validate_policy. -/
structure ToolResultCompressionPolicy.Valid (policy : ToolResultCompressionPolicy) : Prop where
  itemsPerTool : 1 ≤ policy.maxItemsPerTool ∧ policy.maxItemsPerTool ≤ 100
  itemsPerTurn : 1 ≤ policy.maxTotalItemsPerTurn ∧ policy.maxTotalItemsPerTurn ≤ 200
  snippetChars : 20 ≤ policy.maxSnippetChars ∧ policy.maxSnippetChars ≤ 5000
  tokensPerTool : 1 ≤ policy.maxTokensPerTool ∧ policy.maxTokensPerTool ≤ 200000
  tokensPerTurn :
    1 ≤ policy.maxTotalToolResultTokens ∧ policy.maxTotalToolResultTokens ≤ 200000
  items : policy.maxItemsPerTool ≤ policy.maxTotalItemsPerTurn
  tokens : policy.maxTokensPerTool ≤ policy.maxTotalToolResultTokens

/-- An item as the trace shows it. -/
structure ToolResultItemRef where
  toolCallId : String
  toolName : String
  retrievalRunItemId : Option Nat
  documentChunkId : Nat
  sourceLabel : Option String
  sectionTitle : Option String
  pageFrom : Option Int
  pageTo : Option Int
  rank : Option Int
  retrievalScore : Option Rat
  rerankScore : Option Rat
  fusionScore : Option Rat
  citationCandidate : Bool
  snippetHash : String
  originalCharCount : Nat
  snippetCharCount : Nat
  estimatedTokens : Nat
  sourceGroupKey : String
  compressionMethod : ToolResultCompressionMethod
  deriving DecidableEq, Repr

structure ToolResultItem extends ToolResultItemRef where
  snippet : String
  deriving DecidableEq, Repr

structure DroppedToolResultRef where
  toolCallId : String
  toolName : String
  retrievalRunItemId : Option Nat
  documentChunkId : Option Nat
  sourceLabel : Option String
  rank : Option Int
  estimatedTokens : Nat
  originalCharCount : Nat
  dropReason : ToolResultDropReason
  deriving DecidableEq, Repr

inductive ToolStatus where
  | succeeded | failed
  deriving DecidableEq, Repr

def ToolStatus.value : ToolStatus → String
  | .succeeded => "succeeded"
  | .failed => "failed"

structure ToolResultByToolTrace where
  toolCallId : String
  toolName : String
  status : ToolStatus
  originalItemCount : Nat
  outputItemCount : Nat
  droppedItemCount : Nat
  estimatedTokensBefore : Nat
  estimatedTokensAfter : Nat
  compressionRatio : Rat
  dropReasons : List (ToolResultDropReason × Nat)
  compressionMethods : List (ToolResultCompressionMethod × Nat)
  budgetExhausted : Bool
  repeatedResult : Bool
  oversizedRejected : Bool
  errorCode : Option String
  deriving DecidableEq, Repr

structure CompressedToolResult extends ToolResultByToolTrace where
  items : List ToolResultItem
  droppedItemRefs : List DroppedToolResultRef
  deriving DecidableEq, Repr

section Texts
variable [DigitTables]

def uncPathRe : Pattern :=
  sequence [literal "\\\\", plus (.char fun c => !isSpace c)]

def posixPrivatePathRe : Pattern :=
  sequence [.alt .textStart (.char isSpace), exactly '/',
    oneOf (["app/storage", "storage", "data", "tmp", "home", "var/lib", "Users", "private",
      "Volumes"].map literalIgnoreCase),
    .alt (exactly '/') (.char isSpace)]

def phoneRe : Pattern :=
  let digit := Pattern.char isDecimal
  sequence [.wordEdge, optional (exactly '+'), digit,
    atLeast (.char fun c => isDecimal c || [' ', '.', '_', '-'].contains c) 7, digit, .wordEdge]

def unsafeTool (text : List Char) : Bool :=
  search windowsPathRe text || search uncPathRe text || search posixPrivatePathRe text ||
    search phoneRe text

/-- _safe_tool_string. -/
def safeToolString (maxLength : Nat) (value : String) : String :=
  let normalized := cleanText value
  if unsafeTool normalized.toList then "redacted"
  else
    let safe := safeString maxLength normalized
    if safe = "" then "redacted" else safe

/-- _safe_snippet. -/
def safeSnippet (maxChars : Nat) (value : String) : String :=
  String.ofList ((safeToolString maxChars value).toList.take maxChars)

def cleanOptional (value : Option String) : String := cleanText (value.getD "")

/-- _TOKEN_RE.findall(value). -/
def tokens (value : String) : List (List Char) :=
  (value.toList.splitOnP (!isTokenChar ·)).filter (2 ≤ ·.length)

/-- _normalize_text. -/
def normalizeToolText (value : String) : String :=
  String.ofList ((join [' '] ((tokens value).map lower)).take 4000)

def toolSourceGroupKey (candidate : ToolResultCandidate) : String :=
  match candidate.sourceGroupKey.filter (· ≠ "") with
  | some key => safeToolString 255 key
  | none => "chunk:" ++ toString candidate.documentChunkId

end Texts

structure PreparedToolResultCandidate where
  candidate : ToolResultCandidate
  cleanText : String
  normalizedText : String
  originalCharCount : Nat
  estimatedTokens : Nat
  deriving DecidableEq, Repr

section Preparing
variable [DigitTables]

def prepareToolCandidate (candidate : ToolResultCandidate) : PreparedToolResultCandidate :=
  let clean := cleanOptional candidate.text
  ⟨candidate, clean, normalizeToolText clean, clean.length, estimateTokens clean⟩

/-- _candidate_order. -/
def candidateOrder (prepared : PreparedToolResultCandidate) : Int ×ₗ Rat ×ₗ Nat :=
  let candidate := prepared.candidate
  toLex (orDefault candidate.rank 1000000,
    toLex (-((candidate.rerankScore <|> candidate.fusionScore <|> candidate.retrievalScore).getD 0),
      candidate.documentChunkId))

def preparedCandidates (policy : ToolResultCompressionPolicy)
    (candidates : List ToolResultCandidate) : List PreparedToolResultCandidate :=
  let prepared := candidates.map prepareToolCandidate
  if policy.dropLowScoreFirst then
    prepared.insertionSort fun a b => candidateOrder a ≤ candidateOrder b
  else prepared

def toolDropRef (prepared : PreparedToolResultCandidate) (reason : ToolResultDropReason) :
    DroppedToolResultRef where
  toolCallId := safeToolString 255 prepared.candidate.toolCallId
  toolName := safeToolString 255 prepared.candidate.toolName
  retrievalRunItemId := none
  documentChunkId := some prepared.candidate.documentChunkId
  sourceLabel := prepared.candidate.sourceLabel.map (safeToolString 255)
  rank := prepared.candidate.rank
  estimatedTokens := prepared.estimatedTokens
  originalCharCount := prepared.originalCharCount
  dropReason := reason

def dropRefForItem (reason : ToolResultDropReason) (item : ToolResultItem) :
    DroppedToolResultRef where
  toolCallId := safeToolString 255 item.toolCallId
  toolName := safeToolString 255 item.toolName
  retrievalRunItemId := item.retrievalRunItemId
  documentChunkId := some item.documentChunkId
  sourceLabel := item.sourceLabel.map (safeToolString 255)
  rank := item.rank
  estimatedTokens := item.estimatedTokens
  originalCharCount := item.originalCharCount
  dropReason := reason

end Preparing

section Manager

/-- The state of a ToolResultBudgetManager. -/
structure ToolResultBudgetManager where
  consumedItems : Nat
  consumedTokens : Nat
  results : List CompressedToolResult
  seenResultSignatures : List String

def ToolResultBudgetManager.new : ToolResultBudgetManager := ⟨0, 0, [], []⟩

variable (policy : ToolResultCompressionPolicy) (manager : ToolResultBudgetManager)

def remainingItems : Nat := policy.maxTotalItemsPerTurn - manager.consumedItems

def remainingTokens : Nat := policy.maxTotalToolResultTokens - manager.consumedTokens

def signatureOrder (item : ToolResultItem) : Int ×ₗ Nat :=
  toLex (orDefault item.rank 1000000, item.documentChunkId)

def signaturePart (item : ToolResultItem) : String :=
  toString item.documentChunkId ++ ":" ++ item.snippetHash ++ ":" ++ toString (orDefault item.rank 0)

def resultSignature (items : List ToolResultItem) : String :=
  let sorted := items.insertionSort fun a b => signatureOrder a ≤ signatureOrder b
  Sha256.hexDigest ("|".intercalate (sorted.map signaturePart))

def isRepeatedResult (items : List ToolResultItem) : Bool :=
  !items.isEmpty && manager.seenResultSignatures.contains (resultSignature items)

/-- ToolResultBudgetManager.record. -/
def record (result : CompressedToolResult) : ToolResultBudgetManager where
  consumedItems := manager.consumedItems + result.outputItemCount
  consumedTokens := manager.consumedTokens + result.estimatedTokensAfter
  results := manager.results ++ [result]
  seenResultSignatures :=
    if !result.items.isEmpty && !result.repeatedResult then
      resultSignature result.items :: manager.seenResultSignatures
    else manager.seenResultSignatures

end Manager

section Compressing

structure Compressing where
  dropCounts : List (ToolResultDropReason × Nat)
  methodCounts : List (ToolResultCompressionMethod × Nat)
  droppedRefs : List DroppedToolResultRef
  accepted : List ToolResultItem
  seenChunks : List Nat
  seenText : List String
  seenSources : List String
  perToolTokens : Nat
  budgetExhausted : Bool
  tokenLimitDrop : Bool

def Compressing.start : Compressing := ⟨[], [], [], [], [], [], [], 0, false, false⟩

variable [DigitTables]

def Compressing.drop (s : Compressing) (prepared : PreparedToolResultCandidate)
    (reason : ToolResultDropReason) : Compressing :=
  { s with
    dropCounts := Counter.add s.dropCounts reason
    droppedRefs := s.droppedRefs ++ [toolDropRef prepared reason] }

variable (policy : ToolResultCompressionPolicy) (manager : ToolResultBudgetManager)

def toolSnippet (prepared : PreparedToolResultCandidate) : String :=
  safeSnippet policy.maxSnippetChars prepared.cleanText

/-- The tests of the loop, in their order: the reason to drop a candidate. -/
def toolRefusal (s : Compressing) (prepared : PreparedToolResultCandidate) :
    Option ToolResultDropReason :=
  let itemTokens := estimateTokens (toolSnippet policy prepared)
  if prepared.cleanText = "" then some .missingText
  else if prepared.candidate.documentChunkId ∈ s.seenChunks then some .sameChunkDeduped
  else if prepared.normalizedText ∈ s.seenText then some .exactDuplicateRemoved
  else if policy.maxItemsPerTool ≤ s.accepted.length then some .maxItemsLimit
  else if remainingItems policy manager ≤ s.accepted.length then some .maxTotalItemsLimit
  else if policy.maxTokensPerTool < s.perToolTokens + itemTokens then some .maxTokensLimit
  else if remainingTokens policy manager < s.perToolTokens + itemTokens then
    some .maxTotalTokensLimit
  else none

/-- The reasons that exhaust a budget. -/
def ToolResultDropReason.ofBudget (reason : ToolResultDropReason) : Bool :=
  [.maxItemsLimit, .maxTotalItemsLimit, .maxTokensLimit, .maxTotalTokensLimit].contains reason

def ToolResultDropReason.ofTokens (reason : ToolResultDropReason) : Bool :=
  [.maxTokensLimit, .maxTotalTokensLimit].contains reason

def toolMethod (s : Compressing) (prepared : PreparedToolResultCandidate) :
    ToolResultCompressionMethod :=
  let snippet := toolSnippet policy prepared
  if snippet = "redacted" then .unsafeRedacted
  else if snippet.length < prepared.originalCharCount then .maxCharsPerSnippet
  else if policy.groupBySource && s.seenSources.contains (toolSourceGroupKey prepared.candidate) then
    .sameSourceGrouped
  else .none

variable [Rounding] (toolCallId toolName : String)

def toolItem (prepared : PreparedToolResultCandidate) (method : ToolResultCompressionMethod) :
    ToolResultItem :=
  let candidate := prepared.candidate
  let snippet := toolSnippet policy prepared
  { toolCallId := safeToolString 255 toolCallId
    toolName := safeToolString 255 toolName
    retrievalRunItemId := none
    documentChunkId := candidate.documentChunkId
    sourceLabel := candidate.sourceLabel.map (safeToolString 255)
    sectionTitle := candidate.sectionTitle.map (safeToolString 255)
    pageFrom := candidate.pageFrom
    pageTo := candidate.pageTo
    rank := candidate.rank
    retrievalScore := candidate.retrievalScore.map (Rounding.round 6)
    rerankScore := candidate.rerankScore.map (Rounding.round 6)
    fusionScore := candidate.fusionScore.map (Rounding.round 6)
    citationCandidate := candidate.citationCandidate
    snippet := snippet
    snippetHash := Sha256.hexDigest snippet
    originalCharCount := prepared.originalCharCount
    snippetCharCount := snippet.length
    estimatedTokens := estimateTokens snippet
    sourceGroupKey := safeToolString 255 (toolSourceGroupKey candidate)
    compressionMethod := method }

/-- One turn of the loop over the prepared candidates. -/
def compressTurn (s : Compressing) (prepared : PreparedToolResultCandidate) : Compressing :=
  match toolRefusal policy manager s prepared with
  | some reason =>
    let dropped := s.drop prepared reason
    { dropped with
      budgetExhausted := s.budgetExhausted || reason.ofBudget
      tokenLimitDrop := s.tokenLimitDrop || reason.ofTokens }
  | none =>
    let method := toolMethod policy s prepared
    { s with
      seenChunks := prepared.candidate.documentChunkId :: s.seenChunks
      seenText := prepared.normalizedText :: s.seenText
      seenSources := toolSourceGroupKey prepared.candidate :: s.seenSources
      perToolTokens := s.perToolTokens + estimateTokens (toolSnippet policy prepared)
      methodCounts := Counter.add s.methodCounts method
      accepted := s.accepted ++ [toolItem policy toolCallId toolName prepared method] }

def compressionRatio (outputValue inputValue : Nat) : Rat :=
  if inputValue = 0 then 0 else Rounding.round 6 (Rounding.divide outputValue inputValue)

/-- A result whose items were all delivered before is emptied. -/
def emptyRepeated (s : Compressing) : Compressing :=
  { s with
    droppedRefs := s.droppedRefs ++ s.accepted.map (dropRefForItem .repeatedResult)
    dropCounts := Counter.raise s.dropCounts .repeatedResult s.accepted.length
    accepted := []
    perToolTokens := 0
    budgetExhausted := true }

def compressedResult (prepared : List PreparedToolResultCandidate) (s : Compressing)
    (repeatedResult : Bool) : CompressedToolResult :=
  let tokensBefore := (prepared.map (·.estimatedTokens)).sum
  let oversizedRejected :=
    policy.rejectOversizedOutput && s.accepted.isEmpty && !prepared.isEmpty && s.tokenLimitDrop
  { toolCallId := safeToolString 255 toolCallId
    toolName := safeToolString 255 toolName
    status := if oversizedRejected then .failed else .succeeded
    originalItemCount := prepared.length
    outputItemCount := s.accepted.length
    droppedItemCount := prepared.length - s.accepted.length
    estimatedTokensBefore := tokensBefore
    estimatedTokensAfter := s.perToolTokens
    compressionRatio := compressionRatio s.perToolTokens tokensBefore
    items := s.accepted
    droppedItemRefs := s.droppedRefs.take 200
    dropReasons :=
      if oversizedRejected then
        Counter.raise s.dropCounts .oversizedRejected (max 1 prepared.length)
      else s.dropCounts
    compressionMethods := s.methodCounts
    budgetExhausted := s.budgetExhausted
    repeatedResult := repeatedResult
    oversizedRejected := oversizedRejected
    errorCode := if oversizedRejected then some "oversized_tool_output" else none }

/-- The loop of ToolResultCompressor.compress. -/
def compressAll (prepared : List PreparedToolResultCandidate) : Compressing :=
  prepared.foldl (compressTurn policy manager toolCallId toolName) .start

/-- ToolResultCompressor.compress. -/
def compress (candidates : List ToolResultCandidate) :
    CompressedToolResult × ToolResultBudgetManager :=
  let prepared := preparedCandidates policy candidates
  let s := compressAll policy manager toolCallId toolName prepared
  let repeatedResult := isRepeatedResult manager s.accepted
  let final := if repeatedResult then emptyRepeated s else s
  let result := compressedResult policy toolCallId toolName prepared final repeatedResult
  (result, record manager result)

def orToolError (code : String) : String := if code = "" then "tool_error" else code

/-- ToolResultCompressor.error_result. -/
def errorResult (errorCode : String) : CompressedToolResult × ToolResultBudgetManager :=
  let result : CompressedToolResult :=
    { toolCallId := safeToolString 255 toolCallId
      toolName := safeToolString 255 toolName
      status := .failed
      originalItemCount := 0
      outputItemCount := 0
      droppedItemCount := 0
      estimatedTokensBefore := 0
      estimatedTokensAfter := 0
      compressionRatio := 1
      items := []
      droppedItemRefs := []
      dropReasons := []
      compressionMethods := []
      budgetExhausted := false
      repeatedResult := false
      oversizedRejected := false
      errorCode := some (safeToolString 255 (orToolError (safeString 100 errorCode))) }
  (result, record manager result)

end Compressing

section Trace

def searchToolNames : List String := ["dense_search", "sparse_search", "hybrid_search"]

structure ToolResultCompressionSummary where
  toolCallCount : Nat
  searchToolCallCount : Nat
  originalItemCount : Nat
  outputItemCount : Nat
  droppedItemCount : Nat
  estimatedTokensBefore : Nat
  estimatedTokensAfter : Nat
  compressionRatio : Rat
  budgetExhausted : Bool
  repeatedResultCount : Nat
  oversizedRejectedCount : Nat
  deriving DecidableEq, Repr

structure ToolResultCompressionTrace where
  enabled : Bool
  budget : ToolResultCompressionPolicy
  summary : ToolResultCompressionSummary
  dropReasons : List (ToolResultDropReason × Nat)
  byTool : List ToolResultByToolTrace
  itemRefs : List ToolResultItemRef
  droppedItemRefs : List DroppedToolResultRef
  deriving DecidableEq, Repr

variable [Rounding]

/-- ToolResultBudgetManager.trace. -/
def managerTrace (policy : ToolResultCompressionPolicy) (manager : ToolResultBudgetManager) :
    ToolResultCompressionTrace :=
  let results := manager.results
  let tokensBefore := (results.map (·.estimatedTokensBefore)).sum
  let tokensAfter := (results.map (·.estimatedTokensAfter)).sum
  { enabled := policy.enabled
    budget := policy
    summary :=
      { toolCallCount := results.length
        searchToolCallCount := (results.filter (searchToolNames.contains ·.toolName)).length
        originalItemCount := (results.map (·.originalItemCount)).sum
        outputItemCount := (results.map (·.outputItemCount)).sum
        droppedItemCount := (results.map (·.droppedItemCount)).sum
        estimatedTokensBefore := tokensBefore
        estimatedTokensAfter := tokensAfter
        compressionRatio := compressionRatio tokensAfter tokensBefore
        budgetExhausted := results.any (·.budgetExhausted)
        repeatedResultCount := (results.filter (·.repeatedResult)).length
        oversizedRejectedCount := (results.filter (·.oversizedRejected)).length }
    dropReasons := results.foldl
      (fun counts result => result.dropReasons.foldl
        (fun counts e => Counter.raise counts e.1 e.2) counts) []
    byTool := results.map (·.toToolResultByToolTrace)
    itemRefs := results.flatMap fun result => result.items.map (·.toToolResultItemRef)
    droppedItemRefs := (results.flatMap (·.droppedItemRefs)).take 200 }

end Trace

end RagProject.Tools
