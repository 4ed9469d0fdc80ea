import RagProject.Context.Budget
import RagProject.Lib.Sha256

/-! ContextCompressor (rag/evidence_pack.py): the texts that go to the generator, without
duplicates and cut to the limits. -/
namespace RagProject.Context
open Python

inductive CompressionDropReason where
  | exactDuplicateRemoved | normalizedDuplicateRemoved | nearDuplicateRemoved | maxItemsPerSource
  | maxItemsExceeded | maxTotalChars | missingText | unknown
  deriving DecidableEq, Repr

inductive CompressionMethod where
  | none | boundedExcerpt | sourceGrouped
  deriving DecidableEq, Repr

def CompressionMethod.value : CompressionMethod → String
  | .none => "none"
  | .boundedExcerpt => "bounded_excerpt"
  | .sourceGrouped => "source_grouped"

structure EvidenceCandidate where
  retrievalRunItemId : Nat
  documentChunkId : Nat
  localCitationId : Int
  text : Option String
  sourceLabel : Option String
  sectionTitle : Option String
  pageFrom : Option Int
  pageTo : Option Int
  score : Option Number
  rerankScore : Option Number
  rank : Option Int
  rerankOrder : Option Int
  sourceGroupKey : String
  citationCandidate : Bool
  retrievalSource : Option String
  logicalDocumentId : Option Nat
  documentVersionId : Option Nat
  deriving DecidableEq, Repr

structure EvidencePackPolicy where
  enabled : Bool
  maxItems : Nat
  maxItemsPerSource : Nat
  maxCharsPerItem : Nat
  maxTotalChars : Nat
  nearDuplicateThreshold : Rat
  groupBySource : Bool
  deriving DecidableEq, Repr

structure EvidencePackPolicy.Valid (policy : EvidencePackPolicy) : Prop where
  items : 1 ≤ policy.maxItems ∧ policy.maxItems ≤ 100
  perSource : 1 ≤ policy.maxItemsPerSource ∧ policy.maxItemsPerSource ≤ policy.maxItems
  chars : 20 ≤ policy.maxCharsPerItem ∧ policy.maxCharsPerItem ≤ 50000
  totalChars : 20 ≤ policy.maxTotalChars ∧ policy.maxTotalChars ≤ 200000
  threshold : 0 ≤ policy.nearDuplicateThreshold ∧ policy.nearDuplicateThreshold ≤ 1

structure EvidenceItem where
  evidenceItemId : String
  retrievalRunItemId : Nat
  documentChunkId : Nat
  localCitationId : Int
  sourceLabel : Option String
  sectionTitle : Option String
  pageFrom : Option Int
  pageTo : Option Int
  score : Option Rat
  rerankScore : Option Rat
  rank : Option Int
  rerankOrder : Option Int
  sourceGroupKey : String
  evidenceTextForGeneration : String
  evidenceTextHash : String
  originalCharCount : Nat
  outputCharCount : Nat
  estimatedTokens : Nat
  citationCandidate : Bool
  compressionMethod : CompressionMethod
  compressionReason : Option String
  retrievalSource : Option String
  logicalDocumentId : Option Nat
  documentVersionId : Option Nat
  deriving DecidableEq, Repr

structure DroppedEvidenceRef where
  retrievalRunItemId : Nat
  documentChunkId : Nat
  sourceLabel : Option String
  rank : Option Int
  rerankOrder : Option Int
  estimatedTokens : Nat
  originalCharCount : Nat
  dropReason : CompressionDropReason
  deriving DecidableEq, Repr

/-- The field that a validation error names. -/
inductive EvidenceError where
  | localCitationId | sourceGroupKey
  deriving DecidableEq, Repr

/-- str.casefold of the characters outside ASCII. -/
class CaseFold where
  fold : Char → List Char

@[reducible] def asciiCaseFold : CaseFold where
  fold c := [c]

section Preparation
variable [CaseFold]

def casefold (s : List Char) : List Char :=
  s.flatMap fun c => if c.toNat < 128 then [c.toLower] else CaseFold.fold c

def normalizeText (text : String) : String :=
  String.ofList (join [' '] (splitWords (casefold text.toList)))

/-- The class [a-z0-9] with case ignored; four letters outside ASCII belong to it. -/
def isTokenChar (c : Char) : Bool := Regex.ignoreCase asciiLetterOrDigit c

/-- frozenset(_TOKEN_RE.findall(text)): the runs of at least two such characters. -/
def tokenSet (text : String) : List (List Char) :=
  ((text.toList.splitOnP (!isTokenChar ·)).filter (2 ≤ ·.length)).dedup

structure CompressionCandidate where
  candidate : EvidenceCandidate
  cleanText : String
  normalizedText : String
  tokenSet : List (List Char)
  originalCharCount : Nat
  estimatedTokens : Nat

def prepareCandidate (candidate : EvidenceCandidate) : CompressionCandidate :=
  let clean := cleanText (candidate.text.getD "")
  let normalized := normalizeText clean
  ⟨candidate, clean, normalized, tokenSet normalized, clean.length, estimateTokens clean⟩

variable [Rounding]

/-- The share of common tokens reaches the threshold. -/
def similarTokens (threshold : Rat) (candidate accepted : List (List Char)) : Bool :=
  let intersection := (candidate.filter (accepted.contains ·)).length
  let union := (candidate ++ accepted).dedup.length
  !accepted.isEmpty && union != 0 &&
    decide (threshold ≤ Rounding.divide intersection union)

def nearDuplicate (candidate : CompressionCandidate) (accepted : List EvidenceItem)
    (threshold : Rat) : Bool :=
  if threshold ≤ 0 || candidate.tokenSet.isEmpty then false
  else accepted.any fun item => similarTokens threshold candidate.tokenSet
    (tokenSet (normalizeText item.evidenceTextForGeneration))

end Preparation

section Compression

structure Compression where
  drops : List DroppedEvidenceRef
  dropCounts : List (CompressionDropReason × Nat)
  accepted : List EvidenceItem
  seenHashes : List String
  seenNormalized : List String
  itemsPerSource : List (String × Nat)
  outputChars : Nat

variable [UnicodeTables]

def droppedRef (prepared : CompressionCandidate) (reason : CompressionDropReason) :
    DroppedEvidenceRef where
  retrievalRunItemId := prepared.candidate.retrievalRunItemId
  documentChunkId := prepared.candidate.documentChunkId
  sourceLabel := safeField prepared.candidate.sourceLabel
  rank := prepared.candidate.rank
  rerankOrder := prepared.candidate.rerankOrder
  estimatedTokens := prepared.estimatedTokens
  originalCharCount := prepared.originalCharCount
  dropReason := reason

def drop (s : Compression) (prepared : CompressionCandidate) (reason : CompressionDropReason) :
    Compression :=
  { s with
    drops := s.drops ++ [droppedRef prepared reason]
    dropCounts := Counter.add s.dropCounts reason }

variable [Rounding]

def itemOf (number : Nat) (prepared : CompressionCandidate) (evidenceText : String)
    (method : CompressionMethod) (sourceGroupKey : String) : EvidenceItem :=
  let candidate := prepared.candidate
  { evidenceItemId := "e" ++ toString number
    retrievalRunItemId := candidate.retrievalRunItemId
    documentChunkId := candidate.documentChunkId
    localCitationId := candidate.localCitationId
    sourceLabel := safeField candidate.sourceLabel
    sectionTitle := safeField candidate.sectionTitle
    pageFrom := candidate.pageFrom
    pageTo := candidate.pageTo
    score := rounded candidate.score
    rerankScore := rounded candidate.rerankScore
    rank := candidate.rank
    rerankOrder := candidate.rerankOrder
    sourceGroupKey := sourceGroupKey
    evidenceTextForGeneration := evidenceText
    evidenceTextHash := Sha256.hexDigest evidenceText
    originalCharCount := prepared.originalCharCount
    outputCharCount := evidenceText.length
    estimatedTokens := estimateTokens evidenceText
    citationCandidate := candidate.citationCandidate
    compressionMethod := method
    compressionReason := some method.value
    retrievalSource := safeField candidate.retrievalSource
    logicalDocumentId := candidate.logicalDocumentId
    documentVersionId := candidate.documentVersionId }

def evidenceItem (number : Nat) (prepared : CompressionCandidate) (evidenceText : String)
    (method : CompressionMethod) : Except EvidenceError EvidenceItem :=
  if prepared.candidate.localCitationId < 1 then .error .localCitationId
  else
    match safeOrNone 255 prepared.candidate.sourceGroupKey with
    | none => .error .sourceGroupKey
    | some sourceGroupKey => .ok (itemOf number prepared evidenceText method sourceGroupKey)

variable [CaseFold] (policy : EvidencePackPolicy)

/-- The text of a candidate, cut to what is left for it. -/
def evidenceText (s : Compression) (prepared : CompressionCandidate) : String :=
  let remainingTotal := policy.maxTotalChars - s.outputChars
  String.ofList (prepared.cleanText.toList.take (min policy.maxCharsPerItem remainingTotal))

/-- The tests of the loop, in their order: the reason to drop a candidate. -/
def refusal (s : Compression) (prepared : CompressionCandidate) : Option CompressionDropReason :=
  if prepared.cleanText = "" then some .missingText
  else if Sha256.hexDigest prepared.cleanText ∈ s.seenHashes then some .exactDuplicateRemoved
  else if prepared.normalizedText ∈ s.seenNormalized then some .normalizedDuplicateRemoved
  else if nearDuplicate prepared s.accepted policy.nearDuplicateThreshold then
    some .nearDuplicateRemoved
  else if policy.maxItems ≤ s.accepted.length then some .maxItemsExceeded
  else if policy.maxItemsPerSource ≤
      Counter.get s.itemsPerSource prepared.candidate.sourceGroupKey then some .maxItemsPerSource
  else if policy.maxTotalChars - s.outputChars = 0 then some .maxTotalChars
  else if evidenceText policy s prepared = "" then some .maxTotalChars
  else none

def compressionMethod (prepared : CompressionCandidate) (text : String) : CompressionMethod :=
  if text.length < prepared.originalCharCount then .boundedExcerpt
  else if policy.groupBySource then .sourceGrouped
  else .none

/-- One turn of the loop over the prepared candidates. -/
def compressCandidate (s : Compression) (prepared : CompressionCandidate) :
    Except EvidenceError Compression :=
  match refusal policy s prepared with
  | some reason => .ok (drop s prepared reason)
  | none => do
    let text := evidenceText policy s prepared
    let item ← evidenceItem (s.accepted.length + 1) prepared text
      (compressionMethod policy prepared text)
    .ok
      { s with
        outputChars := s.outputChars + text.length
        itemsPerSource := Counter.add s.itemsPerSource prepared.candidate.sourceGroupKey
        seenHashes := Sha256.hexDigest prepared.cleanText :: s.seenHashes
        seenNormalized := prepared.normalizedText :: s.seenNormalized
        accepted := s.accepted ++ [item] }

def Compression.empty : Compression := ⟨[], [], [], [], [], [], 0⟩

def compress (candidates : List EvidenceCandidate) :
    Except EvidenceError
      (List EvidenceItem × List DroppedEvidenceRef × List (CompressionDropReason × Nat)) := do
  let s ← (candidates.map prepareCandidate).foldlM (compressCandidate policy) .empty
  .ok (s.accepted, s.drops, s.dropCounts)

end Compression

end RagProject.Context
