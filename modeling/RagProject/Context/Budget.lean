import Mathlib.Algebra.Order.Ring.Unbundled.Rat
import Mathlib.Data.List.Sort
import Mathlib.Data.Prod.Lex
import Mathlib.Data.String.Basic
import RagProject.Context.Texts
import RagProject.Lib.Counter
import RagProject.Lib.Fallible
import RagProject.Lib.Number

/-! ContextBudgetManager (rag/context_budget.py): which candidates enter the prompt, and the trace
of the decision. -/
namespace RagProject.Context
open Python

inductive ContextDropReason where
  | overBudget | maxItemsExceeded | lowScore | duplicateSource | duplicateChunk | missingText
  | unsafeContent | notSelectedByRerank | sourceDiversityLimit | unknown
  deriving DecidableEq, Repr

structure ContextBudgetCandidate where
  retrievalRunItemId : Nat
  documentChunkId : Nat
  sourceLabel : Option String
  sectionTitle : Option String
  pageFrom : Option Int
  pageTo : Option Int
  score : Option Number
  rank : Option Int
  rerankScore : Option Number
  rerankOrder : Option Int
  text : Option String
  citationCandidate : Bool
  sourceGroupKey : String
  retrievalSource : Option String
  deriving DecidableEq, Repr

structure ContextBudgetPolicy where
  enabled : Bool
  maxContextTokens : Nat
  reserveAnswerTokens : Nat
  maxContextItems : Nat
  maxTokensPerItem : Nat
  minCitationCandidates : Nat
  dropLowScoreFirst : Bool
  preserveSourceDiversity : Bool
  deriving DecidableEq, Repr

structure ContextBudgetPolicy.Valid (policy : ContextBudgetPolicy) : Prop where
  contextTokens : 1 ≤ policy.maxContextTokens ∧ policy.maxContextTokens ≤ 200000
  answerTokens : policy.reserveAnswerTokens < policy.maxContextTokens
  items : 1 ≤ policy.maxContextItems ∧ policy.maxContextItems ≤ 100
  itemTokens : 1 ≤ policy.maxTokensPerItem ∧ policy.maxTokensPerItem ≤ policy.maxContextTokens
  citations : policy.minCitationCandidates ≤ policy.maxContextItems

instance (policy : ContextBudgetPolicy) : Decidable policy.Valid :=
  decidable_of_iff
    ((1 ≤ policy.maxContextTokens ∧ policy.maxContextTokens ≤ 200000) ∧
      policy.reserveAnswerTokens < policy.maxContextTokens ∧
      (1 ≤ policy.maxContextItems ∧ policy.maxContextItems ≤ 100) ∧
      (1 ≤ policy.maxTokensPerItem ∧ policy.maxTokensPerItem ≤ policy.maxContextTokens) ∧
      policy.minCitationCandidates ≤ policy.maxContextItems)
    ⟨fun ⟨a, b, c, d, e⟩ => ⟨a, b, c, d, e⟩, fun ⟨a, b, c, d, e⟩ => ⟨a, b, c, d, e⟩⟩

structure ContextItem where
  retrievalRunItemId : Nat
  documentChunkId : Nat
  sourceLabel : Option String
  sectionTitle : Option String
  pageFrom : Option Int
  pageTo : Option Int
  score : Option Rat
  rank : Option Int
  rerankScore : Option Rat
  rerankOrder : Option Int
  charCount : Nat
  estimatedTokens : Nat
  citationCandidate : Bool
  sourceGroupKey : String
  retrievalSource : Option String
  selected : Bool
  reason : Option String
  dropReason : Option ContextDropReason
  deriving DecidableEq, Repr

structure ContextBudgetItemRef where
  retrievalRunItemId : Nat
  documentChunkId : Nat
  sourceLabel : Option String
  sectionTitle : Option String
  pageFrom : Option Int
  pageTo : Option Int
  score : Option Rat
  rank : Option Int
  rerankScore : Option Rat
  rerankOrder : Option Int
  estimatedTokens : Nat
  charCount : Nat
  retrievalSource : Option String
  reason : Option String
  dropReason : Option ContextDropReason
  deriving DecidableEq, Repr

structure ContextBudgetBudget where
  maxContextTokens : Nat
  reserveAnswerTokens : Nat
  maxContextItems : Nat
  maxTokensPerItem : Nat
  minCitationCandidates : Nat
  preserveSourceDiversity : Bool
  dropLowScoreFirst : Bool
  deriving DecidableEq, Repr

structure ContextBudgetUsage where
  estimatedPromptTokens : Nat
  estimatedContextTokens : Nat
  estimatedTotalInputTokens : Nat
  reserveAnswerTokens : Nat
  remainingContextTokens : Nat
  budgetExhausted : Bool
  deriving DecidableEq, Repr

structure ContextBudgetItemsSummary where
  candidateCount : Nat
  selectedCount : Nat
  droppedCount : Nat
  citationCandidateCount : Nat
  sourceCount : Nat
  deriving DecidableEq, Repr

structure ContextBudgetSourceRef where
  sourceGroupKey : String
  sourceLabel : Option String
  candidateCount : Nat
  selectedCount : Nat
  droppedCount : Nat
  estimatedTokens : Nat
  deriving DecidableEq, Repr

structure ContextBudgetSourcesSummary where
  sourceCount : Nat
  bySource : List ContextBudgetSourceRef
  deriving DecidableEq, Repr

structure ContextBudgetStrategySummary where
  strategyType : Option String
  selectedStrategy : Option String
  executionStrategy : Option String
  toolsUsed : List String
  deriving DecidableEq, Repr

structure ContextBudgetTrace where
  enabled : Bool
  budget : ContextBudgetBudget
  usage : ContextBudgetUsage
  items : ContextBudgetItemsSummary
  dropReasons : List (ContextDropReason × Nat)
  sources : ContextBudgetSourcesSummary
  strategy : Option ContextBudgetStrategySummary
  selectedItemRefs : List ContextBudgetItemRef
  droppedItemRefs : List ContextBudgetItemRef
  deriving DecidableEq, Repr

structure ContextBudgetDecision where
  selectedItemIds : List Nat
  trace : ContextBudgetTrace
  items : List ContextItem
  deriving DecidableEq, Repr

/-- The field that a validation error names. -/
inductive BudgetError where
  | sourceGroupKey | policy
  deriving DecidableEq, Repr

section Items
variable [UnicodeTables] [Rounding]

/-- _rounded: None for a number that is not finite. -/
def rounded : Option Number → Option Rat
  | some (.finite q) => some (Rounding.round 6 q)
  | _ => none

def safeField (value : Option String) : Option String := value.bind (safeOrNone 255)

def contextItem (candidate : ContextBudgetCandidate) : Except BudgetError ContextItem :=
  let text := cleanText (candidate.text.getD "")
  match safeOrNone 255 candidate.sourceGroupKey with
  | none => .error .sourceGroupKey
  | some sourceGroupKey => .ok
    { retrievalRunItemId := candidate.retrievalRunItemId
      documentChunkId := candidate.documentChunkId
      sourceLabel := safeField candidate.sourceLabel
      sectionTitle := safeField candidate.sectionTitle
      pageFrom := candidate.pageFrom
      pageTo := candidate.pageTo
      score := rounded candidate.score
      rank := candidate.rank
      rerankScore := rounded candidate.rerankScore
      rerankOrder := candidate.rerankOrder
      charCount := text.length
      estimatedTokens := estimateTokens text
      citationCandidate := candidate.citationCandidate
      sourceGroupKey := sourceGroupKey
      retrievalSource := safeField candidate.retrievalSource
      selected := false
      reason := none
      dropReason := none }

def itemRef (item : ContextItem) : ContextBudgetItemRef where
  retrievalRunItemId := item.retrievalRunItemId
  documentChunkId := item.documentChunkId
  sourceLabel := safeField item.sourceLabel
  sectionTitle := safeField item.sectionTitle
  pageFrom := item.pageFrom
  pageTo := item.pageTo
  score := item.score
  rank := item.rank
  rerankScore := item.rerankScore
  rerankOrder := item.rerankOrder
  estimatedTokens := item.estimatedTokens
  charCount := item.charCount
  retrievalSource := safeField item.retrievalSource
  reason := safeField item.reason
  dropReason := item.dropReason

end Items

section Selection

def effectiveContextTokenLimit (policy : ContextBudgetPolicy) : Nat :=
  policy.maxContextTokens - policy.reserveAnswerTokens

/-- x or default, where None and 0 give the default. -/
def orDefault (value : Option Int) (default : Int) : Int :=
  match value with
  | none => default
  | some n => if n = 0 then default else n

def scoreOrder (item : ContextItem) : Int ×ₗ Rat ×ₗ Int ×ₗ Nat :=
  toLex (orDefault item.rerankOrder (orDefault item.rank 1000000),
    toLex (-((item.rerankScore <|> item.score).getD 0),
      toLex (orDefault item.rank 1000000, item.documentChunkId)))

/-- An index into the decided items, with the item that stands there. -/
abbrev Entry := Nat × ContextItem

structure FirstPass where
  decided : List ContextItem
  eligible : List Entry
  seenChunks : List Nat

def passItem (policy : ContextBudgetPolicy) (pass : FirstPass) (item : ContextItem) : FirstPass :=
  let dropReason : Option ContextDropReason :=
    if item.documentChunkId ∈ pass.seenChunks then some .duplicateChunk
    else if item.charCount = 0 then some .missingText
    else if policy.maxTokensPerItem < item.estimatedTokens then some .overBudget
    else none
  let decided := { item with dropReason := dropReason }
  { decided := pass.decided ++ [decided]
    eligible :=
      if dropReason = none then pass.eligible ++ [(pass.decided.length, decided)]
      else pass.eligible
    seenChunks := item.documentChunkId :: pass.seenChunks }

/-- The first entry of each source goes ahead of the others. -/
def diverse (entries : List Entry) : List Entry :=
  let (first, rest, _) := entries.foldl
    (fun (first, rest, seen) entry =>
      if entry.2.sourceGroupKey ∈ seen then (first, rest ++ [entry], seen)
      else (first ++ [entry], rest, entry.2.sourceGroupKey :: seen))
    (([], [], []) : List Entry × List Entry × List String)
  first ++ rest

def selectionOrder (policy : ContextBudgetPolicy) (entries : List Entry) : List Entry :=
  let ordered :=
    if policy.dropLowScoreFirst then
      entries.insertionSort fun a b => scoreOrder a.2 ≤ scoreOrder b.2
    else entries
  if policy.preserveSourceDiversity then diverse ordered else ordered

def firstIndicesBySource (entries : List Entry) : List Nat :=
  (entries.foldl
    (fun (first, seen) entry =>
      if entry.2.sourceGroupKey ∈ seen then (first, seen)
      else (first ++ [entry.1], entry.2.sourceGroupKey :: seen))
    (([], []) : List Nat × List String)).1

structure Selection where
  decided : List ContextItem
  selectedCount : Nat
  selectedTokens : Nat
  budgetExhausted : Bool

/-- One turn of the loop over the ordered indices. -/
def selectIndex (policy : ContextBudgetPolicy) (sourceDiversityFirst : List Nat)
    (s : Selection) (index : Nat) : Selection :=
  match s.decided[index]? with
  | none => s
  | some item =>
    if item.dropReason.isSome then s
    else if policy.maxContextItems ≤ s.selectedCount then
      { s with decided := s.decided.set index { item with dropReason := some .maxItemsExceeded } }
    else if !item.citationCandidate && policy.minCitationCandidates ≤ s.selectedCount then
      { s with decided := s.decided.set index { item with dropReason := some .notSelectedByRerank } }
    else if effectiveContextTokenLimit policy < s.selectedTokens + item.estimatedTokens then
      { s with
        budgetExhausted := true
        decided := s.decided.set index { item with dropReason := some .overBudget } }
    else
      let reason :=
        if !item.citationCandidate then "min_citation_candidates"
        else if policy.preserveSourceDiversity && sourceDiversityFirst.contains index then
          "source_diversity"
        else "high_score"
      { s with
        selectedCount := s.selectedCount + 1
        selectedTokens := s.selectedTokens + item.estimatedTokens
        decided := s.decided.set index
          { item with selected := true, reason := some reason, dropReason := none } }

/-- The citation candidates come first. -/
def orderedEntries (policy : ContextBudgetPolicy) (eligible : List Entry) : List Entry :=
  selectionOrder policy (eligible.filter (·.2.citationCandidate)) ++
    selectionOrder policy (eligible.filter (!·.2.citationCandidate))

def selectItems (policy : ContextBudgetPolicy) (items : List ContextItem) :
    List ContextItem × Bool :=
  let pass := items.foldl (passItem policy) ⟨[], [], []⟩
  let ordered := orderedEntries policy pass.eligible
  let s := (ordered.map (·.1)).foldl (selectIndex policy (firstIndicesBySource ordered))
    ⟨pass.decided, 0, 0, false⟩
  (s.decided, s.budgetExhausted)

end Selection

section Decision
variable [UnicodeTables]

def sourceRef (group : String × List ContextItem) : Except BudgetError ContextBudgetSourceRef :=
  let selected := group.2.filter (·.selected)
  match safeOrNone 255 group.1 with
  | none => .error .sourceGroupKey
  | some sourceGroupKey => .ok
    { sourceGroupKey := sourceGroupKey
      sourceLabel := safeField
        (group.2.findSome? fun item => item.sourceLabel.filter (· ≠ ""))
      candidateCount := group.2.length
      selectedCount := selected.length
      droppedCount := (group.2.filter (!·.selected)).length
      estimatedTokens := (selected.map (·.estimatedTokens)).sum }

def sourceSummary (items : List ContextItem) : Except BudgetError ContextBudgetSourcesSummary := do
  let groups := (Counter.grouped (·.sourceGroupKey) items).insertionSort fun a b => a.1 ≤ b.1
  let refs ← groups.mapM sourceRef
  .ok ⟨refs.length, refs⟩

def decision (items : List ContextItem) (policy : ContextBudgetPolicy)
    (estimatedPromptTokens : Int) (strategy : Option ContextBudgetStrategySummary)
    (budgetExhausted : Bool) : Except BudgetError ContextBudgetDecision := do
  let selected := items.filter (·.selected)
  let dropped := items.filter (!·.selected)
  let selectedTokens := (selected.map (·.estimatedTokens)).sum
  let dropReasons := Counter.counted (dropped.map fun item => item.dropReason.getD .unknown)
  let sources ← sourceSummary items
  .ok
    { selectedItemIds := selected.map (·.retrievalRunItemId)
      trace :=
        { enabled := policy.enabled
          budget := ⟨policy.maxContextTokens, policy.reserveAnswerTokens, policy.maxContextItems,
            policy.maxTokensPerItem, policy.minCitationCandidates, policy.preserveSourceDiversity,
            policy.dropLowScoreFirst⟩
          usage :=
            { estimatedPromptTokens := estimatedPromptTokens.toNat
              estimatedContextTokens := selectedTokens
              estimatedTotalInputTokens := estimatedPromptTokens.toNat + selectedTokens
              reserveAnswerTokens := policy.reserveAnswerTokens
              remainingContextTokens := effectiveContextTokenLimit policy - selectedTokens
              budgetExhausted :=
                budgetExhausted || Counter.get dropReasons .overBudget != 0 }
          items :=
            { candidateCount := items.length
              selectedCount := selected.length
              droppedCount := dropped.length
              citationCandidateCount := (items.filter (·.citationCandidate)).length
              sourceCount := (selected.map (·.sourceGroupKey)).dedup.length }
          dropReasons := dropReasons
          sources := sources
          strategy := strategy
          selectedItemRefs := selected.map itemRef
          droppedItemRefs := dropped.map itemRef }
      items := items }

variable [Rounding]

/-- ContextBudgetManager.apply. -/
def apply (candidates : List ContextBudgetCandidate) (policy : ContextBudgetPolicy)
    (estimatedPromptTokens : Int) (strategy : Option ContextBudgetStrategySummary) :
    Except BudgetError ContextBudgetDecision := do
  let items ← candidates.mapM contextItem
  if policy.enabled then
    let (decided, budgetExhausted) := selectItems policy items
    decision decided policy estimatedPromptTokens strategy budgetExhausted
  else
    let selected := (items.filter fun item => item.citationCandidate && 0 < item.charCount).map
      (·.retrievalRunItemId)
    let decided := items.map fun item =>
      if selected.contains item.retrievalRunItemId then
        { item with selected := true, reason := some "budget_disabled", dropReason := none }
      else
        { item with selected := false, reason := none, dropReason := some .notSelectedByRerank }
    decision decided policy estimatedPromptTokens strategy false

end Decision

section Finalize
variable [UnicodeTables]

def tracePolicy (trace : ContextBudgetTrace) : ContextBudgetPolicy :=
  ⟨trace.enabled, trace.budget.maxContextTokens, trace.budget.reserveAnswerTokens,
    trace.budget.maxContextItems, trace.budget.maxTokensPerItem, trace.budget.minCitationCandidates,
    trace.budget.dropLowScoreFirst, trace.budget.preserveSourceDiversity⟩

def finalizeContextBudgetSelection (d : ContextBudgetDecision) (selectedItemIds : List Nat)
    (dropReason : ContextDropReason) : Except BudgetError ContextBudgetDecision :=
  if (∀ id ∈ d.selectedItemIds, id ∈ selectedItemIds) ∧
      ∀ id ∈ selectedItemIds, id ∈ d.selectedItemIds then .ok d
  else
    let finalized := d.items.map fun item =>
      if item.retrievalRunItemId ∈ selectedItemIds then
        { item with selected := true, dropReason := none }
      else
        { item with
          selected := false
          reason := none
          dropReason :=
            some (((if item.selected then some dropReason else item.dropReason)).getD .unknown) }
    let policy := tracePolicy d.trace
    if policy.Valid then
      decision finalized policy d.trace.usage.estimatedPromptTokens d.trace.strategy true
    else .error .policy

end Finalize

end RagProject.Context
