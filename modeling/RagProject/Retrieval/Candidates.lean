import RagProject.Documents.Store
import RagProject.Lib.Number

/-! What a retrieval hands on to the answer: checked candidates, each with the row that was
stored for it. -/
namespace RagProject.Retrieval
open Python Documents

structure CheckedRetrievalCandidate where
  chunk : DocumentChunk
  documentVersion : DocumentVersion
  logicalDocument : LogicalDocument
  retrievalScore : Number
  rankOrder : Nat
  deriving DecidableEq, Repr

structure RetrievalRunItem where
  retrievalRunItemId : Nat
  retrievalRunId : Nat
  documentChunkId : Nat
  retrievalScore : Number
  rerankScore : Option Number
  rankOrder : Nat
  rerankOrder : Option Nat
  selectedFlag : Bool
  retrievalSource : Option String
  scoreBreakdownJson : Option Dict
  deriving DecidableEq, Repr

/-- A candidate with its saved row, which is the row of its chunk. -/
structure ContextCandidateRef where
  candidate : CheckedRetrievalCandidate
  savedItem : RetrievalRunItem
  rank : Nat
  rerankScore : Option Number
  rerankOrder : Option Nat
  citationCandidate : Bool
  sameChunk : savedItem.documentChunkId = candidate.chunk.documentChunkId
  deriving DecidableEq, Repr

namespace ContextCandidateRef

def runItemId (ref : ContextCandidateRef) : Nat := ref.savedItem.retrievalRunItemId

end ContextCandidateRef

section Selection

def withSelectedFlag (selected : Bool) (item : RetrievalRunItem) : RetrievalRunItem :=
  { item with
    selectedFlag := selected
    scoreBreakdownJson :=
      item.scoreBreakdownJson.map fun breakdown => breakdown.set "selected_flag" (.bool selected) }

/-- update_context_selection. -/
def updateContextSelection (retrievalRunId : Nat) (selectedItemIds : List Nat)
    (items : List RetrievalRunItem) : List RetrievalRunItem :=
  items.map fun item =>
    if item.retrievalRunId = retrievalRunId then
      withSelectedFlag (decide (item.retrievalRunItemId ∈ selectedItemIds)) item
    else item

end Selection

end RagProject.Retrieval
