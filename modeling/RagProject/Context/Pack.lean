import RagProject.Context.Evidence

/-! EvidencePackBuilder (rag/evidence_pack.py): compressed candidates, or all of them in order
when the pack is disabled. -/
namespace RagProject.Context
open Python

variable [UnicodeTables] [Rounding]

/-- One turn of _passthrough_items. -/
def passCandidate (policy : EvidencePackPolicy) (items : List EvidenceItem × Nat)
    (prepared : CompressionCandidate) : Except EvidenceError (List EvidenceItem × Nat) :=
  let (accepted, outputChars) := items
  let remainingTotal := policy.maxTotalChars - outputChars
  if prepared.cleanText = "" then .ok items
  else if remainingTotal = 0 then .ok items
  else do
    let text := String.ofList (prepared.cleanText.toList.take remainingTotal)
    let item ← evidenceItem (accepted.length + 1) prepared text .none
    .ok (accepted ++ [{ item with compressionReason := some "disabled" }], outputChars + text.length)

variable [CaseFold]

def passthroughItems (policy : EvidencePackPolicy) (candidates : List EvidenceCandidate) :
    Except EvidenceError (List EvidenceItem) := do
  let (accepted, _) ← (candidates.map prepareCandidate).foldlM (passCandidate policy) ([], 0)
  .ok accepted

/-- The items of EvidencePackBuilder.build. -/
def buildItems (policy : EvidencePackPolicy) (candidates : List EvidenceCandidate) :
    Except EvidenceError (List EvidenceItem) :=
  if policy.enabled then do
    let (items, _, _) ← compress policy candidates
    .ok items
  else passthroughItems policy candidates

end RagProject.Context
