import Mathlib.Data.Prod.Lex
import Mathlib.Order.WithBot
import RagProject.Lib.Number
import RagProject.Lib.Ranking
import RagProject.Lib.Table

/-! Rank fusion (rag/fusion.py) over exact rationals. -/
namespace RagProject.Retrieval
open Python

inductive FusionMethod where
  | rrf | weighted
  deriving DecidableEq, Repr

def FusionMethod.value : FusionMethod → String
  | .rrf => "rrf"
  | .weighted => "weighted"

structure VectorSearchCandidate where
  documentChunkId : Option Nat
  retrievalScore : Number
  deriving DecidableEq, Repr

/-- The two lists that are fused. -/
inductive Source where
  | dense | sparse
  deriving DecidableEq, Repr

structure FusionInput where
  documentChunkId : Nat
  denseScore : Option Rat
  sparseScore : Option Rat
  denseRank : Option Nat
  sparseRank : Option Nat
  deriving DecidableEq, Repr

def FusionInput.score (input : FusionInput) : Source → Option Rat
  | .dense => input.denseScore
  | .sparse => input.sparseScore

def FusionInput.rank (input : FusionInput) : Source → Option Nat
  | .dense => input.denseRank
  | .sparse => input.sparseRank

def FusionInput.set (input : FusionInput) (source : Source) (score : Option Rat) (rank : Nat) :
    FusionInput :=
  match source with
  | .dense => { input with denseScore := score, denseRank := some rank }
  | .sparse => { input with sparseScore := score, sparseRank := some rank }

structure FusedCandidate where
  documentChunkId : Nat
  retrievalScore : Rat
  qdrantOrder : Nat
  fusionMethod : String
  denseScore : Option Rat
  sparseScore : Option Rat
  fusedScore : Rat
  denseRank : Option Nat
  sparseRank : Option Nat
  deriving DecidableEq, Repr

section Dedupe

def maxOptionalScore : Option Rat → Option Rat → Option Rat
  | none, right => right
  | left, none => left
  | some left, some right => some (max left right)

def finiteScore : Number → Option Rat
  | .finite q => some q
  | .nonFinite => none

/-- One turn of the loop over the candidates of a source, which are numbered from one. -/
def dedupeCandidate (source : Source) (byChunkId : List FusionInput)
    (entry : VectorSearchCandidate × Nat) : List FusionInput :=
  let (candidate, index) := entry
  match candidate.documentChunkId with
  | none => byChunkId
  | some documentChunkId =>
    let existing := (Table.row FusionInput.documentChunkId byChunkId documentChunkId).getD
      ⟨documentChunkId, none, none, none, none⟩
    let rank := match existing.rank source with
      | some rank => if rank = 0 then index else min rank index
      | none => index
    let score := maxOptionalScore (existing.score source) (finiteScore candidate.retrievalScore)
    Table.mergeRow FusionInput.documentChunkId byChunkId (existing.set source score rank)

def dedupeCandidates (denseCandidates sparseCandidates : List VectorSearchCandidate) :
    List FusionInput :=
  let byChunkId := (denseCandidates.zipIdx 1).foldl (dedupeCandidate .dense) []
  (sparseCandidates.zipIdx 1).foldl (dedupeCandidate .sparse) byChunkId

end Dedupe

section Scores

def maxScore (scores : List Rat) (default : Rat) : Rat := scores.max?.getD default

def clamp (q : Rat) : Rat := min 1 (max 0 q)

def normalizeFusedScores (rawScores : List (FusionInput × Rat)) : List (FusionInput × Rat) :=
  let max := maxScore (rawScores.map (·.2)) 0
  if max ≤ 0 then []
  else (rawScores.filter fun entry => 0 < entry.2).map fun entry => (entry.1, clamp (entry.2 / max))

def normalizeShiftedScores (rawScores : List (FusionInput × Rat)) : List (FusionInput × Rat) :=
  match (rawScores.map (·.2)).min?, (rawScores.map (·.2)).max? with
  | some low, some high =>
    if high = low then rawScores.map fun entry => (entry.1, 1)
    else rawScores.map fun entry => (entry.1, clamp ((entry.2 - low) / (high - low)))
  | _, _ => []

/-- The part of a rank in a reciprocal score. -/
def reciprocal (rrfK : Nat) (weight : Rat) : Option Nat → Rat
  | some rank => weight / (rrfK + rank)
  | none => 0

def rrfScore (rrfK : Nat) (denseWeight sparseWeight : Rat) (input : FusionInput) : Rat :=
  reciprocal rrfK denseWeight input.denseRank + reciprocal rrfK sparseWeight input.sparseRank

def rrfFusion (inputs : List FusionInput) (rrfK : Nat) (denseWeight sparseWeight : Rat) :
    List (FusionInput × Rat) :=
  normalizeFusedScores (inputs.map fun input =>
    (input, rrfScore rrfK denseWeight sparseWeight input))

def scoreBounds (inputs : List FusionInput) (source : Source) : Option (Rat × Rat) :=
  let scores := (inputs.filter fun input => (input.rank source).isSome).filterMap (·.score source)
  match scores.min?, scores.max? with
  | some low, some high => some (low, high)
  | _, _ => none

def normalizedSourceScore : Option Rat → Option (Rat × Rat) → Rat
  | some score, some (low, high) =>
    if high = low then 1 else clamp ((score - low) / (high - low))
  | _, _ => 0

def hasPositiveWeightedSource (denseWeight sparseWeight : Rat) (input : FusionInput) : Bool :=
  (0 < denseWeight && input.denseScore.isSome) || (0 < sparseWeight && input.sparseScore.isSome)

/-- The weighted sum of the normalized source scores of an input. -/
def weightedScore (inputs : List FusionInput) (denseWeight sparseWeight : Rat)
    (input : FusionInput) : Rat :=
  (normalizedSourceScore input.denseScore (scoreBounds inputs .dense) * denseWeight +
    normalizedSourceScore input.sparseScore (scoreBounds inputs .sparse) * sparseWeight) /
      (denseWeight + sparseWeight)

def weightedFusion (inputs : List FusionInput) (denseWeight sparseWeight : Rat) :
    List (FusionInput × Rat) :=
  if denseWeight + sparseWeight ≤ 0 then []
  else normalizeShiftedScores
    ((inputs.filter (hasPositiveWeightedSource denseWeight sparseWeight)).map fun input =>
      (input, weightedScore inputs denseWeight sparseWeight input))

end Scores

section Fuse

/-- A rank, or math.inf for None. -/
def rankOrInf : Option Nat → WithTop Nat
  | some rank => rank
  | none => ⊤

def fusionKey (item : FusionInput × Rat) : Rat ×ₗ WithTop Nat ×ₗ WithTop Nat ×ₗ Nat :=
  toLex (-item.2, toLex (rankOrInf item.1.denseRank,
    toLex (rankOrInf item.1.sparseRank, item.1.documentChunkId)))

def fusedCandidate (method : FusionMethod) (entry : (FusionInput × Rat) × Nat) : FusedCandidate :=
  let ((input, fusedScore), index) := entry
  { documentChunkId := input.documentChunkId
    retrievalScore := roundDecimal 6 fusedScore
    qdrantOrder := index
    fusionMethod := method.value
    denseScore := input.denseScore.map (roundDecimal 6)
    sparseScore := input.sparseScore.map (roundDecimal 6)
    fusedScore := roundDecimal 6 fusedScore
    denseRank := input.denseRank
    sparseRank := input.sparseRank }

def scoredInputs (method : FusionMethod) (inputs : List FusionInput) (rrfK : Nat)
    (denseWeight sparseWeight : Rat) : List (FusionInput × Rat) :=
  match method with
  | .weighted => weightedFusion inputs denseWeight sparseWeight
  | .rrf => rrfFusion inputs rrfK denseWeight sparseWeight

def fuseCandidates (denseCandidates sparseCandidates : List VectorSearchCandidate)
    (method : FusionMethod) (limit rrfK : Nat) (denseWeight sparseWeight : Rat) :
    List FusedCandidate :=
  if limit < 1 then []
  else
    let inputs := dedupeCandidates denseCandidates sparseCandidates
    if inputs = [] then []
    else
      let scored := scoredInputs method inputs rrfK denseWeight sparseWeight
      ((Ranking.ranked fusionKey scored limit).zipIdx 1).map (fusedCandidate method)

end Fuse

end RagProject.Retrieval
