import RagProject.Graph.Extraction
import RagProject.Retrieval.Pipeline

/-! The rows a graph search reads, and the ranked query for the relations of its frontier
(repositories/graph_retrieval_repository.py). -/
namespace RagProject.GraphSearch
open Python Documents Graph Retrieval KeepFirst

section Rows
variable [GraphText]

/-- A label that passed validate_safe_graph_label when it was written: it passes again and stays
what it is. -/
structure Label (maxLength : Nat) where
  text : String
  safe : validateSafeGraphLabel maxLength text = .ok text
  deriving DecidableEq

structure GraphEntity where
  graphEntityId : Nat
  canonicalName : Label 255
  entityType : Option (Label 80)
  deriving DecidableEq

structure GraphRelation where
  graphRelationId : Nat
  sourceEntityId : Nat
  targetEntityId : Nat
  relationType : Label 120
  confidence : Option Rat
  sourceDocumentChunkId : Option Nat
  evidenceTextHash : Option String
  deriving DecidableEq

/-- The tables of the graph with their keys, beside the documents. -/
structure GraphTables where
  documents : Db
  entities : List GraphEntity
  relations : List GraphRelation
  entityIds : (entities.map (·.graphEntityId)).Nodup
  relationIds : (relations.map (·.graphRelationId)).Nodup
  entitiesPositive : ∀ e ∈ entities, 0 < e.graphEntityId
  relationsPositive : ∀ r ∈ relations, 0 < r.graphRelationId
  confidences : ∀ r ∈ relations, r.confidence.all fun c => 0 ≤ c && c ≤ 1
  sources : ∀ r ∈ relations, ∃ e ∈ entities, e.graphEntityId = r.sourceEntityId
  targets : ∀ r ∈ relations, ∃ e ∈ entities, e.graphEntityId = r.targetEntityId

structure GraphRelationRow where
  relation : GraphRelation
  sourceEntity : GraphEntity
  targetEntity : GraphEntity
  deriving DecidableEq

end Rows

section Query
variable [GraphText] (db : GraphTables) (filters : Option RetrievalFilters)

def orderedPositiveIds (ids : List Nat) : List Nat := keepFirst id [] (ids.filter (0 < ·))

/-- The outer joins to the source chunk: none, or one that the filters let pass. -/
def GraphTables.visible (r : GraphRelation) : Bool :=
  match filters, r.sourceDocumentChunkId with
  | none, _ => true
  | _, none => true
  | some filters, some documentChunkId => (visibleRow filters db.documents documentChunkId).isSome

/-- The relations without a source chunk last, then by confidence and id. -/
def rankOrder (r : GraphRelation) : Nat ×ₗ Rat ×ₗ Nat :=
  toLex (if r.sourceDocumentChunkId.isNone then 1 else 0,
    toLex (-(r.confidence.getD 0), r.graphRelationId))

/-- The rows of union_all in the partition of one entity: a relation from an entity to itself
stands in both parts. -/
def candidateRelations (frontierEntityId : Nat) : List GraphRelation :=
  db.relations.filter (·.sourceEntityId == frontierEntityId) ++
    db.relations.filter (·.targetEntityId == frontierEntityId)

variable (excluded : List Nat)

def GraphTables.eligible (r : GraphRelation) : Bool :=
  !excluded.contains r.graphRelationId && db.visible filters r

/-- The partition in the order of its ranks. -/
def rankedRelations (frontierEntityId : Nat) : List GraphRelation :=
  ((candidateRelations db frontierEntityId).filter (db.eligible filters excluded)).insertionSort
    fun a b => rankOrder a ≤ rankOrder b

variable (maxRelationsPerEntity : Nat) (safeIds : List Nat)

/-- The rows of the query, each with its frontier entity. -/
def rawRelationRows : List (GraphRelation × Nat) :=
  (safeIds.insertionSort (· ≤ ·)).flatMap fun frontierEntityId =>
    ((rankedRelations db filters excluded frontierEntityId).take
      (maxRelationsPerEntity + safeIds.length)).map (·, frontierEntityId)

structure Crediting where
  seenRelationIds : List Nat
  frontierCounts : List (Nat × Nat)
  relationRows : List GraphRelation

/-- One turn of the loop over the rows. -/
def creditRow (s : Crediting) (row : GraphRelation × Nat) : Crediting :=
  if row.1.graphRelationId ∈ s.seenRelationIds then s
  else if row.2 ∉ safeIds then s
  else if maxRelationsPerEntity ≤ Counter.get s.frontierCounts row.2 then s
  else
    { seenRelationIds := row.1.graphRelationId :: s.seenRelationIds
      frontierCounts := Counter.add s.frontierCounts row.2
      relationRows := s.relationRows ++ [row.1] }

def credited : Crediting :=
  (rawRelationRows db filters excluded maxRelationsPerEntity safeIds).foldl
    (creditRow maxRelationsPerEntity safeIds) ⟨[], safeIds.map (·, 0), []⟩

/-- The relation with the rows of its entities, where both exist. -/
def withEntities (r : GraphRelation) : Option GraphRelationRow := do
  let source ← db.entities.find? (·.graphEntityId == r.sourceEntityId)
  let target ← db.entities.find? (·.graphEntityId == r.targetEntityId)
  some ⟨r, source, target⟩

def listRelationsForEntityIds (entityIds : List Nat) (excludeRelationIds : List Nat) :
    List GraphRelationRow :=
  let safeIds := orderedPositiveIds entityIds
  let excludedIds := excludeRelationIds.filter (0 < ·)
  if safeIds.isEmpty || maxRelationsPerEntity < 1 then []
  else (credited db filters excludedIds maxRelationsPerEntity safeIds).relationRows.filterMap
    (withEntities db)

end Query

end RagProject.GraphSearch
