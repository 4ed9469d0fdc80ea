import RagProject.Graph.Projection
import RagProject.GraphSearch.Paths
import RagProject.Lib.Table

/-! Neo4jGraphStore._search_paths (rag/graph_retrieval.py): the path search over the copy of the
graph in Neo4j, which reads the relations of its frontier with one query for each level. -/
namespace RagProject.GraphSearch
open Python Documents Graph Retrieval KeepFirst

section Rows
variable [GraphText]

structure Neo4jEntityLookupResult where
  entityId : Nat
  safeLabel : String
  entityType : Option String
  aliases : List String
  matchScore : Rat
  deriving DecidableEq

structure Neo4jRelationLookupResult where
  frontierEntityId : Nat
  otherEntityId : Nat
  relationId : Nat
  sourceEntityId : Nat
  targetEntityId : Nat
  relationType : String
  confidence : Option Rat
  sourceDocumentChunkId : Option Nat
  evidenceTextHash : Option String
  otherSafeLabel : String
  otherEntityType : Option String
  sourceSafeLabel : String
  sourceEntityType : Option String
  targetSafeLabel : String
  targetEntityType : Option String
  deriving DecidableEq

/-- The nodes and edges that the search reads. A label that was projected passes the checks of
_safe_neo4j_label again. -/
structure ProjectedGraph where
  entities : List GraphEntity
  relations : List GraphRelation
  chunks : List ChunkNode
  deriving DecidableEq

/-- _optional_score. -/
def optionalScore (value : Option Rat) : Option Rat := value.map fun q => max 0 (min 1 q)

/-- _positive_int. -/
def positiveInt (value : Option Nat) : Option Nat := value.filter (0 < ·)

def isHexDigit (c : Char) : Bool := ('0' ≤ c && c ≤ '9') || ('a' ≤ c && c ≤ 'f')

/-- _safe_hash_or_none. -/
def safeHashOrNone (value : Option String) : Option String :=
  (value.map stripText).filter fun text => text.length = 64 ∧ text.toList.all isHexDigit

/-- One row of the query: a relation with its source and its target. -/
structure Neo4jRow where
  frontierEntityId : Nat
  relation : GraphRelation
  source : GraphEntity
  target : GraphEntity

/-- The node at the other end of the edge. -/
def Neo4jRow.other (row : Neo4jRow) : GraphEntity :=
  if row.relation.sourceEntityId = row.frontierEntityId then row.target else row.source

/-- _neo4j_relation_lookup_result. -/
def neo4jRelationLookupResult (row : Neo4jRow) : Option Neo4jRelationLookupResult :=
  if 0 < row.frontierEntityId ∧ 0 < row.other.graphEntityId ∧ 0 < row.relation.graphRelationId ∧
      0 < row.source.graphEntityId ∧ 0 < row.target.graphEntityId then
    some
      { frontierEntityId := row.frontierEntityId
        otherEntityId := row.other.graphEntityId
        relationId := row.relation.graphRelationId
        sourceEntityId := row.source.graphEntityId
        targetEntityId := row.target.graphEntityId
        relationType := row.relation.relationType.text
        confidence := optionalScore row.relation.confidence
        sourceDocumentChunkId := positiveInt row.relation.sourceDocumentChunkId
        evidenceTextHash := safeHashOrNone row.relation.evidenceTextHash
        otherSafeLabel := row.other.canonicalName.text
        otherEntityType := row.other.entityType.map (·.text)
        sourceSafeLabel := row.source.canonicalName.text
        sourceEntityType := row.source.entityType.map (·.text)
        targetSafeLabel := row.target.canonicalName.text
        targetEntityType := row.target.entityType.map (·.text) }
  else none

end Rows

section Query
variable [GraphText] (graph : ProjectedGraph) (filters : RetrievalFilters)

/-- The modality of _neo4j_filter_params. -/
def neo4jModality : String := (validateSafeGraphLabel 40 filters.modality).toOption.getD "text"

/-- The conditions on a chunk node. -/
def chunkPasses (chunk : ChunkNode) : Bool :=
  let logicalDocumentIds := orderedPositiveIds filters.logicalDocumentIds
  chunk.modality == neo4jModality filters && chunk.documentVersionStatus == "ready" &&
    chunk.documentVersionIsActive && chunk.logicalDocumentStatus == "active" &&
      (logicalDocumentIds.isEmpty || logicalDocumentIds.contains chunk.logicalDocumentId)

def edgePasses (excluded : List Nat) (r : GraphRelation) : Bool :=
  !excluded.contains r.graphRelationId &&
    match r.sourceDocumentChunkId with
    | none => true
    | some id => graph.chunks.any fun chunk => chunk.documentChunkId == id && chunkPasses filters chunk

/-- The relations without a source chunk last, then by confidence and id. -/
def edgeOrder (row : Neo4jRow) : Nat ×ₗ Rat ×ₗ Nat :=
  toLex (if row.relation.sourceDocumentChunkId.isNone then 1 else 0,
    toLex (-(row.relation.confidence.getD (1 / 2)), row.relation.graphRelationId))

/-- An edge at the frontier entity with the nodes at its ends. -/
def matchEdge (frontierEntityId : Nat) (r : GraphRelation) : Option Neo4jRow := do
  let source ← graph.entities.find? (·.graphEntityId == r.sourceEntityId)
  let target ← graph.entities.find? (·.graphEntityId == r.targetEntityId)
  some ⟨frontierEntityId, r, source, target⟩

/-- The rows of the subquery for one frontier entity. -/
def edgesAt (maxRelationsPerEntity : Nat) (excluded : List Nat) (frontierEntityId : Nat) :
    List Neo4jRow :=
  if graph.entities.any (·.graphEntityId == frontierEntityId) then
    (((graph.relations.filter fun r =>
      (r.sourceEntityId == frontierEntityId || r.targetEntityId == frontierEntityId) &&
        edgePasses graph filters excluded r).filterMap (matchEdge graph frontierEntityId)).insertionSort
          fun a b => edgeOrder a ≤ edgeOrder b).take maxRelationsPerEntity
  else []

/-- _relations_for_frontier. -/
def relationsForFrontier (maxRelationsPerEntity : Nat) (entityIds excludeRelationIds : List Nat) :
    List Neo4jRelationLookupResult :=
  ((orderedPositiveIds entityIds).flatMap
    (edgesAt graph filters maxRelationsPerEntity excludeRelationIds)).filterMap
      neo4jRelationLookupResult

end Query

section Search
variable [GraphText] [Rounding]

structure Neo4jEntry where
  currentId : Nat
  entityPath : List Nat
  relationPath : List Neo4jRelationLookupResult
  entityMatchScore : Rat

abbrev EntityRefs := List (Nat × String × Option String)

/-- entity_refs.setdefault. -/
def setDefault (refs : EntityRefs) (item : Nat × String × Option String) : EntityRefs :=
  if refs.any (·.1 == item.1) then refs else refs ++ [item]

structure Neo4jSearch where
  paths : List GraphPathCandidate
  reasonCodes : List String
  relationCount : Nat
  entityRefs : EntityRefs
  adjacency : List (Nat × Neo4jRelationLookupResult)
  loadedEntityIds : List Nat
  seenRelationIds : List Nat

/-- adjacency.get(current_id, []). -/
def Neo4jSearch.adjacent (s : Neo4jSearch) (currentId : Nat) : List Neo4jRelationLookupResult :=
  (s.adjacency.filter (·.1 == currentId)).map (·.2)

variable (settings : BoundedSettings)

/-- _neo4j_source_chunk_ids. -/
def neo4jSourceChunkIds (relationPath : List Neo4jRelationLookupResult) : List Nat :=
  (keepFirst id [] (relationPath.filterMap (·.sourceDocumentChunkId))).take settings.maxSourceChunks

def entityRef (refs : EntityRefs) (entityId : Nat) : String × Option String :=
  (refs.lookup entityId).getD ("entity:" ++ toString entityId, none)

def neo4jCandidate (refs : EntityRefs) (pathId : String) (entityPath : List Nat)
    (relationPath : List Neo4jRelationLookupResult) (entityMatchScore : Rat) :
    GraphPathCandidate :=
  let confidences := relationPath.map fun row => row.confidence.getD (1 / 2)
  let scores := scorePath entityMatchScore confidences relationPath.length
  { pathId := pathId
    entityIds := entityPath
    relationIds := relationPath.map (·.relationId)
    safeEntityLabels := entityPath.map fun entityId => (entityRef refs entityId).1
    relationTypes := relationPath.map (·.relationType)
    sourceChunkIds := neo4jSourceChunkIds settings relationPath
    depth := relationPath.length
    pathScore := scores.2
    entityMatchScore := Rounding.round 6 entityMatchScore
    relationScore := scores.1
    provider := .neo4j
    entityTypes := entityPath.map fun entityId => (entityRef refs entityId).2
    relationScores := confidences.map (Rounding.round 6)
    relationNodeIdPairs := relationPath.map fun row => (row.sourceEntityId, row.targetEntityId)
    evidenceHashes := relationPath.filterMap (·.evidenceTextHash)
    relationSourceChunkIds := relationPath.map (·.sourceDocumentChunkId) }

omit [Rounding] in
/-- The relations of the entities of the frontier that are not loaded yet. -/
def loadNeo4jFrontier (graph : ProjectedGraph) (filters : RetrievalFilters)
    (frontier : List Neo4jEntry) (s : Neo4jSearch) : Neo4jSearch :=
  let pending := ((frontier.map (·.currentId)).filter (· ∉ s.loadedEntityIds)).dedup
  if pending.isEmpty then s
  else
    let rows := relationsForFrontier graph filters settings.maxRelationsPerEntity pending
      s.seenRelationIds
    { s with
      relationCount := s.relationCount + rows.length
      adjacency := s.adjacency ++ rows.map fun row => (row.frontierEntityId, row)
      entityRefs := (rows.flatMap fun row =>
        [(row.otherEntityId, row.otherSafeLabel, row.otherEntityType),
          (row.sourceEntityId, row.sourceSafeLabel, row.sourceEntityType),
          (row.targetEntityId, row.targetSafeLabel, row.targetEntityType)]).foldl setDefault s.entityRefs
      loadedEntityIds := s.loadedEntityIds ++ pending }

/-- A path that is longer by one relation is collected and, where it may grow, in the next
frontier. -/
def addNeo4jPath (entry : Neo4jEntry) (row : Neo4jRelationLookupResult)
    (state : Neo4jSearch × List Neo4jEntry) : Neo4jSearch × List Neo4jEntry :=
  let (s, nextFrontier) := state
  let entityPath := entry.entityPath ++ [row.otherEntityId]
  let relationPath := entry.relationPath ++ [row]
  let collected :=
    if s.paths.length < pathCollectionLimit settings then
      { s with paths := s.paths ++ [neo4jCandidate settings s.entityRefs
          ("neo4j_gp_" ++ toString (s.paths.length + 1)) entityPath relationPath
            entry.entityMatchScore] }
    else if "max_paths_reached" ∈ s.reasonCodes then s
    else { s with reasonCodes := s.reasonCodes ++ ["max_paths_reached"] }
  (collected,
    if relationPath.length < settings.maxDepth ∧ nextFrontier.length < frontierLimit settings then
      nextFrontier ++ [⟨row.otherEntityId, entityPath, relationPath, entry.entityMatchScore⟩]
    else nextFrontier)

/-- The loop over the adjacent relations. A relation that leads away is seen from then on, in every
path. -/
def expandNeo4jEntry (entry : Neo4jEntry) : List Neo4jRelationLookupResult → Nat →
    Neo4jSearch × List Neo4jEntry → Neo4jSearch × List Neo4jEntry
  | [], _, state => state
  | row :: rows, expanded, (s, nextFrontier) =>
    if row.relationId ∈ s.seenRelationIds then
      expandNeo4jEntry entry rows expanded (s, nextFrontier)
    else if row.otherEntityId ∈ entry.entityPath then
      expandNeo4jEntry entry rows expanded (s, nextFrontier)
    else
      let s := { s with seenRelationIds := row.relationId :: s.seenRelationIds }
      if settings.maxRelationsPerEntity ≤ expanded then (s, nextFrontier)
      else expandNeo4jEntry entry rows (expanded + 1) (addNeo4jPath settings entry row (s, nextFrontier))

def expandNeo4jFrontier (frontier : List Neo4jEntry) (s : Neo4jSearch) :
    Neo4jSearch × List Neo4jEntry :=
  frontier.foldl (fun state entry =>
    expandNeo4jEntry settings entry (state.1.adjacent entry.currentId) 0 state) (s, [])

/-- The loop over the depths, with the time that has passed at each of them. -/
def searchNeo4jLevels (graph : ProjectedGraph) (filters : RetrievalFilters) :
    List Nat → Neo4jSearch × List Neo4jEntry → Neo4jSearch
  | [], (s, _) => s
  | elapsedMs :: later, (s, frontier) =>
    if frontier.isEmpty then s
    else if settings.timeoutMs < elapsedMs then
      { s with reasonCodes := s.reasonCodes ++ ["graph_timeout"] }
    else searchNeo4jLevels graph filters later
      (expandNeo4jFrontier settings frontier (loadNeo4jFrontier settings graph filters frontier s))

def neo4jStartEntry (lookup : Neo4jEntityLookupResult) : Neo4jEntry :=
  ⟨lookup.entityId, [lookup.entityId], [], lookup.matchScore⟩

/-- _search_paths. The clock is read once at each depth. -/
def searchNeo4jPaths (graph : ProjectedGraph) (filters : RetrievalFilters)
    (startEntities : List Neo4jEntityLookupResult) (elapsedMs : Nat → Nat) :
    List GraphPathCandidate × Nat × List String :=
  if startEntities.isEmpty then ([], 0, ["no_start_entities"])
  else
    let lookups := Table.mergeRows Neo4jEntityLookupResult.entityId [] startEntities
    let refs := (startEntities.map fun item =>
      (item.entityId, item.safeLabel, item.entityType))
    let s := searchNeo4jLevels settings graph filters
      ((List.range settings.maxDepth).map elapsedMs)
        (⟨[], [], 0, Table.mergeRows Prod.fst [] refs, [], [], []⟩, lookups.map neo4jStartEntry)
    let (selected, reasonCodes) := selectPathsAtCap s.paths settings.maxPaths s.reasonCodes
    (selected, s.relationCount, keepFirst id [] reasonCodes)

end Search

end RagProject.GraphSearch
