import RagProject.GraphSearch.Relations

/-! GraphPathSearchService (rag/graph_retrieval.py): the paths from the start entities, level by
level, and their selection. -/
namespace RagProject.GraphSearch
open Python Documents Graph Retrieval KeepFirst

section Settings

inductive GraphStoreProvider where
  | postgres | neo4j
  deriving DecidableEq, Repr

structure GraphRetrievalSettings where
  maxDepth : Int
  maxPaths : Int
  maxRelationsPerEntity : Int
  maxSourceChunks : Int
  timeoutMs : Int
  deriving DecidableEq, Repr

/-- The settings of a search, within their limits. -/
structure BoundedSettings where
  maxDepth : Nat
  maxPaths : Nat
  maxRelationsPerEntity : Nat
  maxSourceChunks : Nat
  timeoutMs : Nat
  depth : 1 ≤ maxDepth ∧ maxDepth ≤ 4
  paths : 1 ≤ maxPaths ∧ maxPaths ≤ 100
  relations : 1 ≤ maxRelationsPerEntity ∧ maxRelationsPerEntity ≤ 100
  chunks : 1 ≤ maxSourceChunks ∧ maxSourceChunks ≤ 100
  timeout : 100 ≤ timeoutMs ∧ timeoutMs ≤ 30000
  deriving DecidableEq, Repr

def boundedInt (value : Int) (minimum maximum : Nat) : Nat :=
  (max (minimum : Int) (min (maximum : Int) value)).toNat

theorem boundedInt_bounds (value : Int) {minimum maximum : Nat} (order : minimum ≤ maximum) :
    minimum ≤ boundedInt value minimum maximum ∧ boundedInt value minimum maximum ≤ maximum := by
  unfold boundedInt
  omega

def GraphRetrievalSettings.bounded (settings : GraphRetrievalSettings) : BoundedSettings where
  maxDepth := boundedInt settings.maxDepth 1 4
  maxPaths := boundedInt settings.maxPaths 1 100
  maxRelationsPerEntity := boundedInt settings.maxRelationsPerEntity 1 100
  maxSourceChunks := boundedInt settings.maxSourceChunks 1 100
  timeoutMs := boundedInt settings.timeoutMs 100 30000
  depth := boundedInt_bounds _ (by decide)
  paths := boundedInt_bounds _ (by decide)
  relations := boundedInt_bounds _ (by decide)
  chunks := boundedInt_bounds _ (by decide)
  timeout := boundedInt_bounds _ (by decide)

end Settings

section Candidates

structure GraphPathCandidate where
  pathId : String
  entityIds : List Nat
  relationIds : List Nat
  safeEntityLabels : List String
  relationTypes : List String
  sourceChunkIds : List Nat
  depth : Nat
  pathScore : Rat
  entityMatchScore : Rat
  relationScore : Rat
  provider : GraphStoreProvider
  entityTypes : List (Option String)
  relationScores : List Rat
  relationNodeIdPairs : List (Nat × Nat)
  evidenceHashes : List String
  relationSourceChunkIds : List (Option Nat)
  deriving DecidableEq, Repr

/-- _path_sort_key. -/
def pathSortKey (path : GraphPathCandidate) : Rat ×ₗ Int ×ₗ String :=
  toLex (path.pathScore, toLex (-(path.depth : Int), path.pathId))

/-- sorted(paths, key=_path_sort_key, reverse=True): equal keys keep their order. -/
def sortedPaths (paths : List GraphPathCandidate) : List GraphPathCandidate :=
  paths.insertionSort fun a b => pathSortKey b ≤ pathSortKey a

/-- _select_paths_at_cap. -/
def selectPathsAtCap (paths : List GraphPathCandidate) (maxPaths : Nat)
    (reasonCodes : List String) : List GraphPathCandidate × List String :=
  let ordered := sortedPaths paths
  let naiveSelection := ordered.take maxPaths
  let chunkBacked := ordered.filter (!·.sourceChunkIds.isEmpty)
  let sourceLess := ordered.filter (·.sourceChunkIds.isEmpty)
  let selected := (chunkBacked ++ sourceLess).take maxPaths
  (sortedPaths selected,
    if selected ⊆ naiveSelection ∧ naiveSelection ⊆ selected then reasonCodes
    else reasonCodes ++ ["chunk_backed_paths_preferred"])

section Selection
variable (paths : List GraphPathCandidate) (maxPaths : Nat) (reasonCodes : List String)

theorem sortedPaths_perm : (sortedPaths paths).Perm paths := List.perm_insertionSort _ _

/-- The paths with source chunks before those without. -/
theorem preferred_perm : ((sortedPaths paths).filter (!·.sourceChunkIds.isEmpty) ++
    (sortedPaths paths).filter (·.sourceChunkIds.isEmpty)).Perm paths := by
  have parts := List.filter_append_perm (fun path : GraphPathCandidate => path.sourceChunkIds.isEmpty)
    (sortedPaths paths)
  exact (List.perm_append_comm.trans parts).trans (sortedPaths_perm paths)

theorem selected_length : (selectPathsAtCap paths maxPaths reasonCodes).1.length =
    min maxPaths paths.length := by
  unfold selectPathsAtCap
  dsimp only
  rw [(sortedPaths_perm _).length_eq, List.length_take, (preferred_perm paths).length_eq]

theorem selected_mem {path : GraphPathCandidate}
    (member : path ∈ (selectPathsAtCap paths maxPaths reasonCodes).1) : path ∈ paths := by
  unfold selectPathsAtCap at member
  dsimp only at member
  rw [(sortedPaths_perm _).mem_iff] at member
  exact (preferred_perm paths).mem_iff.mp (List.mem_of_mem_take member)

theorem selected_all (few : paths.length ≤ maxPaths) :
    (selectPathsAtCap paths maxPaths reasonCodes).1.Perm paths := by
  unfold selectPathsAtCap
  dsimp only
  rw [List.take_of_length_le (by rw [(preferred_perm paths).length_eq]; exact few)]
  exact (sortedPaths_perm _).trans (preferred_perm paths)

end Selection

variable [Rounding]

/-- GraphScoreCalculator.score_path. -/
def scorePath (entityMatchScore : Rat) (relationConfidences : List Rat) (depth : Nat) : Rat × Rat :=
  let relationScore :=
    if relationConfidences.isEmpty then entityMatchScore
    else Rounding.divide relationConfidences.sum relationConfidences.length
  let depthPenalty := max (1 / 10) (1 - (max 0 ((depth : Int) - 1) : Int) * (1 / 10))
  let pathScore := entityMatchScore * (45 / 100) + relationScore * (45 / 100) +
    depthPenalty * (10 / 100)
  (Rounding.round 6 (max 0 (min 1 relationScore)), Rounding.round 6 (max 0 (min 1 pathScore)))

end Candidates

section Search
variable [GraphText]

structure GraphEntityLookupResult where
  entity : GraphEntity
  matchScore : Rat
  matchedTerms : List String
  deriving DecidableEq

/-- One item of a dict by entity id: a later item of the same key takes the place of the first. -/
def setLookup (lookups : List GraphEntityLookupResult) (item : GraphEntityLookupResult) :
    List GraphEntityLookupResult :=
  if lookups.any (·.entity.graphEntityId == item.entity.graphEntityId) then
    lookups.map fun old =>
      if old.entity.graphEntityId == item.entity.graphEntityId then item else old
  else lookups ++ [item]

def lookupById (startEntities : List GraphEntityLookupResult) : List GraphEntityLookupResult :=
  startEntities.foldl setLookup []

structure FrontierEntry where
  currentId : Nat
  entityPath : List Nat
  relationPath : List GraphRelationRow
  entityMatchScore : Rat

/-- The end of a relation that is not the given one. -/
def otherEnd (r : GraphRelation) (currentId : Nat) : Nat :=
  if r.sourceEntityId = currentId then r.targetEntityId else r.sourceEntityId

/-- _source_chunk_ids. -/
def sourceChunkIds (relationPath : List GraphRelation) (maxSourceChunks : Nat) : List Nat :=
  (keepFirst id [] (relationPath.filterMap (·.sourceDocumentChunkId))).take maxSourceChunks

/-- The entities of the start and of the relations of a path, by id; a later one counts. -/
def entitiesById (lookups : List GraphEntityLookupResult) (relationPath : List GraphRelationRow)
    (entityId : Nat) : Option GraphEntity :=
  (lookups.map (·.entity) ++ relationPath.flatMap fun row =>
    [row.sourceEntity, row.targetEntity]).reverse.find? (·.graphEntityId == entityId)

variable [Rounding] (lookups : List GraphEntityLookupResult) (settings : BoundedSettings)

/-- The candidate that is collected for a path. -/
def pathCandidate (pathId : String) (entityPath : List Nat) (relationPath : List GraphRelationRow)
    (entityMatchScore : Rat) : GraphPathCandidate :=
  let confidences := relationPath.map fun row => row.relation.confidence.getD (1 / 2)
  let scores := scorePath entityMatchScore confidences relationPath.length
  { pathId := pathId
    entityIds := entityPath
    relationIds := relationPath.map (·.relation.graphRelationId)
    safeEntityLabels := entityPath.filterMap fun entityId =>
      (entitiesById lookups relationPath entityId).map (·.canonicalName.text)
    relationTypes := relationPath.map (·.relation.relationType.text)
    sourceChunkIds := sourceChunkIds (relationPath.map (·.relation)) settings.maxSourceChunks
    depth := relationPath.length
    pathScore := scores.2
    entityMatchScore := Rounding.round 6 entityMatchScore
    relationScore := scores.1
    provider := .postgres
    entityTypes := entityPath.map fun entityId =>
      (entitiesById lookups relationPath entityId).bind (·.entityType.map (·.text))
    relationScores := confidences.map (Rounding.round 6)
    relationNodeIdPairs := relationPath.map fun row =>
      (row.relation.sourceEntityId, row.relation.targetEntityId)
    evidenceHashes := relationPath.filterMap (·.relation.evidenceTextHash)
    relationSourceChunkIds := relationPath.map (·.relation.sourceDocumentChunkId) }

structure PathSearch where
  paths : List GraphPathCandidate
  reasonCodes : List String
  relationCount : Nat
  adjacency : List (Nat × GraphRelationRow)
  loadedEntityIds : List Nat
  seenRelationIds : List Nat

def pathCollectionLimit : Nat :=
  min 1000 (max settings.maxPaths
    (settings.maxPaths * settings.maxDepth * settings.maxRelationsPerEntity))

def frontierLimit : Nat :=
  min 500 (max settings.maxPaths (settings.maxPaths * settings.maxRelationsPerEntity))

/-- adjacency.get(current_id, []). -/
def PathSearch.adjacent (s : PathSearch) (currentId : Nat) : List GraphRelationRow :=
  (s.adjacency.filter (·.1 == currentId)).map (·.2)

/-- One row of the query, if it is new. -/
def loadRow (s : PathSearch) (row : GraphRelationRow) : PathSearch :=
  if row.relation.graphRelationId ∈ s.seenRelationIds then s
  else
    { s with
      seenRelationIds := row.relation.graphRelationId :: s.seenRelationIds
      relationCount := s.relationCount + 1
      adjacency := s.adjacency ++
        [(row.relation.sourceEntityId, row), (row.relation.targetEntityId, row)] }

/-- The relations of the entities of the frontier that are not loaded yet. -/
def loadFrontier (db : GraphTables) (filters : RetrievalFilters) (frontier : List FrontierEntry)
    (s : PathSearch) : PathSearch :=
  let pending := ((frontier.map (·.currentId)).filter (· ∉ s.loadedEntityIds)).dedup
  if pending.isEmpty then s
  else
    (listRelationsForEntityIds db (some filters) settings.maxRelationsPerEntity pending
      s.seenRelationIds).foldl loadRow { s with loadedEntityIds := s.loadedEntityIds ++ pending }

/-- A path that is longer by one relation is collected and, where it may grow, in the next
frontier. -/
def addPath (entry : FrontierEntry) (row : GraphRelationRow)
    (state : PathSearch × List FrontierEntry) : PathSearch × List FrontierEntry :=
  let (s, nextFrontier) := state
  let nextId := otherEnd row.relation entry.currentId
  let entityPath := entry.entityPath ++ [nextId]
  let relationPath := entry.relationPath ++ [row]
  let collected :=
    if s.paths.length < pathCollectionLimit settings then
      { s with paths := s.paths ++ [pathCandidate lookups settings
          ("gp_" ++ toString (s.paths.length + 1)) entityPath relationPath entry.entityMatchScore] }
    else if "max_paths_reached" ∈ s.reasonCodes then s
    else { s with reasonCodes := s.reasonCodes ++ ["max_paths_reached"] }
  (collected,
    if relationPath.length < settings.maxDepth ∧ nextFrontier.length < frontierLimit settings then
      nextFrontier ++ [⟨nextId, entityPath, relationPath, entry.entityMatchScore⟩]
    else nextFrontier)

/-- The loop over the adjacent relations, with their number so far. -/
def expandEntry (entry : FrontierEntry) : List GraphRelationRow → Nat →
    PathSearch × List FrontierEntry → PathSearch × List FrontierEntry
  | [], _, state => state
  | row :: rows, expanded, state =>
    if otherEnd row.relation entry.currentId ∈ entry.entityPath then
      expandEntry entry rows expanded state
    else if settings.maxRelationsPerEntity ≤ expanded then state
    else expandEntry entry rows (expanded + 1) (addPath lookups settings entry row state)

def expandFrontier (frontier : List FrontierEntry) (s : PathSearch) :
    PathSearch × List FrontierEntry :=
  frontier.foldl (fun state entry =>
    expandEntry lookups settings entry (s.adjacent entry.currentId) 0 state) (s, [])

/-- The loop over the depths, with the time that has passed at each of them. -/
def searchLevels (db : GraphTables) (filters : RetrievalFilters) :
    List Nat → PathSearch × List FrontierEntry → PathSearch
  | [], (s, _) => s
  | elapsedMs :: later, (s, frontier) =>
    if frontier.isEmpty then s
    else if settings.timeoutMs < elapsedMs then
      { s with reasonCodes := s.reasonCodes ++ ["graph_timeout"] }
    else searchLevels db filters later
      (expandFrontier lookups settings frontier (loadFrontier settings db filters frontier s))

def startEntry (lookup : GraphEntityLookupResult) : FrontierEntry :=
  ⟨lookup.entity.graphEntityId, [lookup.entity.graphEntityId], [], lookup.matchScore⟩

/-- search_paths. The clock is read once at each depth. -/
def searchPaths (db : GraphTables) (filters : RetrievalFilters)
    (startEntities : List GraphEntityLookupResult) (elapsedMs : Nat → Nat) :
    List GraphPathCandidate × Nat × List String :=
  if startEntities.isEmpty then ([], 0, ["no_start_entities"])
  else
    let lookups := lookupById startEntities
    let s := searchLevels lookups settings db filters ((List.range settings.maxDepth).map elapsedMs)
      (⟨[], [], 0, [], [], []⟩, lookups.map startEntry)
    let (selected, reasonCodes) := selectPathsAtCap s.paths settings.maxPaths s.reasonCodes
    (selected, s.relationCount, keepFirst id [] reasonCodes)

end Search

end RagProject.GraphSearch
