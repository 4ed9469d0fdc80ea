import RagProject.GraphSearch.Paths
import RagProject.Lib.Counter
import RagProject.Lib.Number

/-! The source candidates of a graph search and the records of its paths (rag/graph_retrieval.py,
repositories/graph_repository.py). -/
namespace RagProject.GraphSearch
open Python Graph KeepFirst

section PathJson

def GraphStoreProvider.value : GraphStoreProvider → String
  | .postgres => "postgres"
  | .neo4j => "neo4j"

structure GraphNodeRef where
  provider : GraphStoreProvider
  nodeId : String
  entityId : Nat
  safeLabel : String
  entityType : Option String
  score : Option Rat
  deriving DecidableEq, Repr

structure GraphRelationRef where
  provider : GraphStoreProvider
  relationId : String
  sourceNodeId : Option String
  targetNodeId : Option String
  relationType : String
  safeLabel : String
  score : Option Rat
  deriving DecidableEq, Repr

structure GraphEvidenceRef where
  provider : GraphStoreProvider
  sourceChunkIds : List Nat
  documentChunkIds : List Nat
  evidenceHashes : Option (List String)
  deriving DecidableEq, Repr

structure PathScoreBreakdown where
  schemaVersion : String
  retrievalSource : String
  entityMatchScore : Rat
  relationScore : Rat
  pathScore : Rat
  sourceChunkIdsCount : Nat
  pathDepth : Nat
  deriving DecidableEq, Repr

/-- A path for storage; its JSON has these fields and the constants of its kind. -/
structure GraphPath where
  provider : GraphStoreProvider
  pathId : String
  nodeRefs : List GraphNodeRef
  relationRefs : List GraphRelationRef
  evidenceRefs : List GraphEvidenceRef
  sourceChunkIds : List Nat
  safeEntityLabels : List String
  relationTypes : List String
  depth : Nat
  pathScore : Rat
  scoreBreakdown : PathScoreBreakdown
  deriving DecidableEq, Repr

def nodeRef (path : GraphPathCandidate) (entityId index : Nat) : GraphNodeRef where
  provider := path.provider
  nodeId := toString entityId
  entityId := entityId
  safeLabel := path.safeEntityLabels[index]?.getD ("entity:" ++ toString entityId)
  entityType := (path.entityTypes[index]?).join
  score := if index = 0 then some path.entityMatchScore else none

def relationRef (path : GraphPathCandidate) (relationId index : Nat) : GraphRelationRef where
  provider := path.provider
  relationId := toString relationId
  sourceNodeId := match path.relationNodeIdPairs[index]? with
    | some pair => some (toString pair.1)
    | none => path.entityIds[index]?.map toString
  targetNodeId := match path.relationNodeIdPairs[index]? with
    | some pair => some (toString pair.2)
    | none => path.entityIds[index + 1]?.map toString
  relationType := path.relationTypes[index]?.getD ("relation:" ++ toString relationId)
  safeLabel := path.relationTypes[index]?.getD ("relation:" ++ toString relationId)
  score := some (path.relationScores[index]?.getD path.relationScore)

/-- to_graph_path with the given source chunks. -/
def toGraphPath (path : GraphPathCandidate) (chunkIds : List Nat) : GraphPath where
  provider := path.provider
  pathId := path.pathId
  nodeRefs := path.entityIds.zipIdx.map fun (entityId, index) => nodeRef path entityId index
  relationRefs := path.relationIds.zipIdx.map fun (relationId, index) =>
    relationRef path relationId index
  evidenceRefs :=
    if chunkIds.isEmpty then []
    else [⟨path.provider, chunkIds, chunkIds,
      if path.evidenceHashes.isEmpty then none else some path.evidenceHashes⟩]
  sourceChunkIds := chunkIds
  safeEntityLabels := path.safeEntityLabels
  relationTypes := path.relationTypes
  depth := path.depth
  pathScore := path.pathScore
  scoreBreakdown := ⟨"phase3.graph_score.v1", "graph", path.entityMatchScore, path.relationScore,
    path.pathScore, chunkIds.length, path.depth⟩

/-- Texts of a list, under its key and their places. -/
def listTexts (key : String) (texts : List String) : List (String × String) :=
  texts.zipIdx.map fun (text, index) => (key ++ "[" ++ toString index ++ "]", text)

def optionTexts (key : String) (text : Option String) : List (String × String) :=
  text.toList.map (key, ·)

def GraphNodeRef.texts (key : String) (ref : GraphNodeRef) : List (String × String) :=
  [(key ++ ".provider", ref.provider.value), (key ++ ".node_id", ref.nodeId),
    (key ++ ".safe_label", ref.safeLabel)] ++ optionTexts (key ++ ".entity_type") ref.entityType

def GraphRelationRef.texts (key : String) (ref : GraphRelationRef) : List (String × String) :=
  [(key ++ ".provider", ref.provider.value), (key ++ ".relation_id", ref.relationId)] ++
    optionTexts (key ++ ".source_node_id") ref.sourceNodeId ++
      optionTexts (key ++ ".target_node_id") ref.targetNodeId ++
        [(key ++ ".relation_type", ref.relationType), (key ++ ".safe_label", ref.safeLabel)]

def GraphEvidenceRef.texts (key : String) (ref : GraphEvidenceRef) : List (String × String) :=
  (key ++ ".provider", ref.provider.value) ::
    listTexts (key ++ ".evidence_hashes") (ref.evidenceHashes.getD [])

/-- The texts of the JSON of a path in order, each with its place. The keys are constants that
the check lets pass. -/
def GraphPath.texts (path : GraphPath) : List (String × String) :=
  let places {Ref : Type} (key : String) (refs : List Ref)
      (texts : String → Ref → List (String × String)) :=
    refs.zipIdx.flatMap fun (ref, index) => texts (key ++ "[" ++ toString index ++ "]") ref
  [("schema_version", "phase3.graph_path.v2"), ("strategy_type", "graph"),
    ("provider", path.provider.value), ("path_id", path.pathId)] ++
    places "node_refs" path.nodeRefs GraphNodeRef.texts ++
      places "relation_refs" path.relationRefs GraphRelationRef.texts ++
        places "evidence_refs" path.evidenceRefs GraphEvidenceRef.texts ++
          listTexts "safe_entity_labels" path.safeEntityLabels ++
            listTexts "relation_types" path.relationTypes ++
              [("score_breakdown.schema_version", path.scoreBreakdown.schemaVersion),
                ("score_breakdown.retrieval_source", path.scoreBreakdown.retrievalSource)]

variable [GraphText]

/-- _assert_safe_metadata_value for a text. -/
def assertSafeText (place : String × String) : Except String Unit :=
  if 1000 < place.2.length then
    .error ("graph metadata string is too long: " ++ place.1)
  else if GraphText.containsUnsafe place.2 then
    .error ("graph metadata string contains unsafe content: " ++ place.1)
  else .ok ()

/-- validate_safe_graph_metadata for the JSON of a path. -/
def GraphPath.pathJson (path : GraphPath) : Except String GraphPath := do
  path.texts.forM assertSafeText
  return path

end PathJson

section Candidates

structure GraphSourceCandidate where
  documentChunkId : Nat
  retrievalScore : Rat
  rankOrder : Nat
  payload : Dict
  scoreBreakdownJson : Dict
  pathRefs : List String
  graphPathCandidates : List GraphPathCandidate
  deriving DecidableEq

/-- sorted(paths, key=path_score, reverse=True): equal scores keep their order. -/
def rankedPaths (paths : List GraphPathCandidate) : List GraphPathCandidate :=
  paths.insertionSort fun a b => b.pathScore ≤ a.pathScore

/-- by_chunk_id. -/
def byChunkId (paths : List GraphPathCandidate) : List (Nat × List GraphPathCandidate) :=
  (Counter.grouped (·.1) (paths.flatMap fun path => path.sourceChunkIds.map (·, path))).map
    fun group => (group.1, group.2.map (·.2))

def sourceCandidate (chunkId : Nat) (chunkPaths : List GraphPathCandidate) :
    GraphSourceCandidate :=
  let ranked := rankedPaths chunkPaths
  let pathRefs := (ranked.take 5).map (·.pathId)
  { documentChunkId := chunkId
    retrievalScore := roundDecimal 6
      (((ranked.take 3).map (·.pathScore)).sum / (min 3 ranked.length : Nat))
    rankOrder := 0
    payload := [("retrieval_source", .str "graph"), ("graph_path_refs", .list (pathRefs.map .str)),
      ("source_chunk_ids_json", .list [.int chunkId]), ("path_count", .int ranked.length)]
    scoreBreakdownJson := []
    pathRefs := pathRefs
    graphPathCandidates := ranked.take 5 }

/-- GraphScoreCalculator.score_breakdown. -/
def scoreBreakdown (candidate : GraphSourceCandidate) (path : GraphPathCandidate) (pathRank : Nat) :
    Dict :=
  [("schema_version", .str "phase3.graph_score.v1"), ("retrieval_source", .str "graph"),
    ("entity_match_score", .float path.entityMatchScore),
    ("relation_score", .float path.relationScore), ("path_score", .float path.pathScore),
    ("source_chunk_score", .float candidate.retrievalScore), ("path_depth", .int path.depth),
    ("path_rank", .int pathRank), ("source_chunk_ids_count", .int path.sourceChunkIds.length),
    ("selected_flag", .bool true)]

/-- A candidate with its rank. Each candidate has a first path. -/
def withRank (candidate : GraphSourceCandidate) (rank : Nat) : GraphSourceCandidate :=
  { candidate with
    rankOrder := rank
    payload := candidate.payload.set "rank_order" (.int rank)
    scoreBreakdownJson := match candidate.graphPathCandidates.head? with
      | none => []
      | some path => scoreBreakdown candidate path rank }

/-- The best scores first; of equal ones the smaller chunk. -/
def candidateOrder (candidate : GraphSourceCandidate) : Rat ×ₗ Nat :=
  toLex (-candidate.retrievalScore, candidate.documentChunkId)

/-- _source_candidates. -/
def sourceCandidates (paths : List GraphPathCandidate) (topK maxSourceChunks : Nat) :
    List GraphSourceCandidate :=
  let candidates := (byChunkId paths).map fun (chunkId, chunkPaths) =>
    sourceCandidate chunkId chunkPaths
  let distinctChunkCap := max 1 (min topK maxSourceChunks)
  (Ranking.ranked candidateOrder candidates distinctChunkCap).zipIdx.map fun (candidate, index) =>
    withRank candidate (index + 1)

end Candidates

section Records

structure GraphRetrievalPathCreate where
  retrievalRunId : Nat
  pathJson : GraphPath
  scoreBreakdownJson : PathScoreBreakdown
  sourceChunkIdsJson : List Nat
  positiveRun : 0 < retrievalRunId
  positiveChunks : ∀ chunkId ∈ sourceChunkIdsJson, 0 < chunkId
  deriving DecidableEq, Repr

/-- paths_by_id and selected_chunk_ids_by_path, which have the same keys. -/
abbrev SelectedChunks := List (GraphPathCandidate × List Nat)

/-- A chunk that is selected for a path. -/
def selectChunk (selected : SelectedChunks) (reference : Nat × GraphPathCandidate) :
    SelectedChunks :=
  if selected.any (·.1.pathId == reference.2.pathId) then
    selected.map fun entry =>
      if entry.1.pathId = reference.2.pathId ∧ reference.1 ∉ entry.2 then
        (entry.1, entry.2 ++ [reference.1])
      else entry
  else selected ++ [(reference.2, [reference.1])]

/-- The paths of the candidates, each with the chunk that it was selected for. -/
def chunkReferences (candidates : List GraphSourceCandidate) : List (Nat × GraphPathCandidate) :=
  candidates.flatMap fun candidate =>
    (candidate.graphPathCandidates.filter (candidate.documentChunkId ∈ ·.sourceChunkIds)).map
      (candidate.documentChunkId, ·)

variable [GraphText]

/-- validate_safe_graph_metadata for a score breakdown. -/
def PathScoreBreakdown.checked (scoreBreakdown : PathScoreBreakdown) : Except String Unit := do
  assertSafeText ("schema_version", scoreBreakdown.schemaVersion)
  assertSafeText ("retrieval_source", scoreBreakdown.retrievalSource)

/-- The fields in order; of several errors the first is named. -/
def newGraphRetrievalPathCreate (retrievalRunId : Nat) (pathJson : GraphPath)
    (scoreBreakdown : PathScoreBreakdown) (sourceChunkIds : List Nat) :
    Except String GraphRetrievalPathCreate := do
  if positiveRun : 0 < retrievalRunId then
    let pathJson ← pathJson.pathJson
    scoreBreakdown.checked
    if positiveChunks : ∀ chunkId ∈ sourceChunkIds, 0 < chunkId then
      return ⟨retrievalRunId, pathJson, scoreBreakdown, sourceChunkIds, positiveRun, positiveChunks⟩
    else .error "source_chunk_ids_json must contain positive integer ids"
  else .error "Input should be greater than 0"

def pathRecord (retrievalRunId : Nat) (entry : GraphPathCandidate × List Nat) :
    Except String GraphRetrievalPathCreate := do
  let graphPath := toGraphPath entry.1 entry.2
  let pathJson ← graphPath.pathJson
  newGraphRetrievalPathCreate retrievalRunId pathJson graphPath.scoreBreakdown entry.2

/-- _path_records. -/
def pathRecords (retrievalRunId : Nat) (candidates : List GraphSourceCandidate) :
    Except String (List GraphRetrievalPathCreate) :=
  (((chunkReferences candidates).foldl selectChunk []).filter (!·.2.isEmpty)).mapM
    (pathRecord retrievalRunId)

/-- The chunks that were selected by the runs. -/
structure RetrievalRunItem where
  retrievalRunId : Nat
  documentChunkId : Nat
  deriving DecidableEq, Repr

/-- _assert_source_chunks_belong_to_retrieval_run. -/
def assertSourceChunksBelongToRetrievalRun (items : List RetrievalRunItem) (retrievalRunId : Nat)
    (sourceChunkIds : List Nat) : Except String Unit :=
  if sourceChunkIds.all fun chunkId => ⟨retrievalRunId, chunkId⟩ ∈ items then .ok ()
  else .error "source_chunk_ids_json must reference chunks selected by retrieval_run_id"

/-- create_graph_retrieval_path: the row that is added. -/
def createGraphRetrievalPath (items : List RetrievalRunItem) (data : GraphRetrievalPathCreate) :
    Except String GraphRetrievalPathCreate := do
  assertSourceChunksBelongToRetrievalRun items data.retrievalRunId data.sourceChunkIdsJson
  let pathJson ← data.pathJson.pathJson
  data.scoreBreakdownJson.checked
  return { data with pathJson := pathJson }

end Records

end RagProject.GraphSearch
