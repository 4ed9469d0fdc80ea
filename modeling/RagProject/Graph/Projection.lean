import RagProject.Graph.Store

/-! The copy of a version's graph rows in Neo4j (services/neo4j_projection_service.py): one read
of the tables, and one write transaction that takes the old copy away and merges the new one.
The run ids that nodes and edges show are left out. -/
namespace RagProject.Graph
open Python KeepFirst Documents

section Graph

structure EntityNode where
  graphEntityId : Nat
  safeLabel : String
  entityType : String
  aliases : List String
  deriving DecidableEq, Repr

structure ChunkNode where
  documentChunkId : Nat
  documentVersionId : Nat
  logicalDocumentId : Nat
  chunkHash : String
  modality : String
  documentVersionStatus : String
  documentVersionIsActive : Bool
  logicalDocumentStatus : String
  deriving DecidableEq, Repr

/-- A MENTIONED_IN edge, from an entity node to a chunk node. -/
structure MentionEdge where
  graphEntityMentionId : Nat
  graphEntityId : Nat
  documentChunkId : Nat
  documentVersionId : Nat
  mentionTextHash : String
  confidence : Rat
  deriving DecidableEq, Repr

/-- A GRAPH_RELATION edge, between two entity nodes. -/
structure RelationEdge where
  graphRelationId : Nat
  sourceEntityId : Nat
  targetEntityId : Nat
  relationType : String
  confidence : Rat
  sourceDocumentChunkId : Nat
  documentVersionId : Option Nat
  evidenceTextHash : String
  deriving DecidableEq, Repr

structure Neo4jGraph where
  entities : List EntityNode
  chunks : List ChunkNode
  mentions : List MentionEdge
  relations : List RelationEdge
  deriving DecidableEq, Repr

/-- What one read of the tables hands to one write: nodes and edges still to be merged. -/
abbrev ProjectionRows := Neo4jGraph

end Graph

section Load

/-- The chunks of a version, each with the state of its version and document. The modality and
the statuses are words of fixed lists, so their label checks pass. -/
def chunkRows (documentVersionId : Nat) (db : Db) : List ChunkNode :=
  (db.chunksOf documentVersionId).filterMap fun c =>
    (db.getVersionById c.documentVersionId).bind fun v =>
      (db.getDocument v.logicalDocumentId).map fun d =>
        ⟨c.documentChunkId, c.documentVersionId, v.logicalDocumentId, c.chunkHash, c.modality,
          v.status.value, v.isActive, d.status.value⟩

def mentionRows (documentVersionId : Nat) (db : GraphDb) : List MentionEdge :=
  (db.mentionsOf documentVersionId).map fun m =>
    ⟨m.graphEntityMentionId, m.graphEntityId, m.documentChunkId, m.documentVersionId,
      m.mentionTextHash, m.confidence⟩

def relationRow (chunks : List ChunkNode) (relationType : String) (r : GraphRelation) :
    RelationEdge :=
  ⟨r.graphRelationId, r.sourceEntityId, r.targetEntityId, relationType, r.confidence,
    r.sourceDocumentChunkId,
    (chunks.find? fun c => c.documentChunkId == r.sourceDocumentChunkId).map (·.documentVersionId),
    r.evidenceTextHash⟩

variable [GraphText]

/-- The loop of _safe_aliases: unsafe aliases are dropped, and the list is cut at 32. -/
def safeAliases (aliases : List String) : List String :=
  (keepFirst lowerText [] (aliases.filterMap fun text =>
    (validateSafeGraphLabel 120 text).toOption)).take 32

def entityRow (e : GraphEntity) : Except GraphError EntityNode := do
  let safeLabel ← validateSafeGraphLabel 255 e.canonicalName
  let entityType ← validateSafeGraphLabel 80 e.entityType
  return ⟨e.graphEntityId, safeLabel, entityType, safeAliases e.aliasesJson⟩

def loadProjectionRows (documentVersionId : Nat) (db : GraphDb) :
    Except GraphError ProjectionRows := do
  let chunks := chunkRows documentVersionId db.docs
  let mentions := db.mentionsOf documentVersionId
  let relations := db.relations.filter fun r =>
    chunks.any fun c => c.documentChunkId == r.sourceDocumentChunkId
  let entityIds := mentions.map (·.graphEntityId) ++ relations.map (·.sourceEntityId) ++
    relations.map (·.targetEntityId)
  let entities ← (db.entities.filter fun e => entityIds.contains e.graphEntityId).mapM entityRow
  let relations ← relations.mapM fun r => do
    let relationType ← validateSafeGraphLabel 120 r.relationType
    return relationRow chunks relationType r
  return ⟨entities, chunks, mentionRows documentVersionId db, relations⟩

end Load

section Write
/-- An edge is merged by its id between its two nodes. -/
def MentionEdge.key (e : MentionEdge) : Nat × Nat × Nat :=
  (e.graphEntityMentionId, e.graphEntityId, e.documentChunkId)

def RelationEdge.key (e : RelationEdge) : Nat × Nat × Nat :=
  (e.graphRelationId, e.sourceEntityId, e.targetEntityId)

/-- The first three statements. Taking a chunk node away takes its edges with it. -/
def removeProjection (documentVersionId : Nat) (graph : Neo4jGraph) : Neo4jGraph :=
  let gone := (graph.chunks.filter (·.documentVersionId == documentVersionId)).map
    (·.documentChunkId)
  { graph with
    chunks := graph.chunks.filter (·.documentVersionId != documentVersionId)
    mentions := (graph.mentions.filter (·.documentVersionId != documentVersionId)).filter
      fun e => !gone.contains e.documentChunkId
    relations := graph.relations.filter (·.documentVersionId != some documentVersionId) }

/-- _replace_document_version_projection: edges are merged where both nodes are found. -/
def replaceDocumentVersionProjection (documentVersionId : Nat) (rows : ProjectionRows)
    (graph : Neo4jGraph) : Neo4jGraph :=
  let rest := removeProjection documentVersionId graph
  let entities := Table.mergeRows EntityNode.graphEntityId rest.entities rows.entities
  let chunks := Table.mergeRows ChunkNode.documentChunkId rest.chunks rows.chunks
  let isEntity (id : Nat) := entities.any (·.graphEntityId == id)
  let isChunk (id : Nat) := chunks.any (·.documentChunkId == id)
  { entities := entities
    chunks := chunks
    mentions := Table.mergeRows MentionEdge.key rest.mentions
      (rows.mentions.filter fun e => isEntity e.graphEntityId && isChunk e.documentChunkId)
    relations := Table.mergeRows RelationEdge.key rest.relations
      (rows.relations.filter fun e => isEntity e.sourceEntityId && isEntity e.targetEntityId) }

end Write

end RagProject.Graph
