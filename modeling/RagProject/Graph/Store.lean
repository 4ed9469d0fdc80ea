import Mathlib.Data.List.Sort
import RagProject.Documents.Store
import RagProject.Graph.Extraction

/-! The graph tables (db/graph_models.py) beside the documents and the jobs, and GraphRepository
as functions of them. A function that fails leaves its transaction to be rolled back. -/
namespace RagProject.Graph
open Python KeepFirst Jobs Documents

section Rows

structure GraphEntity where
  graphEntityId : Nat
  canonicalName : String
  entityType : String
  aliasesJson : List String
  updatedAt : Time
  deriving DecidableEq, Repr

structure GraphEntityMention where
  graphEntityMentionId : Nat
  graphEntityId : Nat
  documentChunkId : Nat
  documentVersionId : Nat
  mentionTextHash : String
  mentionOffsetStart : Int
  mentionOffsetEnd : Int
  confidence : Rat
  deriving DecidableEq, Repr

structure GraphRelation where
  graphRelationId : Nat
  sourceEntityId : Nat
  targetEntityId : Nat
  relationType : String
  relationLabel : String
  confidence : Rat
  sourceDocumentChunkId : Nat
  evidenceTextHash : String
  deriving DecidableEq, Repr

inductive GraphRunStatus where
  | queued | running | succeeded | failed | cancelled | skipped
  deriving DecidableEq, Repr

def GraphRunStatus.terminal : GraphRunStatus → Bool
  | .succeeded | .failed | .cancelled | .skipped => true
  | _ => false

structure GraphIndexRun where
  graphIndexRunId : Nat
  documentVersionId : Option Nat
  jobId : Option Nat
  status : GraphRunStatus
  entityCount : Nat
  relationCount : Nat
  mentionCount : Nat
  errorCode : Option String
  errorMessage : Option String
  startedAt : Option Time
  finishedAt : Option Time
  updatedAt : Time
  metadataJson : Dict
  deriving DecidableEq, Repr

structure GraphDb where
  docs : Db
  runs : List GraphIndexRun
  entities : List GraphEntity
  mentions : List GraphEntityMention
  relations : List GraphRelation
  nextRunId : Nat
  nextEntityId : Nat
  nextMentionId : Nat
  nextRelationId : Nat
  deriving DecidableEq, Repr

end Rows

section Artifacts
variable (db : GraphDb)

def GraphDb.chunkIds (documentVersionId : Nat) : List Nat :=
  (db.docs.chunksOf documentVersionId).map (·.documentChunkId)

/-- The rows of a version are found in two ways: mentions carry its id, relations a chunk of it. -/
def GraphDb.mentionsOf (documentVersionId : Nat) : List GraphEntityMention :=
  db.mentions.filter (·.documentVersionId == documentVersionId)

def GraphDb.relationsOf (documentVersionId : Nat) : List GraphRelation :=
  db.relations.filter fun r => db.chunkIds documentVersionId |>.contains r.sourceDocumentChunkId

def deleteIndexArtifactsForDocumentVersion (documentVersionId : Nat) : GraphDb :=
  { db with
    relations := db.relations.filter fun r =>
      !(db.chunkIds documentVersionId).contains r.sourceDocumentChunkId
    mentions := db.mentions.filter (·.documentVersionId != documentVersionId) }

def documentVersionHasGraphArtifacts (documentVersionId : Nat) : Bool :=
  !(db.mentionsOf documentVersionId).isEmpty || !(db.relationsOf documentVersionId).isEmpty

end Artifacts

section Entities
variable [GraphText]

/-- (row.canonical_name.strip().lower(), row.entity_type.strip()). -/
def GraphEntity.key (e : GraphEntity) : EntityKey :=
  (lowerText (stripText e.canonicalName), stripText e.entityType)

def normalizedKeys (keys : List EntityKey) : List EntityKey :=
  keys.filterMap fun key =>
    if stripText key.1 = "" ∨ stripText key.2 = "" then none
    else some (lowerText (stripText key.1), stripText key.2)

/-- list_entities_by_keys: a mapping in which the last row of a key counts. It is kept as a list
that is searched from its head. -/
def listEntitiesByKeys (keys : List EntityKey) (entities : List GraphEntity) :
    List (EntityKey × Nat) :=
  let normalized := normalizedKeys keys
  ((entities.filter fun row =>
    (normalized.map Prod.fst).contains (GraphText.dbLower row.canonicalName) &&
      (normalized.map Prod.snd).contains row.entityType &&
      normalized.contains row.key).map fun row => (row.key, row.graphEntityId)).reverse

def validAliases (aliases : List String) : Except GraphError (List String) :=
  if 32 < aliases.length then .error .value
  else do
    let normalized ← aliases.mapM (validateSafeGraphLabel 120)
    return keepFirst lowerText [] normalized

/-- ux_graph_entities_lower_name_type. -/
def entityIndex (e : GraphEntity) : String × String :=
  (GraphText.dbLower e.canonicalName, e.entityType)

def createEntity (canonicalName entityType : String) (aliases : List String) (now : Time)
    (db : GraphDb) : Except GraphError (GraphDb × Nat) := do
  let canonicalName ← labelField 255 canonicalName
  let entityType ← labelField 80 entityType
  let aliasesJson ← validAliases aliases
  let row : GraphEntity := ⟨db.nextEntityId, canonicalName, entityType, aliasesJson, now⟩
  checkThat (!(db.entities.map entityIndex).contains (entityIndex row)) .other
  return ({ db with entities := db.entities ++ [row], nextEntityId := db.nextEntityId + 1 },
    db.nextEntityId)

/-- The loop of merge_entity_aliases: `seen` starts with the canonical name, and the loop ends
with the alias that fills the list. -/
def mergeAliases : List String → List String → List String → Except GraphError (List String)
  | _, merged, [] => .ok merged
  | seen, merged, text :: rest =>
    match validateSafeGraphLabel 120 text with
    | .error error => .error error
    | .ok safe =>
      if lowerText safe ∈ seen then mergeAliases seen merged rest
      else if 32 ≤ merged.length + 1 then .ok (merged ++ [safe])
      else mergeAliases (lowerText safe :: seen) (merged ++ [safe]) rest

def mergeEntityAliases (entityId : Nat) (aliases : List String) (now : Time) (db : GraphDb) :
    Except GraphError GraphDb :=
  if aliases.isEmpty then .ok db
  else match Table.row GraphEntity.graphEntityId db.entities entityId with
    | none => .error .other
    | some entity => do
      let existing ← entity.aliasesJson.mapM (validateSafeGraphLabel 120)
      let merged ← mergeAliases [lowerText (stripText entity.canonicalName)] []
        (existing ++ aliases)
      if merged = existing then return db
      else return { db with entities := db.entities.map fun e =>
        if e.graphEntityId = entityId then { e with aliasesJson := merged, updatedAt := now } else e }

end Entities

section Writes

def mentionIndex (m : GraphEntityMention) : Nat × Nat × String × Int × Int :=
  (m.graphEntityId, m.documentChunkId, m.mentionTextHash, m.mentionOffsetStart, m.mentionOffsetEnd)

def relationIndex (r : GraphRelation) : Nat × Nat × String × Nat :=
  (r.sourceEntityId, r.targetEntityId, r.relationType, r.sourceDocumentChunkId)

/-- create_entity_mentions_for_version: the rows still without ids. -/
def createEntityMentionsForVersion (documentVersionId : Nat) (items : List GraphEntityMention)
    (db : GraphDb) : Except GraphError GraphDb :=
  if items.isEmpty then .ok db
  else do
    checkThat (items.all (·.documentVersionId == documentVersionId)) .value
    checkThat (items.all fun m => (db.chunkIds documentVersionId).contains m.documentChunkId) .value
    let rows := (items.zipIdx db.nextMentionId).map fun entry =>
      { entry.1 with graphEntityMentionId := entry.2 }
    checkThat (decide ((db.mentions ++ rows).map mentionIndex).Nodup) .other
    return { db with
      mentions := db.mentions ++ rows, nextMentionId := db.nextMentionId + items.length }

def createRelations (items : List GraphRelation) (db : GraphDb) : Except GraphError GraphDb :=
  let rows := (items.zipIdx db.nextRelationId).map fun entry =>
    { entry.1 with graphRelationId := entry.2 }
  if ((db.relations ++ rows).map relationIndex).Nodup then
    .ok { db with
      relations := db.relations ++ rows, nextRelationId := db.nextRelationId + items.length }
  else .error .other

end Writes

section Runs
variable (db : GraphDb)

def getGraphIndexRun (runId : Nat) : Option GraphIndexRun :=
  Table.row GraphIndexRun.graphIndexRunId db.runs runId

def setGraphRun (runId : Nat) (values : GraphIndexRun → GraphIndexRun) : GraphDb :=
  { db with runs := db.runs.map fun r => if r.graphIndexRunId = runId then values r else r }

def createGraphIndexRun (documentVersionId : Nat) (jobId : Option Nat) (now : Time) :
    GraphDb × GraphIndexRun :=
  let run : GraphIndexRun :=
    { graphIndexRunId := db.nextRunId, documentVersionId := some documentVersionId, jobId := jobId
      status := .queued, entityCount := 0, relationCount := 0, mentionCount := 0
      errorCode := none, errorMessage := none, startedAt := none, finishedAt := none
      updatedAt := now, metadataJson := [] }
  ({ db with runs := db.runs ++ [run], nextRunId := db.nextRunId + 1 }, run)

def terminalTime (run : GraphIndexRun) (finishedAt : Time) : Time :=
  match run.startedAt with
  | some startedAt => if finishedAt < startedAt then startedAt else finishedAt
  | none => finishedAt

def graphRunRunning (now : Time) (run : GraphIndexRun) : GraphIndexRun :=
  { run with
    status := .running, startedAt := some now, finishedAt := none, errorCode := none
    errorMessage := none, updatedAt := now }

def graphRunSucceeded (entityCount relationCount mentionCount : Nat) (now : Time)
    (run : GraphIndexRun) : GraphIndexRun :=
  { run with
    status := .succeeded, entityCount := entityCount, relationCount := relationCount
    mentionCount := mentionCount, errorCode := none, errorMessage := none
    finishedAt := some (terminalTime run now), updatedAt := now }

def graphRunFailed (errorCode errorMessage : String) (now : Time) (run : GraphIndexRun) :
    GraphIndexRun :=
  { run with
    status := .failed, errorCode := some errorCode, errorMessage := some errorMessage
    finishedAt := some (terminalTime run now), updatedAt := now }

end Runs

end RagProject.Graph
