import RagProject.Documents.Store
import RagProject.Lib.Program
import RagProject.Qdrant.Points

/-! The consistency sweep (workers/handlers/qdrant_consistency_sweep_handler.py): it scrolls
the collection page by page and deletes or deactivates the points that the database does not
back. -/
namespace RagProject.Qdrant
open Python Documents Jobs Program

section Scroll

def PointId.json : PointId → Value
  | .num n => .int (.ofNat n)
  | .uuid text => .str text

def PointId.ofJson : Value → Option PointId
  | .int (.ofNat n) => some (.num n)
  | .str text => some (.uuid text)
  | _ => none

def Point.json (p : Point) : Value :=
  .dict [("id", p.pointId.json), ("payload", .dict p.payload)]

/-- The answer of the scroll endpoint: the points from the offset on, by id, and the id that
the next page starts with. -/
def scrollResponse (limit : Nat) (offset : Option Value) (points : Collection) : Value :=
  let rest := Table.ahead Point.pointId PointId.before (offset.bind PointId.ofJson) points
  let next := (Table.nextKey Point.pointId limit rest).map PointId.json
  .dict [("result", .dict [("points", .list ((rest.take limit).map Point.json)),
    ("next_page_offset", next.getD .none)])]

inductive SweepError where
  | leaseLost
  | store (errorCode : String)
  | other
  deriving DecidableEq, Repr

structure ScrolledPoint where
  pointId : Nat
  payload : Dict
  deriving DecidableEq, Repr

structure ScrollResult where
  points : List ScrolledPoint
  nextOffset : Option Value
  deriving DecidableEq, Repr

/-- One entry of a page. Ids of the store are never negative, so an integer id is a Nat. -/
def scrolledPoint : Value → Option ScrolledPoint
  | .dict raw =>
    match Dict.get raw "id" with
    | some (.int (.ofNat n)) =>
      match Dict.get raw "payload" with
      | some (.dict payload) => some ⟨n, payload⟩
      | _ => some ⟨n, []⟩
    | _ => none
  | _ => none

def nextOffset (result : Dict) : Option Value :=
  match Dict.get result "next_page_offset" with
  | some (.int n) => some (.int n)
  | some (.str text) => some (.str text)
  | _ => none

def extractScrollResult : Value → Except SweepError ScrollResult
  | .dict payload =>
    match Dict.get payload "result" with
    | some (.dict result) =>
      match Dict.get result "points" with
      | some (.list rawPoints) => .ok ⟨rawPoints.filterMap scrolledPoint, nextOffset result⟩
      | _ => .error (.store "qdrant_unavailable")
    | _ => .error (.store "qdrant_unavailable")
  | _ => .error (.store "qdrant_unavailable")

end Scroll

section Reads

structure ChunkIndexPayloadRef where
  documentVersionId : Nat
  logicalDocumentId : Nat
  modality : String
  deriving DecidableEq, Repr

structure VersionIndexState where
  versionStatus : VersionStatus
  isActive : Bool
  documentStatus : DocumentStatus
  deriving DecidableEq, Repr

variable (db : Db)

/-- chunk_index_payload_refs: the chunks among the ids, joined with their versions. -/
def chunkIndexPayloadRefs (documentChunkIds : List Nat) : List (Nat × ChunkIndexPayloadRef) :=
  Table.join (·.documentChunkId) (fun c => db.getVersionById c.documentVersionId)
    (fun c v => ⟨c.documentVersionId, v.logicalDocumentId, c.modality⟩) documentChunkIds db.chunks

/-- version_index_states: the versions among the ids, joined with their documents. -/
def versionIndexStates (documentVersionIds : List Nat) : List (Nat × VersionIndexState) :=
  Table.join (·.documentVersionId) (fun v => db.getDocument v.logicalDocumentId)
    (fun v d => ⟨v.status, v.isActive, d.status⟩) documentVersionIds db.versions

end Reads

section Verdicts

def payloadPositiveInt (payload : Dict) (key : String) : Option Nat :=
  (Dict.get payload key).bind Value.positiveInt

def pointIdForChunkId (documentChunkId : Nat) : Nat := documentChunkId

def pointIdForChunkIdOrNone (pointId : Nat) : Option Nat :=
  if pointId < 1 then none else some pointId

def effectiveChunkId (point : ScrolledPoint) : Option Nat :=
  match payloadPositiveInt point.payload "document_chunk_id" with
  | some chunkId => some chunkId
  | none => pointIdForChunkIdOrNone point.pointId

def payloadDisagreesWithChunkRef (payload : Dict) (payloadVersionId : Nat)
    (ref : ChunkIndexPayloadRef) : Bool :=
  payloadVersionId != ref.documentVersionId ||
    payloadPositiveInt payload "logical_document_id" != some ref.logicalDocumentId ||
    Dict.get payload "modality" != some (.str ref.modality)

def pointIsActive (payload : Dict) : Bool :=
  match Dict.get payload "is_active" with
  | some value => value.truthy
  | none => false

/-- What the batch does with a point: nothing, a deletion, a repair, or a count of it as stale
because it is inactive already. -/
inductive Verdict where
  | keep | delete | repair | inactiveStale
  deriving DecidableEq, Repr

def repairOrCountInactiveStale (point : ScrolledPoint) : Verdict :=
  if pointIsActive point.payload then .repair else .inactiveStale

def handleMalformedPoint (chunkRefs : List (Nat × ChunkIndexPayloadRef))
    (point : ScrolledPoint) : Verdict :=
  match pointIdForChunkIdOrNone point.pointId with
  | none => .delete
  | some derivedChunkId =>
    match chunkRefs.lookup derivedChunkId with
    | none => .delete
    | some _ => repairOrCountInactiveStale point

def verdict (chunkRefs : List (Nat × ChunkIndexPayloadRef))
    (versionStates : List (Nat × VersionIndexState)) (point : ScrolledPoint) : Verdict :=
  match payloadPositiveInt point.payload "document_chunk_id",
      payloadPositiveInt point.payload "document_version_id" with
  | some chunkId, some versionId =>
    if point.pointId ≠ pointIdForChunkId chunkId then .delete
    else match chunkRefs.lookup chunkId with
      | none => .delete
      | some chunkRef =>
        if payloadDisagreesWithChunkRef point.payload versionId chunkRef then
          repairOrCountInactiveStale point
        else match versionStates.lookup chunkRef.documentVersionId with
          | none => .delete
          | some state =>
            let shouldBeInactive := state.documentStatus == .archived ||
              state.versionStatus == .archived || !state.isActive
            if shouldBeInactive && pointIsActive point.payload then .repair else .keep
  | _, _ => handleMalformedPoint chunkRefs point

end Verdicts

section Handler

structure SweepCounts where
  scanned : Nat := 0
  staleFound : Nat := 0
  repaired : Nat := 0
  skipped : Nat := 0
  deriving DecidableEq, Repr

structure JobExecutionContext where
  jobId : Nat
  jobType : String
  payload : Dict
  workerInstanceId : String
  deriving DecidableEq, Repr

/-- The collection, and how many calls on the two stores the handler has made. -/
structure World where
  points : Collection
  calls : Nat
  deriving DecidableEq, Repr

/-- The database, and which calls on the stores raise. -/
structure SweepEnv where
  db : Db
  raises : Nat → Bool

abbrev Sweep := Prog SweepError World

variable (env : SweepEnv)

def call (error : SweepError) : Sweep Unit := do
  let w ← get
  set { w with calls := w.calls + 1 }
  if env.raises w.calls then throw error else pure ()

def scrollPoints (limit : Nat) (offset : Option Value) : Sweep ScrollResult :=
  if limit < 1 then throw (.store "qdrant_unavailable") else do
  call env (.store "qdrant_unavailable")
  let w ← get
  match extractScrollResult (scrollResponse limit offset w.points) with
  | .ok result => pure result
  | .error error => throw error

def deletePointsByIds (pointIds : List Nat) : Sweep Unit :=
  if pointIds.isEmpty then pure () else do
  call env (.store "qdrant_cleanup_failed")
  let w ← get
  set { w with points := deletePoints pointIds w.points }

def markPointsInactive (pointIds : List Nat) : Sweep Unit :=
  if pointIds.isEmpty then pure () else do
  call env (.store "qdrant_upsert_failed")
  let w ← get
  set { w with points := setPayloadByPointIds pointIds [("is_active", .bool false)] w.points }

/-- The lease is verified again before a batch touches the collection. -/
def verifyLease (context : JobExecutionContext) (touched : List Nat) : Sweep Unit :=
  if touched.isEmpty then pure () else do
  call env .other
  match assertOwnership context.jobId context.workerInstanceId env.db.jobs with
  | .ok () => pure ()
  | .error _ => throw .leaseLost

/-- The two reads of a batch, in one session. -/
def readState (db : Db) (points : List ScrolledPoint) :
    List (Nat × ChunkIndexPayloadRef) × List (Nat × VersionIndexState) :=
  let chunkRefs := chunkIndexPayloadRefs db (points.filterMap effectiveChunkId)
  let versionIds := points.filterMap fun p => payloadPositiveInt p.payload "document_version_id"
  (chunkRefs, versionIndexStates db
    (versionIds ++ chunkRefs.map fun entry => entry.2.documentVersionId))

/-- The body of the second loop of _process_batch, over what the batch has read. -/
def judge (db : Db) (points : List ScrolledPoint) : ScrolledPoint → Verdict :=
  verdict (readState db points).1 (readState db points).2

def withVerdict (judge : ScrolledPoint → Verdict) (wanted : Verdict)
    (points : List ScrolledPoint) : List Nat :=
  (points.filter fun p => judge p == wanted).map (·.pointId)

def processBatch (context : JobExecutionContext) (points : List ScrolledPoint)
    (counts : SweepCounts) : Sweep SweepCounts := do
  call env .other
  let judged := judge env.db points
  let deleteIds := withVerdict judged .delete points
  let repairIds := withVerdict judged .repair points
  let inactive := (withVerdict judged .inactiveStale points).length
  verifyLease env context (deleteIds ++ repairIds)
  deletePointsByIds env deleteIds
  markPointsInactive env repairIds
  return { counts with
    scanned := counts.scanned + points.length
    staleFound := counts.staleFound + inactive + deleteIds.length + repairIds.length
    repaired := counts.repaired + deleteIds.length + repairIds.length }

/-- The loop of handle; none when the fuel does not suffice. -/
def scan (context : JobExecutionContext) (batchSize maxPoints : Nat) :
    Nat → Option Value → SweepCounts → Sweep (Option SweepCounts)
  | 0, _, counts => pure (if counts.scanned < maxPoints then none else some counts)
  | fuel + 1, offset, counts =>
    if counts.scanned < maxPoints then do
      let result ← scrollPoints env (min batchSize (maxPoints - counts.scanned)) offset
      if result.points.isEmpty then pure (some counts) else do
      let counts ← processBatch env context result.points counts
      match result.nextOffset with
      | none => pure (some counts)
      | some next => scan context batchSize maxPoints fuel (some next) counts
    else pure (some counts)

def safeMessage : String → String
  | "validation_error" => "Job payload is invalid."
  | "qdrant_unavailable" => "Qdrant is unavailable."
  | "qdrant_upsert_failed" => "Qdrant payload sync failed."
  | "qdrant_cleanup_failed" => "Qdrant cleanup failed."
  | _ => "Qdrant consistency sweep failed."

inductive SweepOutcome where
  | succeeded (resultJson : Dict)
  | failed (errorCode errorMessage : String)
  | leaseLost
  deriving DecidableEq, Repr

section
variable [UnicodeTables]

def failed (errorCode : String) : SweepOutcome :=
  .failed errorCode (redactErrorMessage (some (safeMessage errorCode)))

def SweepCounts.resultJson (counts : SweepCounts) : Dict :=
  [("scanned_count", .int counts.scanned), ("stale_found_count", .int counts.staleFound),
   ("repaired_count", .int counts.repaired), ("skipped_count", .int counts.skipped)]

def validatePayload (context : JobExecutionContext) : Option (Nat × Nat) :=
  if context.jobType ≠ "qdrant_consistency_sweep" then none else sweepBounds context.payload

/-- handle; every page scans one point at least, so the fuel suffices. -/
def handle (context : JobExecutionContext) (w : World) : Option SweepOutcome × World :=
  match validatePayload context with
  | none => (some (failed "validation_error"), w)
  | some (batchSize, maxPoints) =>
    match (scan env context batchSize maxPoints maxPoints none {}).exec w with
    | (.ok counts, w) => (counts.map fun c => .succeeded c.resultJson, w)
    | (.error .leaseLost, w) => (some .leaseLost, w)
    | (.error (.store errorCode), w) => (some (failed errorCode), w)
    | (.error .other, w) => (some (failed "internal_error"), w)

end

end Handler

end RagProject.Qdrant
