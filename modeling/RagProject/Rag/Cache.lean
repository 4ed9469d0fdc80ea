import Mathlib.Algebra.Order.Ring.Unbundled.Rat
import RagProject.Ingest.Transactions
import RagProject.Qdrant.Mirror

/-! The dense search path behind the retrieval cache (rag/retrieval_cache.py): a search builds
its key from the corpus marker, looks it up, and otherwise retrieves and stores. Each step of a
search reads one store once, so the transactions and the payload writes fall between them. -/
namespace RagProject.Rag
open Python Jobs Documents Qdrant Ingest

section Retrieval

/-- What a cache key is made of besides the corpus: the digests stand for what they digest. -/
structure RetrievalCacheContext where
  cacheNamespace : String
  settings : Dict
  query : String
  topK : Nat
  rerankTopN : Nat
  modality : String
  deriving DecidableEq, Repr

structure RetrievalCacheKey where
  context : RetrievalCacheContext
  activeDocumentFingerprint : Option Time
  deriving DecidableEq, Repr

structure VectorSearchCandidate where
  documentChunkId : Option Nat
  retrievalScore : Rat
  deriving DecidableEq, Repr

structure CheckedRetrievalCandidate where
  chunk : DocumentChunk
  retrievalScore : Rat
  rankOrder : Nat
  deriving DecidableEq, Repr

structure RerankCandidate where
  documentChunkId : Nat
  text : String
  retrievalScore : Rat
  deriving DecidableEq, Repr

structure RerankResult where
  documentChunkId : Nat
  rerankScore : Rat
  rerankOrder : Nat
  deriving DecidableEq, Repr

structure CachedRetrievalItem where
  documentChunkId : Nat
  retrievalScore : Rat
  rerankScore : Rat
  rankOrder : Nat
  rerankOrder : Nat
  selectedFlag : Bool
  deriving DecidableEq, Repr

/-- The two services, both deterministic: the ranking of the points that pass the filter, and
the reranker, which may raise. -/
structure SearchServices where
  nearest : (settings : Dict) → (query : String) → (limit : Nat) → List PointId →
    List (PointId × Rat)
  rerank : (settings : Dict) → (query : String) → List RerankCandidate → Option (List RerankResult)

/-- _payload_matches_filters, without a restriction to documents. -/
def payloadMatchesFilters (modality : String) (payload : Dict) : Bool :=
  Dict.get payload "is_active" == some (.bool true) &&
    Dict.get payload "document_version_status" == some (.str "ready") &&
    Dict.get payload "logical_document_status" == some (.str "active") &&
    Dict.get payload "modality" == some (.str modality)

def candidateDocumentChunkId (p : Point) : Option Nat :=
  match (Dict.get p.payload "document_chunk_id").bind Value.positiveInt, p.pointId with
  | some chunkId, _ => some chunkId
  | none, .num n => if 0 < n then some n else none
  | none, .uuid _ => none

/-- The points that pass the filter, each with the chunk that it stands for. -/
def passing (modality : String) (points : Collection) : List (PointId × Option Nat) :=
  (points.filter fun p => payloadMatchesFilters modality p.payload).map fun p =>
    (p.pointId, candidateDocumentChunkId p)

/-- search of the vector client, over the points that pass. -/
def vectorSearch (services : SearchServices) (context : RetrievalCacheContext)
    (points : List (PointId × Option Nat)) : Option (List VectorSearchCandidate) :=
  if context.topK < 1 then none
  else some ((services.nearest context.settings context.query context.topK
    (points.map Prod.fst)).filterMap fun hit =>
      (points.lookup hit.1).map fun chunkId => ⟨chunkId, hit.2⟩)

/-- The row that the join of chunk, version and document returns for a chunk id. -/
def visibleRow (modality : String) (db : Db) (documentChunkId : Nat) : Option DocumentChunk :=
  db.chunks.find? fun c => c.documentChunkId == documentChunkId && c.modality == modality &&
    versionIsRetrievalVisible c.documentVersionId db

/-- The candidates with a chunk id, the first one for each. -/
def orderedCandidates (candidates : List VectorSearchCandidate) : List (Nat × Rat) :=
  candidates.foldl (fun ordered candidate =>
    match candidate.documentChunkId with
    | none => ordered
    | some id => if ordered.any (·.1 == id) then ordered
        else ordered ++ [(id, candidate.retrievalScore)]) []

def finalCheckCandidates (modality : String) (candidates : List VectorSearchCandidate) (db : Db) :
    List CheckedRetrievalCandidate :=
  let rows := (orderedCandidates candidates).filterMap fun entry =>
    (visibleRow modality db entry.1).map fun chunk => (chunk, entry.2)
  (rows.zipIdx 1).map fun row => ⟨row.1.1, row.1.2, row.2⟩

/-- The test of _validated_rerank_results: one result for each candidate, the orders a
permutation. -/
def rerankResultsValid (expected : List Nat) (results : List RerankResult) : Bool :=
  results.length == expected.length &&
    results.all (fun r => expected.contains r.documentChunkId) &&
    decide (results.map (·.documentChunkId)).Nodup &&
    (results.map (·.rerankOrder)).insertionSort (fun a b => a ≤ b) ==
      List.range' 1 expected.length

def validatedRerankResults (results : List RerankResult)
    (checked : List CheckedRetrievalCandidate) : Option (List (Nat × RerankResult)) :=
  if rerankResultsValid (checked.map (·.chunk.documentChunkId)).dedup results then
    some (results.map fun r => (r.documentChunkId,
      { r with rerankScore := min 1 (max 0 r.rerankScore) }))
  else none

/-- _retrieve_and_rerank after the final check. -/
def rerankCandidates (services : SearchServices) (context : RetrievalCacheContext)
    (checked : List CheckedRetrievalCandidate) : Option (List CachedRetrievalItem) :=
  if checked.isEmpty then some []
  else do
    let results ← services.rerank context.settings context.query (checked.map fun c =>
      ⟨c.chunk.documentChunkId, c.chunk.contentText, c.retrievalScore⟩)
    let rerankByChunkId ← validatedRerankResults results checked
    let paired := checked.filterMap fun c =>
      (rerankByChunkId.lookup c.chunk.documentChunkId).map fun r => (c, r)
    let ordered := paired.insertionSort fun a b => a.2.rerankOrder ≤ b.2.rerankOrder
    return (ordered.zipIdx 1).map fun row =>
      { documentChunkId := row.1.1.chunk.documentChunkId
        retrievalScore := row.1.1.retrievalScore
        rerankScore := row.1.2.rerankScore
        rankOrder := row.1.1.rankOrder
        rerankOrder := row.1.2.rerankOrder
        selectedFlag := row.2 ≤ min context.rerankTopN ordered.length }

/-- What a retrieval returns when the given points pass the filter; none when it raises. -/
def outcome (services : SearchServices) (context : RetrievalCacheContext)
    (points : List (PointId × Option Nat)) (db : Db) : Option (List CachedRetrievalItem) := do
  let candidates ← vectorSearch services context points
  rerankCandidates services context (finalCheckCandidates context.modality candidates db)

/-- The retrieval with nothing between its steps. -/
def retrieve (services : SearchServices) (context : RetrievalCacheContext) (db : Db)
    (points : Collection) : Option (List CachedRetrievalItem) :=
  outcome services context (passing context.modality points) db

/-- _hydrate_cached_retrieval_result: every cached chunk must still be visible. -/
def hydrate (modality : String) (items : List CachedRetrievalItem) (db : Db) :
    Option (List CachedRetrievalItem) :=
  let orderedIds := items.map (·.documentChunkId)
  let found := orderedIds.dedup.filter fun id => (visibleRow modality db id).isSome
  if found.length ≠ orderedIds.dedup.length then none else some items

end Retrieval

section Searches

/-- A stored result. `seen` is not a column: it recalls which points passed the filter when the
result was searched for. -/
structure CacheEntry where
  key : RetrievalCacheKey
  items : List CachedRetrievalItem
  expiresAt : Time
  seen : List (PointId × Option Nat)
  deriving DecidableEq, Repr

/-- Where a search stands between two of its steps. -/
inductive SearchPhase where
  | keyed
  | found (entry : CacheEntry)
  | missed
  | searched (seen : List (PointId × Option Nat)) (candidates : List VectorSearchCandidate)
  | checked (seen : List (PointId × Option Nat)) (candidates : List CheckedRetrievalCandidate)
  | retrieved (seen : List (PointId × Option Nat)) (items : List CachedRetrievalItem)
  deriving DecidableEq, Repr

structure Search where
  key : RetrievalCacheKey
  phase : SearchPhase
  deriving DecidableEq, Repr

/-- Postgres and the payloads with the workers that mirror one into the other, the cache, and
the searches in flight. -/
structure CacheSystem where
  mirror : MirrorSystem
  entries : List CacheEntry
  searches : Nat → Option Search

inductive CacheAction where
  | mirror (action : MirrorAction)
  | finalize (jobId : Nat) (worker : String) (documentVersionId expectedChunkCount : Nat)
      (readyAt activatedAt now : Time)
  | sweepDelete (pointIds : List Nat)
  | sweepRepair (pointIds : List Nat)
  | buildKey (search : Nat) (context : RetrievalCacheContext)
  | lookup (search : Nat) (now : Time)
  | lookupFailed (search : Nat)
  | hydrate (search : Nat)
  | hydrateFailed (search : Nat)
  | vectorSearch (search : Nat)
  | finalCheck (search : Nat)
  | rerank (search : Nat)
  | store (search : Nat) (ttlSeconds : Nat) (now : Time)
  | raise (search : Nat)

/-- The clock readings that may become the corpus marker. -/
def CacheAction.clocks : CacheAction → List Time
  | .mirror (.approve request _ _) | .mirror (.archive request _) => [request.now]
  | .finalize _ _ _ _ readyAt activatedAt _ => [readyAt, activatedAt]
  | _ => []

/-- lookup of the store: an expired row is stale. -/
def lookupEntry (key : RetrievalCacheKey) (now : Time) (entries : List CacheEntry) :
    Option CacheEntry :=
  (entries.find? (·.key == key)).filter fun entry => now < entry.expiresAt

/-- store: the expired rows of the namespace go, and the row of the key is replaced. -/
def storeEntry (entry : CacheEntry) (now : Time) (entries : List CacheEntry) : List CacheEntry :=
  let kept := entries.filter fun e =>
    !(e.key.context.cacheNamespace == entry.key.context.cacheNamespace && e.expiresAt ≤ now)
  kept.filter (·.key != entry.key) ++ [entry]

namespace CacheSystem
variable (s : CacheSystem)

def db : Db := s.mirror.db

def setPhase (search : Nat) (key : RetrievalCacheKey) (phase : SearchPhase) : CacheSystem :=
  { s with searches := fun n => if n = search then some ⟨key, phase⟩ else s.searches n }

def endSearch (search : Nat) : CacheSystem :=
  { s with searches := fun n => if n = search then none else s.searches n }

def setDb (db : Db) : CacheSystem := { s with mirror := { s.mirror with db := db } }

def setPoints (points : Collection) : CacheSystem :=
  { s with mirror := { s.mirror with points := points } }

/-- What the search returns from the cache in its next step: a hit, unless it hydrates to
nothing. -/
def hit (search : Nat) : Option (RetrievalCacheKey × List CachedRetrievalItem) :=
  match s.searches search with
  | some ⟨key, .found entry⟩ =>
    (hydrate key.context.modality entry.items s.db).map fun items => (key, items)
  | _ => none

/-- One step of a search in a phase; none when the step belongs to another phase. -/
def advance (services : SearchServices) (search : Nat) (key : RetrievalCacheKey) :
    SearchPhase → CacheAction → Option CacheSystem
  | .keyed, .lookup _ now =>
    match lookupEntry key now s.entries with
    | some entry => some (s.setPhase search key (.found entry))
    | none => some (s.setPhase search key .missed)
  | .keyed, .lookupFailed _ => some (s.setPhase search key .missed)
  | .found entry, .hydrate _ =>
    match Rag.hydrate key.context.modality entry.items s.db with
    | some _ => some (s.endSearch search)
    | none => some (s.setPhase search key .missed)
  | .found _, .hydrateFailed _ => some (s.setPhase search key .missed)
  | .missed, .vectorSearch _ =>
    let seen := passing key.context.modality s.mirror.points
    match Rag.vectorSearch services key.context seen with
    | some candidates => some (s.setPhase search key (.searched seen candidates))
    | none => some (s.endSearch search)
  | .searched seen candidates, .finalCheck _ =>
    some (s.setPhase search key (.checked seen
      (finalCheckCandidates key.context.modality candidates s.db)))
  | .checked seen candidates, .rerank _ =>
    match rerankCandidates services key.context candidates with
    | some items => some (s.setPhase search key (.retrieved seen items))
    | none => some (s.endSearch search)
  | .retrieved seen items, .store _ ttlSeconds now =>
    some { s.endSearch search with
      entries := storeEntry ⟨key, items, now + ttlSeconds, seen⟩ now s.entries }
  | _, .raise _ => some (s.endSearch search)
  | _, _ => none

def advanceSearch (services : SearchServices) (search : Nat) (action : CacheAction) :
    Option CacheSystem :=
  match s.searches search with
  | some ⟨key, phase⟩ => s.advance services search key phase action
  | none => none

variable [UnicodeTables]

def step (services : SearchServices) (s : CacheSystem) (action : CacheAction) :
    Option CacheSystem :=
  match action with
  | .mirror action => (s.mirror.step action).map fun mirror => { s with mirror := mirror }
  | .finalize jobId worker documentVersionId expectedChunkCount readyAt activatedAt now =>
    match getJob s.db.jobs jobId with
    | none => none
    | some job =>
      match finalizeVersion (contextFromJob job worker) documentVersionId expectedChunkCount readyAt
        activatedAt now s.db with
      | .ok db => some (s.setDb db)
      | .error _ => some s
  | .sweepDelete pointIds => some (s.setPoints (deletePoints pointIds s.mirror.points))
  | .sweepRepair pointIds => some (s.setPoints
      (setPayloadByPointIds pointIds [("is_active", .bool false)] s.mirror.points))
  | .buildKey search context =>
    match s.searches search with
    | none => some (s.setPhase search ⟨context, s.db.corpusMarker⟩ .keyed)
    | some _ => none
  | .lookup search _ | .lookupFailed search | .hydrate search | .hydrateFailed search
  | .vectorSearch search | .finalCheck search | .rerank search | .store search _ _
  | .raise search => s.advanceSearch services search action

end CacheSystem

/-- The condition on a hit: the corpus marker is the one in the key of the search, and the same
points pass the filter as in the vector search that the entry was stored from. -/
def Current (s : CacheSystem) (search : Nat) : Prop :=
  ∀ key entry, s.searches search = some ⟨key, .found entry⟩ →
    key.activeDocumentFingerprint = s.db.corpusMarker ∧
      entry.seen = passing key.context.modality s.mirror.points

end Searches

end RagProject.Rag
