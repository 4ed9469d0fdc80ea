import Mathlib.Data.List.Sort
import RagProject.Documents.Store
import RagProject.Lib.Batches

/-! The vectors of a version: the texts of its chunks go to the embedding server in batches
(ingest/embedding.py), and the points with their vectors to Qdrant in other batches
(ingest/qdrant.py). -/
namespace RagProject.Ingest
open Python Documents Batches

/-- EmbeddingAdapterError and QdrantStoreError with their codes, and any other exception. -/
inductive IndexingError where
  | embedding (errorCode : String)
  | qdrant (errorCode : String)
  | other
  deriving DecidableEq, Repr

/-- What the conversion of JSON values to floats gives. -/
structure Floats (F : Type) where
  ofValue : Value → Option F
  isFinite : F → Bool

/-- What httpx.post returns: a status with the JSON of the body, if it is any. -/
inductive EmbeddingResponse where
  | failed
  | answered (statusCode : Nat) (body : Option Value)
  deriving DecidableEq

/-- The answer to each of the requests, by its number and its texts. -/
abbrev EmbeddingServer := Nat → List String → EmbeddingResponse

structure EmbeddingBatchConfig where
  dimension : Nat
  batchSize : Nat
  dimensionPositive : 1 ≤ dimension
  batchPositive : 1 ≤ batchSize
  deriving Repr

section Adapter

def itemField (item : Value) (key : String) : Option Value :=
  match item with
  | .dict entries => Dict.get entries key
  | _ => none

/-- _embedding_index. True and False are integers. -/
def embeddingIndex (item : Value) : Option Int :=
  match itemField item "index" with
  | some (.int n) => some n
  | some (.bool b) => some (if b then 1 else 0)
  | _ => none

def indexOrder (a b : Value) : Prop := (embeddingIndex a).getD 0 ≤ (embeddingIndex b).getD 0

instance : DecidableRel indexOrder := fun _ _ => inferInstanceAs (Decidable (_ ≤ _))

/-- The items in the order of their indexes, if all of them have one. -/
def orderedItems (data : List Value) : List Value :=
  if data.all fun item => (embeddingIndex item).isSome then data.insertionSort indexOrder
  else data

/-- The list under "data" in the JSON of the response. -/
def responseItems (response : EmbeddingResponse) (expectedCount : Nat) :
    Except IndexingError (List Value) :=
  match response with
  | .failed => .error (.embedding "embedding_failed")
  | .answered statusCode body =>
    if 400 ≤ statusCode then .error (.embedding "embedding_failed")
    else
      match body with
      | some (.dict payload) =>
        match Dict.get payload "data" with
        | some (.list data) =>
          if data.length = expectedCount then .ok data
          else .error (.embedding "embedding_empty_result")
        | _ => .error (.embedding "embedding_empty_result")
      | _ => .error (.embedding "embedding_failed")

variable {F : Type} (floats : Floats F)

def itemVector (item : Value) : Except IndexingError (List F) :=
  match itemField item "embedding" with
  | some (.list values) =>
    match values.mapM floats.ofValue with
    | some vector => .ok vector
    | none => .error (.embedding "embedding_failed")
  | _ => .error (.embedding "embedding_failed")

/-- _extract_lmstudio_embeddings. -/
def extractLmstudioEmbeddings (response : EmbeddingResponse) (expectedCount : Nat) :
    Except IndexingError (List (List F)) := do
  let data ← responseItems response expectedCount
  (orderedItems data).mapM (itemVector floats)

def validateTexts (texts : List String) : Except IndexingError Unit :=
  if texts.all fun text => !(strip text.toList).isEmpty then .ok ()
  else .error (.embedding "embedding_empty_result")

def validateVector (dimension : Nat) (vector : List F) : Except IndexingError Unit :=
  if vector.length ≠ dimension then .error (.embedding "embedding_dimension_mismatch")
  else if vector.all floats.isFinite then .ok ()
  else .error (.embedding "embedding_failed")

def validateVectors (vectors : List (List F)) (expectedCount dimension : Nat) :
    Except IndexingError Unit :=
  if vectors.length ≠ expectedCount then .error (.embedding "embedding_empty_result")
  else vectors.forM (validateVector floats dimension)

/-- LMStudioEmbeddingAdapter.embed_texts. -/
def embedTexts (server : EmbeddingServer) (dimension : Nat) (request : Nat) (texts : List String) :
    Except IndexingError (List (List F)) := do
  validateTexts texts
  let vectors ← extractLmstudioEmbeddings floats (server request texts) texts.length
  validateVectors floats vectors texts.length dimension
  .ok vectors

/-- One turn of the loop over the batches. -/
def embedBatch (server : EmbeddingServer) (dimension : Nat) (batch : List String × Nat) :
    Except IndexingError (List (List F)) := do
  let vectors ← embedTexts floats server dimension batch.2 batch.1
  validateVectors floats vectors batch.1.length dimension
  .ok vectors

/-- DocumentEmbeddingService.embed_chunks. -/
def embedChunks (server : EmbeddingServer) (config : EmbeddingBatchConfig)
    (chunks : List DocumentChunk) : Except IndexingError (List (List F)) :=
  if chunks.isEmpty then .error (.embedding "embedding_empty_result")
  else do
    let texts := chunks.map (·.contentText)
    validateTexts texts
    let batched ← (batches config.batchSize texts).zipIdx.mapM
      (embedBatch floats server config.dimension)
    let vectors := batched.flatten
    validateVectors floats vectors texts.length config.dimension
    if vectors.isEmpty then .error (.embedding "embedding_empty_result") else .ok vectors

end Adapter

section Store

structure QdrantPoint (F : Type) where
  pointId : Nat
  vector : List F
  payload : Dict

/-- What a call of the client raises: a QdrantStoreError with its code, or something else. -/
inductive ClientError where
  | store (errorCode : String)
  | other
  deriving DecidableEq, Repr

/-- The answers of the client: to the two reads of the vector size, to the creation of the
collection, and to each of the upserts. -/
structure QdrantClient where
  vectorSize : Nat → Except ClientError (Option Nat)
  createCollection : Except ClientError Unit
  upsertPoints : Nat → Except ClientError Unit

structure QdrantConfig where
  vectorDimension : Nat
  createCollection : Bool
  deriving DecidableEq, Repr

def raised : ClientError → IndexingError
  | .store errorCode => .qdrant errorCode
  | .other => .other

/-- The vector size, of a new collection if there was none. -/
def createdSize (client : QdrantClient) (config : QdrantConfig) (found : Option Nat) :
    Except IndexingError (Option Nat) :=
  if found.isSome then .ok found
  else if !config.createCollection then .error (.qdrant "qdrant_unavailable")
  else do
    client.createCollection.mapError raised
    (client.vectorSize 1).mapError raised

def unavailable : ClientError → IndexingError
  | .store errorCode => .qdrant errorCode
  | .other => .qdrant "qdrant_unavailable"

def ensureCollection (client : QdrantClient) (config : QdrantConfig) : Except IndexingError Unit := do
  let found ← (client.vectorSize 0).mapError unavailable
  let vectorSize ← createdSize client config found
  if vectorSize = some config.vectorDimension then .ok ()
  else .error (.qdrant "qdrant_collection_dimension_mismatch")

def upsertFailure : ClientError → IndexingError
  | .store "qdrant_collection_dimension_mismatch" =>
    .qdrant "qdrant_collection_dimension_mismatch"
  | _ => .qdrant "qdrant_upsert_failed"

variable {F : Type}

/-- The batches that were handed to the client, the last of them perhaps in vain. -/
def sendBatches (client : QdrantClient) :
    Nat → List (List (QdrantPoint F)) → List (List (QdrantPoint F)) × Except IndexingError Unit
  | _, [] => ([], .ok ())
  | k, batch :: rest =>
    match client.upsertPoints k with
    | .error e => ([batch], .error (upsertFailure e))
    | .ok _ =>
      let (sent, result) := sendBatches client (k + 1) rest
      (batch :: sent, result)

/-- QdrantVectorStore.upsert. -/
def upsert (client : QdrantClient) (config : QdrantConfig) (points : List (QdrantPoint F))
    (batchSize : Nat) : List (List (QdrantPoint F)) × Except IndexingError Unit :=
  if points.isEmpty || batchSize < 1 then ([], .error (.qdrant "qdrant_upsert_failed"))
  else if points.any fun point => point.vector.length ≠ config.vectorDimension then
    ([], .error (.qdrant "qdrant_collection_dimension_mismatch"))
  else sendBatches client 0 (batches batchSize points)

/-- point_id_for_chunk_id. -/
def pointIdForChunkId (documentChunkId : Nat) : Except IndexingError Nat :=
  if documentChunkId < 1 then .error (.qdrant "document_indexing_failed") else .ok documentChunkId

variable (payloadOf : DocumentChunk → Except ClientError Dict)

/-- build_qdrant_point. -/
def buildQdrantPoint (chunk : DocumentChunk) (vector : List F) :
    Except IndexingError (QdrantPoint F) := do
  let pointId ← pointIdForChunkId chunk.documentChunkId
  let payload ← (payloadOf chunk).mapError raised
  .ok ⟨pointId, vector, payload⟩

variable (floats : Floats F) (server : EmbeddingServer) (client : QdrantClient)
variable (embedding : EmbeddingBatchConfig) (collection : QdrantConfig) (upsertBatchSize : Nat)

def preparedPoints (chunks : List DocumentChunk) : Except IndexingError (List (QdrantPoint F)) := do
  let vectors ← embedChunks floats server embedding chunks
  if vectors.length ≠ chunks.length then .error (.embedding "embedding_empty_result")
  else do
    ensureCollection client collection
    (chunks.zip vectors).mapM fun pair => buildQdrantPoint payloadOf pair.1 pair.2

/-- DocumentIndexingService.index_chunks: the points that were sent, and the indexed count. -/
def indexChunks (chunks : List DocumentChunk) :
    List (List (QdrantPoint F)) × Except IndexingError Nat :=
  match preparedPoints payloadOf floats server client embedding collection chunks with
  | .error e => ([], .error e)
  | .ok points =>
    let (sent, result) := upsert client collection points upsertBatchSize
    (sent, result.map fun _ => points.length)

end Store

end RagProject.Ingest
