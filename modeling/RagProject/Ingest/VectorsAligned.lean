import RagProject.Ingest.Indexing
import RagProject.Lib.Abreast
import RagProject.Lib.Fallible

/-! Every point carries the vector that the server labelled with the place of its chunk, where the
labels of the responses are the places in their batches. -/
namespace RagProject.Ingest
open Python Documents Batches Fallible

section Labels

def carriesIndex (item : Value) : Bool := ((itemField item "index").filter (· ≠ .none)).isSome

/-- The indexes of the items are the places from 0 on, in some order. -/
def Numbered (data : List Value) (n : Nat) : Prop :=
  (data.map embeddingIndex).Perm ((List.range n).map fun i : Nat => some (i : Int))

instance (data : List Value) (n : Nat) : Decidable (Numbered data n) :=
  inferInstanceAs (Decidable (List.Perm _ _))

/-- The list under "data", whatever else the response says. -/
def listedItems : EmbeddingResponse → Option (List Value)
  | .answered _ (some (.dict payload)) =>
    match Dict.get payload "data" with
    | some (.list data) => some data
    | _ => none
  | _ => none

/-- Items carry index fields, which are not the places from 0 on. -/
def Misnumbered (response : EmbeddingResponse) (n : Nat) : Prop :=
  ∃ data ∈ listedItems response, (∃ item ∈ data, carriesIndex item = true) ∧ ¬Numbered data n

/-- The item that the server labelled with the place. -/
def LabelledAt (data : List Value) (place : Nat) (item : Value) : Prop :=
  if data.any carriesIndex then item ∈ data ∧ embeddingIndex item = some (place : Int)
  else data[place]? = some item

theorem index_carried {item : Value} (index : (embeddingIndex item).isSome) :
    carriesIndex item = true := by
  unfold embeddingIndex at index
  unfold carriesIndex
  split at index
  · next n found => simp [found]
  · next b found => simp [found]
  · cases index

theorem orderedItems_perm (data : List Value) : (orderedItems data).Perm data := by
  unfold orderedItems
  split
  · exact List.perm_insertionSort _ _
  · rfl

/-- Sorted items with the places as their indexes stand at their places. -/
theorem sorted_places {data : List Value} {n : Nat} (numbered : Numbered data n) :
    (data.insertionSort indexOrder).map embeddingIndex =
      (List.range n).map fun i : Nat => some (i : Int) := by
  have total : Std.Total indexOrder := ⟨fun a b => le_total _ _⟩
  have trans : IsTrans Value indexOrder := ⟨fun a b c => le_trans⟩
  have sorted := List.pairwise_insertionSort indexOrder data
  have whole : ((data.insertionSort indexOrder).map embeddingIndex).Perm
      ((List.range n).map fun i : Nat => some (i : Int)) :=
    ((List.perm_insertionSort indexOrder data).map _).trans numbered
  have shape : ∀ a ∈ (List.range n).map fun i : Nat => some (i : Int), ∃ i : Int, a = some i := by
    intro a member
    obtain ⟨i, _, rfl⟩ := List.mem_map.mp member
    exact ⟨i, rfl⟩
  apply @List.Perm.eq_of_pairwise _ (fun a b => a.getD 0 ≤ b.getD 0) _ _ _ _ _ whole
  · intro a b first second below above
    obtain ⟨i, rfl⟩ := shape a (whole.mem_iff.mp first)
    obtain ⟨j, rfl⟩ := shape b second
    exact congrArg some (le_antisymm below above)
  · rw [List.pairwise_map]
    exact sorted
  · rw [List.pairwise_map]
    apply List.pairwise_lt_range.imp
    intro i j before
    exact Int.ofNat_le.mpr (Nat.le_of_lt before)

/-- The items in their order are labelled with their places, unless the response is misnumbered. -/
theorem ordered_labelled {data : List Value} {n place : Nat} {item : Value}
    (numbered : (∃ item ∈ data, carriesIndex item = true) → Numbered data n) (there : (orderedItems data)[place]? = some item) :
    LabelledAt data place item := by
  have member : item ∈ data :=
    (orderedItems_perm data).mem_iff.mp (List.mem_of_getElem? there)
  unfold LabelledAt
  by_cases carried : data.any carriesIndex = true
  · rw [if_pos carried]
    have places := numbered (List.any_eq_true.mp carried)
    have all : data.all fun item => (embeddingIndex item).isSome := by
      rw [List.all_eq_true]
      intro other inside
      obtain ⟨i, _, same⟩ := List.mem_map.mp (places.mem_iff.mp (List.mem_map_of_mem inside))
      rw [← same]
      rfl
    refine ⟨member, ?_⟩
    unfold orderedItems at there
    rw [if_pos all] at there
    have sorted := congrArg (·[place]?) (sorted_places places)
    rw [List.getElem?_map, there, Option.map_some, List.getElem?_map] at sorted
    obtain ⟨i, inside, same⟩ := Option.map_eq_some_iff.mp sorted.symm
    obtain ⟨_, value⟩ := List.getElem?_eq_some_iff.mp inside
    rw [List.getElem_range] at value
    rw [← same, value]
  · rw [if_neg carried]
    have none : ¬data.all fun item => (embeddingIndex item).isSome := by
      intro all
      have index := List.all_eq_true.mp all item member
      exact carried (List.any_eq_true.mpr ⟨item, member, index_carried index⟩)
    unfold orderedItems at there
    rwa [if_neg none] at there

end Labels

section Batch
variable {F : Type} (floats : Floats F)

/-- The response passes the other checks: as many items as texts, each with a vector. -/
def Usable (dimension : Nat) (response : EmbeddingResponse) (n : Nat) : Prop :=
  ∃ data, responseItems response n = .ok data ∧ ∀ item ∈ data, ∃ vector,
    itemVector floats item = .ok vector ∧ validateVector floats dimension vector = .ok ()

/-- The error is one of the adapter. -/
def FromAdapter : IndexingError → Prop
  | .embedding _ => True
  | _ => False

/-- The error is one of the store. -/
def FromStore : IndexingError → Prop
  | .embedding _ => False
  | _ => True

theorem FromStore.not_adapter {e : IndexingError} (store : FromStore e) : ¬FromAdapter e := by
  cases e with
  | embedding errorCode => exact store.elim
  | qdrant errorCode => exact id
  | other => exact id

variable {floats} {dimension n : Nat} {response : EmbeddingResponse}

theorem items_length {data : List Value} (items : responseItems response n = .ok data) :
    data.length = n := by
  unfold responseItems at items
  repeat' split at items
  all_goals cases items
  assumption

theorem items_listed {data : List Value} (items : responseItems response n = .ok data) :
    listedItems response = some data := by
  unfold responseItems at items
  split at items
  · cases items
  · split at items
    · cases items
    · split at items
      · next payload =>
        split at items
        · next listed found =>
          split at items
          · cases items
            unfold listedItems
            dsimp only
            rw [found]
          · cases items
        · cases items
      · cases items

theorem items_error {e : IndexingError} (failed : responseItems response n = .error e) :
    FromAdapter e := by
  unfold responseItems at failed
  repeat' split at failed
  all_goals
    cases failed
  all_goals
    trivial

theorem vector_error {item : Value} {e : IndexingError} (failed : itemVector floats item = .error e) :
    FromAdapter e := by
  unfold itemVector at failed
  repeat' split at failed
  all_goals
    cases failed
  all_goals
    trivial

theorem validate_error {vector : List F} {e : IndexingError}
    (failed : validateVector floats dimension vector = .error e) : FromAdapter e := by
  unfold validateVector at failed
  repeat' split at failed
  all_goals
    cases failed
  all_goals
    trivial

variable (floats) in
/-- The vectors of a batch are those of the items of its response, in their order. -/
def FromResponse (server : EmbeddingServer) (dimension : Nat) (batch : List String × Nat)
    (vectors : List (List F)) : Prop :=
  ∃ data, responseItems (server batch.2 batch.1) batch.1.length = .ok data ∧
    List.Forall₂ (fun item vector => itemVector floats item = .ok vector ∧
      validateVector floats dimension vector = .ok ()) (orderedItems data) vectors

theorem FromResponse.length {server : EmbeddingServer} {batch : List String × Nat}
    {vectors : List (List F)} (from_ : FromResponse floats server dimension batch vectors) :
    vectors.length = batch.1.length := by
  obtain ⟨data, items, each⟩ := from_
  rw [← each.length_eq, (orderedItems_perm data).length_eq, items_length items]

theorem FromResponse.valid {server : EmbeddingServer} {batch : List String × Nat}
    {vectors : List (List F)} (from_ : FromResponse floats server dimension batch vectors) :
    ∀ vector ∈ vectors, validateVector floats dimension vector = .ok () := by
  obtain ⟨data, _, each⟩ := from_
  intro vector member
  obtain ⟨item, _, _, valid⟩ := Abreast.partner each member
  exact valid

theorem FromResponse.usable {server : EmbeddingServer} {batch : List String × Nat}
    {vectors : List (List F)} (from_ : FromResponse floats server dimension batch vectors) :
    Usable floats dimension (server batch.2 batch.1) batch.1.length := by
  obtain ⟨data, items, each⟩ := from_
  refine ⟨data, items, fun item member => ?_⟩
  obtain ⟨p, there⟩ := List.mem_iff_getElem?.mp ((orderedItems_perm data).mem_iff.mpr member)
  obtain ⟨vector, _, found⟩ := Abreast.at_place each there
  exact ⟨vector, found⟩

theorem validateVectors_ok {vectors : List (List F)} (length : vectors.length = n)
    (valid : ∀ vector ∈ vectors, validateVector floats dimension vector = .ok ()) :
    validateVectors floats vectors n dimension = .ok () := by
  unfold validateVectors
  rw [if_neg (by simpa using length)]
  exact forM_ok valid

theorem embedBatch_usable {server : EmbeddingServer} {batch : List String × Nat}
    (nonblank : ∀ text ∈ batch.1, strip text.toList ≠ [])
    (usable : Usable floats dimension (server batch.2 batch.1) batch.1.length) :
    ∃ vectors, embedBatch floats server dimension batch = .ok vectors ∧
      FromResponse floats server dimension batch vectors := by
  obtain ⟨data, items, each⟩ := usable
  have ordered : ∀ item ∈ orderedItems data, ∃ vector, itemVector floats item = .ok vector ∧
      itemVector floats item = .ok vector ∧ validateVector floats dimension vector = .ok () := by
    intro item member
    obtain ⟨vector, found, valid⟩ := each item ((orderedItems_perm data).mem_iff.mp member)
    exact ⟨vector, found, found, valid⟩
  obtain ⟨vectors, extracted, kinds⟩ := mapM_each_ok ordered
  have from_ : FromResponse floats server dimension batch vectors := ⟨data, items, kinds⟩
  have valid := validateVectors_ok from_.length from_.valid
  have texts : validateTexts batch.1 = .ok () := by
    unfold validateTexts
    rw [if_pos]
    simpa using nonblank
  refine ⟨vectors, ?_, from_⟩
  unfold embedBatch embedTexts extractLmstudioEmbeddings
  simp only [texts, items, extracted, valid, bind, Except.bind]

theorem validateVectors_error {vectors : List (List F)} {e : IndexingError}
    (failed : validateVectors floats vectors n dimension = .error e) : FromAdapter e := by
  unfold validateVectors at failed
  split at failed
  · cases failed
    trivial
  · exact forM_error failed fun _ _ => validate_error

theorem texts_error {texts : List String} {e : IndexingError}
    (failed : validateTexts texts = .error e) : FromAdapter e := by
  unfold validateTexts at failed
  split at failed
  · cases failed
  · cases failed
    trivial

theorem embedBatch_error {server : EmbeddingServer} {batch : List String × Nat} {e : IndexingError}
    (failed : embedBatch floats server dimension batch = .error e) : FromAdapter e := by
  unfold embedBatch at failed
  rcases bind_error failed with embedding | ⟨vectors, _, failed⟩
  · unfold embedTexts at embedding
    rcases bind_error embedding with texts | ⟨_, _, embedding⟩
    · exact texts_error texts
    · rcases bind_error embedding with extracting | ⟨found, _, embedding⟩
      · rcases bind_error extracting with items | ⟨data, _, vectors⟩
        · exact items_error items
        · exact mapM_error vectors fun _ _ => vector_error
      · rcases bind_error embedding with invalid | ⟨_, _, last⟩
        · exact validateVectors_error invalid
        · cases last
  · rcases bind_error failed with invalid | ⟨_, _, last⟩
    · exact validateVectors_error invalid
    · cases last

theorem usable_of_embedded {server : EmbeddingServer} {batch : List String × Nat}
    {vectors : List (List F)} (done : embedBatch floats server dimension batch = .ok vectors) :
    Usable floats dimension (server batch.2 batch.1) batch.1.length := by
  unfold embedBatch at done
  obtain ⟨found, embedded, rest⟩ := bind_ok done
  obtain ⟨_, valid, same⟩ := bind_ok rest
  cases same
  unfold embedTexts at embedded
  obtain ⟨_, _, embedded⟩ := bind_ok embedded
  obtain ⟨extracted, extracting, embedded⟩ := bind_ok embedded
  obtain ⟨_, _, same⟩ := bind_ok embedded
  cases same
  obtain ⟨data, items, vectors⟩ := bind_ok extracting
  refine ⟨data, items, fun item member => ?_⟩
  obtain ⟨vector, inside, found⟩ :=
    mapM_into vectors item ((orderedItems_perm data).mem_iff.mpr member)
  unfold validateVectors at valid
  split at valid
  · cases valid
  · exact ⟨vector, found, forM_each valid vector inside⟩

end Batch

section Chunks
variable {F : Type} {floats : Floats F} {server : EmbeddingServer} {config : EmbeddingBatchConfig}
variable {chunks : List DocumentChunk}

variable (config chunks) in
/-- The requests, each with its number. -/
def requests : List (List String × Nat) :=
  (batches config.batchSize (chunks.map (·.contentText))).zipIdx

theorem batched_length {batched : List (List (List F))}
    (shape : List.Forall₂ (FromResponse floats server config.dimension) (requests config chunks)
      batched) : batched.flatten.length = chunks.length := by
  have lengths := Abreast.map_eq shape fun batch vectors from_ => from_.length.symm
  have firsts := congrArg (List.map List.length) (List.zipIdx_map_fst 0
    (batches config.batchSize (chunks.map (·.contentText))))
  rw [List.map_map] at firsts
  have total := congrArg List.length
    (batches_flatten config.batchPositive (chunks.map (·.contentText)))
  rw [List.length_map, List.length_flatten, ← firsts] at total
  rw [List.length_flatten, ← lengths]
  exact total

/-- Where all responses pass the other checks, the vectors come from them, batch by batch. Otherwise
the adapter raises an error. -/
theorem embedChunks_outcome (nonblank : ∀ chunk ∈ chunks, strip chunk.contentText.toList ≠ [])
    (shows : chunks ≠ []) :
    (∃ e, embedChunks floats server config chunks = .error e ∧ FromAdapter e ∧
      ¬∀ batch ∈ requests config chunks,
        Usable floats config.dimension (server batch.2 batch.1) batch.1.length) ∨
    ∃ batched, embedChunks floats server config chunks = .ok batched.flatten ∧
      List.Forall₂ (FromResponse floats server config.dimension) (requests config chunks)
        batched := by
  have texts : ∀ text ∈ chunks.map (·.contentText), strip text.toList ≠ [] := by
    intro text member
    obtain ⟨chunk, inside, rfl⟩ := List.mem_map.mp member
    exact nonblank chunk inside
  have checked : validateTexts (chunks.map (·.contentText)) = .ok () := by
    unfold validateTexts
    rw [if_pos]
    simpa using nonblank
  have start : chunks.isEmpty = false := by simpa using shows
  by_cases usable : ∀ batch ∈ requests config chunks,
      Usable floats config.dimension (server batch.2 batch.1) batch.1.length
  · right
    have each : ∀ batch ∈ requests config chunks, ∃ vectors,
        embedBatch floats server config.dimension batch = .ok vectors ∧
          FromResponse floats server config.dimension batch vectors := by
      intro batch member
      apply embedBatch_usable _ (usable batch member)
      intro text inside
      have listed : batch.1 ∈ batches config.batchSize (chunks.map (·.contentText)) :=
        List.fst_mem_of_mem_zipIdx member
      apply texts
      rw [← batches_flatten config.batchPositive (chunks.map (·.contentText))]
      exact List.mem_flatten_of_mem listed inside
    obtain ⟨batched, done, shape⟩ := mapM_each_ok each
    refine ⟨batched, ?_, shape⟩
    have length : batched.flatten.length = (chunks.map (·.contentText)).length := by
      rw [batched_length shape, List.length_map]
    have valid : ∀ vector ∈ batched.flatten,
        validateVector floats config.dimension vector = .ok () := by
      intro vector member
      obtain ⟨vectors, inside, here⟩ := List.mem_flatten.mp member
      obtain ⟨batch, _, from_⟩ := Abreast.partner shape inside
      exact from_.valid vector here
    have whole := validateVectors_ok length valid
    have found : batched.flatten.isEmpty = false := by
      rw [List.isEmpty_eq_false_iff, ← List.length_pos_iff, length, List.length_map]
      exact List.length_pos_iff.mpr shows
    unfold requests at done
    unfold embedChunks
    simp only [start, checked, done, whole, found, bind, Except.bind, Bool.false_eq_true, if_false]
  · left
    cases outcome : embedChunks floats server config chunks with
    | ok vectors =>
      refine absurd ?_ usable
      unfold embedChunks at outcome
      rw [start] at outcome
      obtain ⟨_, _, outcome⟩ := bind_ok outcome
      obtain ⟨batched, done, _⟩ := bind_ok outcome
      intro batch member
      obtain ⟨vectors, embedded⟩ := mapM_each done batch member
      exact usable_of_embedded embedded
    | error e =>
      refine ⟨e, rfl, ?_, usable⟩
      unfold embedChunks at outcome
      rw [start] at outcome
      rcases bind_error outcome with blank | ⟨_, _, outcome⟩
      · exact texts_error blank
      · rcases bind_error outcome with batch | ⟨batched, _, outcome⟩
        · exact mapM_error batch fun _ _ => embedBatch_error
        · rcases bind_error outcome with invalid | ⟨_, _, outcome⟩
          · exact validateVectors_error invalid
          · split at outcome
            · cases outcome
              trivial
            · cases outcome

end Chunks

section Claim
variable {F : Type} (payloadOf : DocumentChunk → Except ClientError Dict) (floats : Floats F)
variable (server : EmbeddingServer) (client : QdrantClient) (embedding : EmbeddingBatchConfig)
variable (collection : QdrantConfig) (upsertBatchSize : Nat) (chunks : List DocumentChunk)

/-- The point of a chunk has its id, and the vector that the server labelled with the place of the
chunk in its batch. -/
def PointAt (points : List (QdrantPoint F)) (place : Nat) (chunk : DocumentChunk) : Prop :=
  ∃ texts data item point,
    (batches embedding.batchSize (chunks.map (·.contentText)))[place / embedding.batchSize]? =
      some texts ∧
    listedItems (server (place / embedding.batchSize) texts) = some data ∧
    LabelledAt data (place % embedding.batchSize) item ∧
    points[place]? = some point ∧ itemVector floats item = .ok point.vector ∧
    pointIdForChunkId chunk.documentChunkId = .ok point.pointId

/-- After a success every chunk has one point, with its vector. A misnumbered response is rejected,
and nothing is sent. -/
structure Aligned (outcome : List (List (QdrantPoint F)) × Except IndexingError Nat) : Prop where
  points : ∀ count, outcome.2 = .ok count → outcome.1.flatten.length = chunks.length ∧
    ∀ place chunk, chunks[place]? = some chunk →
      PointAt floats server embedding chunks outcome.1.flatten place chunk
  rejected : (∃ batch ∈ requests embedding chunks,
    Misnumbered (server batch.2 batch.1) batch.1.length) →
      outcome.1 = [] ∧ ∃ errorCode, outcome.2 = .error (.embedding errorCode)

variable {payloadOf floats server client embedding collection upsertBatchSize chunks}

theorem mapError_error {E E' A : Type} {f : E → E'} {p : E' → Prop} (each : ∀ e, p (f e))
    {x : Except E A} {e : E'} (failed : x.mapError f = .error e) : p e := by
  cases x with
  | ok a => cases failed
  | error e =>
    cases failed
    exact each e

theorem raised_store (e : ClientError) : FromStore (raised e) := by
  cases e <;> trivial

theorem ensureCollection_error {e : IndexingError}
    (failed : ensureCollection client collection = .error e) : FromStore e := by
  unfold ensureCollection at failed
  rcases bind_error failed with first | ⟨found, _, failed⟩
  · refine mapError_error (fun e => ?_) first
    cases e <;> trivial
  · rcases bind_error failed with created | ⟨size, _, failed⟩
    · unfold createdSize at created
      split at created
      · cases created
      · split at created
        · cases created
          trivial
        · rcases bind_error created with creating | ⟨_, _, again⟩
          · exact mapError_error raised_store creating
          · exact mapError_error raised_store again
    · split at failed
      · cases failed
      · cases failed
        trivial

theorem build_error {chunk : DocumentChunk} {vector : List F} {e : IndexingError}
    (failed : buildQdrantPoint payloadOf chunk vector = .error e) : FromStore e := by
  unfold buildQdrantPoint at failed
  rcases bind_error failed with pointId | ⟨_, _, failed⟩
  · unfold pointIdForChunkId at pointId
    split at pointId
    · cases pointId
      trivial
    · cases pointId
  · rcases bind_error failed with payload | ⟨_, _, last⟩
    · exact mapError_error raised_store payload
    · cases last

theorem build_ok {chunk : DocumentChunk} {vector : List F} {point : QdrantPoint F}
    (done : buildQdrantPoint payloadOf chunk vector = .ok point) :
    point.vector = vector ∧ pointIdForChunkId chunk.documentChunkId = .ok point.pointId := by
  unfold buildQdrantPoint at done
  obtain ⟨pointId, id, done⟩ := bind_ok done
  obtain ⟨payload, _, last⟩ := bind_ok done
  cases last
  exact ⟨rfl, id⟩

theorem upsertFailure_store (e : ClientError) : FromStore (upsertFailure e) := by
  unfold upsertFailure
  split <;> trivial

theorem sendBatches_outcome (k : Nat) (batched : List (List (QdrantPoint F))) :
    (∃ e, (sendBatches client k batched).2 = .error e ∧ FromStore e) ∨
      sendBatches client k batched = (batched, .ok ()) := by
  induction batched generalizing k with
  | nil => exact .inr rfl
  | cons batch rest ih =>
    unfold sendBatches
    cases client.upsertPoints k with
    | error e => exact .inl ⟨_, rfl, upsertFailure_store e⟩
    | ok _ =>
      rcases ih (k + 1) with ⟨e, failed, store⟩ | sent
      · exact .inl ⟨e, failed, store⟩
      · right
        dsimp only
        rw [sent]

/-- All points are sent, or an error of the store ends the call. -/
theorem upsert_outcome (points : List (QdrantPoint F)) :
    (∃ e, (upsert client collection points upsertBatchSize).2 = .error e ∧ FromStore e) ∨
      (upsert client collection points upsertBatchSize).2 = .ok () ∧
        (upsert client collection points upsertBatchSize).1.flatten = points := by
  unfold upsert
  split
  · exact .inl ⟨_, rfl, trivial⟩
  · next filled =>
    split
    · exact .inl ⟨_, rfl, trivial⟩
    · rcases sendBatches_outcome 0 (batches upsertBatchSize points) with failed | sent
      · exact .inl failed
      · right
        rw [sent]
        have positive : 0 < upsertBatchSize := by
          simp only [Bool.or_eq_true, decide_eq_true_eq, not_or] at filled
          omega
        exact ⟨rfl, batches_flatten positive points⟩

variable (payloadOf floats server client embedding collection) in
/-- An error of the adapter, or vectors for all chunks, which only the store can still reject. -/
theorem preparedPoints_outcome (shows : chunks ≠ [])
    (nonblank : ∀ chunk ∈ chunks, strip chunk.contentText.toList ≠ []) :
    let prepared := preparedPoints payloadOf floats server client embedding collection chunks
    (∃ e, prepared = .error e ∧ FromAdapter e ∧ ¬∀ batch ∈ requests embedding chunks,
      Usable floats embedding.dimension (server batch.2 batch.1) batch.1.length) ∨
    ∃ batched, List.Forall₂ (FromResponse floats server embedding.dimension)
        (requests embedding chunks) batched ∧ batched.flatten.length = chunks.length ∧
      ((∃ e, prepared = .error e ∧ FromStore e) ∨ ∃ points, prepared = .ok points ∧
        List.Forall₂ (fun pair point => point.vector = pair.2 ∧
          pointIdForChunkId pair.1.documentChunkId = .ok point.pointId)
            (chunks.zip batched.flatten) points) := by
  intro prepared
  rcases embedChunks_outcome nonblank shows with ⟨e, failed, adapter, unusable⟩ |
    ⟨batched, embedded, shape⟩
  · refine .inl ⟨e, ?_, adapter, unusable⟩
    unfold prepared preparedPoints
    rw [failed]
    rfl
  · have length := batched_length shape
    refine .inr ⟨batched, shape, length, ?_⟩
    have turn : prepared = (do
        ensureCollection client collection
        (chunks.zip batched.flatten).mapM fun pair => buildQdrantPoint payloadOf pair.1 pair.2) := by
      unfold prepared preparedPoints
      rw [embedded]
      exact if_neg (by simpa using length)
    cases outcome : prepared with
    | error e =>
      refine .inl ⟨e, rfl, ?_⟩
      rw [turn] at outcome
      rcases bind_error outcome with collection | ⟨_, _, building⟩
      · exact ensureCollection_error collection
      · exact mapM_error building fun _ _ => build_error
    | ok points =>
      refine .inr ⟨points, rfl, ?_⟩
      rw [turn] at outcome
      obtain ⟨_, _, building⟩ := bind_ok outcome
      have each : ∀ pair ∈ chunks.zip batched.flatten, ∃ point,
          buildQdrantPoint payloadOf pair.1 pair.2 = .ok point ∧ (point.vector = pair.2 ∧
            pointIdForChunkId pair.1.documentChunkId = .ok point.pointId) := by
        intro pair member
        obtain ⟨point, built⟩ := mapM_each building pair member
        exact ⟨point, built, build_ok built⟩
      obtain ⟨same, again, kinds⟩ := mapM_each_ok each
      rw [building] at again
      cases again
      exact kinds

/-- Where the responses are not misnumbered, each point has the vector for the place of its chunk. -/
theorem points_labelled {batched : List (List (List F))} {points : List (QdrantPoint F)}
    (shape : List.Forall₂ (FromResponse floats server embedding.dimension)
      (requests embedding chunks) batched)
    (kinds : List.Forall₂ (fun pair point => point.vector = pair.2 ∧
      pointIdForChunkId pair.1.documentChunkId = .ok point.pointId)
        (chunks.zip batched.flatten) points)
    (length : batched.flatten.length = chunks.length)
    (numbered : ∀ batch ∈ requests embedding chunks,
      ¬Misnumbered (server batch.2 batch.1) batch.1.length) :
    points.length = chunks.length ∧ ∀ place chunk, chunks[place]? = some chunk →
      PointAt floats server embedding chunks points place chunk := by
  constructor
  · rw [← kinds.length_eq, List.length_zip, length, Nat.min_self]
  · intro place chunk there
    obtain ⟨inside, _⟩ := List.getElem?_eq_some_iff.mp there
    obtain ⟨vector, found⟩ : ∃ vector, batched.flatten[place]? = some vector :=
      ⟨_, List.getElem?_eq_getElem (length ▸ inside)⟩
    have pair : (chunks.zip batched.flatten)[place]? = some (chunk, vector) := by
      rw [List.getElem?_zip_eq_some]
      exact ⟨there, found⟩
    obtain ⟨point, sent, same, id⟩ := Abreast.at_place kinds pair
    have batchShape : List.Forall₂ (fun (batch : List String) (ys : List (List F)) =>
        ys.length = batch.length) (batches embedding.batchSize (chunks.map (·.contentText)))
          batched := by
      have firsts := List.zipIdx_map_fst 0
        (batches embedding.batchSize (chunks.map (·.contentText)))
      rw [← firsts, List.forall₂_map_left_iff]
      exact shape.imp fun batch vectors from_ => from_.length
    rw [flatten_get embedding.batchPositive batchShape] at found
    obtain ⟨vectors, batchFound, atPlace⟩ := Option.bind_eq_some_iff.mp found
    obtain ⟨request, requested, from_⟩ := Abreast.partner_at shape batchFound
    have number : request.2 = place / embedding.batchSize ∧
        (batches embedding.batchSize (chunks.map (·.contentText)))[place / embedding.batchSize]? =
          some request.1 := by
      unfold requests at requested
      rw [List.getElem?_zipIdx] at requested
      obtain ⟨texts, listed, rfl⟩ := Option.map_eq_some_iff.mp requested
      exact ⟨Nat.zero_add _, listed⟩
    obtain ⟨data, items, each⟩ := from_
    obtain ⟨item, ordered, vectorOf, _⟩ := Abreast.partner_at each atPlace
    have listed := items_listed items
    have labels : (∃ item ∈ data, carriesIndex item = true) → Numbered data request.1.length := by
      intro carried
      by_contra wrong
      exact numbered request (List.mem_of_getElem? requested) ⟨data, listed, carried, wrong⟩
    rw [number.1] at listed
    exact ⟨request.1, data, item, point, number.2, listed, ordered_labelled labels ordered, sent,
      same ▸ vectorOf, id⟩

/-- The vectors are aligned exactly where no response is misnumbered among responses that pass all
other checks. -/
theorem vectors_aligned_iff (payloadOf : DocumentChunk → Except ClientError Dict)
    (floats : Floats F) (server : EmbeddingServer) (client : QdrantClient)
    (embedding : EmbeddingBatchConfig) (collection : QdrantConfig) (upsertBatchSize : Nat)
    (chunks : List DocumentChunk)
    (nonblank : ∀ chunk ∈ chunks, strip chunk.contentText.toList ≠ []) :
    Aligned floats server embedding chunks
        (indexChunks payloadOf floats server client embedding collection upsertBatchSize chunks) ↔
      ((∀ batch ∈ requests embedding chunks,
        Usable floats embedding.dimension (server batch.2 batch.1) batch.1.length) →
          ∀ batch ∈ requests embedding chunks,
            ¬Misnumbered (server batch.2 batch.1) batch.1.length) := by
  by_cases none : chunks = []
  · subst none
    have nothing : requests embedding [] = [] := by
      unfold requests
      rw [List.map_nil, batches_nil embedding.batchPositive]
      rfl
    refine iff_of_true ⟨fun count success => (nomatch success), ?_⟩ ?_
    · rintro ⟨batch, member, _⟩
      rw [nothing] at member
      cases member
    · intro _ batch member
      rw [nothing] at member
      cases member
  · unfold indexChunks
    rcases preparedPoints_outcome payloadOf floats server client embedding collection none
      nonblank with ⟨e, failed, adapter, unusable⟩ | ⟨batched, shape, length, prepared⟩
    · rw [failed]
      refine iff_of_true ⟨fun count success => (nomatch success), fun _ => ⟨rfl, ?_⟩⟩
        fun usable => absurd usable unusable
      cases e with
      | embedding errorCode => exact ⟨errorCode, rfl⟩
      | qdrant errorCode => exact adapter.elim
      | other => exact adapter.elim
    · have usable : ∀ batch ∈ requests embedding chunks,
          Usable floats embedding.dimension (server batch.2 batch.1) batch.1.length := by
        intro batch member
        obtain ⟨p, there⟩ := List.mem_iff_getElem?.mp member
        obtain ⟨vectors, _, from_⟩ := Abreast.at_place shape there
        exact from_.usable
      have stored {outcome : List (List (QdrantPoint F)) × Except IndexingError Nat}
          (store : ∀ errorCode, outcome.2 ≠ .error (.embedding errorCode))
          (aligned : Aligned floats server embedding chunks outcome) :
          ∀ batch ∈ requests embedding chunks,
            ¬Misnumbered (server batch.2 batch.1) batch.1.length := by
        intro batch member wrong
        obtain ⟨_, errorCode, rejected⟩ := aligned.rejected ⟨batch, member, wrong⟩
        exact store errorCode rejected
      rcases prepared with ⟨e, failed, store⟩ | ⟨points, done, kinds⟩
      · rw [failed]
        constructor
        · intro aligned _
          apply stored _ aligned
          rintro errorCode ⟨⟩
          exact store
        · intro numbered
          refine ⟨fun count success => (nomatch success), ?_⟩
          rintro ⟨batch, member, wrong⟩
          exact absurd wrong (numbered usable batch member)
      · rw [done]
        rcases @upsert_outcome F client collection upsertBatchSize points with
          ⟨e, failed, store⟩ | ⟨success, sent⟩
        · constructor
          · intro aligned _
            apply stored _ aligned
            intro errorCode same
            dsimp only at same
            rw [failed] at same
            cases same
            exact store
          · intro numbered
            constructor
            · intro count same
              dsimp only at same
              rw [failed] at same
              cases same
            · rintro ⟨batch, member, wrong⟩
              exact absurd wrong (numbered usable batch member)
        · constructor
          · intro aligned _
            apply stored _ aligned
            intro errorCode same
            dsimp only at same
            rw [success] at same
            cases same
          · intro numbered
            constructor
            · intro count _
              dsimp only
              rw [sent]
              exact points_labelled shape kinds length (numbered usable)
            · rintro ⟨batch, member, wrong⟩
              exact absurd wrong (numbered usable batch member)

end Claim

section Runs

def plainFloats : Floats Rat where
  ofValue
    | .int n => some n
    | .float q => some q
    | _ => none
  isFinite _ := true

/-- A response with one number for each index. -/
def numbered (items : List (Nat × Int)) : EmbeddingResponse :=
  .answered 200 (some (.dict [("data", .list (items.map fun item =>
    .dict [("index", .int item.1), ("embedding", .list [.int item.2])]))]))

def plainChunk (documentChunkId : Nat) (contentText : String) : DocumentChunk :=
  ⟨documentChunkId, 1, documentChunkId, "", contentText, none, none, none, none, none, none, "text",
    0⟩

def plainClient : QdrantClient := ⟨fun _ => .ok (some 1), .ok (), fun _ => .ok ()⟩

/-- Two items in the other order: each chunk has the vector of its index. -/
theorem swapped_aligned :
    Aligned plainFloats (fun _ _ => numbered [(1, 20), (0, 10)])
      ⟨1, 2, by decide, by decide⟩ [plainChunk 5 "first", plainChunk 6 "second"]
      (indexChunks (fun _ => .ok []) plainFloats (fun _ _ => numbered [(1, 20), (0, 10)])
        plainClient ⟨1, 2, by decide, by decide⟩ ⟨1, false⟩ 1
        [plainChunk 5 "first", plainChunk 6 "second"]) := by
  apply (vectors_aligned_iff (fun _ => .ok []) plainFloats (fun _ _ => numbered [(1, 20), (0, 10)])
    plainClient ⟨1, 2, by decide, by decide⟩ ⟨1, false⟩ 1
    [plainChunk 5 "first", plainChunk 6 "second"] (by decide +kernel)).mpr
  rintro _ batch member ⟨data, listed, _, wrong⟩
  have request : batch = (["first", "second"], 0) := List.mem_singleton.mp member
  subst request
  obtain rfl := Option.some.inj listed
  exact wrong (by decide)

/-- Both items carry the index 0: the call succeeds with two points. -/
theorem duplicate_index_accepted :
    ¬∀ (payloadOf : DocumentChunk → Except ClientError Dict) (floats : Floats Rat)
      (server : EmbeddingServer) (client : QdrantClient) (embedding : EmbeddingBatchConfig)
      (collection : QdrantConfig) (upsertBatchSize : Nat) (chunks : List DocumentChunk),
      (∀ chunk ∈ chunks, strip chunk.contentText.toList ≠ []) →
        Aligned floats server embedding chunks
          (indexChunks payloadOf floats server client embedding collection upsertBatchSize
            chunks) := by
  intro claim
  have aligned := claim (fun _ => .ok []) plainFloats (fun _ _ => numbered [(0, 10), (0, 20)])
    plainClient ⟨1, 2, by decide, by decide⟩ ⟨1, false⟩ 1
    [plainChunk 5 "first", plainChunk 6 "second"] (by decide +kernel)
  have request : (["first", "second"], 0) ∈ requests ⟨1, 2, by decide, by decide⟩
      [plainChunk 5 "first", plainChunk 6 "second"] := List.mem_singleton_self _
  obtain ⟨_, errorCode, rejected⟩ := aligned.rejected
    ⟨_, request, _, rfl, ⟨_, List.mem_cons_self, rfl⟩, by decide⟩
  have success : (indexChunks (fun _ => .ok []) plainFloats
      (fun _ _ => numbered [(0, 10), (0, 20)]) plainClient ⟨1, 2, by decide, by decide⟩ ⟨1, false⟩ 1
        [plainChunk 5 "first", plainChunk 6 "second"]).2 = .ok 2 := by rfl
  rw [success] at rejected
  cases rejected

end Runs

end RagProject.Ingest
