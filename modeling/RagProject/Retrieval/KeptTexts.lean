import RagProject.Rag.CorpusMarker
import RagProject.Retrieval.CacheHit

/-! What the transactions leave of the rows that a search has shown: chunks come and go, and a
version or a document that stays keeps its number and its names. -/
namespace RagProject.Retrieval
open Python Jobs Documents Ingest Rag

section Traced

universe u v
variable {R : Type u} {K : Type v} {key : R → K} {keeps : R → R → Prop} {old rows rows' : List R}

/-- Every row comes from an old one, or has a key that no old one has. -/
def Traced (key : R → K) (keeps : R → R → Prop) (old rows : List R) : Prop :=
  ∀ r ∈ rows, (∃ o ∈ old, key r = key o ∧ keeps o r) ∨ key r ∉ old.map key

theorem Traced.same (traced : Traced key keeps old rows) (distinct : (old.map key).Nodup) {o r : R}
    (before : o ∈ old) (now : r ∈ rows) (sameKey : key r = key o) : keeps o r := by
  rcases traced r now with ⟨p, there, keyed, kept⟩ | new
  · have one := Table.unique distinct before there (sameKey.symm.trans keyed)
    rw [one]
    exact kept
  · exact absurd (sameKey ▸ List.mem_map_of_mem before) new

theorem Traced.sublist (traced : Traced key keeps old rows) (fewer : rows' ⊆ rows) :
    Traced key keeps old rows' := fun r member => traced r (fewer member)

theorem Traced.append (traced : Traced key keeps old rows) {new : List R}
    (fresh : ∀ r ∈ new, key r ∉ old.map key) : Traced key keeps old (rows ++ new) := by
  intro r member
  rcases List.mem_append.mp member with before | added
  · exact traced r before
  · exact .inr (fresh r added)

theorem Traced.map (traced : Traced key keeps old rows)
    (trans : ∀ {a b c}, keeps a b → keeps b c → keeps a c) {f : R → R}
    (sameKey : ∀ r ∈ rows, key (f r) = key r ∧ keeps r (f r)) :
    Traced key keeps old (rows.map f) := by
  intro r member
  obtain ⟨before, there, rfl⟩ := List.mem_map.mp member
  obtain ⟨keyed, kept⟩ := sameKey before there
  rcases traced before there with ⟨o, first, same, held⟩ | new
  · exact .inl ⟨o, first, keyed.trans same, trans held kept⟩
  · exact .inr (keyed ▸ new)

end Traced

section Session

def SameVersion (v v' : DocumentVersion) : Prop :=
  v'.logicalDocumentId = v.logicalDocumentId ∧ v'.versionNo = v.versionNo ∧ v'.fileName = v.fileName

def SameDocument (d d' : LogicalDocument) : Prop := d'.title = d.title

theorem SameVersion.trans {a b c : DocumentVersion} (first : SameVersion a b)
    (second : SameVersion b c) : SameVersion a c :=
  ⟨second.1.trans first.1, second.2.1.trans first.2.1, second.2.2.trans first.2.2⟩

/-- The rows, against those of an earlier database. -/
structure TracedDb (old db : Db) : Prop where
  chunks : Traced DocumentChunk.documentChunkId Eq old.chunks db.chunks
  versions : Traced DocumentVersion.documentVersionId SameVersion old.versions db.versions
  documents : Traced LogicalDocument.logicalDocumentId SameDocument old.documents db.documents

theorem TracedDb.refl (db : Db) : TracedDb db db where
  chunks c member := .inl ⟨c, member, rfl, rfl⟩
  versions v member := .inl ⟨v, member, rfl, rfl, rfl, rfl⟩
  documents d member := .inl ⟨d, member, rfl, rfl⟩

/-- A write to a version that leaves what is shown of it. -/
def VersionWrite (f : DocumentVersion → DocumentVersion) : Prop :=
  ∀ v, (f v).documentVersionId = v.documentVersionId ∧ SameVersion v (f v)

def DocumentWrite (f : LogicalDocument → LogicalDocument) : Prop :=
  ∀ d, (f d).logicalDocumentId = d.logicalDocumentId ∧ SameDocument d (f d)

structure TracedSession (old : Db) (s : CorpusSession) : Prop where
  db : TracedDb old s.db
  versions : ∀ write ∈ s.versions, VersionWrite write.2
  documents : ∀ write ∈ s.documents, DocumentWrite write.2

variable {old : Db} {s s' : CorpusSession} {now : Time}

theorem flushVersions_traced {writes : Pending.Writes Nat DocumentVersion}
    {versions rows : List DocumentVersion} (each : ∀ write ∈ writes, VersionWrite write.2)
    {first : List DocumentVersion}
    (traced : Traced DocumentVersion.documentVersionId SameVersion first versions)
    (done : flushVersions writes versions = .ok rows) :
    Traced DocumentVersion.documentVersionId SameVersion first rows := by
  unfold flushVersions at done
  have sorted : ∀ write ∈ writes.insertionSort fun a b => a.1 ≤ b.1, VersionWrite write.2 :=
    fun write member => each write ((List.mem_insertionSort _).mp member)
  generalize writes.insertionSort (fun a b => a.1 ≤ b.1) = flushed at done sorted
  induction flushed generalizing versions with
  | nil =>
    cases done
    exact traced
  | cons write flushed ih =>
    rw [List.foldlM_cons] at done
    obtain ⟨next, update, rest⟩ := Fallible.bind_ok done
    refine ih ?_ rest fun w later => sorted w (.tail _ later)
    rw [(updateVersionRow_ok update).1]
    refine traced.map SameVersion.trans fun v _ => ?_
    split
    · exact sorted write (.head _) v
    · exact ⟨rfl, rfl, rfl, rfl⟩

theorem TracedSession.flush (traced : TracedSession old s) (done : s.flush = .ok s') :
    TracedSession old s' := by
  unfold CorpusSession.flush at done
  obtain ⟨versions, flushed, shape⟩ := Fallible.bind_ok done
  cases shape
  refine ⟨⟨traced.db.chunks, flushVersions_traced traced.versions traced.db.versions flushed, ?_⟩,
    fun _ none => (List.not_mem_nil none).elim, fun _ none => (List.not_mem_nil none).elim⟩
  refine traced.db.documents.map (fun first second => Eq.trans second first) fun d _ => ?_
  rcases Pending.written_cases s.documents d.logicalDocumentId d with same | ⟨write, there, same⟩
  · rw [same]
    exact ⟨rfl, rfl⟩
  · rw [same]
    exact traced.documents write there d

theorem TracedSession.touch (traced : TracedSession old s) (done : s.touch now = .ok s') :
    TracedSession old s' :=
  have marked : TracedSession old { s with db := s.db.touchRetrievalCacheCorpusMarker now } :=
    ⟨⟨traced.db.chunks, traced.db.versions, traced.db.documents⟩, traced.versions, traced.documents⟩
  marked.flush done

theorem TracedSession.touchIf (traced : TracedSession old s) {visible : Bool}
    (done : s.touchIf visible now = .ok s') : TracedSession old s' := by
  unfold CorpusSession.touchIf at done
  split at done
  · exact traced.touch done
  · cases done
    exact traced

theorem TracedSession.write (traced : TracedSession old s) (documentVersionId : Nat)
    (values : DocumentVersion → DocumentVersion) (keeps : VersionWrite values) :
    TracedSession old (s.write documentVersionId values) where
  db := traced.db
  versions := Pending.stage_forall (P := VersionWrite) traced.versions keeps fun g before v =>
    ⟨(keeps (g v)).1.trans (before v).1, (before v).2.trans (keeps (g v)).2⟩
  documents := traced.documents

theorem TracedSession.writeDocument (traced : TracedSession old s) (logicalDocumentId : Nat)
    (values : LogicalDocument → LogicalDocument) (keeps : DocumentWrite values) :
    TracedSession old (s.writeDocument logicalDocumentId values) where
  db := traced.db
  versions := traced.versions
  documents := Pending.stage_forall (P := DocumentWrite) traced.documents keeps fun g before d =>
    ⟨(keeps (g d)).1.trans (before d).1, (keeps (g d)).2.trans (before d).2⟩

theorem TracedSession.withdraw (traced : TracedSession old s) {documentVersionId : Nat}
    {values : DocumentVersion → DocumentVersion}
    (done : sessionWithdraw documentVersionId now values s = .ok s') (keeps : VersionWrite values) :
    TracedSession old s' := by
  obtain ⟨mid, touched, flushed⟩ := Fallible.bind_ok done
  exact ((traced.write documentVersionId values keeps).touchIf touched).flush flushed

theorem TracedSession.touched (traced : TracedSession old s)
    (done : (s.touch now >>= CorpusSession.flush) = .ok s') : TracedSession old s' := by
  obtain ⟨mid, touched, flushed⟩ := Fallible.bind_ok done
  exact (traced.touch touched).flush flushed

theorem TracedSession.setActive (traced : TracedSession old s)
    {logicalDocumentId documentVersionId : Nat}
    (done : sessionSetActiveVersion logicalDocumentId documentVersionId now s = .ok s') :
    TracedSession old s' := by
  unfold sessionSetActiveVersion at done
  have activates : VersionWrite (activate now) := fun _ => ⟨rfl, rfl, rfl, rfl⟩
  have deactivates : VersionWrite (deactivate now) := fun _ => ⟨rfl, rfl, rfl, rfl⟩
  dsimp only at done
  split at done
  · split at done
    · exact ((traced.write _ _ deactivates).write _ _ activates).touched done
    · exact (traced.write _ _ activates).touched done
  · exact (traced.write _ _ activates).touched done

theorem TracedSession.archive (traced : TracedSession old s) {logicalDocumentId : Nat}
    (done : sessionArchiveDocument logicalDocumentId now s = .ok s') : TracedSession old s' := by
  unfold sessionArchiveDocument at done
  have deactivated (active : List DocumentVersion) (s₁ : CorpusSession)
      (before : TracedSession old s₁) : TracedSession old
        (active.foldl (fun s v => s.write v.documentVersionId (deactivate now)) s₁) := by
    induction active generalizing s₁ with
    | nil => exact before
    | cons v active ih => exact ih _ (before.write _ (deactivate now) fun _ => ⟨rfl, rfl, rfl, rfl⟩)
  exact (deactivated _ _ (traced.writeDocument _ (archivedValues now)
    fun _ => ⟨rfl, rfl⟩)).touched done

theorem TracedSession.retry (traced : TracedSession old s) {job : Job}
    (done : sessionPrepareDocumentIngestRetry job now s = .ok s') : TracedSession old s' := by
  unfold sessionPrepareDocumentIngestRetry at done
  split at done
  · cases done
    exact traced
  · split at done
    · cases done
    · split at done
      · cases done
      · split at done
        · cases done
          exact traced
        · cases done
          exact (traced.write _ (retryValues now) fun _ => ⟨rfl, rfl, rfl, rfl⟩).writeDocument _ _
            fun _ => ⟨rfl, rfl⟩

end Session

section Steps

/-- The ids of the chunks that an operation inserts. -/
def insertedIds : CorpusOperation → List Nat
  | .bulkInsertChunks chunks _ => chunks.map (·.documentChunkId)
  | _ => []

variable {old : Db} {s s' : CorpusSession}

theorem TracedSession.run (traced : TracedSession old s) {operation : CorpusOperation}
    (fresh : ∀ id ∈ insertedIds operation, id ∉ old.chunks.map (·.documentChunkId))
    (done : operation.run s = .ok s') : TracedSession old s' := by
  cases operation with
  | deleteChunks documentVersionId now =>
    have fewer : TracedSession old { s with db := { s.db with
        chunks := s.db.chunks.filter (·.documentVersionId != documentVersionId) } } :=
      ⟨⟨traced.db.chunks.sublist (List.filter_subset_self _), traced.db.versions,
        traced.db.documents⟩, traced.versions, traced.documents⟩
    exact fewer.touchIf done
  | bulkInsertChunks chunks now =>
    change sessionBulkInsertChunks chunks now s = .ok s' at done
    unfold sessionBulkInsertChunks at done
    split at done
    · cases done
      exact traced
    · split at done
      · cases done
      · split at done
        · cases done
        · obtain ⟨mid, touched, flushed⟩ := Fallible.bind_ok done
          have more : TracedSession old { s with db := { s.db with
              chunks := s.db.chunks ++ chunks } } :=
            ⟨⟨traced.db.chunks.append fun c member => fresh _ (List.mem_map_of_mem member),
              traced.db.versions, traced.db.documents⟩, traced.versions, traced.documents⟩
          exact (more.touchIf touched).flush flushed
  | resetVersionForIngest documentVersionId now =>
    exact traced.withdraw done fun _ => ⟨rfl, rfl, rfl, rfl⟩
  | markVersionFailed documentVersionId errorCode now =>
    exact traced.withdraw done fun _ => ⟨rfl, rfl, rfl, rfl⟩
  | markVersionReady documentVersionId now =>
    obtain ⟨mid, touched, flushed⟩ := Fallible.bind_ok done
    exact ((traced.write _ (readyValues now) fun _ => ⟨rfl, rfl, rfl, rfl⟩).touchIf touched).flush
      flushed
  | setActiveVersion logicalDocumentId documentVersionId now => exact traced.setActive done
  | archiveDocument logicalDocumentId now => exact traced.archive done
  | prepareDocumentIngestRetry job now => exact traced.retry done

/-- What happens to the documents while an entry lies in the cache: a transaction, an upload of new
rows, or the metadata that the ingest writes. -/
inductive StoreStep where
  | transaction (operations : List CorpusOperation)
  | upload (document : Option LogicalDocument) (version : DocumentVersion)
  | ingestMetadata (documentVersionId : Nat) (pageCount : Option Nat)
      (extractorName extractorVersion : String) (now : Time)

def StoreStep.run (db : Db) : StoreStep → Db
  | .transaction operations => commit db operations
  | .upload document version =>
    { db with
      documents := db.documents ++ document.toList
      versions := db.versions ++ [version] }
  | .ingestMetadata documentVersionId pageCount extractorName extractorVersion now =>
    match updateIngestMetadata documentVersionId pageCount extractorName extractorVersion now db with
    | .ok db' => db'
    | .error _ => db

/-- The ids of new rows come from sequences, and none of them is the id of an old row. -/
def StoreStep.New (old : Db) : StoreStep → Prop
  | .transaction operations => ∀ operation ∈ operations, ∀ id ∈ insertedIds operation,
      id ∉ old.chunks.map (·.documentChunkId)
  | .upload document version =>
    (∀ d ∈ document, d.logicalDocumentId ∉ old.documents.map (·.logicalDocumentId)) ∧
      version.documentVersionId ∉ old.versions.map (·.documentVersionId)
  | .ingestMetadata .. => True

theorem TracedSession.runs (traced : TracedSession old s) {operations : List CorpusOperation}
    (fresh : ∀ operation ∈ operations, ∀ id ∈ insertedIds operation,
      id ∉ old.chunks.map (·.documentChunkId))
    (done : operations.foldlM CorpusOperation.run s = .ok s') : TracedSession old s' := by
  induction operations generalizing s with
  | nil =>
    cases done
    exact traced
  | cons operation operations ih =>
    rw [List.foldlM_cons] at done
    obtain ⟨mid, first, rest⟩ := Fallible.bind_ok done
    exact ih (traced.run (fresh operation (.head _)) first)
      (fun later member => fresh later (.tail _ member)) rest

theorem TracedDb.step {db : Db} (traced : TracedDb old db) {step : StoreStep}
    (new : step.New old) : TracedDb old (step.run db) := by
  cases step with
  | transaction operations =>
    have start : TracedSession old ⟨db, [], []⟩ :=
      ⟨traced, fun _ none => (List.not_mem_nil none).elim,
        fun _ none => (List.not_mem_nil none).elim⟩
    change TracedDb old (commit db operations)
    unfold commit
    split
    · exact traced
    · rename_i s done
      split
      · exact traced
      · rename_i s' flushed
        exact ((start.runs new done).flush flushed).db
  | upload document version =>
    refine ⟨traced.chunks, traced.versions.append fun v member => ?_,
      traced.documents.append fun d member => ?_⟩
    · cases List.mem_singleton.mp member
      exact new.2
    · exact new.1 d (Option.mem_toList.mp member)
  | ingestMetadata documentVersionId pageCount extractorName extractorVersion now =>
    change TracedDb old (match updateIngestMetadata _ _ _ _ _ db with | .ok db' => db' | .error _ => db)
    unfold updateIngestMetadata
    dsimp only
    split
    · rename_i db' done
      split at done
      · cases done
      · rename_i versions update
        cases done
        refine ⟨traced.chunks, ?_, traced.documents⟩
        change Traced _ _ _ versions
        rw [(updateVersionRow_ok update).1]
        refine traced.versions.map SameVersion.trans fun v _ => ?_
        split
        · exact ⟨rfl, rfl, rfl, rfl⟩
        · exact ⟨rfl, rfl, rfl, rfl⟩
    · exact traced

structure DistinctKeys (db : Db) : Prop where
  chunks : (db.chunks.map (·.documentChunkId)).Nodup
  versions : (db.versions.map (·.documentVersionId)).Nodup
  documents : (db.documents.map (·.logicalDocumentId)).Nodup

theorem steps_traced {db : Db} (traced : TracedDb old db) {steps : List StoreStep}
    (new : ∀ step ∈ steps, step.New old) : TracedDb old (steps.foldl StoreStep.run db) := by
  induction steps generalizing db with
  | nil => exact traced
  | cons step steps ih =>
    exact ih (traced.step (new step (.head _))) fun later member => new later (.tail _ member)

/-- In every run, the rows that are still there show what they showed. -/
theorem texts_kept {db : Db} (keys : DistinctKeys db) {steps : List StoreStep}
    (new : ∀ step ∈ steps, step.New db) : SameTexts db (steps.foldl StoreStep.run db) := by
  have traced := steps_traced (TracedDb.refl db) new
  exact ⟨fun c before c' now same => (traced.chunks.same keys.chunks before now same).symm,
    fun v before v' now same => traced.versions.same keys.versions before now same,
    fun d before d' now same => traced.documents.same keys.documents before now same⟩

end Steps

end RagProject.Retrieval
