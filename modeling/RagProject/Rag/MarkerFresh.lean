import RagProject.Rag.CorpusMarker

/-! A change of what the searches see moves the corpus marker. What a transaction leaves waiting
neither shows nor hides a version, so that the queries between its operations see enough. -/
namespace RagProject.Rag
open Python Jobs Documents Ingest

section Flush

/-- One UPDATE for each key, as one map over the rows. -/
theorem flushVersions_rows {dirty : Pending.Writes Nat DocumentVersion}
    {versions rows : List DocumentVersion} (distinct : (dirty.map Prod.fst).Nodup)
    (sameId : ∀ write ∈ dirty, ∀ v, (write.2 v).documentVersionId = v.documentVersionId)
    (done : flushVersions dirty versions = .ok rows) :
    rows = versions.map fun v => Pending.written dirty v.documentVersionId v := by
  unfold flushVersions at done
  have perm := List.perm_insertionSort (fun a b : Nat × (DocumentVersion → DocumentVersion) =>
    a.1 ≤ b.1) dirty
  have sorted : ((dirty.insertionSort fun a b => a.1 ≤ b.1).map Prod.fst).Nodup :=
    (perm.map _).nodup_iff.mpr distinct
  have sameIds : ∀ write ∈ dirty.insertionSort fun a b => a.1 ≤ b.1, ∀ v,
      (write.2 v).documentVersionId = v.documentVersionId :=
    fun write member => sameId write (perm.mem_iff.mp member)
  have each (v : DocumentVersion) : Pending.written dirty v.documentVersionId v =
      Pending.written (dirty.insertionSort fun a b => a.1 ≤ b.1) v.documentVersionId v :=
    (Pending.written_perm distinct perm _ _).symm
  simp only [each]
  clear each perm sameId distinct
  generalize dirty.insertionSort (fun a b => a.1 ≤ b.1) = flushed at done sorted sameIds
  induction flushed generalizing versions with
  | nil =>
    cases done
    exact (List.map_id _).symm
  | cons write flushed ih =>
    obtain ⟨other, rest⟩ := List.nodup_cons.mp sorted
    rw [List.foldlM_cons] at done
    cases update : updateVersionRow write versions with
    | error constraint =>
      rw [update] at done
      cases done
    | ok next =>
      rw [update] at done
      rw [ih done rest fun w later => sameIds w (.tail _ later), (updateVersionRow_ok update).1,
        List.map_map]
      apply List.map_congr_left
      intro v _
      simp only [Function.comp, Pending.written_cons]
      by_cases here : v.documentVersionId = write.1
      · have same := sameIds write (.head _) v
        rw [if_pos here, if_pos here, same, here, Pending.written_absent other]
      · rw [if_neg here, if_neg here]

end Flush

section Waiting

structure VersionsOk (db : Db) : Prop where
  accepted : RowsAccepted db
  distinct : (db.versions.map (·.documentVersionId)).Nodup

/-- At most one write waits for each version, and it keeps the key. -/
structure Staged (writes : Pending.Writes Nat DocumentVersion) : Prop where
  keys : (writes.map Prod.fst).Nodup
  sameId : ∀ write ∈ writes, ∀ v, (write.2 v).documentVersionId = v.documentVersionId

/-- What waits touches only versions that no search sees, and shows none. -/
structure Waiting (s : CorpusSession) : Prop extends Staged s.versions where
  documents : ∀ write ∈ s.documents, ∀ d,
    (write.2 d).logicalDocumentId = d.logicalDocumentId ∧ (write.2 d).status = d.status
  hidden : ∀ v ∈ s.db.versions,
    Pending.written s.versions v.documentVersionId v = v ∨
    (v.isActive = false ∧ (Pending.written s.versions v.documentVersionId v).isActive = false)

/-- What a part of a transaction may do: leave the marker and every visible chunk, or set the
marker to its clock reading. -/
structure Moves (now : Time) (db db' : Db) : Prop where
  ok : VersionsOk db'
  seen : (db'.corpusMarker = db.corpusMarker ∧ visibleChunks db' = visibleChunks db) ∨
    db'.corpusMarker = some now

variable {s s' : CorpusSession} {now : Time} {documentVersionId : Nat}

theorem waiting_clean (db : Db) : Waiting ⟨db, [], []⟩ where
  keys := List.nodup_nil
  sameId := fun _ member => (List.not_mem_nil member).elim
  documents := fun _ member => (List.not_mem_nil member).elim
  hidden := fun _ _ => .inl rfl

theorem Staged.write {writes : Pending.Writes Nat DocumentVersion} (staged : Staged writes)
    (documentVersionId : Nat) (values : DocumentVersion → DocumentVersion)
    (sameId : ∀ v, (values v).documentVersionId = v.documentVersionId) :
    Staged (Pending.stage documentVersionId values writes) where
  keys := Pending.stage_distinct staged.keys _ _
  sameId := Pending.stage_forall
    (P := fun f => ∀ v, (f v).documentVersionId = v.documentVersionId) staged.sameId sameId
    fun g same v => (sameId (g v)).trans (same v)

theorem written_id (staged : Staged s.versions) (k : Nat) (v : DocumentVersion) :
    (Pending.written s.versions k v).documentVersionId = v.documentVersionId := by
  rcases Pending.written_cases s.versions k v with same | ⟨write, member, same⟩
  · rw [same]
  · rw [same]
    exact staged.sameId write member v

theorem flush_eq (done : s.flush = .ok s') (staged : Staged s.versions) :
    s' = ⟨{ s.db with
      documents := s.db.documents.map fun d => Pending.written s.documents d.logicalDocumentId d
      versions := s.db.versions.map fun v => Pending.written s.versions v.documentVersionId v },
      [], []⟩ := by
  simp only [CorpusSession.flush, bind, Except.bind, pure, Except.pure] at done
  split at done
  · cases done
  · rename_i versions flushed
    rw [flushVersions_rows staged.keys staged.sameId flushed] at done
    exact (Except.ok.inj done).symm

theorem flush_ok (done : s.flush = .ok s') (staged : Staged s.versions) (ok : VersionsOk s.db) :
    VersionsOk s'.db := by
  have same := flush_eq done staged
  constructor
  · simp only [CorpusSession.flush, bind, Except.bind, pure, Except.pure] at done
    split at done
    · cases done
    · rename_i versions flushed
      cases done
      exact flushVersions_accepted staged.sameId ok.accepted flushed
  · rw [same]
    have keys : (s.db.versions.map fun v =>
        Pending.written s.versions v.documentVersionId v).map (·.documentVersionId) =
          s.db.versions.map (·.documentVersionId) :=
      Table.map_keys fun v _ => written_id staged v.documentVersionId v
    rw [keys]
    exact ok.distinct

theorem versionIsRetrievalVisible_documents {db : Db} {g : LogicalDocument → LogicalDocument}
    (same : ∀ d ∈ db.documents, (g d).logicalDocumentId = d.logicalDocumentId ∧
      (g d).status = d.status) (documentVersionId : Nat) :
    versionIsRetrievalVisible documentVersionId { db with documents := db.documents.map g } =
      versionIsRetrievalVisible documentVersionId db := by
  have found (k : Nat) : (Db.getDocument { db with documents := db.documents.map g } k).any
      (·.status == .active) = (db.getDocument k).any (·.status == .active) := by
    rw [Db.getDocument, Table.row_map fun d member => (same d member).1]
    cases row : Table.row LogicalDocument.logicalDocumentId db.documents k with
    | none => simp [Db.getDocument, row]
    | some d => simp [Db.getDocument, row, (same d (Table.mem_of_row row).1).2]
  simp only [versionIsRetrievalVisible, found]

theorem flush_visible (done : s.flush = .ok s') (staged : Staged s.versions) (documents : ∀ write ∈ s.documents, ∀ d,
      (write.2 d).logicalDocumentId = d.logicalDocumentId ∧ (write.2 d).status = d.status)
    (same : ∀ v ∈ s.db.versions,
      rowVisible s.db (Pending.written s.versions v.documentVersionId v) = rowVisible s.db v) :
    s'.db.corpusMarker = s.db.corpusMarker ∧ visibleChunks s'.db = visibleChunks s.db := by
  rw [flush_eq done staged]
  refine ⟨rfl, ?_⟩
  have kept (d : LogicalDocument) :
      (Pending.written s.documents d.logicalDocumentId d).logicalDocumentId = d.logicalDocumentId ∧
      (Pending.written s.documents d.logicalDocumentId d).status = d.status := by
    rcases Pending.written_cases s.documents d.logicalDocumentId d with same | ⟨write, member, same⟩
    · rw [same]
      exact ⟨rfl, rfl⟩
    · rw [same]
      exact documents write member d
  simp only [visibleChunks]
  apply List.filter_congr
  intro c _
  have rows := versionIsRetrievalVisible_rows (fun v => written_id staged v.documentVersionId v)
    same c.documentVersionId
  rw [← rows]
  exact @versionIsRetrievalVisible_documents { s.db with versions := _ } _ (fun d _ => kept d)
    c.documentVersionId

theorem hidden_visible (waiting : Waiting s) {v : DocumentVersion}
    (member : v ∈ s.db.versions) :
    rowVisible s.db (Pending.written s.versions v.documentVersionId v) = rowVisible s.db v := by
  rcases waiting.hidden v member with same | ⟨before, after⟩
  · rw [same]
  · simp [rowVisible, before, after]

/-- A touch sends everything that waits. -/
theorem touch_moves {db : Db} (done : s.touch now = .ok s') (staged : Staged s.versions)
    (ok : VersionsOk s.db) : Moves now db s'.db ∧ s' = ⟨s'.db, [], []⟩ := by
  unfold CorpusSession.touch at done
  have same := flush_eq done staged
  refine ⟨⟨flush_ok done staged ⟨ok.accepted, ok.distinct⟩, .inr ?_⟩, ?_⟩
  · rw [same]
    rfl
  · rw [same]

theorem flush_clean {db : Db} (done : CorpusSession.flush ⟨db, [], []⟩ = .ok s') :
    s' = ⟨db, [], []⟩ := by
  rw [flush_eq done (waiting_clean db).toStaged]
  have documents : db.documents.map (fun d => Pending.written [] d.logicalDocumentId d) =
      db.documents := List.map_id _
  have versions : db.versions.map (fun v => Pending.written [] v.documentVersionId v) =
      db.versions := List.map_id _
  rw [documents, versions]

/-- A touch, if the version was visible, and then a flush. -/
theorem touchIf_flush {db : Db} {visible : Bool}
    (done : (s.touchIf visible now >>= CorpusSession.flush) = .ok s') (staged : Staged s.versions)
    (ok : VersionsOk s.db)
    (unseen : visible = false → ∀ s', s.flush = .ok s' →
      s'.db.corpusMarker = db.corpusMarker ∧ visibleChunks s'.db = visibleChunks db) :
    Moves now db s'.db ∧ Waiting s' := by
  cases visible with
  | true =>
    simp only [CorpusSession.touchIf, if_pos, bind, Except.bind] at done
    split at done
    · cases done
    · rename_i mid touched
      obtain ⟨moves, clean⟩ := @touch_moves _ _ _ db touched staged ok
      rw [clean] at done
      rw [flush_clean done]
      exact ⟨moves, waiting_clean _⟩
  | false =>
    have done : s.flush = .ok s' := done
    refine ⟨⟨flush_ok done staged ok, .inl (unseen rfl s' done)⟩, ?_⟩
    rw [flush_eq done staged]
    exact waiting_clean _

end Waiting

section Steps
variable {s s' : CorpusSession} {now : Time} {documentVersionId : Nat}

/-- One more write is sent: what waited before is not seen, the new write shows and hides nothing. -/
theorem write_unseen {values : DocumentVersion → DocumentVersion}
    (done : (s.write documentVersionId values).flush = .ok s') (waiting : Waiting s)
    (sameId : ∀ v, (values v).documentVersionId = v.documentVersionId)
    (unseen : ∀ v ∈ s.db.versions, v.documentVersionId = documentVersionId →
      rowVisible s.db (values (Pending.written s.versions documentVersionId v)) = rowVisible s.db v) :
    s'.db.corpusMarker = s.db.corpusMarker ∧ visibleChunks s'.db = visibleChunks s.db := by
  apply flush_visible done (waiting.toStaged.write documentVersionId values sameId) waiting.documents
  intro v member
  change rowVisible s.db (Pending.written (Pending.stage documentVersionId values s.versions)
    v.documentVersionId v) = rowVisible s.db v
  rw [Pending.written_stage]
  split
  · rename_i same
    exact unseen v member same
  · exact hidden_visible waiting member

theorem row_unseen {v : DocumentVersion} {db : Db} (member : v ∈ db.versions)
    (unseen : versionIsRetrievalVisible v.documentVersionId db = false) : rowVisible db v = false := by
  cases visible : rowVisible db v with
  | false => rfl
  | true =>
    have shown := versionIsRetrievalVisible_iff.mpr ⟨v, member, rfl, visible⟩
    rw [unseen] at shown
    cases shown

theorem withdraw_moves {values : DocumentVersion → DocumentVersion}
    (done : sessionWithdraw documentVersionId now values s = .ok s') (waiting : Waiting s)
    (ok : VersionsOk s.db) (sameId : ∀ v, (values v).documentVersionId = v.documentVersionId)
    (withdrawn : ∀ v, (values v).status ≠ .ready) :
    Moves now s.db s'.db ∧ Waiting s' := by
  refine touchIf_flush done (waiting.toStaged.write documentVersionId values sameId) ok ?_
  intro wasVisible s' done
  refine write_unseen done waiting sameId ?_
  intro v member same
  subst same
  rw [row_unseen member wasVisible]
  simp [rowVisible, withdrawn]

/-- A row that is active was ready before. -/
theorem ready_moves (waiting : Waiting s) (ok : VersionsOk s.db)
    (done : sessionMarkVersionReady documentVersionId now s = .ok s') :
    Moves now s.db s'.db ∧ Waiting s' := by
  refine touchIf_flush done
    (waiting.toStaged.write documentVersionId (readyValues now) fun _ => rfl) ok ?_
  intro _ s' done
  refine write_unseen done waiting (fun _ => rfl) ?_
  intro v member same
  subst same
  rcases waiting.hidden v member with kept | ⟨before, after⟩
  · rw [kept]
    cases active : v.isActive with
    | false => simp [rowVisible, readyValues, active]
    | true =>
      have ready := (version_checks (ok.accepted v member)).2.1 active
      simp [rowVisible, readyValues, active, ready]
  · simp [rowVisible, readyValues, before, after]

theorem touch_flush {db : Db} (done : (s.touch now >>= CorpusSession.flush) = .ok s')
    (staged : Staged s.versions) (ok : VersionsOk s.db) : Moves now db s'.db ∧ Waiting s' :=
  @touchIf_flush _ _ _ _ true done staged ok fun never => Bool.noConfusion never

theorem setActiveVersion_moves {logicalDocumentId : Nat} (waiting : Waiting s) (ok : VersionsOk s.db)
    (done : sessionSetActiveVersion logicalDocumentId documentVersionId now s = .ok s') :
    Moves now s.db s'.db ∧ Waiting s' := by
  unfold sessionSetActiveVersion at done
  dsimp only at done
  split at done
  · split at done
    · exact touch_flush done ((waiting.toStaged.write _ (deactivate now) fun _ => rfl).write _
        (activate now) fun _ => rfl) ok
    · exact touch_flush done (waiting.toStaged.write _ (activate now) fun _ => rfl) ok
  · exact touch_flush done (waiting.toStaged.write _ (activate now) fun _ => rfl) ok

theorem archiveDocument_moves {logicalDocumentId : Nat} (waiting : Waiting s) (ok : VersionsOk s.db)
    (done : sessionArchiveDocument logicalDocumentId now s = .ok s') :
    Moves now s.db s'.db ∧ Waiting s' := by
  unfold sessionArchiveDocument at done
  have deactivated (active : List DocumentVersion) (s₁ : CorpusSession)
      (staged : Staged s₁.versions) :
      Staged (active.foldl (fun s v => s.write v.documentVersionId (deactivate now)) s₁).versions ∧
      (active.foldl (fun s v => s.write v.documentVersionId (deactivate now)) s₁).db = s₁.db := by
    induction active generalizing s₁ with
    | nil => exact ⟨staged, rfl⟩
    | cons v active ih => exact ih _ (staged.write _ (deactivate now) fun _ => rfl)
  obtain ⟨staged, same⟩ := deactivated
    (s.db.versions.filter fun v => v.logicalDocumentId == logicalDocumentId && v.isActive)
    (s.writeDocument logicalDocumentId (archivedValues now)) waiting.toStaged
  exact touch_flush done staged (by rw [same]; exact ok)

theorem deleteChunks_moves (waiting : Waiting s) (ok : VersionsOk s.db)
    (done : sessionDeleteChunks documentVersionId now s = .ok s') :
    Moves now s.db s'.db ∧ Waiting s' := by
  unfold sessionDeleteChunks CorpusSession.touchIf at done
  dsimp only at done
  split at done
  · obtain ⟨moves, clean⟩ := @touch_moves _ _ _ s.db done waiting.toStaged
      ⟨ok.accepted, ok.distinct⟩
    rw [clean]
    exact ⟨moves, waiting_clean _⟩
  · rename_i unseen
    cases done
    refine ⟨⟨⟨ok.accepted, ok.distinct⟩, .inl ⟨rfl, ?_⟩⟩,
      ⟨waiting.toStaged, waiting.documents, waiting.hidden⟩⟩
    change (s.db.chunks.filter _).filter (fun c => versionIsRetrievalVisible c.documentVersionId s.db) =
      s.db.chunks.filter fun c => versionIsRetrievalVisible c.documentVersionId s.db
    rw [List.filter_filter]
    apply List.filter_congr
    intro c _
    by_cases gone : c.documentVersionId = documentVersionId
    · simp [gone, unseen]
    · simp [gone]

theorem bulkInsertChunks_moves {chunks : List DocumentChunk} (waiting : Waiting s)
    (ok : VersionsOk s.db) (done : sessionBulkInsertChunks chunks now s = .ok s') :
    Moves now s.db s'.db ∧ Waiting s' := by
  unfold sessionBulkInsertChunks at done
  split at done
  · cases done
    exact ⟨⟨ok, .inl ⟨rfl, rfl⟩⟩, waiting⟩
  split at done
  · cases done
  split at done
  · cases done
  · have inserted : Waiting { s with db := { s.db with chunks := s.db.chunks ++ chunks } } :=
      ⟨waiting.toStaged, waiting.documents, waiting.hidden⟩
    refine touchIf_flush done inserted.toStaged ⟨ok.accepted, ok.distinct⟩ ?_
    intro unseen s' done
    obtain ⟨marker, visible⟩ := flush_visible done inserted.toStaged inserted.documents
      fun v member => hidden_visible inserted member
    refine ⟨marker, visible.trans ?_⟩
    have none : chunks.filter (fun c => versionIsRetrievalVisible c.documentVersionId s.db) = [] := by
      rw [List.filter_eq_nil_iff]
      exact fun c member shown => by
        rw [List.any_eq_false] at unseen
        exact unseen c member shown
    change (s.db.chunks ++ chunks).filter _ = s.db.chunks.filter _
    rw [List.filter_append]
    exact (congrArg _ none).trans (List.append_nil _)

/-- The retry leaves its writes waiting: a failed version is not active. -/
theorem prepareRetry_moves {job : Job} (waiting : Waiting s) (ok : VersionsOk s.db)
    (done : sessionPrepareDocumentIngestRetry job now s = .ok s') :
    Moves now s.db s'.db ∧ Waiting s' := by
  have stays : Moves now s.db s.db := ⟨ok, .inl ⟨rfl, rfl⟩⟩
  unfold sessionPrepareDocumentIngestRetry at done
  split at done
  · cases done
    exact ⟨stays, waiting⟩
  split at done
  · cases done
  split at done
  · cases done
  · rename_i documentVersionId _ version found
    split at done
    · cases done
      exact ⟨stays, waiting⟩
    · rename_i failed
      cases done
      obtain ⟨row, at_key, rfl⟩ := Option.map_eq_some_iff.mp found
      obtain ⟨there, rfl⟩ := Table.mem_of_row at_key
      have inactive : row.isActive = false := by
        rcases waiting.hidden row there with same | ⟨before, _⟩
        · rw [same] at failed
          have ready := (version_checks (ok.accepted row there)).2.1
          cases active : row.isActive with
          | false => rfl
          | true => simp [ready active] at failed
        · exact before
      refine ⟨stays, waiting.toStaged.write _ (retryValues now) fun _ => rfl, ?_, ?_⟩
      · exact Pending.stage_forall
          (P := fun f => ∀ d : LogicalDocument,
            (f d).logicalDocumentId = d.logicalDocumentId ∧ (f d).status = d.status)
          waiting.documents (fun _ => ⟨rfl, rfl⟩) fun g same d => same d
      · intro v member
        change Pending.written (Pending.stage row.documentVersionId (retryValues now) s.versions)
            v.documentVersionId v = v ∨ v.isActive = false ∧
          (Pending.written (Pending.stage row.documentVersionId (retryValues now) s.versions)
            v.documentVersionId v).isActive = false
        rw [Pending.written_stage]
        split
        · rename_i same
          rw [Table.unique ok.distinct member there same]
          exact .inr ⟨inactive, rfl⟩
        · exact waiting.hidden v member

theorem run_moves (waiting : Waiting s) (ok : VersionsOk s.db) {operation : CorpusOperation}
    (done : operation.run s = .ok s') : Moves operation.reading s.db s'.db ∧ Waiting s' := by
  cases operation with
  | deleteChunks documentVersionId now => exact deleteChunks_moves waiting ok done
  | bulkInsertChunks chunks now => exact bulkInsertChunks_moves waiting ok done
  | resetVersionForIngest documentVersionId now =>
    exact withdraw_moves done waiting ok (fun _ => rfl) fun _ same => nomatch same
  | markVersionFailed documentVersionId errorCode now =>
    exact withdraw_moves done waiting ok (fun _ => rfl) fun _ same => nomatch same
  | markVersionReady documentVersionId now => exact ready_moves waiting ok done
  | setActiveVersion logicalDocumentId documentVersionId now =>
    exact setActiveVersion_moves waiting ok done
  | archiveDocument logicalDocumentId now => exact archiveDocument_moves waiting ok done
  | prepareDocumentIngestRetry job now => exact prepareRetry_moves waiting ok done

end Steps

section Clean

/-- In a session with nothing waiting, the write is the one of the ingest transactions. -/
theorem withdraw_clean (documentVersionId : Nat) (now : Time)
    (values : DocumentVersion → DocumentVersion) (db : Db) :
    ((sessionWithdraw documentVersionId now values ⟨db, [], []⟩).map (·.db)).toOption =
      (writeVersion documentVersionId now values db).toOption := by
  cases visible : versionIsRetrievalVisible documentVersionId db <;>
    cases updated : updateVersionRow (documentVersionId, values) db.versions <;>
    simp [sessionWithdraw, CorpusSession.touchIf, CorpusSession.touch, CorpusSession.flush,
      CorpusSession.write, Pending.stage, writeVersion, Ingest.touchIf, visible, updated,
      Db.touchRetrievalCacheCorpusMarker, bind, Except.bind, pure, Except.pure, Except.map,
      Except.toOption, flushVersions]

end Clean

section Transactions

theorem runs_moves {operations : List CorpusOperation} {s s' : CorpusSession} (waiting : Waiting s)
    (ok : VersionsOk s.db) (done : operations.foldlM CorpusOperation.run s = .ok s') :
    VersionsOk s'.db ∧ Waiting s' ∧
    ((s'.db.corpusMarker = s.db.corpusMarker ∧ visibleChunks s'.db = visibleChunks s.db) ∨
      ∃ operation ∈ operations, s'.db.corpusMarker = some operation.reading) := by
  induction operations generalizing s with
  | nil =>
    cases done
    exact ⟨ok, waiting, .inl ⟨rfl, rfl⟩⟩
  | cons operation operations ih =>
    rw [List.foldlM_cons] at done
    cases first : operation.run s with
    | error e =>
      rw [first] at done
      cases done
    | ok mid =>
      rw [first] at done
      obtain ⟨moves, waits⟩ := run_moves waiting ok first
      obtain ⟨okAfter, waitsAfter, seen⟩ := ih waits moves.ok done
      refine ⟨okAfter, waitsAfter, ?_⟩
      rcases seen with ⟨marker, visible⟩ | ⟨later, member, marker⟩
      · rcases moves.seen with ⟨before, same⟩ | touched
        · exact .inl ⟨marker.trans before, visible.trans same⟩
        · exact .inr ⟨operation, .head _, marker.trans touched⟩
      · exact .inr ⟨later, .tail _ member, marker⟩

theorem commit_moves {db : Db} (ok : VersionsOk db) (operations : List CorpusOperation) :
    VersionsOk (commit db operations) ∧
    (((commit db operations).corpusMarker = db.corpusMarker ∧
        visibleChunks (commit db operations) = visibleChunks db) ∨
      ∃ operation ∈ operations, (commit db operations).corpusMarker = some operation.reading) := by
  unfold commit
  split
  · exact ⟨ok, .inl ⟨rfl, rfl⟩⟩
  · rename_i s done
    obtain ⟨okAfter, waiting, seen⟩ := runs_moves (waiting_clean db) ok done
    split
    · exact ⟨ok, .inl ⟨rfl, rfl⟩⟩
    · rename_i s' flushed
      obtain ⟨marker, visible⟩ := flush_visible flushed waiting.toStaged waiting.documents
        fun v member => hidden_visible waiting member
      refine ⟨flush_ok flushed waiting.toStaged okAfter, ?_⟩
      rw [marker, visible]
      exact seen

def readings (operations : List CorpusOperation) : List Time := operations.map (·.reading)

/-- The states from the first one to the last one. -/
def history (db : Db) : List (List CorpusOperation) → List Db
  | [] => [db]
  | operations :: later => db :: history (commit db operations) later

def commitAll (db : Db) (transactions : List (List CorpusOperation)) : Db :=
  transactions.foldl commit db

theorem commitAll_mem (db : Db) (transactions : List (List CorpusOperation)) :
    commitAll db transactions ∈ history db transactions := by
  induction transactions generalizing db with
  | nil => exact .head _
  | cons operations later ih => exact .tail _ (ih (commit db operations))

theorem commitAll_ok {db : Db} (ok : VersionsOk db) (transactions : List (List CorpusOperation)) :
    VersionsOk (commitAll db transactions) := by
  induction transactions generalizing db with
  | nil => exact ok
  | cons operations later ih => exact ih (commit_moves ok operations).1

/-- Every marker of a run is the first one or a reading of one of its transactions. -/
theorem history_marker {db : Db} (ok : VersionsOk db) {transactions : List (List CorpusOperation)}
    {state : Db} (member : state ∈ history db transactions) {time : Time}
    (marker : state.corpusMarker = some time) :
    time ∈ db.corpusMarker.toList ++ transactions.flatMap readings := by
  induction transactions generalizing db with
  | nil =>
    cases List.mem_singleton.mp member
    simp [marker]
  | cons operations later ih =>
    rcases List.mem_cons.mp member with rfl | after
    · simp [marker]
    · obtain ⟨okAfter, seen⟩ := commit_moves ok operations
      have found := ih okAfter after
      rw [List.flatMap_cons]
      simp only [List.mem_append] at found ⊢
      rcases found with last | found
      · rcases seen with ⟨same, _⟩ | ⟨operation, there, touched⟩
        · exact .inl (same ▸ last)
        · rw [touched] at last
          cases List.mem_singleton.mp last
          exact .inr (.inl (List.mem_map_of_mem there))
      · exact .inr (.inr found)

/-- The digests of the readings differ, and none is that of a missing marker. -/
structure Apart (modality : String) (times : List Time) : Prop where
  injective : ∀ a ∈ times, ∀ b ∈ times, Sha256.hexDigest (markerPayload modality a) =
    Sha256.hexDigest (markerPayload modality b) → a = b
  present : ∀ a ∈ times, Sha256.hexDigest (markerPayload modality a) ≠ hashNone

/-- A transaction after which the searches see other chunks leaves another marker, and one that no
earlier state had. -/
theorem marker_fresh (db : Db) (ok : VersionsOk db) (earlier : List (List CorpusOperation))
    (operations : List CorpusOperation) (modality : String)
    (distinct : ∀ time ∈ readings operations,
      time ∉ db.corpusMarker.toList ++ earlier.flatMap readings)
    (apart : Apart modality
      (db.corpusMarker.toList ++ earlier.flatMap readings ++ readings operations))
    (changed : visibleChunks (commit (commitAll db earlier) operations) ≠
      visibleChunks (commitAll db earlier)) :
    activeCorpusMarker modality (commit (commitAll db earlier) operations) ≠
      activeCorpusMarker modality (commitAll db earlier) ∧
    ∀ state ∈ history db earlier,
      activeCorpusMarker modality (commit (commitAll db earlier) operations) ≠
        activeCorpusMarker modality state := by
  suffices fresh : ∀ state ∈ history db earlier,
      activeCorpusMarker modality (commit (commitAll db earlier) operations) ≠
        activeCorpusMarker modality state from ⟨fresh _ (commitAll_mem db earlier), fresh⟩
  intro state member
  obtain ⟨_, seen⟩ := commit_moves (commitAll_ok ok earlier) operations
  obtain ⟨operation, there, touched⟩ := seen.resolve_left fun same => changed same.2
  have new : operation.reading ∈ readings operations := List.mem_map_of_mem there
  unfold activeCorpusMarker
  rw [touched]
  cases marker : state.corpusMarker with
  | none => exact apart.present _ (List.mem_append_right _ new)
  | some time =>
    have used := history_marker ok member marker
    intro same
    have equal := apart.injective _ (List.mem_append_right _ new) _ (List.mem_append_left _ used) same
    exact distinct _ new (equal ▸ used)

/-- An activation, and then the deletion of the chunks that it showed. -/
theorem marker_fresh_deleted :
    visibleChunks (commit (commitAll cacheStart.db [[.setActiveVersion 1 1 20]])
        [.deleteChunks 1 30]) ≠ visibleChunks (commitAll cacheStart.db [[.setActiveVersion 1 1 20]]) ∧
    activeCorpusMarker "text" (commit (commitAll cacheStart.db [[.setActiveVersion 1 1 20]])
        [.deleteChunks 1 30]) ≠
      activeCorpusMarker "text" (commitAll cacheStart.db [[.setActiveVersion 1 1 20]]) ∧
    ∀ state ∈ history cacheStart.db [[.setActiveVersion 1 1 20]],
      activeCorpusMarker "text" (commit (commitAll cacheStart.db [[.setActiveVersion 1 1 20]])
        [.deleteChunks 1 30]) ≠ activeCorpusMarker "text" state := by
  have changed : visibleChunks (commit (commitAll cacheStart.db [[.setActiveVersion 1 1 20]])
      [.deleteChunks 1 30]) ≠
        visibleChunks (commitAll cacheStart.db [[.setActiveVersion 1 1 20]]) := by
    decide +kernel
  have first : Sha256.hexDigest (markerPayload "text" 20) =
      "005951975013ad4610a9f500c8ee6c6ffe15290ca94d38a436706bf87a7e2f28" := by
    decide +kernel
  have second : Sha256.hexDigest (markerPayload "text" 30) =
      "9cc6af76cd9dc23398983d3138ca38312cfe898ba5f9e6912935b62f352bf9e5" := by
    decide +kernel
  have apart : Apart "text" [20, 30] := by
    constructor <;>
      simp only [List.forall_mem_cons, List.not_mem_nil, false_imp_iff, implies_true, and_true,
        first, second] <;>
      decide
  exact ⟨changed, marker_fresh cacheStart.db ⟨by unfold RowsAccepted; decide, by decide⟩ _ _ "text"
    (by decide) apart changed⟩

end Transactions

end RagProject.Rag
