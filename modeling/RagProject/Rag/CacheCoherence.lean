import RagProject.Rag.Cache

/-! When a cache hit returns what a retrieval would return. A marker that has been replaced
never comes back, so an entry under the current marker was checked against the current rows;
nothing but the condition on the hit ties it to the current payloads. -/
namespace RagProject.Rag
open Python Jobs Documents Qdrant Ingest Interleaving

section Corpus

def RowsAccepted (db : Db) : Prop := ∀ v ∈ db.versions, v.violation = none

/-- The two databases differ in their jobs and settings only. -/
structure SameCorpus (db db' : Db) : Prop where
  documents : db'.documents = db.documents
  versions : db'.versions = db.versions
  chunks : db'.chunks = db.chunks
  corpusMarker : db'.corpusMarker = db.corpusMarker

theorem SameCorpus.refl (db : Db) : SameCorpus db db := ⟨rfl, rfl, rfl, rfl⟩

theorem SameCorpus.trans {db db' db'' : Db} (first : SameCorpus db db')
    (second : SameCorpus db' db'') : SameCorpus db db'' := by
  constructor
  · exact second.documents.trans first.documents
  · exact second.versions.trans first.versions
  · exact second.chunks.trans first.chunks
  · exact second.corpusMarker.trans first.corpusMarker

def SameVisible (db db' : Db) : Prop :=
  ∀ modality documentChunkId,
    visibleRow modality db' documentChunkId = visibleRow modality db documentChunkId

/-- What a transaction may do to the searches: leave the marker and every visible row, or set
the marker to one of its clock readings. -/
structure CorpusStep (clocks : List Time) (db db' : Db) : Prop where
  accepted : RowsAccepted db'
  seen : (db'.corpusMarker = db.corpusMarker ∧ SameVisible db db') ∨
    ∃ now ∈ clocks, db'.corpusMarker = some now

theorem corpusStep_of_same {db db' : Db} (clocks : List Time) (accepted : RowsAccepted db)
    (same : SameCorpus db db') : CorpusStep clocks db db' := by
  constructor
  · intro v member
    rw [same.versions] at member
    exact accepted v member
  · left
    refine ⟨same.corpusMarker, fun modality id => ?_⟩
    simp only [visibleRow, versionIsRetrievalVisible, Db.getDocument, same.documents,
      same.versions, same.chunks]

theorem CorpusStep.trans {clocks : List Time} {db db' db'' : Db} (first : CorpusStep clocks db db')
    (second : CorpusStep clocks db' db'') : CorpusStep clocks db db'' := by
  refine ⟨second.accepted, ?_⟩
  rcases second.seen with ⟨marker, same⟩ | touched
  · rcases first.seen with ⟨marker', same'⟩ | ⟨now, clock, touched⟩
    · exact .inl ⟨marker.trans marker', fun modality id =>
        (same modality id).trans (same' modality id)⟩
    · exact .inr ⟨now, clock, marker.trans touched⟩
  · exact .inr touched

theorem CorpusStep.mono {clocks clocks' : List Time} {db db' : Db} (step : CorpusStep clocks db db')
    (more : clocks ⊆ clocks') : CorpusStep clocks' db db' := by
  refine ⟨step.accepted, ?_⟩
  rcases step.seen with same | ⟨now, clock, marker⟩
  · exact .inl same
  · exact .inr ⟨now, more clock, marker⟩

theorem updateVersionRow_ok {documentVersionId : Nat} {values : DocumentVersion → DocumentVersion}
    {versions rows : List DocumentVersion}
    (done : updateVersionRow (documentVersionId, values) versions = .ok rows) :
    rows = versions.map (fun v => if v.documentVersionId = documentVersionId then values v else v) ∧
      ∀ v ∈ rows, v.documentVersionId = documentVersionId → v.violation = none := by
  simp only [updateVersionRow] at done
  split at done
  · cases done
  · rename_i passed
    split at done
    · cases done
      refine ⟨rfl, fun v member same => ?_⟩
      exact List.findSome?_eq_none_iff.mp passed v
        (List.mem_filter.mpr ⟨member, by simpa using same⟩)
    · cases done

/-- An update that keeps the id of its row leaves only accepted rows. -/
theorem updateVersionRow_accepted {row : Nat × (DocumentVersion → DocumentVersion)}
    {versions rows : List DocumentVersion}
    (sameId : ∀ v, (row.2 v).documentVersionId = v.documentVersionId)
    (accepted : ∀ v ∈ versions, v.violation = none)
    (done : updateVersionRow row versions = .ok rows) : ∀ v ∈ rows, v.violation = none := by
  obtain ⟨same, checked⟩ := updateVersionRow_ok done
  intro v' member
  have image := member
  rw [same] at image
  obtain ⟨v, old, rfl⟩ := List.mem_map.mp image
  by_cases hit : v.documentVersionId = row.1
  · apply checked _ member
    rw [if_pos hit, sameId, hit]
  · rw [if_neg hit]
    exact accepted v old

theorem flushVersions_accepted {dirty : List (Nat × (DocumentVersion → DocumentVersion))}
    {versions rows : List DocumentVersion}
    (sameId : ∀ row ∈ dirty, ∀ v, (row.2 v).documentVersionId = v.documentVersionId)
    (accepted : ∀ v ∈ versions, v.violation = none)
    (done : flushVersions dirty versions = .ok rows) : ∀ v ∈ rows, v.violation = none := by
  unfold flushVersions at done
  have sorted : ∀ row ∈ dirty.insertionSort fun a b => a.1 ≤ b.1, ∀ v,
      (row.2 v).documentVersionId = v.documentVersionId := fun row member =>
    sameId row ((List.mem_insertionSort _).mp member)
  generalize dirty.insertionSort (fun a b => a.1 ≤ b.1) = flushed at done sorted
  induction flushed generalizing versions with
  | nil =>
    cases done
    exact accepted
  | cons row flushed ih =>
    rw [List.foldlM_cons] at done
    cases update : updateVersionRow row versions with
    | error constraint =>
      rw [update] at done
      cases done
    | ok next =>
      rw [update] at done
      exact ih (updateVersionRow_accepted (sorted row List.mem_cons_self) accepted update) done
        fun r later => sorted r (List.mem_cons_of_mem _ later)

theorem setActiveVersion_corpus {logicalDocumentId : Nat} {version : DocumentVersion} {now : Time}
    {db db' : Db} {previous : Option Nat} (accepted : RowsAccepted db)
    (done : setActiveVersion logicalDocumentId version now db = .ok (db', previous)) :
    RowsAccepted db' ∧ db'.corpusMarker = some now := by
  simp only [setActiveVersion, bind, Except.bind, pure, Except.pure] at done
  split at done
  · cases done
  · rename_i versions flushed
    cases done
    refine ⟨flushVersions_accepted ?_ accepted flushed, rfl⟩
    intro row member v
    rcases List.mem_append.mp member with replaced | chosen
    · split at replaced
      · split at replaced
        · cases List.mem_singleton.mp replaced
          rfl
        · cases replaced
      · cases replaced
    · cases List.mem_singleton.mp chosen
      rfl

theorem archiveDocumentRows_corpus {logicalDocumentId : Nat} {now : Time} {db db' : Db}
    (accepted : RowsAccepted db)
    (done : archiveDocumentRows logicalDocumentId now db = .ok db') :
    RowsAccepted db' ∧ db'.corpusMarker = some now := by
  simp only [archiveDocumentRows, bind, Except.bind, pure, Except.pure] at done
  split at done
  · cases done
  · rename_i versions flushed
    cases done
    refine ⟨flushVersions_accepted ?_ accepted flushed, rfl⟩
    intro row member v
    obtain ⟨w, _, rfl⟩ := List.mem_map.mp member
    rfl

theorem corpusStep_of_marker {clocks : List Time} {now : Time} {db mid db' : Db}
    (moved : RowsAccepted mid ∧ mid.corpusMarker = some now) (clock : now ∈ clocks)
    (versions : db'.versions = mid.versions) (marker : db'.corpusMarker = mid.corpusMarker) :
    CorpusStep clocks db db' := by
  constructor
  · intro v member
    rw [versions] at member
    exact moved.1 v member
  · exact .inr ⟨now, clock, marker.trans moved.2⟩

def rowVisible (db : Db) (v : DocumentVersion) : Bool :=
  v.status == .ready && v.isActive && (db.getDocument v.logicalDocumentId).any (·.status == .active)

theorem versionIsRetrievalVisible_iff {documentVersionId : Nat} {db : Db} :
    versionIsRetrievalVisible documentVersionId db = true ↔
      ∃ v ∈ db.versions, v.documentVersionId = documentVersionId ∧ rowVisible db v = true := by
  simp [versionIsRetrievalVisible, rowVisible, and_assoc]

/-- An update of the version rows that shows and hides none. -/
theorem versionIsRetrievalVisible_rows {db : Db} {g : DocumentVersion → DocumentVersion}
    (sameId : ∀ v, (g v).documentVersionId = v.documentVersionId)
    (same : ∀ v ∈ db.versions, rowVisible db (g v) = rowVisible db v) (documentVersionId : Nat) :
    versionIsRetrievalVisible documentVersionId { db with versions := db.versions.map g } =
      versionIsRetrievalVisible documentVersionId db := by
  rw [Bool.eq_iff_iff, versionIsRetrievalVisible_iff, versionIsRetrievalVisible_iff]
  constructor
  · rintro ⟨v', member, ofVersion, visible⟩
    obtain ⟨v, old, rfl⟩ := List.mem_map.mp member
    exact ⟨v, old, (sameId v).symm.trans ofVersion, (same v old).symm.trans visible⟩
  · rintro ⟨v, member, ofVersion, visible⟩
    exact ⟨g v, List.mem_map_of_mem member, (sameId v).trans ofVersion,
      (same v member).trans visible⟩

theorem sameVisible_of_rows {db : Db} {g : DocumentVersion → DocumentVersion}
    (sameId : ∀ v, (g v).documentVersionId = v.documentVersionId)
    (same : ∀ v ∈ db.versions, rowVisible db (g v) = rowVisible db v) :
    SameVisible db { db with versions := db.versions.map g } := by
  intro modality id
  simp only [visibleRow, versionIsRetrievalVisible_rows sameId same]

/-- A ready write without the marker leaves the visible versions: the row was not active, since
only a ready row may be. -/
theorem markVersionReady_corpus {documentVersionId : Nat} {now : Time} {db db' : Db}
    (accepted : RowsAccepted db) (done : markVersionReady documentVersionId now db = .ok db') :
    CorpusStep [now] db db' := by
  simp only [markVersionReady, writeVersion] at done
  split at done
  · cases done
  · rename_i rows updated
    cases done
    have rowsAccepted := updateVersionRow_accepted (fun _ => rfl) accepted updated
    cases visible : versionIsRetrievalVisible documentVersionId db with
    | true => exact ⟨rowsAccepted, .inr ⟨now, List.mem_singleton_self now, rfl⟩⟩
    | false =>
      refine ⟨rowsAccepted, .inl ⟨rfl, ?_⟩⟩
      rw [(updateVersionRow_ok updated).1]
      apply sameVisible_of_rows
      · intro v
        split <;> rfl
      · intro v member
        split
        · rename_i same
          have unseen : ¬rowVisible db v = true := fun shown => by
            have shown := versionIsRetrievalVisible_iff.mpr ⟨v, member, same, shown⟩
            simp [visible] at shown
          have ready := (version_checks (accepted v member)).2.1
          cases active : v.isActive with
          | false => simp [rowVisible, active]
          | true => simp [rowVisible, active, ready active]
        · rfl

section
variable [UnicodeTables]

theorem createGraphIndexJobs_same {request : Request} {ids : List Nat} {db db' : Db}
    (done : createGraphIndexJobs request ids db = .ok db') : SameCorpus db db' := by
  unfold createGraphIndexJobs at done
  induction ids generalizing db with
  | nil =>
    cases done
    exact .refl _
  | cons id ids ih =>
    rw [List.foldlM_cons] at done
    cases created : createGraphIndexJob request id db with
    | error e =>
      rw [created] at done
      cases done
    | ok next =>
      rw [created] at done
      have one : SameCorpus db next := by
        unfold createGraphIndexJob at created
        split at created
        · split at created
          · cases created
            exact ⟨rfl, rfl, rfl, rfl⟩
          · cases created
        · cases created
          exact .refl _
      exact one.trans (ih done)

theorem approveVersion_corpus {request : Request} {logicalDocumentId documentVersionId : Nat}
    {db db' : Db} {response : ApproveResponse} (accepted : RowsAccepted db)
    (done : approveVersion request logicalDocumentId documentVersionId db = .ok (db', response)) :
    CorpusStep [request.now] db db' := by
  unfold approveVersion at done
  split at done
  · cases done
  · cases done
  · dsimp only at done
    split at done
    · cases done
    split at done
    · cases done
      exact corpusStep_of_same _ accepted (.refl db)
    split at done
    · cases done
    split at done
    · cases done
    · rename_i activated
      simp only [bind, Except.bind, pure, Except.pure] at done
      split at done
      · cases done
      · rename_i enqueued
        cases done
        have same := createGraphIndexJobs_same enqueued
        exact corpusStep_of_marker (setActiveVersion_corpus accepted activated)
          (List.mem_singleton_self request.now) same.versions same.corpusMarker

theorem archiveDocument_corpus {request : Request} {logicalDocumentId : Nat} {db db' : Db}
    {response : ArchiveResponse} (accepted : RowsAccepted db)
    (done : archiveDocument request logicalDocumentId db = .ok (db', response)) :
    CorpusStep [request.now] db db' := by
  unfold archiveDocument at done
  split at done
  · cases done
  · dsimp only at done
    split at done
    · cases done
      exact corpusStep_of_same _ accepted (.refl db)
    split at done
    · cases done
    · rename_i archived
      simp only [bind, Except.bind, pure, Except.pure] at done
      split at done
      · cases done
      · rename_i enqueued
        cases done
        have same := createGraphIndexJobs_same enqueued
        exact corpusStep_of_marker (archiveDocumentRows_corpus accepted archived)
          (List.mem_singleton_self request.now) same.versions same.corpusMarker

theorem finalizeVersion_corpus {context : Ingest.JobExecutionContext}
    {documentVersionId expectedChunkCount : Nat} {readyAt activatedAt now : Time} {db db' : Db}
    (accepted : RowsAccepted db)
    (done : finalizeVersion context documentVersionId expectedChunkCount readyAt activatedAt now db =
      .ok db') : CorpusStep [readyAt, activatedAt] db db' := by
  unfold finalizeVersion at done
  split at done
  · cases done
  split at done
  · cases done
  split at done
  · cases done
  · simp only [bind, Except.bind] at done
    split at done
    · cases done
    split at done
    · cases done
    split at done
    · cases done
    · rename_i marked ready
      split at done
      · cases done
      · rename_i last activated
        have first : CorpusStep [readyAt, activatedAt] db marked :=
          (markVersionReady_corpus accepted ready).mono (by simp)
        have second : CorpusStep [readyAt, activatedAt] marked last := by
          unfold activateIfRequested at activated
          split at activated
          · split at activated
            · rename_i set
              cases activated
              exact corpusStep_of_marker (setActiveVersion_corpus first.accepted set) (by simp)
                rfl rfl
            · cases activated
          · cases activated
            exact corpusStep_of_same _ first.accepted (.refl _)
        refine (first.trans second).trans ?_
        unfold createReadyGraphJob at done
        split at done
        · split at done
          · cases done
            exact corpusStep_of_same _ second.accepted ⟨rfl, rfl, rfl, rfl⟩
          · cases done
        · cases done
          exact corpusStep_of_same _ second.accepted (.refl _)

theorem mirror_corpus {s t : MirrorSystem} {action : MirrorAction} (accepted : RowsAccepted s.db)
    (done : s.step action = some t) : CorpusStep (CacheAction.mirror action).clocks s.db t.db := by
  cases action with
  | approve request document version =>
    simp only [MirrorSystem.step] at done
    split at done
    · rename_i approved
      cases done
      exact approveVersion_corpus accepted approved
    · cases done
      exact corpusStep_of_same _ accepted (.refl _)
  | archive request document =>
    simp only [MirrorSystem.step] at done
    split at done
    · rename_i archived
      cases done
      exact archiveDocument_corpus accepted archived
    · cases done
      exact corpusStep_of_same _ accepted (.refl _)
  | lease call =>
    simp only [MirrorSystem.step] at done
    split at done
    · cases done
      exact corpusStep_of_same _ accepted ⟨rfl, rfl, rfl, rfl⟩
    · cases done
  | begin worker jobId =>
    simp only [MirrorSystem.step] at done
    split at done
    · split at done
      · obtain ⟨request, _, rest⟩ := Option.bind_eq_some_iff.mp done
        obtain ⟨snapshots, _, rfl⟩ := Option.map_eq_some_iff.mp rest
        exact corpusStep_of_same _ accepted (.refl _)
      · cases done
    · cases done
  | sync worker =>
    simp only [MirrorSystem.step] at done
    split at done
    · split at done <;>
      · cases done
        exact corpusStep_of_same _ accepted (.refl _)
    · cases done
  | abandon worker =>
    cases done
    exact corpusStep_of_same _ accepted (.refl _)
  | finish worker leaseDuration renewedAt finishedAt =>
    simp only [MirrorSystem.step] at done
    split at done
    · split at done <;>
      · cases done
        exact corpusStep_of_same _ accepted ⟨rfl, rfl, rfl, rfl⟩
    · cases done

end

end Corpus

section Searches

theorem finalCheckCandidates_congr {db db' : Db} (same : SameVisible db db') (modality : String)
    (candidates : List VectorSearchCandidate) :
    finalCheckCandidates modality candidates db' = finalCheckCandidates modality candidates db := by
  simp only [finalCheckCandidates, same modality]

theorem outcome_congr {services : SearchServices} {context : RetrievalCacheContext}
    {points : List (PointId × Option Nat)} {db db' : Db} (same : SameVisible db db') :
    outcome services context points db' = outcome services context points db := by
  simp only [outcome, finalCheckCandidates_congr same]

/-- What a phase has computed is what it would compute from the given rows. -/
def SearchPhase.Sound (services : SearchServices) (context : RetrievalCacheContext) (db : Db) :
    SearchPhase → Prop
  | .keyed | .missed => True
  | .found entry => outcome services context entry.seen db = some entry.items
  | .searched seen candidates => vectorSearch services context seen = some candidates
  | .checked seen rows => ∃ candidates, vectorSearch services context seen = some candidates ∧
      rows = finalCheckCandidates context.modality candidates db
  | .retrieved seen items => outcome services context seen db = some items

theorem SearchPhase.Sound.congr {services : SearchServices} {context : RetrievalCacheContext}
    {db db' : Db} (same : SameVisible db db') {phase : SearchPhase}
    (sound : phase.Sound services context db) : phase.Sound services context db' := by
  cases phase with
  | keyed | missed => trivial
  | found entry => exact (outcome_congr same).trans sound
  | searched seen candidates => exact sound
  | checked seen rows =>
    obtain ⟨candidates, searched, rfl⟩ := sound
    exact ⟨candidates, searched, (finalCheckCandidates_congr same _ _).symm⟩
  | retrieved seen items => exact (outcome_congr same).trans sound

/-- Everything computed under the current marker is what the current rows give, and no pending
clock reading has been used as a marker. -/
structure Coherent (services : SearchServices) (pending : List Time) (s : CacheSystem) : Prop where
  accepted : RowsAccepted s.db
  entries : ∀ e ∈ s.entries, e.key.activeDocumentFingerprint = s.db.corpusMarker →
    outcome services e.key.context e.seen s.db = some e.items
  searches : ∀ n key phase, s.searches n = some ⟨key, phase⟩ →
    key.activeDocumentFingerprint = s.db.corpusMarker → phase.Sound services key.context s.db
  marker : ∀ now ∈ pending, s.db.corpusMarker ≠ some now
  entryMarkers : ∀ e ∈ s.entries, ∀ now ∈ pending, e.key.activeDocumentFingerprint ≠ some now
  searchMarkers : ∀ n key phase, s.searches n = some ⟨key, phase⟩ →
    ∀ now ∈ pending, key.activeDocumentFingerprint ≠ some now

variable {services : SearchServices}

/-- A transaction: either nothing that a search sees has changed, or nothing is left under the
new marker. -/
theorem coherent_transact {clocks pending : List Time} {s t : CacheSystem}
    (inv : Coherent services (clocks ++ pending) s) (distinct : (clocks ++ pending).Nodup)
    (effect : CorpusStep clocks s.db t.db) (entries : t.entries = s.entries)
    (searches : t.searches = s.searches) : Coherent services pending t := by
  have later {now : Time} (h : now ∈ pending) : now ∈ clocks ++ pending :=
    List.mem_append_right _ h
  rcases effect.seen with ⟨marker, same⟩ | ⟨now, clock, marker⟩
  · constructor
    · exact effect.accepted
    · intro e member current
      rw [entries] at member
      rw [marker] at current
      exact (outcome_congr same).trans (inv.entries e member current)
    · intro n key phase running current
      rw [searches] at running
      rw [marker] at current
      exact (inv.searches n key phase running current).congr same
    · intro later_ h
      rw [marker]
      exact inv.marker later_ (later h)
    · intro e member later_ h
      rw [entries] at member
      exact inv.entryMarkers e member later_ (later h)
    · intro n key phase running later_ h
      rw [searches] at running
      exact inv.searchMarkers n key phase running later_ (later h)
  · have fresh : now ∈ clocks ++ pending := List.mem_append_left _ clock
    constructor
    · exact effect.accepted
    · intro e member current
      rw [entries] at member
      exact absurd (current.trans marker) (inv.entryMarkers e member now fresh)
    · intro n key phase running current
      rw [searches] at running
      exact absurd (current.trans marker) (inv.searchMarkers n key phase running now fresh)
    · intro later_ h again
      have same : now = later_ := Option.some.inj (marker.symm.trans again)
      exact (List.nodup_append.mp distinct).2.2 now clock later_ h same
    · intro e member later_ h
      rw [entries] at member
      exact inv.entryMarkers e member later_ (later h)
    · intro n key phase running later_ h
      rw [searches] at running
      exact inv.searchMarkers n key phase running later_ (later h)

theorem coherent_endSearch {pending : List Time} {s : CacheSystem}
    (inv : Coherent services pending s) (search : Nat) :
    Coherent services pending (s.endSearch search) := by
  have old {n : Nat} {found : Search} (h : (s.endSearch search).searches n = some found) :
      s.searches n = some found := by
    simp only [CacheSystem.endSearch] at h
    split at h
    · cases h
    · exact h
  constructor
  · exact inv.accepted
  · exact inv.entries
  · exact fun n key phase running => inv.searches n key phase (old running)
  · exact inv.marker
  · exact inv.entryMarkers
  · exact fun n key phase running => inv.searchMarkers n key phase (old running)

theorem coherent_setPhase {pending : List Time} {s : CacheSystem}
    (inv : Coherent services pending s) (search : Nat) {key : RetrievalCacheKey}
    {phase : SearchPhase}
    (sound : key.activeDocumentFingerprint = s.db.corpusMarker →
      phase.Sound services key.context s.db)
    (unused : ∀ now ∈ pending, key.activeDocumentFingerprint ≠ some now) :
    Coherent services pending (s.setPhase search key phase) := by
  have old {n : Nat} {found : Search}
      (h : (s.setPhase search key phase).searches n = some found) :
      found = ⟨key, phase⟩ ∨ s.searches n = some found := by
    simp only [CacheSystem.setPhase] at h
    split at h
    · exact .inl (Option.some.inj h).symm
    · exact .inr h
  constructor
  · exact inv.accepted
  · exact inv.entries
  · intro n key' phase' running current
    rcases old running with same | running
    · cases same
      exact sound current
    · exact inv.searches n key' phase' running current
  · exact inv.marker
  · exact inv.entryMarkers
  · intro n key' phase' running
    rcases old running with same | running
    · cases same
      exact unused
    · exact inv.searchMarkers n key' phase' running

theorem lookupEntry_some {key : RetrievalCacheKey} {now : Time} {entries : List CacheEntry}
    {entry : CacheEntry} (found : lookupEntry key now entries = some entry) :
    entry ∈ entries ∧ entry.key = key := by
  have found := (Option.filter_eq_some_iff.mp found).1
  exact ⟨List.mem_of_find?_eq_some found, by simpa using List.find?_some found⟩

theorem mem_storeEntry {entry e : CacheEntry} {now : Time} {entries : List CacheEntry}
    (member : e ∈ storeEntry entry now entries) : e = entry ∨ e ∈ entries := by
  rcases List.mem_append.mp member with kept | new
  · exact .inr (List.mem_filter.mp (List.mem_filter.mp kept).1).1
  · exact .inl (List.mem_singleton.mp new)

/-- Each step of a search hands on what it was given, or computes it from the current rows. -/
theorem coherent_advance {pending : List Time} {s t : CacheSystem}
    (inv : Coherent services pending s) {search : Nat} {key : RetrievalCacheKey}
    {phase : SearchPhase} {action : CacheAction} (running : s.searches search = some ⟨key, phase⟩)
    (done : s.advance services search key phase action = some t) :
    Coherent services pending t := by
  have unused := inv.searchMarkers search key phase running
  have sound := inv.searches search key phase running
  have missed : Coherent services pending (s.setPhase search key .missed) :=
    coherent_setPhase inv search (fun _ => trivial) unused
  have ended := coherent_endSearch inv search
  unfold CacheSystem.advance at done
  split at done
  · split at done
    · rename_i entry found
      cases done
      obtain ⟨member, rfl⟩ := lookupEntry_some found
      exact coherent_setPhase inv search (inv.entries entry member) unused
    · cases done
      exact missed
  · cases done
    exact missed
  · split at done
    · cases done
      exact ended
    · cases done
      exact missed
  · cases done
    exact missed
  · dsimp only at done
    split at done
    · rename_i candidates searched
      cases done
      exact coherent_setPhase inv search (fun _ => searched) unused
    · cases done
      exact ended
  · rename_i seen candidates _
    cases done
    exact coherent_setPhase inv search
      (fun current => ⟨candidates, sound current, rfl⟩) unused
  · rename_i seen checked _
    split at done
    · rename_i items reranked
      cases done
      refine coherent_setPhase inv search (fun current => ?_) unused
      obtain ⟨candidates, searched, rfl⟩ := sound current
      simp only [SearchPhase.Sound, outcome, searched, Option.bind_eq_bind, Option.bind_some]
      exact reranked
    · cases done
      exact ended
  · rename_i seen items _ ttlSeconds now
    cases done
    constructor
    · exact inv.accepted
    · intro e member current
      rcases mem_storeEntry member with rfl | member
      · exact sound current
      · exact inv.entries e member current
    · exact ended.searches
    · exact inv.marker
    · intro e member
      rcases mem_storeEntry member with rfl | member
      · exact unused
      · exact inv.entryMarkers e member
    · exact ended.searchMarkers
  · cases done
    exact ended
  · cases done

section
variable [UnicodeTables]

theorem coherent_step {pending : List Time} {s t : CacheSystem} {action : CacheAction}
    (inv : Coherent services (action.clocks ++ pending) s)
    (distinct : (action.clocks ++ pending).Nodup) (done : s.step services action = some t) :
    Coherent services pending t := by
  have search (n : Nat) (idle : action.clocks = [])
      (done : s.advanceSearch services n action = some t) : Coherent services pending t := by
    rw [idle] at inv
    unfold CacheSystem.advanceSearch at done
    split at done
    · rename_i running
      exact coherent_advance inv running done
    · cases done
  cases action with
  | mirror action =>
    obtain ⟨mirror, moved, rfl⟩ := Option.map_eq_some_iff.mp done
    exact coherent_transact inv distinct (mirror_corpus inv.accepted moved) rfl rfl
  | finalize jobId worker version count readyAt activatedAt now =>
    simp only [CacheSystem.step] at done
    split at done
    · cases done
    split at done
    · rename_i finalized
      cases done
      exact coherent_transact inv distinct (finalizeVersion_corpus inv.accepted finalized) rfl rfl
    · cases done
      exact coherent_transact inv distinct (corpusStep_of_same _ inv.accepted (.refl _)) rfl rfl
  | sweepDelete pointIds | sweepRepair pointIds =>
    cases done
    exact coherent_transact inv distinct (corpusStep_of_same _ inv.accepted (.refl _)) rfl rfl
  | buildKey n context =>
    simp only [CacheSystem.step] at done
    split at done
    · cases done
      exact coherent_setPhase inv n (fun _ => trivial) inv.marker
    · cases done
  | lookup n now => exact search n rfl done
  | lookupFailed n | hydrate n | hydrateFailed n | vectorSearch n | finalCheck n | rerank n
  | raise n => exact search n rfl done
  | store n ttlSeconds now => exact search n rfl done

/-- No search is in flight, nothing is cached, and the rows satisfy their checks. -/
structure CacheStart (s : CacheSystem) : Prop where
  accepted : RowsAccepted s.db
  entries : s.entries = []
  searches : ∀ n, s.searches n = none

/-- Over every run with distinct clock readings: a hit that meets the condition returns what a
retrieval would return at that moment. -/
theorem cache_hit_coherent (services : SearchServices) (start final : CacheSystem)
    (actions : List CacheAction) (initial : CacheStart start)
    (clocks : (start.db.corpusMarker.toList ++ actions.flatMap CacheAction.clocks).Nodup)
    (run : Run (CacheSystem.step services) Free start actions final) (search : Nat)
    (key : RetrievalCacheKey) (items : List CachedRetrievalItem)
    (hit : final.hit search = some (key, items)) (current : Current final search) :
    retrieve services key.context final.db final.mirror.points = some items := by
  have first : Coherent services (actions.flatMap CacheAction.clocks) start := by
    constructor
    · exact initial.accepted
    · simp [initial.entries]
    · simp [initial.searches]
    · intro now member same
      exact (List.nodup_append.mp clocks).2.2 now (by simp [same]) now member rfl
    · simp [initial.entries]
    · simp [initial.searches]
  have inv := (run.consumes
    (fun as s => (as.flatMap CacheAction.clocks).Nodup ∧
      Coherent services (as.flatMap CacheAction.clocks) s)
    (fun s a as t inv _ done => by
      rw [List.flatMap_cons] at inv
      exact ⟨(List.nodup_append.mp inv.1).2.1, coherent_step inv.2 inv.1 done⟩)
    ⟨(List.nodup_append.mp clocks).2.1, first⟩).2
  unfold CacheSystem.hit at hit
  split at hit
  · rename_i key' entry running
    obtain ⟨hydrated, shown, same⟩ := Option.map_eq_some_iff.mp hit
    cases same
    obtain ⟨marker, seen⟩ := current key entry running
    have stored : entry.items = items := by
      simp only [hydrate] at shown
      split at shown
      · cases shown
      · exact Option.some.inj shown
    have sound := inv.searches search key (.found entry) running marker
    rw [retrieve, ← seen, ← stored]
    exact sound
  · cases hit

end

/-- Services that rank the points by id and keep that order. -/
def orderServices : SearchServices where
  nearest _ _ limit ids := (ids.take limit).map fun id => (id, 1)
  rerank _ _ candidates :=
    some ((candidates.zipIdx 1).map fun c => ⟨c.1.documentChunkId, 1, c.2⟩)

/-- One ready version with one chunk and its point, before any approval. -/
def cacheStart : CacheSystem where
  mirror :=
    { mirrorStart with
      points := [⟨.num 1, [("document_version_id", .int 1), ("modality", .str "text"),
        ("is_active", .bool false), ("logical_document_status", .str "active"),
        ("document_version_status", .str "ready")]⟩] }
  entries := []
  searches _ := none

def vacationQuery : RetrievalCacheContext := ⟨"default", [], "vacation days", 5, 3, "text"⟩

def searchAndStore (now : Time) : List CacheAction :=
  [.buildKey 1 vacationQuery, .lookup 1 now, .vectorSearch 1, .finalCheck 1, .rerank 1,
    .store 1 300 now]

def searchAgain : List CacheAction := [.buildKey 2 vacationQuery, .lookup 2 16]

def approveOne : CacheAction := .mirror (.approve ⟨1, 10, 10⟩ 1 1)

def mirrorOne : List CacheAction :=
  [.mirror (.lease (.acquireJobs "a" none none 60 1 [] 12)), .mirror (.begin "a" 1),
    .mirror (.sync "a"), .mirror (.finish "a" 60 13 14)]

/-- A search that has found an entry, and whether the entry is that of the marker and the points. -/
def foundCurrent (s : CacheSystem) (search : Search) : Bool :=
  match search.phase with
  | .found entry => search.key.activeDocumentFingerprint == s.db.corpusMarker &&
      entry.seen == passing search.key.context.modality s.mirror.points
  | _ => true

/-- The approval is mirrored before the first search, and the second search hits. -/
theorem cache_hit_after_mirror :
    let _ : UnicodeTables := asciiTables
    ∃ final, exec (CacheSystem.step orderServices) cacheStart (approveOne :: mirrorOne ++
        searchAndStore 15 ++ searchAgain) = some final ∧
      retrieve orderServices vacationQuery final.db final.mirror.points =
        some [⟨1, 1, 1, 1, 1, true⟩] := by
  intro _
  have completes : (exec (CacheSystem.step orderServices) cacheStart (approveOne :: mirrorOne ++
      searchAndStore 15 ++ searchAgain)).any (fun s =>
        s.hit 2 == some (⟨vacationQuery, some 10⟩, [⟨1, 1, 1, 1, 1, true⟩]) &&
        (s.searches 2).all (foundCurrent s)) = true := by
    decide +kernel
  obtain ⟨final, done, checks⟩ := (Option.any_eq_true _ _).mp completes
  simp only [Bool.and_eq_true, beq_iff_eq] at checks
  refine ⟨final, done, cache_hit_coherent orderServices cacheStart final _
    ⟨by unfold RowsAccepted; decide, rfl, fun _ => rfl⟩ (by decide) (run_of_exec done) 2
    ⟨vacationQuery, some 10⟩ _ checks.1 ?_⟩
  intro key entry running
  have current := checks.2
  rw [running] at current
  simpa [foundCurrent] using current

/-- The search falls between the approval and its mirror job: its empty result is stored under
the new marker, and a later search hits it. -/
theorem stale_entry_hit :
    let _ : UnicodeTables := asciiTables
    (cacheStart.db.corpusMarker.toList ++ (approveOne :: searchAndStore 11 ++ mirrorOne ++
        searchAgain).flatMap CacheAction.clocks).Nodup ∧
      (exec (CacheSystem.step orderServices) cacheStart (approveOne :: searchAndStore 11 ++
        mirrorOne ++ searchAgain)).any (fun s =>
          s.hit 2 == some (⟨vacationQuery, some 10⟩, []) &&
          retrieve orderServices vacationQuery s.db s.mirror.points ==
            some [⟨1, 1, 1, 1, 1, true⟩]) = true := by
  refine ⟨by decide, ?_⟩
  decide +kernel

end Searches

end RagProject.Rag
