import RagProject.Documents.Store

/-! DocumentService.approve_version and archive_document as transactions: each returns
the database it commits, or the error after which it is rolled back. -/
namespace RagProject.Documents
open Python Jobs

inductive DocumentError where
  | resourceNotFound
  | documentArchived
  | documentVersionNotApprovable
  | activeVersionConflict
  | invalid (message : String)
  deriving DecidableEq, Repr

/-- display_status of a document with one of its versions. -/
def displayStatus (document : LogicalDocument) (version : Option DocumentVersion) : String :=
  match document.status, version with
  | .archived, _ => "archived"
  | .active, none => "active"
  | .active, some v =>
    match v.status with
    | .failed => "failed"
    | .processing => "processing"
    | .ready => if v.isActive then "active" else "pending_review"
    | .archived => "archived"

structure ApproveResponse where
  logicalDocumentId : Nat
  documentVersionId : Nat
  versionNo : Nat
  status : String
  isActive : Bool
  displayStatus : String
  previousActiveDocumentVersionId : Option Nat
  resultCode : String
  qdrantMirrorJobId : Option Nat
  deriving DecidableEq, Repr

structure ArchiveResponse where
  logicalDocumentId : Nat
  status : String
  displayStatus : String
  resultCode : String
  qdrantMirrorJobId : Option Nat
  deriving DecidableEq, Repr

/-- Who asks, and what the two clocks say. -/
structure Request where
  userId : Nat
  now : Time
  dbNow : Time
  deriving DecidableEq, Repr

section
variable [UnicodeTables]

/-- The mirror job that a transaction on a document enqueues. -/
def mirrorJob (request : Request) (logicalDocumentId : Nat) (payload : Dict) (jobId : Nat) : Job :=
  newJob jobId "qdrant_mirror_update" (some "logical_document") (some logicalDocumentId)
    (some payload) (some request.userId) 100 request.dbNow

def approvePayload (request : Request) (logicalDocumentId documentVersionId : Nat) : Dict :=
  [("logical_document_id", .int logicalDocumentId),
   ("document_version_id", .int documentVersionId),
   ("mirror_action", .str "sync_payload"), ("requested_by_user_id", .int request.userId)]

def archivePayload (request : Request) (logicalDocumentId : Nat) : Dict :=
  [("logical_document_id", .int logicalDocumentId), ("mirror_action", .str "mark_inactive"),
   ("requested_by_user_id", .int request.userId)]

def createQdrantMirrorJob (request : Request) (logicalDocumentId : Nat) (payload : Dict) (db : Db) :
    Db × Nat :=
  db.createJob (mirrorJob request logicalDocumentId payload)

def createGraphIndexJob (request : Request) (documentVersionId : Nat) (db : Db) :
    Except DocumentError Db :=
  if db.graphIndexingEnabled then
    match (Enqueue.graphIndexBuild documentVersionId db.graphExtractor).payload with
    | .ok payload => .ok (db.createJob fun jobId => newJob jobId "graph_index_build"
        (some "document_version") (some documentVersionId) (some payload) (some request.userId) 80
        request.dbNow).1
    | .error message => .error (.invalid message)
  else .ok db

/-- The graph jobs of one transaction, in the order in which they are enqueued. -/
def createGraphIndexJobs (request : Request) (documentVersionIds : List Nat) (db : Db) :
    Except DocumentError Db :=
  documentVersionIds.foldlM (fun db id => createGraphIndexJob request id db) db

def approveVersion (request : Request) (logicalDocumentId documentVersionId : Nat) (db : Db) :
    Except DocumentError (Db × ApproveResponse) :=
  match db.getDocument logicalDocumentId, db.getVersion logicalDocumentId documentVersionId with
  | none, _ | some _, none => .error .resourceNotFound
  | some document, some version =>
    let response (active : Bool) (version : DocumentVersion) (previous : Option Nat)
        (resultCode : String) (jobId : Option Nat) : ApproveResponse :=
      { logicalDocumentId := logicalDocumentId
        documentVersionId := version.documentVersionId
        versionNo := version.versionNo
        status := version.status.value
        isActive := active
        displayStatus := displayStatus document (some version)
        previousActiveDocumentVersionId := previous
        resultCode := resultCode
        qdrantMirrorJobId := jobId }
    if document.status = .archived then .error .documentArchived
    else if version.isActive then .ok (db, response true version none "already_active" none)
    else if version.status ≠ .ready then .error .documentVersionNotApprovable
    else match setActiveVersion logicalDocumentId version request.now db with
      | .error _ => .error .activeVersionConflict
      | .ok (db, previous) => do
        let payload := approvePayload request logicalDocumentId version.documentVersionId
        let (db, mirrorJobId) := createQdrantMirrorJob request logicalDocumentId payload db
        let replaced := (previous.filter (· ≠ version.documentVersionId)).toList
        let db ← createGraphIndexJobs request (replaced ++ [version.documentVersionId]) db
        return (db.touchDocument logicalDocumentId request.now,
          response true (activate request.now version) previous "approved" (some mirrorJobId))

def archiveDocument (request : Request) (logicalDocumentId : Nat) (db : Db) :
    Except DocumentError (Db × ArchiveResponse) :=
  match db.getDocument logicalDocumentId with
  | none => .error .resourceNotFound
  | some document =>
    let response (resultCode : String) (jobId : Option Nat) : ArchiveResponse :=
      ⟨logicalDocumentId, "archived", "archived", resultCode, jobId⟩
    if document.status = .archived then .ok (db, response "already_archived" none)
    else
      let activeVersionId := (db.activeVersion logicalDocumentId).map (·.documentVersionId)
      match archiveDocumentRows logicalDocumentId request.now db with
      | .error message => .error (.invalid message)
      | .ok db => do
        let (db, mirrorJobId) := createQdrantMirrorJob request logicalDocumentId
          (archivePayload request logicalDocumentId) db
        let db ← createGraphIndexJobs request activeVersionId.toList db
        return (db, response "archived" (some mirrorJobId))

end

/-- The row after its document has made another version, or this one, the active version. -/
def activated (logicalDocumentId documentVersionId : Nat) (now : Time) (v : DocumentVersion) :
    DocumentVersion :=
  if v.documentVersionId = documentVersionId then activate now v
  else if v.logicalDocumentId = logicalDocumentId ∧ v.isActive then deactivate now v
  else v

/-- The row after its document has been archived. -/
def withdrawn (logicalDocumentId : Nat) (now : Time) (v : DocumentVersion) : DocumentVersion :=
  if v.logicalDocumentId = logicalDocumentId ∧ v.isActive then deactivate now v else v

theorem activate_accepted {v : DocumentVersion} (now : Time) (accepted : v.violation = none)
    (ready : v.status = .ready) : (activate now v).violation = none := by
  obtain ⟨versionNo, _, code⟩ := version_checks accepted
  exact version_accepted versionNo (fun _ => ready) code

theorem deactivate_accepted {v : DocumentVersion} (now : Time) (accepted : v.violation = none) :
    (deactivate now v).violation = none := by
  obtain ⟨versionNo, _, code⟩ := version_checks accepted
  exact version_accepted versionNo (fun h => by cases h) code

/-- The update of one row that passes the row checks is decided by the unique index. -/
theorem updateVersionRow_eq {versions : List DocumentVersion} {v : DocumentVersion}
    {values : DocumentVersion → DocumentVersion}
    (distinct : (versions.map (·.documentVersionId)).Nodup) (member : v ∈ versions)
    (accepted : (values v).violation = none) :
    updateVersionRow (v.documentVersionId, values) versions =
      let rows := versions.map fun w =>
        if w.documentVersionId = v.documentVersionId then values w else w
      if OneActive rows then .ok rows else .error "ux_document_versions_one_active" := by
  unfold updateVersionRow
  generalize hrows : (versions.map fun w =>
    if w.documentVersionId = v.documentVersionId then values w else w) = rows
  have passes : (rows.filter (·.documentVersionId == v.documentVersionId)).findSome?
      (·.violation) = none := by
    rw [List.findSome?_eq_none_iff]
    intro row hit
    obtain ⟨present, same⟩ := List.mem_filter.mp hit
    rw [← hrows] at present
    obtain ⟨w, hw, rfl⟩ := List.mem_map.mp present
    have sameRow : w = v := by
      refine Table.unique distinct hw member ?_
      split at same
      · rename_i h
        exact h
      · exact beq_iff_eq.mp same
    simp [sameRow, accepted]
  simp only [passes]

section
variable {versions : List DocumentVersion} {v : DocumentVersion} {now : Time}

theorem activated_id (logicalDocumentId documentVersionId : Nat) (now : Time)
    (v : DocumentVersion) :
    (activated logicalDocumentId documentVersionId now v).documentVersionId =
      v.documentVersionId := by
  unfold activated
  split
  · rfl
  · split <;> rfl

theorem activated_document (logicalDocumentId documentVersionId : Nat) (now : Time)
    (v : DocumentVersion) :
    (activated logicalDocumentId documentVersionId now v).logicalDocumentId =
      v.logicalDocumentId := by
  unfold activated
  split
  · rfl
  · split <;> rfl

/-- What is active after the activation was active before in another document, or is the
chosen version. -/
theorem active_of_activated {logicalDocumentId documentVersionId : Nat} {now : Time}
    {v : DocumentVersion}
    (active : (activated logicalDocumentId documentVersionId now v).isActive = true) :
    v.documentVersionId = documentVersionId ∨
      (v.isActive = true ∧ v.logicalDocumentId ≠ logicalDocumentId) := by
  unfold activated at active
  split at active
  · rename_i chosen
    exact .inl chosen
  · split at active
    · cases active
    · rename_i other
      exact .inr ⟨active, fun same => other ⟨same, active⟩⟩

theorem activated_oneActive (distinct : (versions.map (·.documentVersionId)).Nodup)
    (oneActive : OneActive versions) (member : v ∈ versions) :
    OneActive (versions.map (activated v.logicalDocumentId v.documentVersionId now)) := by
  have before := (oneActive_iff distinct).mp oneActive
  rw [oneActive_iff (by rw [Table.map_keys fun w _ => activated_id _ _ _ w]; exact distinct)]
  intro r' memberR s' memberS activeR activeS sameDocument
  obtain ⟨r, hr, rfl⟩ := List.mem_map.mp memberR
  obtain ⟨s, hs, rfl⟩ := List.mem_map.mp memberS
  rw [activated_document, activated_document] at sameDocument
  rw [activated_id, activated_id]
  have documentOf (w : DocumentVersion) (hw : w ∈ versions)
      (chosen : w.documentVersionId = v.documentVersionId) :
      w.logicalDocumentId = v.logicalDocumentId := by
    rw [Table.unique distinct hw member chosen]
  rcases active_of_activated activeR with chosenR | ⟨oldR, otherR⟩
  · rcases active_of_activated activeS with chosenS | ⟨_, otherS⟩
    · exact chosenR.trans chosenS.symm
    · exact absurd (sameDocument.symm.trans (documentOf r hr chosenR)) otherS
  · rcases active_of_activated activeS with chosenS | ⟨oldS, _⟩
    · exact absurd (sameDocument.trans (documentOf s hs chosenS)) otherR
    · exact before r hr s hs oldR oldS sameDocument

/-- Nothing of the document is active: one update activates the version. -/
theorem activate_alone
    (quiet : ∀ w ∈ versions, w.logicalDocumentId = v.logicalDocumentId → w.isActive = false) :
    (versions.map fun w =>
      if w.documentVersionId = v.documentVersionId then activate now w else w) =
      versions.map (activated v.logicalDocumentId v.documentVersionId now) := by
  refine List.map_congr_left fun w hw => ?_
  unfold activated
  split
  · rfl
  · have idle : ¬(w.logicalDocumentId = v.logicalDocumentId ∧ w.isActive = true) := by
      rintro ⟨same, active⟩
      rw [quiet w hw same] at active
      cases active
    rw [if_neg idle]

/-- Deactivating the active version and then activating the chosen one. -/
theorem deactivate_then_activate {a : DocumentVersion}
    (oneActive : ∀ w ∈ versions, w.isActive = true →
      w.logicalDocumentId = v.logicalDocumentId → w.documentVersionId = a.documentVersionId)
    (distinct : (versions.map (·.documentVersionId)).Nodup) (memberA : a ∈ versions)
    (sameDocument : a.logicalDocumentId = v.logicalDocumentId) (active : a.isActive = true)
    (other : a.documentVersionId ≠ v.documentVersionId) :
    ((versions.map fun w =>
        if w.documentVersionId = a.documentVersionId then deactivate now w else w).map fun w =>
      if w.documentVersionId = v.documentVersionId then activate now w else w) =
      versions.map (activated v.logicalDocumentId v.documentVersionId now) := by
  rw [List.map_map]
  refine List.map_congr_left fun w hw => ?_
  simp only [Function.comp, activated]
  by_cases isA : w.documentVersionId = a.documentVersionId
  · have row : w = a := Table.unique distinct hw memberA isA
    subst row
    simp [deactivate, other, sameDocument, active]
  · have idle : ¬(w.logicalDocumentId = v.logicalDocumentId ∧ w.isActive = true) :=
      fun h => isA (oneActive w hw h.2 h.1)
    simp only [isA, if_false, idle]

theorem deactivated_oneActive {a : DocumentVersion}
    (distinct : (versions.map (·.documentVersionId)).Nodup) (oneActive : OneActive versions) :
    OneActive (versions.map fun w =>
      if w.documentVersionId = a.documentVersionId then deactivate now w else w) := by
  have ids : ∀ w ∈ versions, (if w.documentVersionId = a.documentVersionId then deactivate now w
      else w).documentVersionId = w.documentVersionId := by
    intro w _
    split <;> rfl
  have before := (oneActive_iff distinct).mp oneActive
  rw [oneActive_iff (by rw [Table.map_keys ids]; exact distinct)]
  intro r' memberR s' memberS activeR activeS sameDocument
  obtain ⟨r, hr, rfl⟩ := List.mem_map.mp memberR
  obtain ⟨s, hs, rfl⟩ := List.mem_map.mp memberS
  by_cases isR : r.documentVersionId = a.documentVersionId
  · simp [isR, deactivate] at activeR
  · by_cases isS : s.documentVersionId = a.documentVersionId
    · simp [isS, deactivate] at activeS
    · simp only [isR, isS, if_false] at activeR activeS sameDocument ⊢
      exact before r hr s hs activeR activeS sameDocument

/-- A second active version of the document breaks the index. -/
theorem activate_conflict {a : DocumentVersion}
    (distinct : (versions.map (·.documentVersionId)).Nodup) (member : v ∈ versions)
    (memberA : a ∈ versions) (sameDocument : a.logicalDocumentId = v.logicalDocumentId)
    (active : a.isActive = true) (other : a.documentVersionId ≠ v.documentVersionId) :
    ¬OneActive (versions.map fun w =>
      if w.documentVersionId = v.documentVersionId then activate now w else w) := by
  have ids : ∀ w ∈ versions, (if w.documentVersionId = v.documentVersionId then activate now w
      else w).documentVersionId = w.documentVersionId := by
    intro w _
    split <;> rfl
  rw [oneActive_iff (by rw [Table.map_keys ids]; exact distinct)]
  intro oneActive
  refine other (oneActive a ?_ (activate now v) ?_ active rfl sameDocument)
  · exact List.mem_map.mpr ⟨a, memberA, by simp [other]⟩
  · exact List.mem_map.mpr ⟨v, member, by simp⟩

end

/-- The flush of set_active_version depends on the order of the two row ids. -/
theorem setActiveVersion_eq {db : Db} (ok : db.Ok) {version : DocumentVersion} {now : Time}
    (member : version ∈ db.versions) (ready : version.status = .ready)
    (inactive : version.isActive = false) :
    setActiveVersion version.logicalDocumentId version now db =
      if ∀ a ∈ db.versions, a.logicalDocumentId = version.logicalDocumentId → a.isActive = true →
          a.documentVersionId < version.documentVersionId then
        .ok ({ db with
          versions := db.versions.map
            (activated version.logicalDocumentId version.documentVersionId now)
          corpusMarker := some now },
          (db.activeVersion version.logicalDocumentId).map (·.documentVersionId))
      else .error "ux_document_versions_one_active" := by
  have index := (oneActive_iff ok.versionIds).mp ok.oneActive
  have first := updateVersionRow_eq ok.versionIds member
    (activate_accepted now (ok.accepted version member) ready)
  cases found : db.activeVersion version.logicalDocumentId with
  | none =>
    have quiet : ∀ w ∈ db.versions, w.logicalDocumentId = version.logicalDocumentId →
        w.isActive = false := by
      intro w hw same
      have h := List.find?_eq_none.mp found w hw
      simpa [same] using h
    rw [if_pos fun a ha same active => by rw [quiet a ha same] at active; cases active]
    rw [activate_alone quiet,
      if_pos (activated_oneActive ok.versionIds ok.oneActive member)] at first
    simp [setActiveVersion, found, flushVersions, first, bind, Except.bind, pure, Except.pure,
      Db.touchRetrievalCacheCorpusMarker]
  | some a =>
    have memberA : a ∈ db.versions := List.mem_of_find?_eq_some found
    have condition := List.find?_some found
    simp only [Bool.and_eq_true, beq_iff_eq] at condition
    obtain ⟨sameDocument, active⟩ := condition
    have other : a.documentVersionId ≠ version.documentVersionId := by
      intro same
      rw [Table.unique ok.versionIds memberA member same, inactive] at active
      cases active
    by_cases order : a.documentVersionId < version.documentVersionId
    · have smaller : ∀ w ∈ db.versions, w.logicalDocumentId = version.logicalDocumentId →
          w.isActive = true → w.documentVersionId < version.documentVersionId := by
        intro w hw same h
        rw [index w hw a memberA h active (same.trans sameDocument.symm)]
        exact order
      have emitted : ([(a.documentVersionId, deactivate now),
          (version.documentVersionId, activate now)] : List _).insertionSort
            (fun x y => x.1 ≤ y.1) =
          [(a.documentVersionId, deactivate now), (version.documentVersionId, activate now)] := by
        simp [List.insertionSort, order.le]
      have one := updateVersionRow_eq ok.versionIds memberA
        (deactivate_accepted now (ok.accepted a memberA))
      have kept : OneActive (db.versions.map fun w =>
          if w.documentVersionId = a.documentVersionId then deactivate now w else w) :=
        deactivated_oneActive ok.versionIds ok.oneActive
      rw [if_pos kept] at one
      have distinct : ((db.versions.map fun w =>
          if w.documentVersionId = a.documentVersionId then deactivate now w else w).map
            (·.documentVersionId)).Nodup := by
        rw [Table.map_keys fun w _ => by split <;> rfl]
        exact ok.versionIds
      have present : version ∈ db.versions.map fun w =>
          if w.documentVersionId = a.documentVersionId then deactivate now w else w :=
        List.mem_map.mpr ⟨version, member, by simp [Ne.symm other]⟩
      have two := updateVersionRow_eq distinct present
        (activate_accepted now (ok.accepted version member) ready)
      rw [deactivate_then_activate (fun w hw h same => index w hw a memberA h active
          (same.trans sameDocument.symm)) ok.versionIds memberA sameDocument active other,
        if_pos (activated_oneActive ok.versionIds ok.oneActive member)] at two
      rw [if_pos smaller]
      simp [setActiveVersion, found, other, flushVersions, emitted, one, two, bind, Except.bind,
        pure, Except.pure, Db.touchRetrievalCacheCorpusMarker]
    · have emitted : ([(a.documentVersionId, deactivate now),
          (version.documentVersionId, activate now)] : List _).insertionSort
            (fun x y => x.1 ≤ y.1) =
          [(version.documentVersionId, activate now), (a.documentVersionId, deactivate now)] := by
        have reversed : ¬a.documentVersionId ≤ version.documentVersionId := by omega
        simp [List.insertionSort, List.orderedInsert, reversed]
      have conflict : ¬OneActive (db.versions.map fun w =>
          if w.documentVersionId = version.documentVersionId then activate now w else w) :=
        activate_conflict ok.versionIds member memberA sameDocument active other
      rw [if_neg conflict] at first
      rw [if_neg fun smaller => order (smaller a memberA sameDocument active)]
      simp [setActiveVersion, found, other, flushVersions, emitted, first, bind, Except.bind]

section
variable {versions : List DocumentVersion} {now : Time}

theorem withdrawn_id (logicalDocumentId : Nat) (now : Time) (v : DocumentVersion) :
    (withdrawn logicalDocumentId now v).documentVersionId = v.documentVersionId := by
  unfold withdrawn
  split <;> rfl

theorem withdrawn_document (logicalDocumentId : Nat) (now : Time) (v : DocumentVersion) :
    (withdrawn logicalDocumentId now v).logicalDocumentId = v.logicalDocumentId := by
  unfold withdrawn
  split <;> rfl

theorem active_of_withdrawn {logicalDocumentId : Nat} {v : DocumentVersion}
    (active : (withdrawn logicalDocumentId now v).isActive = true) :
    v.isActive = true ∧ v.logicalDocumentId ≠ logicalDocumentId := by
  unfold withdrawn at active
  split at active
  · cases active
  · rename_i other
    exact ⟨active, fun same => other ⟨same, active⟩⟩

theorem withdrawn_oneActive (logicalDocumentId : Nat)
    (distinct : (versions.map (·.documentVersionId)).Nodup) (oneActive : OneActive versions) :
    OneActive (versions.map (withdrawn logicalDocumentId now)) := by
  have before := (oneActive_iff distinct).mp oneActive
  rw [oneActive_iff (by rw [Table.map_keys fun w _ => withdrawn_id _ _ w]; exact distinct)]
  intro r' memberR s' memberS activeR activeS sameDocument
  obtain ⟨r, hr, rfl⟩ := List.mem_map.mp memberR
  obtain ⟨s, hs, rfl⟩ := List.mem_map.mp memberS
  rw [withdrawn_document, withdrawn_document] at sameDocument
  rw [withdrawn_id, withdrawn_id]
  exact before r hr s hs (active_of_withdrawn activeR).1 (active_of_withdrawn activeS).1 sameDocument

end

/-- At most one version is active, so the flush of an archival has at most one update. -/
theorem archiveDocumentRows_eq {db : Db} (ok : db.Ok) (logicalDocumentId : Nat) (now : Time) :
    archiveDocumentRows logicalDocumentId now db = .ok { db with
      documents := db.documents.map fun d => if d.logicalDocumentId = logicalDocumentId then
        { d with status := .archived, archivedAt := some now, updatedAt := now } else d
      versions := db.versions.map (withdrawn logicalDocumentId now)
      corpusMarker := some now } := by
  have index := (oneActive_iff ok.versionIds).mp ok.oneActive
  generalize hdirty : (db.versions.filter fun v =>
    v.logicalDocumentId == logicalDocumentId && v.isActive) = dirty
  have inDirty (v : DocumentVersion) : v ∈ dirty ↔
      v ∈ db.versions ∧ v.logicalDocumentId = logicalDocumentId ∧ v.isActive = true := by
    rw [← hdirty, List.mem_filter, Bool.and_eq_true, beq_iff_eq]
  have flush : flushVersions (dirty.map fun v => (v.documentVersionId, deactivate now))
      db.versions = .ok (db.versions.map (withdrawn logicalDocumentId now)) := by
    match dirty, hdirty, inDirty with
    | [], _, inDirty =>
      have unchanged : db.versions.map (withdrawn logicalDocumentId now) = db.versions := by
        conv_rhs => rw [← List.map_id db.versions]
        refine List.map_congr_left fun v hv => ?_
        unfold withdrawn
        rw [if_neg fun hit => List.not_mem_nil ((inDirty v).mpr ⟨hv, hit⟩), id]
      rw [unchanged]
      rfl
    | [a], _, inDirty =>
      obtain ⟨memberA, sameDocument, active⟩ := (inDirty a).mp List.mem_cons_self
      have one := updateVersionRow_eq ok.versionIds memberA
        (deactivate_accepted now (ok.accepted a memberA))
      have rows : (db.versions.map fun w =>
          if w.documentVersionId = a.documentVersionId then deactivate now w else w) =
          db.versions.map (withdrawn logicalDocumentId now) := by
        refine List.map_congr_left fun w hw => ?_
        unfold withdrawn
        by_cases isA : w.documentVersionId = a.documentVersionId
        · have row : w = a := Table.unique ok.versionIds hw memberA isA
          rw [if_pos isA, row, if_pos ⟨sameDocument, active⟩]
        · have miss : ¬(w.logicalDocumentId = logicalDocumentId ∧ w.isActive = true) := by
            intro hit
            have row := List.mem_singleton.mp ((inDirty w).mpr ⟨hw, hit⟩)
            exact isA (by rw [row])
          rw [if_neg isA, if_neg miss]
      rw [rows, if_pos (withdrawn_oneActive logicalDocumentId ok.versionIds ok.oneActive)] at one
      simp [flushVersions, one]
    | a :: b :: rest, hdirty, inDirty =>
      obtain ⟨memberA, documentA, activeA⟩ := (inDirty a).mp List.mem_cons_self
      obtain ⟨memberB, documentB, activeB⟩ :=
        (inDirty b).mp (List.mem_cons_of_mem _ List.mem_cons_self)
      have same : a = b := Table.unique ok.versionIds memberA memberB
        (index a memberA b memberB activeA activeB (documentA.trans documentB.symm))
      have nodup : (a :: b :: rest).Nodup := by
        rw [← hdirty]
        exact (List.Nodup.of_map _ ok.versionIds).filter _
      exact absurd (same ▸ List.mem_cons_self) (List.nodup_cons.mp nodup).1
  simp only [archiveDocumentRows, hdirty, flush, bind, Except.bind, pure, Except.pure,
    Db.touchRetrievalCacheCorpusMarker]

theorem newJob_accepted [UnicodeTables] {jobId : Nat} {jobType : String}
    {targetType : Option String} {targetId : Option Nat} {payload : Option Dict}
    {createdBy : Option Nat} {priority : Int} {createdAt : Time} (positive : 0 ≤ priority)
    (other : jobType ≠ "message_edit_regeneration") :
    (newJob jobId jobType targetType targetId payload createdBy priority createdAt).violation =
      none := by
  simp [Job.violation, Job.checks, newJob, positive, other, JobStatus.terminal, nullOr]

theorem getVersion_some {db : Db} {logicalDocumentId documentVersionId : Nat}
    {version : DocumentVersion}
    (found : db.getVersion logicalDocumentId documentVersionId = some version) :
    version ∈ db.versions ∧ version.logicalDocumentId = logicalDocumentId ∧
      version.documentVersionId = documentVersionId := by
  refine ⟨List.mem_of_find?_eq_some found, ?_⟩
  simpa using List.find?_some found

theorem activeVersion_some {db : Db} {logicalDocumentId : Nat} {version : DocumentVersion}
    (found : db.activeVersion logicalDocumentId = some version) :
    version ∈ db.versions ∧ version.logicalDocumentId = logicalDocumentId ∧
      version.isActive = true := by
  refine ⟨List.mem_of_find?_eq_some found, ?_⟩
  simpa using List.find?_some found

/-- The active version of a document is found. -/
theorem activeVersion_of_mem {db : Db} (ok : db.Ok) {v : DocumentVersion} (member : v ∈ db.versions)
    (active : v.isActive = true) : db.activeVersion v.logicalDocumentId = some v := by
  have some_row : (db.activeVersion v.logicalDocumentId).isSome :=
    List.find?_isSome.mpr ⟨v, member, by simp [active]⟩
  obtain ⟨a, found⟩ := Option.isSome_iff_exists.mp some_row
  obtain ⟨inside, sameDocument, activeA⟩ := activeVersion_some found
  have sameId := (oneActive_iff ok.versionIds).mp ok.oneActive a inside v member activeA active
    sameDocument
  rw [found, Table.unique ok.versionIds inside member sameId]

/-- The transaction has enqueued a graph job of the version. -/
def NewGraphJob (db db' : Db) (documentVersionId : Nat) : Prop :=
  ∃ job ∈ db'.jobs, job.jobType = "graph_index_build" ∧ job.targetId = some documentVersionId ∧
    job.status = .queued ∧ db.nextJobId ≤ job.jobId

section
variable [UnicodeTables]

theorem createGraphIndexJob_ok (request : Request) {documentVersionId : Nat}
    (positive : 0 < documentVersionId) (db : Db) :
    ∃ db' extra, createGraphIndexJob request documentVersionId db = .ok db' ∧
      Enqueued db extra db' ∧ (∀ j ∈ extra, j.jobType = "graph_index_build") ∧
      (db.graphIndexingEnabled = true → ∃ j ∈ extra, j.targetId = some documentVersionId) := by
  unfold createGraphIndexJob
  split
  · have nonzero : documentVersionId ≠ 0 := by omega
    simp only [Enqueue.payload, buildGraphIndexJobPayload, nonzero, if_false]
    refine ⟨_, _, rfl, enqueued_createJob db rfl rfl
      (newJob_accepted (by decide) (by decide)), ?_, fun _ => ⟨_, List.mem_singleton_self _, rfl⟩⟩
    intro j member
    cases List.mem_singleton.mp member
    rfl
  · rename_i disabled
    exact ⟨db, [], rfl, .refl db, by simp, fun enabled => absurd enabled disabled⟩

theorem createGraphIndexJobs_ok (request : Request) {documentVersionIds : List Nat}
    (positive : ∀ id ∈ documentVersionIds, 0 < id) (db : Db) :
    ∃ db' extra, createGraphIndexJobs request documentVersionIds db = .ok db' ∧
      Enqueued db extra db' ∧ (∀ j ∈ extra, j.jobType = "graph_index_build") ∧
      (db.graphIndexingEnabled = true → ∀ id ∈ documentVersionIds,
        ∃ j ∈ extra, j.targetId = some id) := by
  induction documentVersionIds generalizing db with
  | nil => exact ⟨db, [], rfl, .refl db, by simp, by simp⟩
  | cons id ids ih =>
    obtain ⟨mid, first, created, enqueued, graph, targets⟩ :=
      createGraphIndexJob_ok request (positive id List.mem_cons_self) db
    obtain ⟨db', rest, done, more, graphRest, targetsRest⟩ :=
      ih (fun i h => positive i (List.mem_cons_of_mem _ h)) mid
    refine ⟨db', first ++ rest, ?_, enqueued.trans more, ?_, fun enabled other member => ?_⟩
    · simpa [createGraphIndexJobs, created, bind, Except.bind] using done
    · intro j member
      rcases List.mem_append.mp member with h | h
      · exact graph j h
      · exact graphRest j h
    · rcases List.mem_cons.mp member with rfl | later
      · obtain ⟨j, inside, target⟩ := targets enabled
        exact ⟨j, List.mem_append_left _ inside, target⟩
      · have still : mid.graphIndexingEnabled = true := by
          rw [enqueued.tables]
          exact enabled
        obtain ⟨j, inside, target⟩ := targetsRest still other later
        exact ⟨j, List.mem_append_right _ inside, target⟩

omit [UnicodeTables] in
/-- The jobs of a transaction: each graph job is queued under a new id. -/
theorem Enqueued.newGraphJob {db mid db' : Db} {mirror : Job} {graphs : List Job} {id : Nat}
    (all : Enqueued mid (mirror :: graphs) db') (sameNext : mid.nextJobId = db.nextJobId)
    (graph : ∀ j ∈ graphs, j.jobType = "graph_index_build")
    (targets : ∃ j ∈ graphs, j.targetId = some id) : NewGraphJob db db' id := by
  obtain ⟨j, member, target⟩ := targets
  have inside : j ∈ mirror :: graphs := List.mem_cons_of_mem _ member
  have listed : j.jobId ∈ List.range' mid.nextJobId (mirror :: graphs).length := by
    rw [← all.ids]
    exact List.mem_map_of_mem inside
  have newer : mid.nextJobId ≤ j.jobId := (List.mem_range'_1.mp listed).1
  refine ⟨j, ?_, graph j member, target, (all.queued j inside).1, by omega⟩
  rw [all.tables]
  exact List.mem_append_right _ inside

/-- What a committed approval does to the database. -/
structure Approved (request : Request) (logicalDocumentId documentVersionId : Nat)
    (db db' : Db) : Prop where
  versions : db'.versions =
    db.versions.map (activated logicalDocumentId documentVersionId request.now)
  documents : db'.documents = db.documents.map fun d =>
    if d.logicalDocumentId = logicalDocumentId then { d with updatedAt := request.now } else d
  chunks : db'.chunks = db.chunks
  corpusMarker : db'.corpusMarker = some request.now
  settings : db'.graphIndexing = db.graphIndexing ∧ db'.graphExtractor = db.graphExtractor
  jobs : ∃ graphs, db'.jobs = db.jobs ++ mirrorJob request logicalDocumentId
      (approvePayload request logicalDocumentId documentVersionId) db.nextJobId :: graphs ∧
    ∀ j ∈ graphs, j.jobType = "graph_index_build"
  graphJobs : db.graphIndexingEnabled = true → ∀ v ∈ db.versions,
    v.logicalDocumentId = logicalDocumentId → v.documentVersionId = documentVersionId ∨
      v.isActive = true → NewGraphJob db db' v.documentVersionId
  jobs_ok : TableOk db'.jobs ∧ ∀ j ∈ db'.jobs, j.jobId < db'.nextJobId
  nextJobId : db.nextJobId < db'.nextJobId

/-- An approval of a ready, inactive version of an active document, decided by the ids. -/
theorem approveVersion_eq {db : Db} (ok : db.Ok) (request : Request) {document : LogicalDocument}
    {version : DocumentVersion}
    (foundDocument : db.getDocument version.logicalDocumentId = some document)
    (foundVersion : db.getVersion version.logicalDocumentId version.documentVersionId =
      some version)
    (open_ : document.status = .active) (ready : version.status = .ready)
    (inactive : version.isActive = false) :
    (∃ db' response, approveVersion request version.logicalDocumentId version.documentVersionId db =
        .ok (db', response) ∧
      Approved request version.logicalDocumentId version.documentVersionId db db' ∧
      ∀ a ∈ db.versions, a.logicalDocumentId = version.logicalDocumentId → a.isActive = true →
        a.documentVersionId < version.documentVersionId) ∨
    (approveVersion request version.logicalDocumentId version.documentVersionId db =
        .error .activeVersionConflict ∧
      ¬∀ a ∈ db.versions, a.logicalDocumentId = version.logicalDocumentId → a.isActive = true →
        a.documentVersionId < version.documentVersionId) := by
  have member := (getVersion_some foundVersion).1
  have flush := @setActiveVersion_eq db ok version request.now member ready inactive
  by_cases smaller : ∀ a ∈ db.versions, a.logicalDocumentId = version.logicalDocumentId →
      a.isActive = true → a.documentVersionId < version.documentVersionId
  · rw [if_pos smaller] at flush
    left
    generalize hprevious : (db.activeVersion version.logicalDocumentId).map
      (·.documentVersionId) = previous at flush
    generalize hmid : ({ db with
      versions := db.versions.map
        (activated version.logicalDocumentId version.documentVersionId request.now)
      corpusMarker := some request.now } : Db) = mid at flush
    have positive : ∀ id ∈ (previous.filter (· ≠ version.documentVersionId)).toList ++
        [version.documentVersionId], 0 < id := by
      intro id hid
      rcases List.mem_append.mp hid with h | h
      · have kept : previous = some id := by
          have h := Option.mem_toList.mp h
          exact (Option.filter_eq_some_iff.mp h).1
        rw [← hprevious] at kept
        obtain ⟨a, found, rfl⟩ := Option.map_eq_some_iff.mp kept
        exact ok.positive a (activeVersion_some found).1
      · cases List.mem_singleton.mp h
        exact ok.positive version member
    let payload := approvePayload request version.logicalDocumentId version.documentVersionId
    have mirror : Enqueued mid [mirrorJob request version.logicalDocumentId payload mid.nextJobId]
        (createQdrantMirrorJob request version.logicalDocumentId payload mid).1 :=
      enqueued_createJob mid rfl rfl (newJob_accepted (by decide) (by decide))
    obtain ⟨last, graphs, created, enqueued, graph, targets⟩ := createGraphIndexJobs_ok request
      positive (createQdrantMirrorJob request version.logicalDocumentId payload mid).1
    have all := mirror.trans enqueued
    have jobs_ok := all.jobs_ok (by rw [← hmid]; exact ok.jobs) (by rw [← hmid]; exact ok.fresh)
    have committed : ∃ response,
        approveVersion request version.logicalDocumentId version.documentVersionId db =
          .ok (last.touchDocument version.logicalDocumentId request.now, response) := by
      unfold approveVersion
      simp only [foundDocument, foundVersion, open_, inactive, ready, flush]
      simp only [payload] at created
      rw [if_neg (by decide), if_neg (by decide), if_neg (by decide)]
      simp only [created]
      exact ⟨_, rfl⟩
    obtain ⟨response, committed⟩ := committed
    refine ⟨_, response, committed, ?_, smaller⟩
    · have enqueues (v : DocumentVersion) (inside : v ∈ db.versions)
          (sameDocument : v.logicalDocumentId = version.logicalDocumentId)
          (changed : v.documentVersionId = version.documentVersionId ∨ v.isActive = true) :
          v.documentVersionId ∈ (previous.filter (· ≠ version.documentVersionId)).toList ++
            [version.documentVersionId] := by
        by_cases chosen : v.documentVersionId = version.documentVersionId
        · simp [chosen]
        · have row := activeVersion_of_mem ok inside (changed.resolve_left chosen)
          rw [sameDocument] at row
          simp [← hprevious, row, Option.filter, chosen]
      subst hmid
      refine ⟨?_, ?_, ?_, ?_, ?_, ⟨graphs, ?_, graph⟩, fun enabled v inside same changed =>
        all.newGraphJob rfl graph (targets enabled _ (enqueues v inside same changed)),
        jobs_ok, ?_⟩ <;> simp [Db.touchDocument, all.tables, payload]
  · rw [if_neg smaller] at flush
    refine .inr ⟨?_, smaller⟩
    unfold approveVersion
    simp only [foundDocument, foundVersion, open_, inactive, ready, flush]
    rfl

/-- What a committed archival does to the database. -/
structure Archived (request : Request) (logicalDocumentId : Nat) (db db' : Db) : Prop where
  versions : db'.versions = db.versions.map (withdrawn logicalDocumentId request.now)
  documents : db'.documents = db.documents.map fun d => if d.logicalDocumentId = logicalDocumentId
    then { d with status := .archived, archivedAt := some request.now, updatedAt := request.now }
    else d
  chunks : db'.chunks = db.chunks
  corpusMarker : db'.corpusMarker = some request.now
  settings : db'.graphIndexing = db.graphIndexing ∧ db'.graphExtractor = db.graphExtractor
  jobs : ∃ graphs, db'.jobs = db.jobs ++ mirrorJob request logicalDocumentId
      (archivePayload request logicalDocumentId) db.nextJobId :: graphs ∧
    ∀ j ∈ graphs, j.jobType = "graph_index_build"
  graphJobs : db.graphIndexingEnabled = true → ∀ v ∈ db.versions,
    v.logicalDocumentId = logicalDocumentId → v.isActive = true →
      NewGraphJob db db' v.documentVersionId
  jobs_ok : TableOk db'.jobs ∧ ∀ j ∈ db'.jobs, j.jobId < db'.nextJobId
  nextJobId : db.nextJobId < db'.nextJobId

theorem archiveDocument_eq {db : Db} (ok : db.Ok) (request : Request) {document : LogicalDocument}
    {logicalDocumentId : Nat} (foundDocument : db.getDocument logicalDocumentId = some document)
    (open_ : document.status = .active) :
    ∃ db' response, archiveDocument request logicalDocumentId db = .ok (db', response) ∧
      Archived request logicalDocumentId db db' := by
  have flush := archiveDocumentRows_eq ok logicalDocumentId request.now
  generalize hmid : ({ db with
    documents := db.documents.map fun d => if d.logicalDocumentId = logicalDocumentId then
      { d with status := .archived, archivedAt := some request.now, updatedAt := request.now }
      else d
    versions := db.versions.map (withdrawn logicalDocumentId request.now)
    corpusMarker := some request.now } : Db) = mid at flush
  have positive : ∀ id ∈ ((db.activeVersion logicalDocumentId).map (·.documentVersionId)).toList,
      0 < id := by
    intro id hid
    obtain ⟨a, found, rfl⟩ := Option.map_eq_some_iff.mp (Option.mem_toList.mp hid)
    exact ok.positive a (activeVersion_some found).1
  have mirror : Enqueued mid
      [mirrorJob request logicalDocumentId (archivePayload request logicalDocumentId) mid.nextJobId]
      (createQdrantMirrorJob request logicalDocumentId
        (archivePayload request logicalDocumentId) mid).1 :=
    enqueued_createJob mid rfl rfl (newJob_accepted (by decide) (by decide))
  obtain ⟨last, graphs, created, enqueued, graph, targets⟩ := createGraphIndexJobs_ok request
    positive (createQdrantMirrorJob request logicalDocumentId
      (archivePayload request logicalDocumentId) mid).1
  have all := mirror.trans enqueued
  have jobs_ok := all.jobs_ok (by rw [← hmid]; exact ok.jobs) (by rw [← hmid]; exact ok.fresh)
  have committed : ∃ response, archiveDocument request logicalDocumentId db =
      .ok (last, response) := by
    unfold archiveDocument
    simp only [foundDocument, open_, flush]
    rw [if_neg (by decide)]
    simp only [created]
    exact ⟨_, rfl⟩
  obtain ⟨response, committed⟩ := committed
  refine ⟨last, response, committed, ?_⟩
  have enqueues (v : DocumentVersion) (inside : v ∈ db.versions)
      (sameDocument : v.logicalDocumentId = logicalDocumentId) (active : v.isActive = true) :
      v.documentVersionId ∈
        ((db.activeVersion logicalDocumentId).map (·.documentVersionId)).toList := by
    have row := activeVersion_of_mem ok inside active
    rw [sameDocument] at row
    simp [row]
  subst hmid
  refine ⟨?_, ?_, ?_, ?_, ?_, ⟨graphs, ?_, graph⟩, fun enabled v inside same active =>
    all.newGraphJob rfl graph (targets enabled _ (enqueues v inside same active)), jobs_ok, ?_⟩ <;>
    simp [all.tables]

/-- Inversion: an approval that returns changed nothing or is one of the kind above. -/
theorem approveVersion_ok {db db' : Db} {response : ApproveResponse} (ok : db.Ok)
    {request : Request} {logicalDocumentId documentVersionId : Nat}
    (done : approveVersion request logicalDocumentId documentVersionId db = .ok (db', response)) :
    db' = db ∨ ∃ document version, db.getDocument logicalDocumentId = some document ∧
      document.status = .active ∧ db.getVersion logicalDocumentId documentVersionId = some version ∧
      version.status = .ready ∧ Approved request logicalDocumentId documentVersionId db db' := by
  cases foundDocument : db.getDocument logicalDocumentId with
  | none => simp [approveVersion, foundDocument] at done
  | some document =>
    cases foundVersion : db.getVersion logicalDocumentId documentVersionId with
    | none => simp [approveVersion, foundDocument, foundVersion] at done
    | some version =>
      obtain ⟨_, sameDocument, sameVersion⟩ := getVersion_some foundVersion
      cases inactive : version.isActive with
      | true =>
        left
        simp only [approveVersion, foundDocument, foundVersion, inactive, if_true] at done
        split at done
        · cases done
        · cases done
          rfl
      | false =>
        cases open_ : document.status with
        | archived => simp [approveVersion, foundDocument, foundVersion, open_] at done
        | active =>
          by_cases ready : version.status = .ready
          · right
            subst sameDocument sameVersion
            rcases approveVersion_eq ok request foundDocument foundVersion open_ ready inactive with
              ⟨mid, _, committed, effect, _⟩ | ⟨refused, _⟩
            · rw [committed] at done
              cases done
              exact ⟨document, version, rfl, open_, rfl, ready, effect⟩
            · rw [refused] at done
              cases done
          · simp [approveVersion, foundDocument, foundVersion, open_, inactive, ready] at done

theorem archiveDocument_ok {db db' : Db} {response : ArchiveResponse} (ok : db.Ok)
    {request : Request} {logicalDocumentId : Nat}
    (done : archiveDocument request logicalDocumentId db = .ok (db', response)) :
    db' = db ∨ ∃ document, db.getDocument logicalDocumentId = some document ∧
      document.status = .active ∧ Archived request logicalDocumentId db db' := by
  cases foundDocument : db.getDocument logicalDocumentId with
  | none => simp [archiveDocument, foundDocument] at done
  | some document =>
    cases open_ : document.status with
    | archived =>
      left
      simp only [archiveDocument, foundDocument, open_, if_true] at done
      cases done
      rfl
    | active =>
      obtain ⟨mid, _, committed, effect⟩ := archiveDocument_eq ok request foundDocument open_
      rw [committed] at done
      cases done
      exact .inr ⟨document, rfl, open_, effect⟩

/-- The schema's constraints hold after an approval. -/
theorem Approved.ok {db db' : Db} {request : Request} {version : DocumentVersion} (ok : db.Ok)
    (member : version ∈ db.versions) (ready : version.status = .ready)
    (effect : Approved request version.logicalDocumentId version.documentVersionId db db') :
    db'.Ok := by
  refine ⟨?_, ?_, ?_, ?_, ?_, ?_, effect.jobs_ok.1, effect.jobs_ok.2⟩
  · rw [effect.documents, Table.map_keys fun d _ => by split <;> rfl]
    exact ok.documentIds
  · rw [effect.versions, Table.map_keys fun v _ => activated_id _ _ _ v]
    exact ok.versionIds
  · rw [effect.documents]
    intro d' hd
    obtain ⟨d, old, rfl⟩ := List.mem_map.mp hd
    have positive := ok.documentPositive d old
    split <;> exact positive
  · rw [effect.versions]
    intro v' hv
    obtain ⟨v, old, rfl⟩ := List.mem_map.mp hv
    rw [activated_id]
    exact ok.positive v old
  · rw [effect.versions]
    intro v' hv
    obtain ⟨v, old, rfl⟩ := List.mem_map.mp hv
    unfold activated
    split
    · rename_i chosen
      have row := Table.unique ok.versionIds old member chosen
      subst row
      exact activate_accepted _ (ok.accepted v old) ready
    · split
      · exact deactivate_accepted _ (ok.accepted v old)
      · exact ok.accepted v old
  · rw [effect.versions]
    exact activated_oneActive ok.versionIds ok.oneActive member

theorem Archived.ok {db db' : Db} {request : Request} {logicalDocumentId : Nat} (ok : db.Ok)
    (effect : Archived request logicalDocumentId db db') : db'.Ok := by
  refine ⟨?_, ?_, ?_, ?_, ?_, ?_, effect.jobs_ok.1, effect.jobs_ok.2⟩
  · rw [effect.documents, Table.map_keys fun d _ => by split <;> rfl]
    exact ok.documentIds
  · rw [effect.versions, Table.map_keys fun v _ => withdrawn_id _ _ v]
    exact ok.versionIds
  · rw [effect.documents]
    intro d' hd
    obtain ⟨d, old, rfl⟩ := List.mem_map.mp hd
    have positive := ok.documentPositive d old
    split <;> exact positive
  · rw [effect.versions]
    intro v' hv
    obtain ⟨v, old, rfl⟩ := List.mem_map.mp hv
    rw [withdrawn_id]
    exact ok.positive v old
  · rw [effect.versions]
    intro v' hv
    obtain ⟨v, old, rfl⟩ := List.mem_map.mp hv
    unfold withdrawn
    split
    · exact deactivate_accepted _ (ok.accepted v old)
    · exact ok.accepted v old
  · rw [effect.versions]
    exact withdrawn_oneActive logicalDocumentId ok.versionIds ok.oneActive

/-- A ready version becomes the active one exactly when every active version of its document
has a smaller id. Otherwise the index refuses the flush. -/
theorem approve_ready_iff (db : Db) (ok : db.Ok) (request : Request) (document : LogicalDocument)
    (version : DocumentVersion)
    (foundDocument : db.getDocument version.logicalDocumentId = some document)
    (foundVersion : db.getVersion version.logicalDocumentId version.documentVersionId =
      some version)
    (open_ : document.status = .active) (ready : version.status = .ready)
    (inactive : version.isActive = false) :
    (∃ db' response, approveVersion request version.logicalDocumentId version.documentVersionId db =
        .ok (db', response) ∧
      db'.versions = db.versions.map
        (activated version.logicalDocumentId version.documentVersionId request.now) ∧
      ∀ v ∈ db'.versions, v.logicalDocumentId = version.logicalDocumentId →
        (v.isActive = true ↔ v.documentVersionId = version.documentVersionId)) ↔
    ∀ a ∈ db.versions, a.logicalDocumentId = version.logicalDocumentId → a.isActive = true →
      a.documentVersionId < version.documentVersionId := by
  rcases approveVersion_eq ok request foundDocument foundVersion open_ ready inactive with
    ⟨db', response, committed, effect, smaller⟩ | ⟨refused, larger⟩
  · refine ⟨fun _ => smaller, fun _ => ⟨db', response, committed, effect.versions, ?_⟩⟩
    intro v' member sameDocument
    rw [effect.versions] at member
    obtain ⟨v, _, rfl⟩ := List.mem_map.mp member
    rw [activated_document] at sameDocument
    rw [activated_id]
    constructor
    · intro active
      rcases active_of_activated active with chosen | ⟨_, other⟩
      · exact chosen
      · exact absurd sameDocument other
    · intro chosen
      simp [activated, chosen, activate]
  · constructor
    · rintro ⟨db', response, committed, _⟩
      rw [refused] at committed
      cases committed
    · intro smaller
      exact absurd smaller larger

end

/-- A document with two ready versions, one of them active. -/
def twoVersions (activeId : Nat) : Db where
  documents := [⟨1, 1, "handbook", .active, none, 0, 0⟩]
  versions := [1, 2].map fun id =>
    ⟨id, 1, id, "", .ready, id == activeId, none, "handbook.md", "text/markdown", 1, none, none,
      none, none, none, 1, 0, 0⟩
  chunks := []
  jobs := []
  nextJobId := 1
  corpusMarker := none
  graphIndexing := none
  graphExtractor := none

theorem twoVersions_ok : (twoVersions 1).Ok where
  documentIds := by decide
  versionIds := by decide
  documentPositive := by decide
  positive := by decide
  accepted := by decide
  oneActive := by decide
  jobs := ⟨by decide, by simp [twoVersions], by simp [twoVersions]⟩
  fresh := by simp [twoVersions]

theorem approve_newer_version :
    let _ : UnicodeTables := asciiTables
    (∃ db' response, approveVersion ⟨7, 10, 10⟩ 1 2 (twoVersions 1) = .ok (db', response) ∧
      db'.versions = (twoVersions 1).versions.map (activated 1 2 10) ∧
      ∀ v ∈ db'.versions, v.logicalDocumentId = 1 → (v.isActive = true ↔ v.documentVersionId = 2)) ↔
    ∀ a ∈ (twoVersions 1).versions, a.logicalDocumentId = 1 → a.isActive = true →
      a.documentVersionId < 2 :=
  @approve_ready_iff asciiTables (twoVersions 1) twoVersions_ok ⟨7, 10, 10⟩
    ⟨1, 1, "handbook", .active, none, 0, 0⟩
    ⟨2, 1, 2, "", .ready, false, none, "handbook.md", "text/markdown", 1, none, none, none, none,
      none, 1, 0, 0⟩ rfl rfl rfl rfl rfl

/-- Going back to the older version: the flush activates it while the newer one is still active. -/
theorem approve_older_version_conflicts :
    let _ : UnicodeTables := asciiTables
    OneActive (twoVersions 2).versions ∧
      (twoVersions 2).versions.map (fun v => (v.documentVersionId, v.status, v.isActive)) =
        [(1, .ready, false), (2, .ready, true)] ∧
      (approveVersion ⟨7, 10, 10⟩ 1 1 (twoVersions 2)).map (fun _ => ()) =
        .error .activeVersionConflict := by
  decide

end RagProject.Documents
