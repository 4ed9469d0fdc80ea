import RagProject.Graph.Orphans
import RagProject.Graph.ProjectionWrites

/-! The projection beside the graph workers: the rows that a worker holds between its read and its
write can always be merged, and a relation id never changes its version. -/
namespace RagProject.Graph
open Python Jobs Documents Interleaving

section Definitions

/-- The version that a worker in the phase works for. -/
def BuildPhase.version : BuildPhase → Option Nat
  | .prepare payload => some payload.documentVersionId
  | .extract snapshot | .persist snapshot _ => some snapshot.documentVersionId
  | .project documentVersionId _ | .projecting documentVersionId _ _ => some documentVersionId
  | .failRun _ _ | .done _ => none

/-- The worker has not read the rows of the version yet, or will fail its job. -/
def Unread : BuildPhase → Prop
  | .projecting _ _ _ => False
  | .done (.succeeded _) => False
  | _ => True

/-- Relation ids of one version each, all handed out already. -/
structure EdgesOk (owner : Nat → Nat) (db : GraphDb) (edges : List RelationEdge) : Prop where
  owned : EdgesOwned owner edges
  fresh : ∀ e ∈ edges, e.graphRelationId < db.nextRelationId

structure RelationsOwned (owner : Nat → Nat) (s : GraphSystem) : Prop where
  rows : ∀ v, ∀ r ∈ s.db.relationsOf v, owner r.graphRelationId = v
  neo : EdgesOk owner s.db s.neo.relations
  read : ∀ worker build v rows result, s.builds worker = some build →
    build.phase = .projecting v rows result → EdgesOk owner s.db rows.relations

variable [GraphText]

structure Projecting (s : GraphSystem) : Prop where
  ok : s.Ok
  enabled : s.db.docs.graphIndexingEnabled = true
  tables : TablesOk s.db
  placed : Placed s.db s.neo
  jobs : ∀ worker build, s.builds worker = some build →
    ∃ job, getJob s.db.docs.jobs build.jobId = some job ∧ job.jobType = "graph_index_build" ∧
      ∀ v, build.phase.version = some v → job.targetId = some v
  rows : ∀ worker build v rows result, s.builds worker = some build →
    build.phase = .projecting v rows result → RowsOk s.db v rows
  owned : ∃ owner, RelationsOwned owner s

end Definitions

section Tables

/-- Mentions, relations and entities of two databases with the same chunks. -/
theorem chunkIds_of_chunks {db db' : GraphDb} (chunks : db'.docs.chunks = db.docs.chunks)
    (v : Nat) : db'.chunkIds v = db.chunkIds v := by
  unfold GraphDb.chunkIds Db.chunksOf
  rw [chunks]

theorem RowsOk.carry {db db' : GraphDb} {v : Nat} {rows : ProjectionRows}
    (chunks : db'.docs.chunks = db.docs.chunks) (ok : RowsOk db v rows) : RowsOk db' v rows := by
  refine ⟨ok.entityIds, ?_, ok.chunkIds, ok.mentions, ok.mentionKeys, ok.relations, ?_,
    ok.relationKeys⟩ <;> rw [chunkIds_of_chunks chunks]
  · exact ok.chunks
  · exact ok.sources

theorem Placed.carry {db db' : GraphDb} {neo : Neo4jGraph}
    (chunks : db'.docs.chunks = db.docs.chunks) (placed : Placed db neo) : Placed db' neo := by
  constructor
  · intro c member
    rw [chunkIds_of_chunks chunks]
    exact placed.chunks c member
  · intro e member
    rw [chunkIds_of_chunks chunks]
    exact placed.mentions e member
  · intro e member v version
    rw [chunkIds_of_chunks chunks]
    exact placed.relations e member v version

/-- What a projection shows of the state of a version and of its document. -/
def shownState (docs : Db) (documentVersionId : Nat) : Option (Nat × String × Bool × String) :=
  (docs.getVersionById documentVersionId).bind fun v =>
    (docs.getDocument v.logicalDocumentId).map fun d =>
      (v.logicalDocumentId, v.status.value, v.isActive, d.status.value)

theorem chunkRows_of_shown {docs docs' : Db} {v : Nat} (chunks : docs'.chunks = docs.chunks)
    (shown : shownState docs' v = shownState docs v) : chunkRows v docs' = chunkRows v docs := by
  have same : docs'.chunksOf v = docs.chunksOf v := by
    unfold Db.chunksOf
    rw [chunks]
  have row (docs : Db) (c : DocumentChunk) (member : c ∈ docs.chunksOf v) :
      ((docs.getVersionById c.documentVersionId).bind fun v =>
        (docs.getDocument v.logicalDocumentId).map fun d =>
          (⟨c.documentChunkId, c.documentVersionId, v.logicalDocumentId, c.chunkHash, c.modality,
            v.status.value, v.isActive, d.status.value⟩ : ChunkNode)) =
      (shownState docs v).map fun state => ⟨c.documentChunkId, c.documentVersionId, state.1,
        c.chunkHash, c.modality, state.2.1, state.2.2.1, state.2.2.2⟩ := by
    have version : c.documentVersionId = v := beq_iff_eq.mp (List.mem_filter.mp member).2
    unfold shownState
    rw [version]
    cases docs.getVersionById v with
    | none => rfl
    | some found => cases document : docs.getDocument found.logicalDocumentId <;> simp [document]
  unfold chunkRows
  rw [List.filterMap_congr (row docs'), List.filterMap_congr (row docs), same, shown]

/-- The rows that a projection of the version reads are the same in both databases. -/
structure SameProjection (documentVersionId : Nat) (db db' : GraphDb) : Prop where
  chunks : chunkRows documentVersionId db'.docs = chunkRows documentVersionId db.docs
  mentions : mentionRows documentVersionId db' = mentionRows documentVersionId db
  relations : relationEdges documentVersionId db' = relationEdges documentVersionId db

variable {db db' : GraphDb} {v : Nat}

theorem SameProjection.refl (v : Nat) (db : GraphDb) : SameProjection v db db := ⟨rfl, rfl, rfl⟩

theorem SameProjection.fresh {rows : ProjectionRows} (same : SameProjection v db db')
    (fresh : Fresh db v rows) : Fresh db' v rows :=
  ⟨fresh.chunks.trans same.chunks.symm, fresh.mentions.trans same.mentions.symm,
    fresh.relations.trans same.relations.symm⟩

theorem SameProjection.shows {neo : Neo4jGraph} (same : SameProjection v db db')
    (shows : Shows neo db v) : Shows neo db' v := by
  refine ⟨?_, ?_, ?_⟩
  · rw [same.chunks]
    exact shows.chunks
  · rw [same.mentions]
    exact shows.mentions
  · rw [same.relations]
    exact shows.relations

theorem sameProjection_of_tables (chunks : db'.docs.chunks = db.docs.chunks)
    (shown : shownState db'.docs v = shownState db.docs v)
    (mentions : db'.mentionsOf v = db.mentionsOf v)
    (relations : db'.relationsOf v = db.relationsOf v) : SameProjection v db db' := by
  refine ⟨chunkRows_of_shown chunks shown, ?_, ?_⟩
  · unfold mentionRows
    rw [mentions]
  · unfold relationEdges
    rw [relations]

end Tables

section Documents

/-- What every step keeps of the documents: chunks, settings and the ids of the rows. -/
structure DocsKept (docs docs' : Db) : Prop where
  chunks : docs'.chunks = docs.chunks
  settings : docs'.graphIndexing = docs.graphIndexing
  versions : ∃ f, docs'.versions = docs.versions.map f ∧ ∀ v ∈ docs.versions,
    (f v).documentVersionId = v.documentVersionId ∧ (f v).logicalDocumentId = v.logicalDocumentId
  documents : ∃ g, docs'.documents = docs.documents.map g ∧ ∀ d ∈ docs.documents,
    (g d).logicalDocumentId = d.logicalDocumentId

theorem docsKept_of_jobs {docs docs' : Db} (chunks : docs'.chunks = docs.chunks)
    (settings : docs'.graphIndexing = docs.graphIndexing) (versions : docs'.versions = docs.versions)
    (documents : docs'.documents = docs.documents) : DocsKept docs docs' :=
  ⟨chunks, settings, ⟨id, by simp [versions], fun _ _ => ⟨rfl, rfl⟩⟩,
    ⟨id, by simp [documents], fun _ _ => rfl⟩⟩

/-- The state that is shown depends on the status columns only. -/
theorem shownState_map {docs docs' : Db} {f : DocumentVersion → DocumentVersion}
    {g : LogicalDocument → LogicalDocument} {v : Nat}
    (versions : docs'.versions = docs.versions.map f)
    (documents : docs'.documents = docs.documents.map g)
    (versionIds : ∀ w ∈ docs.versions, (f w).documentVersionId = w.documentVersionId)
    (documentIds : ∀ d ∈ docs.documents, (g d).logicalDocumentId = d.logicalDocumentId)
    (same : ∀ w d, docs.getVersionById v = some w → docs.getDocument w.logicalDocumentId = some d →
      (f w).status = w.status ∧ (f w).isActive = w.isActive ∧ (g d).status = d.status)
    (parent : ∀ w ∈ docs.versions, (f w).logicalDocumentId = w.logicalDocumentId) :
    shownState docs' v = shownState docs v := by
  have version : docs'.getVersionById v = (docs.getVersionById v).map f := by
    unfold Db.getVersionById
    rw [versions]
    exact Table.row_map versionIds v
  have document (id : Nat) : docs'.getDocument id = (docs.getDocument id).map g := by
    unfold Db.getDocument
    rw [documents]
    exact Table.row_map documentIds id
  unfold shownState
  rw [version]
  cases foundVersion : docs.getVersionById v with
  | none => rfl
  | some w =>
    have sameDocument := parent w (Table.mem_of_row foundVersion).1
    simp only [Option.map_some, Option.bind_some, sameDocument, document]
    cases foundDocument : docs.getDocument w.logicalDocumentId with
    | none => rfl
    | some d =>
      obtain ⟨status, active, shown⟩ := same w d foundVersion foundDocument
      simp [status, active, shown]

variable [GraphText]

theorem docs_kept {s t : GraphSystem} {action : GraphAction} (ok : s.Ok)
    (step : Stepped s action t) : DocsKept s.db.docs t.db.docs := by
  have refl : DocsKept s.db.docs s.db.docs := docsKept_of_jobs rfl rfl rfl rfl
  cases step with
  | approved request document version docs response done =>
    rcases approveVersion_ok ok.docs done with rfl | ⟨_, _, _, _, _, _, effect⟩
    · exact refl
    · refine ⟨effect.chunks, effect.settings.1, ⟨_, effect.versions, fun v _ => ?_⟩,
        ⟨_, effect.documents, fun d _ => ?_⟩⟩
      · exact ⟨activated_id _ _ _ v, activated_document _ _ _ v⟩
      · split <;> rfl
  | archived request document docs response done =>
    rcases archiveDocument_ok ok.docs done with rfl | ⟨_, _, _, effect⟩
    · exact refl
    · refine ⟨effect.chunks, effect.settings.1, ⟨_, effect.versions, fun v _ => ?_⟩,
        ⟨_, effect.documents, fun d _ => ?_⟩⟩
      · exact ⟨withdrawn_id _ _ v, withdrawn_document _ _ v⟩
      · split <;> rfl
  | prepared worker now fault build payload db snapshot there phase effect =>
    have same := effect.run.tables.1
    exact docsKept_of_jobs (congrArg _ same) (congrArg _ same) (congrArg _ same) (congrArg _ same)
  | runFailed _ worker build runId code db acts there phase unclosed owned failed =>
    obtain ⟨g, rfl, _⟩ := failed.tables
    exact refl
  | replaced worker now fault build snapshot result db entity mentionRows relationRows json there
      phase running owned replaced =>
    obtain ⟨entities, next, rfl⟩ := replaced.tables
    exact refl
  | _ => exact docsKept_of_jobs rfl rfl rfl rfl

omit [GraphText] in
theorem DocsKept.parents {docs docs' : Db} (kept : DocsKept docs docs') {id : Nat}
    (before : ∃ v d, docs.getVersionById id = some v ∧
      docs.getDocument v.logicalDocumentId = some d) :
    ∃ v d, docs'.getVersionById id = some v ∧ docs'.getDocument v.logicalDocumentId = some d := by
  obtain ⟨f, versions, sameVersion⟩ := kept.versions
  obtain ⟨g, documents, sameDocument⟩ := kept.documents
  obtain ⟨v, d, foundVersion, foundDocument⟩ := before
  refine ⟨f v, g d, ?_, ?_⟩
  · unfold Db.getVersionById at foundVersion ⊢
    rw [versions, Table.row_map fun w member => (sameVersion w member).1, foundVersion]
    rfl
  · rw [(sameVersion v (Table.mem_of_row foundVersion).1).2]
    unfold Db.getDocument at foundDocument ⊢
    rw [documents, Table.row_map sameDocument, foundDocument]
    rfl

end Documents

section Artifacts
variable [GraphText]

/-- The graph tables in a step that replaces no rows. -/
structure ArtifactsKept (db db' : GraphDb) : Prop where
  entities : db'.entities = db.entities
  mentions : db'.mentions = db.mentions
  relations : db'.relations = db.relations
  nextMentionId : db'.nextMentionId = db.nextMentionId
  nextRelationId : db'.nextRelationId = db.nextRelationId

theorem hasEntity_replaced {snapshot : GraphIndexBuildSnapshot} {result : GraphExtractionResult}
    {now : Time} {db db' : GraphDb} {entity : EntityKey → Option Nat}
    {mentionRows : List GraphEntityMention} {relationRows : List GraphRelation}
    (replaced : Replaced snapshot result now db db' entity mentionRows relationRows) {id : Nat}
    (before : HasEntity db id) : HasEntity db' id := by
  obtain ⟨e, member, rfl⟩ := before
  obtain ⟨e', member', same⟩ := replaced.kept e member
  exact ⟨e', member', congrArg Prod.fst same⟩

theorem tables_replaced {snapshot : GraphIndexBuildSnapshot} {result : GraphExtractionResult}
    {now : Time} {db db' : GraphDb} {entity : EntityKey → Option Nat}
    {mentionRows : List GraphEntityMention} {relationRows : List GraphRelation}
    (tables : TablesOk db)
    (replaced : Replaced snapshot result now db db' entity mentionRows relationRows) :
    TablesOk db' := by
  have named {key : EntityKey} {id : Nat} (found : entity key = some id) : HasEntity db' id := by
    obtain ⟨row, member, same, _⟩ := replaced.named key id found
    exact ⟨row, member, same⟩
  have labels := replaced.labels tables.labels
  have kept {id : Nat} (before : HasEntity db id) : HasEntity db' id :=
    hasEntity_replaced replaced before
  have mentionRow_entity (row : GraphEntityMention) (member : row ∈ mentionRows) :
      HasEntity db' row.graphEntityId := by
    have columns : row.columns ∈ result.entityMentions.map (mentionRow entity) := by
      rw [← replaced.mentions]
      exact List.mem_map_of_mem member
    obtain ⟨m, inside, made⟩ := List.mem_map.mp columns
    obtain ⟨id, found⟩ := Option.isSome_iff_exists.mp (replaced.mentioned m inside)
    have same : id = row.graphEntityId := by
      have entityId := congrArg GraphEntityMention.graphEntityId made
      simpa [mentionRow, found, GraphEntityMention.columns] using entityId
    exact same ▸ named found
  have relationRow_entities (row : GraphRelation) (member : row ∈ relationRows) :
      HasEntity db' row.sourceEntityId ∧ HasEntity db' row.targetEntityId := by
    have columns : row.columns ∈ result.relations.filterMap (relationRowOf entity) := by
      rw [← replaced.relations]
      exact List.mem_map_of_mem member
    obtain ⟨r, _, made⟩ := List.mem_filterMap.mp columns
    unfold relationRowOf at made
    split at made
    · rename_i source target foundSource foundTarget
      have same := Option.some.inj made
      have sourceId : source = row.sourceEntityId := congrArg GraphRelation.sourceEntityId same
      have targetId : target = row.targetEntityId := congrArg GraphRelation.targetEntityId same
      exact ⟨sourceId ▸ named foundSource, targetId ▸ named foundTarget⟩
    · cases made
  have mentionIds := Table.append_numbered
    (Table.filter_distinct tables.mentionIds (·.documentVersionId != snapshot.documentVersionId))
    (fun m member => tables.mentionFresh m (List.mem_filter.mp member).1) replaced.mentionIds
  have relationIds := Table.append_numbered
    (Table.filter_distinct tables.relationIds fun r =>
      !(db.chunkIds snapshot.documentVersionId).contains r.sourceDocumentChunkId)
    (fun r member => tables.relationFresh r (List.mem_filter.mp member).1) replaced.relationIds
  have mentionsPlaced := replaced.mentionsPlaced
  obtain ⟨entities, next, rfl⟩ := replaced.tables
  refine ⟨tables.parents, ?_, mentionIds.1, mentionIds.2, ?_, relationIds.1, relationIds.2, labels⟩
  · intro m member
    rcases List.mem_append.mp member with old | new
    · obtain ⟨chunk, there⟩ := tables.mentions m (List.mem_filter.mp old).1
      exact ⟨chunk, kept there⟩
    · obtain ⟨version, chunk⟩ := mentionsPlaced m new
      exact ⟨version ▸ chunk, mentionRow_entity m new⟩
  · intro r member
    rcases List.mem_append.mp member with old | new
    · obtain ⟨source, target⟩ := tables.relations r (List.mem_filter.mp old).1
      exact ⟨kept source, kept target⟩
    · exact relationRow_entities r new

theorem tables_kept {db db' : GraphDb} (tables : TablesOk db) (docs : DocsKept db.docs db'.docs)
    (kept : ArtifactsKept db db') : TablesOk db' := by
  have entity (id : Nat) : HasEntity db' id ↔ HasEntity db id := by
    unfold HasEntity
    rw [kept.entities]
  refine ⟨?_, ?_, ?_, ?_, ?_, ?_, ?_, ?_⟩
  · rw [docs.chunks]
    exact fun c member => docs.parents (tables.parents c member)
  · intro m member
    rw [chunkIds_of_chunks docs.chunks, entity]
    exact tables.mentions m (kept.mentions ▸ member)
  · exact kept.mentions ▸ tables.mentionIds
  · rw [kept.mentions, kept.nextMentionId]
    exact tables.mentionFresh
  · intro r member
    rw [entity, entity]
    exact tables.relations r (kept.relations ▸ member)
  · exact kept.relations ▸ tables.relationIds
  · rw [kept.relations, kept.nextRelationId]
    exact tables.relationFresh
  · have labels := tables.labels
    exact ⟨kept.entities ▸ labels.names, kept.entities ▸ labels.types,
      kept.relations ▸ labels.relations⟩

/-- A worker has replaced the rows of its version. -/
structure ReplacedBy (s t : GraphSystem) (worker : String) (build : BuildRun)
    (documentVersionId : Nat) : Prop where
  there : s.builds worker = some build
  version : build.phase.version = some documentVersionId
  owned : ∃ j ∈ s.db.docs.jobs, ownedBy build.jobId worker j = true
  docs : t.db.docs = s.db.docs
  neo : t.neo = s.neo
  builds : ∃ result, t.builds = (s.setBuild worker (some
    { build with phase := .project documentVersionId result })).builds
  tables : TablesOk s.db → TablesOk t.db
  mentions : ∀ w, w ≠ documentVersionId → t.db.mentionsOf w = s.db.mentionsOf w
  relations : ∀ w, w ≠ documentVersionId → t.db.relationsOf w = s.db.relationsOf w
  next : s.db.nextRelationId ≤ t.db.nextRelationId
  new : ∀ r ∈ t.db.relationsOf documentVersionId, s.db.nextRelationId ≤ r.graphRelationId

theorem artifacts_kept {s t : GraphSystem} {action : GraphAction} (ok : s.Ok)
    (step : Stepped s action t) : ArtifactsKept s.db t.db ∨
      ∃ worker build v, ReplacedBy s t worker build v := by
  cases step with
  | prepared worker now fault build payload db snapshot there phase effect =>
    obtain ⟨_, entities, _, mentions, relations, nextMention, nextRelation⟩ := effect.run.tables
    exact .inl ⟨entities, mentions, relations, nextMention, nextRelation⟩
  | runFailed _ worker build runId code db acts there phase unclosed owned failed =>
    obtain ⟨g, rfl, _⟩ := failed.tables
    exact .inl ⟨rfl, rfl, rfl, rfl, rfl⟩
  | replaced worker now fault build snapshot result db entity mentionRows relationRows json there
      phase running owned replaced =>
    have held := ok.held worker build snapshot there (by rw [phase]; rfl)
    have placed : ∀ id ∈ snapshot.chunks.map (·.documentChunkId), id ∈ (setGraphRun s.db
        snapshot.graphIndexRunId (mergeMetadata result.metadataJson)).chunkIds
          snapshot.documentVersionId := fun _ member => held.chunk_placed member
    have mentions := replaced.mentionsOf
    have relations := replaced.relationsOf ok.chunks placed
    have numbered := replaced.relationIds
    have tables (before : TablesOk s.db) : TablesOk db := by
      refine tables_replaced ?_ replaced
      exact ⟨before.parents, before.mentions, before.mentionIds, before.mentionFresh,
        before.relations, before.relationIds, before.relationFresh,
        ⟨before.labels.names, before.labels.types, before.labels.relations⟩⟩
    have version : build.phase.version = some snapshot.documentVersionId := by
      rw [phase]
      rfl
    obtain ⟨entities, next, shape⟩ := replaced.tables
    refine .inr ⟨worker, build, snapshot.documentVersionId, there, version, owned, ?_, rfl,
      ⟨json, rfl⟩, tables, ?_, ?_, ?_, ?_⟩
    · rw [shape]
      rfl
    · intro w other
      have same := mentions w
      rwa [if_neg other] at same
    · intro w other
      have same := relations w
      rwa [if_neg other] at same
    · rw [shape]
      exact Nat.le_add_right _ _
    · intro r member
      have all := relations snapshot.documentVersionId
      rw [if_pos rfl] at all
      have inside : r ∈ relationRows := all ▸ member
      have listed : r.graphRelationId ∈ List.range' s.db.nextRelationId relationRows.length :=
        numbered ▸ List.mem_map_of_mem inside
      exact (List.mem_range'_1.mp listed).1
  | _ => exact .inl ⟨rfl, rfl, rfl, rfl, rfl⟩

end Artifacts

section Phases
variable [GraphText]

/-- How the phase of a worker follows from the one before, when it does not write. -/
inductive PhaseFrom (db : GraphDb) : BuildPhase → BuildPhase → Prop where
  | unread (old next : BuildPhase) : Unread next →
      (∀ v, next.version = some v → old.version = some v) → PhaseFrom db old next
  | loaded (v : Nat) (rows : ProjectionRows) (result : Dict) :
      loadProjectionRows v db = .ok rows →
      PhaseFrom db (.project v result) (.projecting v rows result)
  | unloaded (v : Nat) (error : GraphError) (result : Dict) :
      loadProjectionRows v db = .error error →
      PhaseFrom db (.project v result) (.done (.succeeded result))

theorem phaseFrom_moves {db : GraphDb} {old next : BuildPhase} (moves : Moves db old next) :
    PhaseFrom db old next := by
  have none_version {code : String} : ∀ v, (BuildPhase.done (.failed code)).version = some v →
      old.version = some v := by
    intro v h
    cases h
  cases moves with
  | loaded v rows result loaded => exact .loaded v rows result loaded
  | unloaded v error result failed => exact .unloaded v error result failed
  | refused | unfailed | raised => exact .unread _ _ trivial none_version
  | unready | unextracted | unpersisted => exact .unread _ _ trivial (fun v h => by cases h)
  | succeeded | extracted => exact .unread _ _ trivial (fun v h => h)

/-- Where the build of a worker comes from. -/
inductive BuildFrom (s : GraphSystem) (action : GraphAction) (worker : String)
    (build : BuildRun) : Prop where
  | kept : s.builds worker = some build → BuildFrom s action worker build
  | began (job : Job) : getJob s.db.docs.jobs build.jobId = some job →
      job.jobType = "graph_index_build" →
      (∀ v, build.phase.version = some v → job.targetId = some v) → Unread build.phase →
      BuildFrom s action worker build
  | moved (old : BuildRun) : s.builds worker = some old → build.jobId = old.jobId →
      PhaseFrom s.db old.phase build.phase → BuildFrom s action worker build
  | wrote (old : BuildRun) (v : Nat) (rows : ProjectionRows) (result : Dict) :
      action = .write worker → s.builds worker = some old →
      old.phase = .projecting v rows result → build.jobId = old.jobId →
      build.phase = .done (.succeeded result) → BuildFrom s action worker build

theorem graphIndexRequest_target {job : Job} {payload : GraphIndexJobPayload}
    (parsed : graphIndexRequest job = some payload) :
    job.targetId = some payload.documentVersionId := by
  have condition := (Option.filter_eq_some_iff.mp parsed).2
  have both : job.targetType = some "document_version" ∧
      job.targetId = some payload.documentVersionId := by simpa using condition
  exact both.2

theorem build_from {s t : GraphSystem} {action : GraphAction} (step : Stepped s action t)
    {w : String} {build : BuildRun} (there : t.builds w = some build) :
    BuildFrom s action w build := by
  cases step with
  | began worker job phase idle found owned graph start =>
    rcases setBuild_some there with ⟨rfl, new⟩ | old
    · cases new
      refine .began job found graph ?_ ?_
      · rcases start with ⟨payload, parsed, rfl⟩ | ⟨code, rfl⟩
        · intro v h
          cases h
          exact graphIndexRequest_target parsed
        · intro v h
          cases h
      · rcases start with ⟨payload, parsed, rfl⟩ | ⟨code, rfl⟩ <;> trivial
    · exact .kept old
  | prepared worker now fault run payload db snapshot old phase effect =>
    rcases setBuild_some there with ⟨rfl, new⟩ | kept
    · cases new
      refine .moved run old rfl (.unread _ _ trivial fun v h => ?_)
      rw [phase]
      exact (congrArg some effect.version.symm).trans h
    · exact .kept kept
  | moved _ worker run phase acts old moves =>
    rcases setBuild_some there with ⟨rfl, new⟩ | kept
    · cases new
      exact .moved run old rfl (phaseFrom_moves moves)
    · exact .kept kept
  | left _ worker =>
    rcases setBuild_some there with ⟨rfl, new⟩ | kept
    · cases new
    · exact .kept kept
  | runFailed _ worker run runId code db acts old phase unclosed owned failed =>
    rcases setBuild_some there with ⟨rfl, new⟩ | kept
    · cases new
      exact .moved run old rfl (.unread _ _ trivial fun v h => by cases h)
    · exact .kept kept
  | replaced worker now fault run snapshot result db entity mentionRows relationRows json old phase
      running owned replaced =>
    rcases setBuild_some there with ⟨rfl, new⟩ | kept
    · cases new
      refine .moved run old rfl (.unread _ _ trivial fun v h => ?_)
      rw [phase]
      exact h
    · exact .kept kept
  | wrote worker run version rows result old phase =>
    rcases setBuild_some there with ⟨rfl, new⟩ | kept
    · cases new
      exact .wrote run version rows result rfl old phase rfl rfl
    · exact .kept kept
  | finished worker lease renewed finished run result jobs old phase stored =>
    rcases setBuild_some there with ⟨rfl, new⟩ | kept
    · cases new
    · exact .kept kept
  | _ => exact .kept there

end Phases

section Invariant
variable [GraphText]

theorem loaded_ok {s : GraphSystem} (inv : Projecting s) {v : Nat} {rows : ProjectionRows}
    (loaded : loadProjectionRows v s.db = .ok rows) : Fresh s.db v rows ∧ RowsOk s.db v rows := by
  obtain ⟨rows', read, fresh, ok⟩ :=
    loadProjectionRows_ok inv.tables inv.ok.entities inv.ok.chunks v
  cases loaded.symm.trans read
  exact ⟨fresh, ok⟩

theorem not_unloaded {s : GraphSystem} (inv : Projecting s) {v : Nat} {error : GraphError} :
    loadProjectionRows v s.db ≠ .error error := by
  obtain ⟨rows, read, _⟩ := loadProjectionRows_ok inv.tables inv.ok.entities inv.ok.chunks v
  intro failed
  cases failed.symm.trans read

theorem fresh_edges {s : GraphSystem} (inv : Projecting s) {owner : Nat → Nat}
    (owned : RelationsOwned owner s) {v : Nat} {rows : ProjectionRows} (fresh : Fresh s.db v rows) :
    EdgesOk owner s.db rows.relations := by
  rw [fresh.relations]
  constructor <;> intro e member <;> obtain ⟨r, inside, rfl⟩ := List.mem_map.mp member
  · exact congrArg some (owned.rows v r inside).symm
  · exact inv.tables.relationFresh r (List.mem_filter.mp inside).1

/-- The rows that a worker holds were held before, or have just been read. -/
theorem rows_from {s t : GraphSystem} {action : GraphAction} (inv : Projecting s)
    (step : Stepped s action t) {worker : String} {build : BuildRun} {v : Nat}
    {rows : ProjectionRows} {result : Dict} (there : t.builds worker = some build)
    (phase : build.phase = .projecting v rows result) :
    s.builds worker = some build ∨ (Fresh s.db v rows ∧ RowsOk s.db v rows) := by
  cases build_from step there with
  | kept old => exact .inl old
  | began job found graph target unread =>
    rw [phase] at unread
    cases unread
  | moved old was sameJob next =>
    rw [phase] at next
    generalize old.phase = before at next
    cases next with
    | unread _ _ unread => cases unread
    | loaded _ _ _ loaded => exact .inr (loaded_ok inv loaded)
  | wrote _ _ _ _ _ _ _ _ done => cases phase.symm.trans done

theorem jobs_from {s t : GraphSystem} {action : GraphAction} (inv : Projecting s)
    (step : Stepped s action t) {worker : String} {build : BuildRun}
    (there : t.builds worker = some build) :
    ∃ job, getJob t.db.docs.jobs build.jobId = some job ∧ job.jobType = "graph_index_build" ∧
      ∀ v, build.phase.version = some v → job.targetId = some v := by
  have before : ∃ job, getJob s.db.docs.jobs build.jobId = some job ∧
      job.jobType = "graph_index_build" ∧
      ∀ v, build.phase.version = some v → job.targetId = some v := by
    cases build_from step there with
    | kept old => exact inv.jobs worker build old
    | began job found graph target unread => exact ⟨job, found, graph, target⟩
    | moved old was sameJob next =>
      obtain ⟨job, found, graph, target⟩ := inv.jobs worker old was
      refine ⟨job, sameJob ▸ found, graph, fun v h => target v ?_⟩
      generalize old.phase = before at next ⊢
      generalize build.phase = phase at next h
      cases next with
      | unread _ _ _ same => exact same v h
      | loaded => exact h
      | unloaded => cases h
    | wrote old _ _ _ _ was _ sameJob done =>
      obtain ⟨job, found, graph, _⟩ := inv.jobs worker old was
      refine ⟨job, sameJob ▸ found, graph, fun v h => ?_⟩
      rw [done] at h
      cases h
  obtain ⟨job, found, graph, target⟩ := before
  obtain ⟨job', found', content, _⟩ := jobs_kept inv.ok step found
  simp only [Job.content, Prod.mk.injEq] at content
  exact ⟨job', found', content.2.1.trans graph, fun v h => content.2.2.2.2.1.trans (target v h)⟩

/-- What a step writes to Neo4j: nothing, or the rows that a worker holds. -/
theorem neo_stepped {s t : GraphSystem} {action : GraphAction} (step : Stepped s action t) :
    t.neo = s.neo ∨ ∃ worker build v rows result, action = .write worker ∧
      s.builds worker = some build ∧ build.phase = .projecting v rows result ∧
      t = { s.moveTo worker build (some (.done (.succeeded result))) with
        neo := replaceDocumentVersionProjection v rows s.neo } := by
  cases step with
  | wrote worker build v rows result there phase =>
    exact .inr ⟨worker, build, v, rows, result, rfl, there, phase, rfl⟩
  | _ => exact .inl rfl

theorem Projecting.rewritten {s : GraphSystem} (inv : Projecting s) {worker : String}
    {build : BuildRun} {v : Nat} {rows : ProjectionRows} {result : Dict}
    (there : s.builds worker = some build) (phase : build.phase = .projecting v rows result) :
    Rewritten v rows s.neo (replaceDocumentVersionProjection v rows s.neo) := by
  obtain ⟨owner, owned⟩ := inv.owned
  exact write_rewritten inv.ok.chunks inv.placed (inv.rows worker build v rows result there phase)
    owned.neo.owned (owned.read worker build v rows result there phase).owned

/-- The owner of a relation id, after a step that may hand out ids from `next` on. -/
theorem relations_owned {s t : GraphSystem} {action : GraphAction} (inv : Projecting s)
    (step : Stepped s action t) : ∃ owner, RelationsOwned owner t := by
  obtain ⟨owner, owned⟩ := inv.owned
  have read {worker : String} {build : BuildRun} {v : Nat} {rows : ProjectionRows} {result : Dict}
      (there : t.builds worker = some build) (phase : build.phase = .projecting v rows result) :
      EdgesOk owner s.db rows.relations := by
    rcases rows_from inv step there phase with old | ⟨fresh, _⟩
    · exact owned.read worker build v rows result old phase
    · exact fresh_edges inv owned fresh
  have neo : EdgesOk owner s.db t.neo.relations := by
    rcases neo_stepped step with same | ⟨worker, build, v, rows, result, rfl, there, phase, rfl⟩
    · rw [same]
      exact owned.neo
    · have written := owned.read worker build v rows result there phase
      have relations := (inv.rewritten there phase).relations
      constructor <;> intro e member <;> rcases (relations e).mp member with new | ⟨old, _⟩
      · exact written.owned e new
      · exact owned.neo.owned e old
      · exact written.fresh e new
      · exact owned.neo.fresh e old
  rcases artifacts_kept inv.ok step with kept | ⟨worker, build, v, replaced⟩
  · have fresh {edges : List RelationEdge} (ok : EdgesOk owner s.db edges) :
        EdgesOk owner t.db edges :=
      ⟨ok.owned, fun e member => kept.nextRelationId ▸ ok.fresh e member⟩
    refine ⟨owner, fun v r member => owned.rows v r ?_, fresh neo,
      fun _ _ _ _ _ there phase => fresh (read there phase)⟩
    unfold GraphDb.relationsOf at member ⊢
    rwa [kept.relations, chunkIds_of_chunks (docs_kept inv.ok step).chunks] at member
  · let next (id : Nat) : Nat := if id < s.db.nextRelationId then owner id else v
    have fresh {edges : List RelationEdge} (ok : EdgesOk owner s.db edges) :
        EdgesOk next t.db edges := by
      constructor
      · intro e member
        rw [ok.owned e member]
        simp only [next, if_pos (ok.fresh e member)]
      · exact fun e member => Nat.lt_of_lt_of_le (ok.fresh e member) replaced.next
    refine ⟨next, fun w r member => ?_, fresh neo,
      fun _ _ _ _ _ there phase => fresh (read there phase)⟩
    by_cases own : w = v
    · subst own
      have := replaced.new r member
      exact if_neg (Nat.not_lt_of_le this)
    · rw [replaced.relations w own] at member
      have old := inv.tables.relationFresh r (List.mem_filter.mp member).1
      simp only [next, if_pos old]
      exact owned.rows w r member

theorem projecting_step {s t : GraphSystem} {action : GraphAction} (inv : Projecting s)
    (done : s.step action = some t) : Projecting t := by
  have step := stepped inv.ok.runs inv.ok.entities done
  have docs := docs_kept inv.ok step
  refine ⟨step_ok inv.ok done, ?_, ?_, ?_, fun worker build there => jobs_from inv step there, ?_,
    relations_owned inv step⟩
  · have enabled := inv.enabled
    unfold Db.graphIndexingEnabled at enabled ⊢
    rwa [docs.settings]
  · rcases artifacts_kept inv.ok step with kept | ⟨_, _, _, replaced⟩
    · exact tables_kept inv.tables docs kept
    · exact replaced.tables inv.tables
  · rcases neo_stepped step with same | ⟨worker, build, v, rows, result, rfl, there, phase, rfl⟩
    · rw [same]
      exact inv.placed.carry docs.chunks
    · have rowsOk := inv.rows worker build v rows result there phase
      exact (inv.rewritten there phase).placed rowsOk inv.placed
  · intro worker build v rows result there phase
    rcases rows_from inv step there phase with old | ⟨_, rowsOk⟩
    · exact (inv.rows worker build v rows result old phase).carry docs.chunks
    · exact rowsOk.carry docs.chunks

end Invariant

end RagProject.Graph
