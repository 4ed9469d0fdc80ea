import RagProject.Graph.Projection
import RagProject.Graph.Replacement

/-! What one read of a version returns and what one write of it leaves in Neo4j: the nodes and
edges of the version become those of the read, and those of other versions stay. -/
namespace RagProject.Graph
open Python Jobs Documents Fallible

section Read

/-- The edge of a relation row whose source chunk belongs to the version. -/
def relationEdge (documentVersionId : Nat) (r : GraphRelation) : RelationEdge :=
  ⟨r.graphRelationId, r.sourceEntityId, r.targetEntityId, r.relationType, r.confidence,
    r.sourceDocumentChunkId, some documentVersionId, r.evidenceTextHash⟩

def relationEdges (documentVersionId : Nat) (db : GraphDb) : List RelationEdge :=
  (db.relationsOf documentVersionId).map (relationEdge documentVersionId)

def HasEntity (db : GraphDb) (id : Nat) : Prop := ∃ e ∈ db.entities, e.graphEntityId = id

/-- What the foreign keys and the checks of the labels keep. -/
structure TablesOk [GraphText] (db : GraphDb) : Prop where
  parents : ∀ c ∈ db.docs.chunks, ∃ v d, db.docs.getVersionById c.documentVersionId = some v ∧
    db.docs.getDocument v.logicalDocumentId = some d
  mentions : ∀ m ∈ db.mentions, m.documentChunkId ∈ db.chunkIds m.documentVersionId ∧
    HasEntity db m.graphEntityId
  mentionIds : (db.mentions.map (·.graphEntityMentionId)).Nodup
  mentionFresh : ∀ m ∈ db.mentions, m.graphEntityMentionId < db.nextMentionId
  relations : ∀ r ∈ db.relations, HasEntity db r.sourceEntityId ∧ HasEntity db r.targetEntityId
  relationIds : (db.relations.map (·.graphRelationId)).Nodup
  relationFresh : ∀ r ∈ db.relations, r.graphRelationId < db.nextRelationId
  labels : LabelsOk db

/-- Rows that one write can merge by themselves: the nodes of every edge come with it. -/
structure RowsOk (db : GraphDb) (documentVersionId : Nat) (rows : ProjectionRows) : Prop where
  entityIds : (rows.entities.map (·.graphEntityId)).Nodup
  chunks : ∀ c ∈ rows.chunks, c.documentVersionId = documentVersionId ∧
    c.documentChunkId ∈ db.chunkIds documentVersionId
  chunkIds : (rows.chunks.map (·.documentChunkId)).Nodup
  mentions : ∀ e ∈ rows.mentions, e.documentVersionId = documentVersionId ∧
    (∃ n ∈ rows.entities, n.graphEntityId = e.graphEntityId) ∧
    ∃ c ∈ rows.chunks, c.documentChunkId = e.documentChunkId
  mentionKeys : (rows.mentions.map (·.key)).Nodup
  relations : ∀ e ∈ rows.relations, e.documentVersionId = some documentVersionId ∧
    (∃ n ∈ rows.entities, n.graphEntityId = e.sourceEntityId) ∧
    ∃ n ∈ rows.entities, n.graphEntityId = e.targetEntityId
  sources : ∀ e ∈ rows.relations, e.sourceDocumentChunkId ∈ db.chunkIds documentVersionId
  relationKeys : (rows.relations.map (·.key)).Nodup

/-- The rows are what a read would return now. -/
structure Fresh (db : GraphDb) (documentVersionId : Nat) (rows : ProjectionRows) : Prop where
  chunks : rows.chunks = chunkRows documentVersionId db.docs
  mentions : rows.mentions = mentionRows documentVersionId db
  relations : rows.relations = relationEdges documentVersionId db

theorem mem_chunkRows {docs : Db} {v : Nat} {c : ChunkNode} (member : c ∈ chunkRows v docs) :
    c.documentVersionId = v ∧ ∃ row ∈ docs.chunksOf v, row.documentChunkId = c.documentChunkId := by
  obtain ⟨row, inside, made⟩ := List.mem_filterMap.mp member
  obtain ⟨version, _, made⟩ := Option.bind_eq_some_iff.mp made
  obtain ⟨document, _, rfl⟩ := Option.map_eq_some_iff.mp made
  refine ⟨?_, row, inside, rfl⟩
  simpa [Db.chunksOf] using (List.mem_filter.mp inside).2

theorem chunkRows_ids (docs : Db) (v : Nat) :
    ((chunkRows v docs).map (·.documentChunkId)).Sublist
      ((docs.chunksOf v).map (·.documentChunkId)) := by
  unfold chunkRows
  induction docs.chunksOf v with
  | nil => exact List.Sublist.refl _
  | cons c rest ih =>
    rw [List.filterMap_cons]
    split
    · exact ih.trans (List.sublist_cons_self _ _)
    · rename_i node made
      obtain ⟨version, _, made⟩ := Option.bind_eq_some_iff.mp made
      obtain ⟨document, _, rfl⟩ := Option.map_eq_some_iff.mp made
      exact ih.cons_cons _

variable [GraphText]

theorem chunkRows_all {db : GraphDb} (tables : TablesOk db) {v id : Nat}
    (member : id ∈ db.chunkIds v) : ∃ c ∈ chunkRows v db.docs, c.documentChunkId = id := by
  obtain ⟨row, inside, rfl⟩ := List.mem_map.mp member
  obtain ⟨version, document, foundVersion, foundDocument⟩ :=
    tables.parents row (List.mem_filter.mp inside).1
  refine ⟨⟨row.documentChunkId, row.documentVersionId, version.logicalDocumentId, row.chunkHash,
    row.modality, version.status.value, version.isActive, document.status.value⟩,
    List.mem_filterMap.mpr ⟨row, inside, ?_⟩, rfl⟩
  rw [foundVersion, Option.bind_some, foundDocument]
  rfl

/-- The relations of the read are those whose chunk is a chunk of the version. -/
theorem relations_read {db : GraphDb} (tables : TablesOk db) (v : Nat) :
    (db.relations.filter fun r =>
      (chunkRows v db.docs).any fun c => c.documentChunkId == r.sourceDocumentChunkId) =
      db.relationsOf v := by
  unfold GraphDb.relationsOf
  refine List.filter_congr fun r _ => ?_
  rw [Bool.eq_iff_iff, List.any_eq_true, List.contains_eq_mem, decide_eq_true_eq]
  constructor
  · rintro ⟨c, member, same⟩
    obtain ⟨_, row, inside, sameId⟩ := mem_chunkRows member
    exact List.mem_map.mpr ⟨row, inside, sameId.trans (beq_iff_eq.mp same)⟩
  · intro member
    obtain ⟨c, inside, same⟩ := chunkRows_all tables member
    exact ⟨c, inside, beq_iff_eq.mpr same⟩

theorem relationRow_eq {db : GraphDb} (tables : TablesOk db) {v : Nat} {r : GraphRelation}
    (member : r ∈ db.relationsOf v) :
    relationRow (chunkRows v db.docs) r.relationType r = relationEdge v r := by
  have chunk : r.sourceDocumentChunkId ∈ db.chunkIds v := by
    simpa using (List.mem_filter.mp member).2
  obtain ⟨c, inside, same⟩ := chunkRows_all tables chunk
  have some_node : ((chunkRows v db.docs).find? fun c =>
      c.documentChunkId == r.sourceDocumentChunkId).isSome :=
    List.find?_isSome.mpr ⟨c, inside, beq_iff_eq.mpr same⟩
  obtain ⟨node, found⟩ := Option.isSome_iff_exists.mp some_node
  have version := (mem_chunkRows (List.mem_of_find?_eq_some found)).1
  simp only [relationRow, relationEdge, found, Option.map_some, version]

def entityNode (e : GraphEntity) : EntityNode :=
  ⟨e.graphEntityId, e.canonicalName, e.entityType, safeAliases e.aliasesJson⟩

/-- A read returns current rows that a write can merge. -/
theorem loadProjectionRows_ok {db : GraphDb} (tables : TablesOk db) (entities : EntitiesOk db)
    (chunks : (db.docs.chunks.map (·.documentChunkId)).Nodup) (v : Nat) :
    ∃ rows, loadProjectionRows v db = .ok rows ∧ Fresh db v rows ∧ RowsOk db v rows := by
  let ids := (db.mentionsOf v).map (·.graphEntityId) ++
    (db.relationsOf v).map (·.sourceEntityId) ++ (db.relationsOf v).map (·.targetEntityId)
  let wanted := db.entities.filter fun e => ids.contains e.graphEntityId
  have nodes : wanted.mapM entityRow = .ok (wanted.map entityNode) := by
    refine mapM_total fun e member => ?_
    have inside := (List.mem_filter.mp member).1
    simp only [entityRow, tables.labels.names e inside, tables.labels.types e inside]
    rfl
  have edges : ((db.relationsOf v).mapM fun r => do
      let relationType ← validateSafeGraphLabel 120 r.relationType
      return relationRow (chunkRows v db.docs) relationType r) =
        (.ok (relationEdges v db) : Except GraphError _) := by
    refine mapM_total fun r member => ?_
    have inside := (List.mem_filter.mp member).1
    rw [tables.labels.relations r inside, ← relationRow_eq tables member]
    rfl
  have loaded : loadProjectionRows v db =
      .ok ⟨wanted.map entityNode, chunkRows v db.docs, mentionRows v db, relationEdges v db⟩ := by
    unfold loadProjectionRows
    simp only [relations_read tables v]
    rw [nodes]
    simp only [bind, Except.bind] at edges ⊢
    rw [edges]
    rfl
  have node {id : Nat} (needed : id ∈ ids) (there : HasEntity db id) :
      ∃ n ∈ wanted.map entityNode, n.graphEntityId = id := by
    obtain ⟨e, member, rfl⟩ := there
    exact ⟨entityNode e, List.mem_map_of_mem (List.mem_filter.mpr ⟨member, by simpa using needed⟩),
      rfl⟩
  refine ⟨_, loaded, ⟨rfl, rfl, rfl⟩, ?_, ?_, ?_, ?_, ?_, ?_, ?_, ?_⟩
  · rw [List.map_map]
    exact Table.filter_distinct entities.distinct _
  · intro c member
    obtain ⟨version, row, inside, same⟩ := mem_chunkRows member
    exact ⟨version, List.mem_map.mpr ⟨row, inside, same⟩⟩
  · exact (Table.filter_distinct chunks _).sublist (chunkRows_ids db.docs v)
  · intro e member
    obtain ⟨m, inside, rfl⟩ := List.mem_map.mp member
    obtain ⟨old, version⟩ := List.mem_filter.mp inside
    obtain ⟨chunk, there⟩ := tables.mentions m old
    have version := beq_iff_eq.mp version
    refine ⟨version, node ?_ there, chunkRows_all tables (version ▸ chunk)⟩
    exact List.mem_append_left _ (List.mem_append_left _ (List.mem_map_of_mem inside))
  · apply List.Nodup.of_map Prod.fst
    simp only [mentionRows, List.map_map]
    exact Table.filter_distinct tables.mentionIds _
  · intro e member
    obtain ⟨r, inside, rfl⟩ := List.mem_map.mp member
    obtain ⟨source, target⟩ := tables.relations r (List.mem_filter.mp inside).1
    refine ⟨rfl, node ?_ source, node ?_ target⟩
    · exact List.mem_append_left _ (List.mem_append_right _ (List.mem_map_of_mem inside))
    · exact List.mem_append_right _ (List.mem_map_of_mem inside)
  · intro e member
    obtain ⟨r, inside, rfl⟩ := List.mem_map.mp member
    have chunk : r.sourceDocumentChunkId ∈ db.chunkIds v := by
      simpa using (List.mem_filter.mp inside).2
    exact chunk
  · apply List.Nodup.of_map Prod.fst
    simp only [relationEdges, List.map_map]
    exact Table.filter_distinct tables.relationIds _

end Read

section Write

/-- Nodes and edges of the projection belong to chunks of the version that they carry. -/
structure Placed (db : GraphDb) (neo : Neo4jGraph) : Prop where
  chunks : ∀ c ∈ neo.chunks, c.documentChunkId ∈ db.chunkIds c.documentVersionId
  mentions : ∀ e ∈ neo.mentions, e.documentChunkId ∈ db.chunkIds e.documentVersionId
  relations : ∀ e ∈ neo.relations, ∀ v, e.documentVersionId = some v →
    e.sourceDocumentChunkId ∈ db.chunkIds v

/-- The relation ids of the edges have a version each. -/
def EdgesOwned (owner : Nat → Nat) (edges : List RelationEdge) : Prop :=
  ∀ e ∈ edges, e.documentVersionId = some (owner e.graphRelationId)

/-- The effect of one write. -/
structure Rewritten (documentVersionId : Nat) (rows : ProjectionRows) (neo neo' : Neo4jGraph) :
    Prop where
  chunks : ∀ c, c ∈ neo'.chunks ↔
    c ∈ rows.chunks ∨ (c ∈ neo.chunks ∧ c.documentVersionId ≠ documentVersionId)
  mentions : ∀ e, e ∈ neo'.mentions ↔
    e ∈ rows.mentions ∨ (e ∈ neo.mentions ∧ e.documentVersionId ≠ documentVersionId)
  relations : ∀ e, e ∈ neo'.relations ↔
    e ∈ rows.relations ∨ (e ∈ neo.relations ∧ e.documentVersionId ≠ some documentVersionId)

theorem merged_entity {nodes : List EntityNode} {rows : ProjectionRows}
    (distinct : (rows.entities.map (·.graphEntityId)).Nodup) {id : Nat}
    (there : ∃ n ∈ rows.entities, n.graphEntityId = id) :
    ((Table.mergeRows EntityNode.graphEntityId nodes rows.entities).any
      (·.graphEntityId == id)) = true := by
  obtain ⟨n, member, same⟩ := there
  exact List.any_eq_true.mpr ⟨n, (Table.mem_mergeRows distinct).mpr (.inl member),
    beq_iff_eq.mpr same⟩

variable {db : GraphDb} {neo : Neo4jGraph} {v : Nat} {rows : ProjectionRows}

theorem chunks_rewritten (distinct : (db.docs.chunks.map (·.documentChunkId)).Nodup)
    (placed : Placed db neo) (rowsOk : RowsOk db v rows) (c : ChunkNode) :
    c ∈ (replaceDocumentVersionProjection v rows neo).chunks ↔
      c ∈ rows.chunks ∨ (c ∈ neo.chunks ∧ c.documentVersionId ≠ v) := by
  simp only [replaceDocumentVersionProjection, removeProjection,
    Table.mem_mergeRows rowsOk.chunkIds, List.mem_filter, bne_iff_ne, ne_eq]
  constructor
  · rintro (new | ⟨kept, _⟩)
    · exact .inl new
    · exact .inr kept
  · rintro (new | ⟨old, other⟩)
    · exact .inl new
    · refine .inr ⟨⟨old, other⟩, fun again => ?_⟩
      obtain ⟨c', member, same⟩ := List.mem_map.mp again
      have mine := (rowsOk.chunks c' member).2
      rw [same] at mine
      exact other (chunk_version distinct (placed.chunks c old) mine)

theorem mentions_rewritten (distinct : (db.docs.chunks.map (·.documentChunkId)).Nodup)
    (placed : Placed db neo) (rowsOk : RowsOk db v rows) (e : MentionEdge) :
    e ∈ (replaceDocumentVersionProjection v rows neo).mentions ↔
      e ∈ rows.mentions ∨ (e ∈ neo.mentions ∧ e.documentVersionId ≠ v) := by
  have ofVersion {e : MentionEdge} (member : e ∈ rows.mentions) :
      e.documentChunkId ∈ db.chunkIds v := by
    obtain ⟨_, _, c, inside, same⟩ := rowsOk.mentions e member
    exact same ▸ (rowsOk.chunks c inside).2
  have merged : (replaceDocumentVersionProjection v rows neo).mentions =
      Table.mergeRows MentionEdge.key (removeProjection v neo).mentions rows.mentions := by
    have all (e : MentionEdge) (member : e ∈ rows.mentions) :
        ((Table.mergeRows EntityNode.graphEntityId (removeProjection v neo).entities
          rows.entities).any (·.graphEntityId == e.graphEntityId) &&
        (Table.mergeRows ChunkNode.documentChunkId (removeProjection v neo).chunks
          rows.chunks).any (·.documentChunkId == e.documentChunkId)) = true := by
      obtain ⟨_, entity, c, inside, same⟩ := rowsOk.mentions e member
      rw [Bool.and_eq_true]
      refine ⟨merged_entity rowsOk.entityIds entity, List.any_eq_true.mpr ⟨c, ?_, by simp [same]⟩⟩
      exact (Table.mem_mergeRows rowsOk.chunkIds).mpr (.inl inside)
    unfold replaceDocumentVersionProjection
    simp only
    rw [List.filter_eq_self.mpr all]
  rw [merged, Table.mem_mergeRows rowsOk.mentionKeys]
  simp only [removeProjection, List.mem_filter, bne_iff_ne, ne_eq, Bool.not_eq_true',
    List.contains_eq_mem, decide_eq_false_iff_not]
  constructor
  · rintro (new | ⟨⟨kept, _⟩, _⟩)
    · exact .inl new
    · exact .inr kept
  · rintro (new | ⟨old, other⟩)
    · exact .inl new
    · refine .inr ⟨⟨⟨old, other⟩, fun gone => ?_⟩, fun again => ?_⟩
      · obtain ⟨c, member, same⟩ := List.mem_map.mp gone
        obtain ⟨inside, version⟩ := List.mem_filter.mp member
        have chunk := placed.chunks c inside
        rw [same, beq_iff_eq.mp version] at chunk
        exact other (chunk_version distinct (placed.mentions e old) chunk)
      · obtain ⟨e', member, same⟩ := List.mem_map.mp again
        have chunk : e'.documentChunkId = e.documentChunkId := congrArg (·.2.2) same
        have mine := chunk ▸ ofVersion member
        exact other (chunk_version distinct (placed.mentions e old) mine)

theorem relations_rewritten {owner : Nat → Nat} (rowsOk : RowsOk db v rows)
    (owned : EdgesOwned owner neo.relations) (mine : EdgesOwned owner rows.relations)
    (e : RelationEdge) : e ∈ (replaceDocumentVersionProjection v rows neo).relations ↔
      e ∈ rows.relations ∨ (e ∈ neo.relations ∧ e.documentVersionId ≠ some v) := by
  have merged : (replaceDocumentVersionProjection v rows neo).relations =
      Table.mergeRows RelationEdge.key (removeProjection v neo).relations rows.relations := by
    have all (e : RelationEdge) (member : e ∈ rows.relations) :
        ((Table.mergeRows EntityNode.graphEntityId (removeProjection v neo).entities
          rows.entities).any (·.graphEntityId == e.sourceEntityId) &&
        (Table.mergeRows EntityNode.graphEntityId (removeProjection v neo).entities
          rows.entities).any (·.graphEntityId == e.targetEntityId)) = true := by
      obtain ⟨_, source, target⟩ := rowsOk.relations e member
      rw [Bool.and_eq_true]
      exact ⟨merged_entity rowsOk.entityIds source, merged_entity rowsOk.entityIds target⟩
    unfold replaceDocumentVersionProjection
    simp only
    rw [List.filter_eq_self.mpr all]
  rw [merged, Table.mem_mergeRows rowsOk.relationKeys]
  simp only [removeProjection, List.mem_filter, bne_iff_ne, ne_eq]
  constructor
  · rintro (new | ⟨kept, _⟩)
    · exact .inl new
    · exact .inr kept
  · rintro (new | ⟨old, other⟩)
    · exact .inl new
    · refine .inr ⟨⟨old, other⟩, fun again => ?_⟩
      obtain ⟨e', member, same⟩ := List.mem_map.mp again
      have id : e'.graphRelationId = e.graphRelationId := congrArg Prod.fst same
      apply other
      calc e.documentVersionId = some (owner e.graphRelationId) := owned e old
        _ = e'.documentVersionId := by rw [← id, mine e' member]
        _ = some v := (rowsOk.relations e' member).1

theorem write_rewritten {owner : Nat → Nat}
    (distinct : (db.docs.chunks.map (·.documentChunkId)).Nodup) (placed : Placed db neo)
    (rowsOk : RowsOk db v rows) (owned : EdgesOwned owner neo.relations)
    (mine : EdgesOwned owner rows.relations) :
    Rewritten v rows neo (replaceDocumentVersionProjection v rows neo) :=
  ⟨chunks_rewritten distinct placed rowsOk, mentions_rewritten distinct placed rowsOk,
    relations_rewritten rowsOk owned mine⟩

end Write

section Shown

/-- Neo4j shows the version: its chunk nodes have the current state of the version and of its
document, and its edges are those of the current rows. -/
structure Shows (neo : Neo4jGraph) (db : GraphDb) (documentVersionId : Nat) : Prop where
  chunks : ∀ c, (c ∈ neo.chunks ∧ c.documentVersionId = documentVersionId) ↔
    c ∈ chunkRows documentVersionId db.docs
  mentions : ∀ e, (e ∈ neo.mentions ∧ e.documentVersionId = documentVersionId) ↔
    e ∈ mentionRows documentVersionId db
  relations : ∀ e, (e ∈ neo.relations ∧ e.documentVersionId = some documentVersionId) ↔
    e ∈ relationEdges documentVersionId db

variable {db : GraphDb} {neo neo' : Neo4jGraph} {v w : Nat} {rows : ProjectionRows}

/-- Fresh rows are shown once they are written. -/
theorem Rewritten.shows (rewritten : Rewritten v rows neo neo') (rowsOk : RowsOk db v rows)
    (fresh : Fresh db v rows) : Shows neo' db v := by
  refine ⟨fun c => ?_, fun e => ?_, fun e => ?_⟩
  · rw [rewritten.chunks, ← fresh.chunks]
    constructor
    · rintro ⟨new | ⟨_, other⟩, same⟩
      · exact new
      · exact absurd same other
    · exact fun new => ⟨.inl new, (rowsOk.chunks c new).1⟩
  · rw [rewritten.mentions, ← fresh.mentions]
    constructor
    · rintro ⟨new | ⟨_, other⟩, same⟩
      · exact new
      · exact absurd same other
    · exact fun new => ⟨.inl new, (rowsOk.mentions e new).1⟩
  · rw [rewritten.relations, ← fresh.relations]
    constructor
    · rintro ⟨new | ⟨_, other⟩, same⟩
      · exact new
      · exact absurd same other
    · exact fun new => ⟨.inl new, (rowsOk.relations e new).1⟩

/-- A write of another version leaves what is shown. -/
theorem Rewritten.others (rewritten : Rewritten v rows neo neo') (rowsOk : RowsOk db v rows)
    (other : w ≠ v) (shows : Shows neo db w) : Shows neo' db w := by
  refine ⟨fun c => ?_, fun e => ?_, fun e => ?_⟩
  · rw [rewritten.chunks, ← shows.chunks]
    constructor
    · rintro ⟨new | ⟨old, _⟩, same⟩
      · exact absurd (same.symm.trans (rowsOk.chunks c new).1) other
      · exact ⟨old, same⟩
    · exact fun ⟨old, same⟩ => ⟨.inr ⟨old, same ▸ other⟩, same⟩
  · rw [rewritten.mentions, ← shows.mentions]
    constructor
    · rintro ⟨new | ⟨old, _⟩, same⟩
      · exact absurd (same.symm.trans (rowsOk.mentions e new).1) other
      · exact ⟨old, same⟩
    · exact fun ⟨old, same⟩ => ⟨.inr ⟨old, same ▸ other⟩, same⟩
  · rw [rewritten.relations, ← shows.relations]
    have apart : some w ≠ some v := fun same => other (Option.some.inj same)
    constructor
    · rintro ⟨new | ⟨old, _⟩, same⟩
      · exact absurd (same.symm.trans (rowsOk.relations e new).1) apart
      · exact ⟨old, same⟩
    · exact fun ⟨old, same⟩ => ⟨.inr ⟨old, same ▸ apart⟩, same⟩

theorem Rewritten.placed (rewritten : Rewritten v rows neo neo') (rowsOk : RowsOk db v rows)
    (placed : Placed db neo) : Placed db neo' := by
  constructor
  · intro c member
    rcases (rewritten.chunks c).mp member with new | ⟨old, _⟩
    · obtain ⟨version, chunk⟩ := rowsOk.chunks c new
      exact version ▸ chunk
    · exact placed.chunks c old
  · intro e member
    rcases (rewritten.mentions e).mp member with new | ⟨old, _⟩
    · obtain ⟨version, _, c, inside, same⟩ := rowsOk.mentions e new
      rw [version, ← same]
      exact (rowsOk.chunks c inside).2
    · exact placed.mentions e old
  · intro e member w version
    rcases (rewritten.relations e).mp member with new | ⟨old, _⟩
    · cases (rowsOk.relations e new).1.symm.trans version
      exact rowsOk.sources e new
    · exact placed.relations e old w version

end Shown

end RagProject.Graph
