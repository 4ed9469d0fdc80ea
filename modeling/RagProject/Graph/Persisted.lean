import Mathlib.Data.List.ReduceOption
import RagProject.Graph.Build
import RagProject.Lib.Fallible

/-! What persist_extraction_result leaves behind: entities that the keys of the mentions resolve
to, and the rows of the version, one for each candidate. -/
namespace RagProject.Graph
open Python KeepFirst Jobs Documents Fallible

theorem checkThat_ok {condition : Bool} {error : GraphError} {u : Unit}
    (passed : checkThat condition error = .ok u) : condition = true := by
  unfold checkThat at passed
  split at passed
  · assumption
  · cases passed

section Labels
variable [GraphText]

theorem safe_label {maxLength : Nat} {value label : String}
    (safe : validateSafeGraphLabel maxLength value = .ok label) : label = stripText value := by
  simp only [validateSafeGraphLabel] at safe
  split at safe
  · cases safe
  · cases safe
    rfl

theorem field_label {maxLength : Nat} {value label : String}
    (safe : labelField maxLength value = .ok label) :
    validateSafeGraphLabel maxLength value = .ok label := by
  unfold labelField at safe
  split at safe
  · cases safe
  · exact safe

/-- A label that has passed its check passes it again. -/
theorem label_again {maxLength : Nat} {value label : String}
    (safe : validateSafeGraphLabel maxLength value = .ok label) :
    validateSafeGraphLabel maxLength label = .ok label := by
  unfold validateSafeGraphLabel at safe ⊢
  dsimp only at safe ⊢
  split at safe
  · cases safe
  · rename_i passes
    cases safe
    simp only [String.toList_ofList, strip_strip]
    rw [if_neg passes]

/-- The labels of the rows are those that their checks return. -/
structure LabelsOk (db : GraphDb) : Prop where
  names : ∀ e ∈ db.entities, validateSafeGraphLabel 255 e.canonicalName = .ok e.canonicalName
  types : ∀ e ∈ db.entities, validateSafeGraphLabel 80 e.entityType = .ok e.entityType
  relations : ∀ r ∈ db.relations, validateSafeGraphLabel 120 r.relationType = .ok r.relationType

end Labels

section Entities

/-- The entity is the one that a key stands for: a row that was found under the key, or one that
was created for a candidate with it. -/
def Names [UnicodeTables] (mentions : List EntityMentionCandidate) (key : EntityKey)
    (row : GraphEntity) : Prop :=
  (lowerText (stripText row.canonicalName), stripText row.entityType) = key ∨
    ∃ m ∈ mentions, m.entityKey = key ∧ row.canonicalName = stripText m.canonicalName ∧
      row.entityType = stripText m.entityType

/-- What an entity row keeps when aliases are merged into it. -/
def GraphEntity.name (e : GraphEntity) : Nat × String × String :=
  (e.graphEntityId, e.canonicalName, e.entityType)

structure EntitiesOk (db : GraphDb) : Prop where
  distinct : (db.entities.map (·.graphEntityId)).Nodup
  fresh : ∀ e ∈ db.entities, e.graphEntityId < db.nextEntityId

/-- The tables with more or longer entities in them. -/
structure EntitiesGrown (db db' : GraphDb) : Prop where
  tables : ∃ entities next, db' = { db with entities := entities, nextEntityId := next }
  kept : ∀ e ∈ db.entities, ∃ e' ∈ db'.entities, e'.name = e.name

theorem EntitiesGrown.refl (db : GraphDb) : EntitiesGrown db db :=
  ⟨⟨_, _, rfl⟩, fun e member => ⟨e, member, rfl⟩⟩

theorem EntitiesGrown.trans {db db' db'' : GraphDb} (first : EntitiesGrown db db')
    (second : EntitiesGrown db' db'') : EntitiesGrown db db'' := by
  obtain ⟨entities, next, rfl⟩ := first.tables
  obtain ⟨entities', next', rfl⟩ := second.tables
  refine ⟨⟨entities', next', rfl⟩, fun e member => ?_⟩
  obtain ⟨e', member', same⟩ := first.kept e member
  obtain ⟨e'', member'', same'⟩ := second.kept e' member'
  exact ⟨e'', member'', same'.trans same⟩

variable [GraphText]

theorem createEntity_ok {canonicalName entityType : String} {aliases : List String} {now : Time}
    {db db' : GraphDb} {id : Nat}
    (done : createEntity canonicalName entityType aliases now db = .ok (db', id)) :
    id = db.nextEntityId ∧ ∃ row : GraphEntity, row.graphEntityId = db.nextEntityId ∧
      labelField 255 canonicalName = .ok row.canonicalName ∧
      labelField 80 entityType = .ok row.entityType ∧
      validAliases aliases = .ok row.aliasesJson ∧
      (∀ e ∈ db.entities, entityIndex e ≠ entityIndex row) ∧
      db' = { db with entities := db.entities ++ [row], nextEntityId := db.nextEntityId + 1 } := by
  unfold createEntity at done
  obtain ⟨name, named, done⟩ := bind_ok done
  obtain ⟨kind, typed, done⟩ := bind_ok done
  obtain ⟨list, valid, done⟩ := bind_ok done
  obtain ⟨_, unique, done⟩ := bind_ok done
  cases done
  refine ⟨rfl, _, rfl, named, typed, valid, ?_, rfl⟩
  have fresh := checkThat_ok unique
  intro e member same
  simp only [Bool.not_eq_true', List.contains_eq_mem, decide_eq_false_iff_not] at fresh
  exact fresh (same ▸ List.mem_map_of_mem member)

/-- A merge changes the aliases of one row and nothing else. -/
theorem mergeEntityAliases_ok {entityId : Nat} {aliases : List String} {now : Time}
    {db db' : GraphDb} (done : mergeEntityAliases entityId aliases now db = .ok db') :
    ∃ g : GraphEntity → GraphEntity, (∀ e, (g e).name = e.name) ∧
      db' = { db with entities := db.entities.map g } := by
  have unchanged : ∃ g : GraphEntity → GraphEntity, (∀ e, (g e).name = e.name) ∧
      db = { db with entities := db.entities.map g } := ⟨id, fun _ => rfl, by simp⟩
  unfold mergeEntityAliases at done
  split at done
  · cases done
    exact unchanged
  · split at done
    · cases done
    · obtain ⟨existing, _, done⟩ := bind_ok done
      obtain ⟨merged, _, done⟩ := bind_ok done
      split at done
      · cases done
        exact unchanged
      · cases done
        refine ⟨_, fun e => ?_, rfl⟩
        split <;> rfl

/-- The map of the keys: each key leads to a row that it names, and two keys to two rows. -/
structure Resolved (mentions : List EntityMentionCandidate) (db : GraphDb) (map : EntityMap) :
    Prop where
  entities : EntitiesOk db
  named : ∀ key id, map.lookup key = some id → ∃ row ∈ db.entities, row.graphEntityId = id ∧
    Names mentions key row
  injective : ∀ key other id, map.lookup key = some id → map.lookup other = some id → key = other

theorem names_of_name {mentions : List EntityMentionCandidate} {key : EntityKey}
    {row row' : GraphEntity} (same : row'.name = row.name) (names : Names mentions key row) :
    row'.graphEntityId = row.graphEntityId ∧ Names mentions key row' := by
  simp only [GraphEntity.name, Prod.mk.injEq] at same
  obtain ⟨id, name, kind⟩ := same
  refine ⟨id, ?_⟩
  unfold Names
  rw [name, kind]
  exact names

omit [GraphText] in
theorem entitiesOk_map {db : GraphDb} {g : GraphEntity → GraphEntity}
    (same : ∀ e, (g e).name = e.name) (ok : EntitiesOk db) :
    EntitiesOk { db with entities := db.entities.map g } := by
  have ids (e : GraphEntity) : (g e).graphEntityId = e.graphEntityId := congrArg Prod.fst (same e)
  constructor
  · rw [Table.map_keys fun e _ => ids e]
    exact ok.distinct
  · intro e' member
    obtain ⟨e, old, rfl⟩ := List.mem_map.mp member
    rw [ids e]
    exact ok.fresh e old

omit [GraphText] in
theorem entitiesOk_append {db : GraphDb} {row : GraphEntity} (ok : EntitiesOk db)
    (new : row.graphEntityId = db.nextEntityId) :
    EntitiesOk { db with entities := db.entities ++ [row], nextEntityId := db.nextEntityId + 1 } := by
  constructor
  · refine Table.append_distinct ok.distinct fun e member => ?_
    have := ok.fresh e member
    omega
  · intro e member
    rcases List.mem_append.mp member with old | last
    · exact Nat.lt_succ_of_lt (ok.fresh e old)
    · cases List.mem_singleton.mp last
      exact new ▸ Nat.lt_succ_self _

theorem labels_map {db : GraphDb} {g : GraphEntity → GraphEntity}
    (same : ∀ e, (g e).name = e.name) (ok : LabelsOk db) :
    LabelsOk { db with entities := db.entities.map g } := by
  have parts (e : GraphEntity) : (g e).canonicalName = e.canonicalName ∧
      (g e).entityType = e.entityType := by
    have names := same e
    simp only [GraphEntity.name, Prod.mk.injEq] at names
    exact names.2
  refine ⟨?_, ?_, ok.relations⟩ <;> intro e' member <;>
    obtain ⟨e, old, rfl⟩ := List.mem_map.mp member
  · rw [(parts e).1]
    exact ok.names e old
  · rw [(parts e).2]
    exact ok.types e old

theorem labels_append {db : GraphDb} {row : GraphEntity} {next : Nat} (ok : LabelsOk db)
    (name : validateSafeGraphLabel 255 row.canonicalName = .ok row.canonicalName)
    (type : validateSafeGraphLabel 80 row.entityType = .ok row.entityType) :
    LabelsOk { db with entities := db.entities ++ [row], nextEntityId := next } := by
  refine ⟨?_, ?_, ok.relations⟩ <;> intro e member <;>
    rcases List.mem_append.mp member with old | new
  · exact ok.names e old
  · exact List.mem_singleton.mp new ▸ name
  · exact ok.types e old
  · exact List.mem_singleton.mp new ▸ type

/-- The rows found by their keys. -/
theorem resolved_listed (mentions : List EntityMentionCandidate) {db : GraphDb}
    (ok : EntitiesOk db) (keys : List EntityKey) :
    Resolved mentions db (listEntitiesByKeys keys db.entities) ∧
      ∀ key, ((listEntitiesByKeys keys db.entities).lookup key).isSome → key ∈ normalizedKeys keys := by
  have found {key : EntityKey} {id : Nat}
      (hit : (listEntitiesByKeys keys db.entities).lookup key = some id) :
      key ∈ normalizedKeys keys ∧ ∃ row ∈ db.entities, row.graphEntityId = id ∧ row.key = key := by
    obtain ⟨front, back, split, _⟩ := List.lookup_eq_some_iff.mp hit
    have entry : (key, id) ∈ listEntitiesByKeys keys db.entities := by simp [split]
    simp only [listEntitiesByKeys, List.mem_reverse, List.mem_map, List.mem_filter,
      Bool.and_eq_true, List.contains_eq_mem, decide_eq_true_eq, Prod.mk.injEq] at entry
    obtain ⟨row, ⟨member, _, listed⟩, sameKey, sameId⟩ := entry
    exact ⟨sameKey ▸ listed, row, member, sameId, sameKey⟩
  refine ⟨⟨ok, ?_, ?_⟩, ?_⟩
  · intro key id hit
    obtain ⟨_, row, member, sameId, sameKey⟩ := found hit
    exact ⟨row, member, sameId, .inl sameKey⟩
  · intro key other id first second
    obtain ⟨_, row, member, sameId, sameKey⟩ := found first
    obtain ⟨_, row', member', sameId', sameKey'⟩ := found second
    have same := Table.unique ok.distinct member member' (sameId.trans sameId'.symm)
    exact sameKey.symm.trans (same ▸ sameKey')
  · intro key hit
    obtain ⟨id, hit⟩ := Option.isSome_iff_exists.mp hit
    exact (found hit).1

/-- The loop over the keys, with the writes still to come. -/
structure Upserting (mentions : List EntityMentionCandidate) (base : GraphDb)
    (writes : List EntityWrite) (state : GraphDb × EntityMap) : Prop where
  pending : ∀ w ∈ writes, ∃ m ∈ mentions, m.entityKey = w.key ∧ m.canonicalName = w.canonicalName ∧
    m.entityType = w.entityType
  resolved : Resolved mentions state.1 state.2
  grown : EntitiesGrown base state.1
  covered : ∀ m ∈ mentions, (∃ w ∈ writes, w.key = m.entityKey) ∨
    (state.2.lookup m.entityKey).isSome
  keyed : ∀ key, (state.2.lookup key).isSome → (∃ m ∈ mentions, m.entityKey = key) ∨
    key ∈ normalizedKeys ((entityWrites mentions).map (·.key))
  labels : LabelsOk base → LabelsOk state.1

theorem upsertEntity_ok {mentions : List EntityMentionCandidate} {base : GraphDb} {now : Time}
    {write : EntityWrite} {writes : List EntityWrite} {state next : GraphDb × EntityMap}
    (inv : Upserting mentions base (write :: writes) state)
    (done : upsertEntity now state write = .ok next) : Upserting mentions base writes next := by
  obtain ⟨db, map⟩ := state
  obtain ⟨m, member, sameKey, sameName, sameType⟩ := inv.pending write List.mem_cons_self
  have rest : ∀ w ∈ writes, ∃ m ∈ mentions, m.entityKey = w.key ∧
      m.canonicalName = w.canonicalName ∧ m.entityType = w.entityType :=
    fun w h => inv.pending w (List.mem_cons_of_mem _ h)
  unfold upsertEntity at done
  split at done
  · rename_i missing
    obtain ⟨⟨db', id⟩, created, done⟩ := bind_ok done
    cases done
    obtain ⟨rfl, row, rowId, named, typed, _, _, rfl⟩ := createEntity_ok created
    have ok := entitiesOk_append inv.resolved.entities rowId
    have lookup (key : EntityKey) : List.lookup key ((write.key, db.nextEntityId) :: map) =
        if key = write.key then some db.nextEntityId else map.lookup key := by
      by_cases same : key = write.key
      · simp [same]
      · have miss : (key == write.key) = false := by simpa using same
        simp only [List.lookup_cons, miss, same, if_false, cond_false]
    have old {key : EntityKey} {id : Nat} (hit : map.lookup key = some id) :
        id < db.nextEntityId := by
      obtain ⟨e, inside, rfl, _⟩ := inv.resolved.named key id hit
      exact inv.resolved.entities.fresh e inside
    refine ⟨rest, ⟨ok, ?_, ?_⟩, ?_, ?_, ?_, fun before => ?_⟩
    · intro key id hit
      rw [lookup] at hit
      split at hit
      · rename_i same
        cases hit
        refine ⟨row, by simp, rowId, .inr ⟨m, member, by rw [sameKey, same], ?_, ?_⟩⟩
        · rw [sameName]
          exact safe_label (field_label named)
        · rw [sameType]
          exact safe_label (field_label typed)
      · obtain ⟨e, inside, sameId, names⟩ := inv.resolved.named key id hit
        exact ⟨e, List.mem_append_left _ inside, sameId, names⟩
    · intro key other id first second
      rw [lookup] at first second
      split at first <;> split at second
      · rename_i same same'
        exact same.trans same'.symm
      · cases first
        exact absurd (old second) (Nat.lt_irrefl _)
      · cases second
        exact absurd (old first) (Nat.lt_irrefl _)
      · exact inv.resolved.injective key other id first second
    · refine inv.grown.trans ⟨⟨_, _, rfl⟩, fun e inside => ?_⟩
      exact ⟨e, List.mem_append_left _ inside, rfl⟩
    · intro other inside
      rw [lookup]
      split
      · exact .inr rfl
      · rename_i apart
        rcases inv.covered other inside with ⟨w, h, same⟩ | there
        · rcases List.mem_cons.mp h with rfl | later
          · exact absurd same.symm apart
          · exact .inl ⟨w, later, same⟩
        · exact .inr there
    · intro key hit
      rw [lookup] at hit
      split at hit
      · rename_i same
        exact .inl ⟨m, member, by rw [sameKey, same]⟩
      · exact inv.keyed key hit
    · exact labels_append (inv.labels before) (label_again (field_label named))
        (label_again (field_label typed))
  · rename_i id there
    obtain ⟨db', merged, done⟩ := bind_ok done
    cases done
    obtain ⟨g, same, rfl⟩ := mergeEntityAliases_ok merged
    refine ⟨rest, ⟨entitiesOk_map same inv.resolved.entities, ?_, inv.resolved.injective⟩, ?_, ?_,
      inv.keyed, fun before => labels_map same (inv.labels before)⟩
    · intro key id hit
      obtain ⟨row, inside, rfl, names⟩ := inv.resolved.named key id hit
      exact ⟨g row, List.mem_map_of_mem inside, names_of_name (same row) names⟩
    · refine inv.grown.trans ⟨⟨_, _, rfl⟩, fun e inside => ?_⟩
      exact ⟨g e, List.mem_map_of_mem inside, same e⟩
    · intro other inside
      rcases inv.covered other inside with ⟨w, h, same⟩ | there'
      · rcases List.mem_cons.mp h with rfl | later
        · right
          simp only at there ⊢
          rw [← same, there]
          rfl
        · exact .inl ⟨w, later, same⟩
      · exact .inr there'

theorem entityWrites_of_mention {mentions : List EntityMentionCandidate} {w : EntityWrite}
    (member : w ∈ entityWrites mentions) : ∃ m ∈ mentions, m.entityKey = w.key ∧
      m.canonicalName = w.canonicalName ∧ m.entityType = w.entityType := by
  obtain ⟨m, kept, rfl⟩ := List.mem_map.mp member
  exact ⟨m, (keepFirst_sublist _ _).subset kept, rfl, rfl, rfl⟩

/-- After the loop every key of a mention is resolved. -/
theorem upsertEntities_ok {mentions : List EntityMentionCandidate} {now : Time}
    {db : GraphDb} {result : GraphDb × EntityMap} (ok : EntitiesOk db)
    (done : upsertEntities mentions now db = .ok result) :
    Upserting mentions db [] result := by
  obtain ⟨listed, keyed⟩ := resolved_listed mentions ok ((entityWrites mentions).map (·.key))
  have initial : Upserting mentions db (entityWrites mentions)
      (db, listEntitiesByKeys ((entityWrites mentions).map (·.key)) db.entities) := by
    refine ⟨fun w => entityWrites_of_mention, listed, .refl db, fun m member => ?_, ?_, id⟩
    · have fresh : m.entityKey ∉ ([] : List EntityKey) := List.not_mem_nil
      obtain ⟨kept, inside, same⟩ := key_kept member fresh
      exact .inl ⟨_, List.mem_map_of_mem inside, same⟩
    · exact fun key hit => .inr (keyed key hit)
  have one (w : EntityWrite) (ws : List EntityWrite) (s t : GraphDb × EntityMap)
      (inv : Upserting mentions db (w :: ws) s) (turn : upsertEntity now s w = .ok t) :
      Upserting mentions db ws t := upsertEntity_ok inv turn
  exact foldlM_ok (Upserting mentions db) one done initial

end Entities

section Rows

def GraphEntityMention.columns (m : GraphEntityMention) : GraphEntityMention :=
  { m with graphEntityMentionId := 0 }

def GraphRelation.columns (r : GraphRelation) : GraphRelation := { r with graphRelationId := 0 }

/-- The row of a mention, under the entity of its key. -/
def mentionRow [UnicodeTables] (entity : EntityKey → Option Nat) (m : EntityMentionCandidate) :
    GraphEntityMention :=
  ⟨0, (entity m.entityKey).getD 0, m.documentChunkId, m.documentVersionId, m.mentionTextHash,
    m.mentionOffsetStart, m.mentionOffsetEnd, m.confidence⟩

/-- The row of a relation between two entities; none when an end is unknown. -/
def relationRowOf (entity : EntityKey → Option Nat) (r : RelationCandidate) :
    Option GraphRelation :=
  match entity r.sourceKey, entity r.targetKey with
  | some sourceEntityId, some targetEntityId =>
    some ⟨0, sourceEntityId, targetEntityId, stripText r.relationType, stripText r.relationLabel,
      r.confidence, r.sourceDocumentChunkId, r.evidenceTextHash⟩
  | _, _ => none

/-- Rows that get the next ids of their table. -/
theorem numbered {R : Type} (items : List R) (first : Nat) (put : R → Nat → R) (id : R → Nat)
    (columns : R → R) (sameId : ∀ r n, id (put r n) = n)
    (sameColumns : ∀ r n, columns (put r n) = columns r) :
    ((items.zipIdx first).map fun entry => put entry.1 entry.2).map id =
        List.range' first items.length ∧
      ((items.zipIdx first).map fun entry => put entry.1 entry.2).map columns =
        items.map columns := by
  induction items generalizing first with
  | nil => exact ⟨rfl, rfl⟩
  | cons r items ih =>
    obtain ⟨ids, cols⟩ := ih (first + 1)
    simp only [List.zipIdx_cons, List.map_cons, ids, cols, sameId, sameColumns, List.length_cons,
      List.range'_succ, and_self]

variable [GraphText]

theorem mentionItem_ok {map : EntityMap} {allowed : List Nat} {m : EntityMentionCandidate}
    {item : Option GraphEntityMention} (there : (map.lookup m.entityKey).isSome)
    (done : mentionItem map allowed m = .ok item) :
    item = some (mentionRow (map.lookup ·) m) := by
  unfold mentionItem at done
  obtain ⟨_, _, done⟩ := bind_ok done
  obtain ⟨id, found⟩ := Option.isSome_iff_exists.mp there
  simp only [found] at done
  obtain ⟨_, _, done⟩ := bind_ok done
  obtain ⟨_, _, done⟩ := bind_ok done
  obtain ⟨_, _, done⟩ := bind_ok done
  cases done
  simp [mentionRow, found]

theorem persistMentions_ok {mentions : List EntityMentionCandidate} {map : EntityMap}
    {documentVersionId count : Nat} {allowed : List Nat} {db db' : GraphDb}
    (there : ∀ m ∈ mentions, (map.lookup m.entityKey).isSome)
    (done : persistMentions mentions map documentVersionId allowed db = .ok (db', count)) :
    ∃ rows, db' = { db with
        mentions := db.mentions ++ rows, nextMentionId := db.nextMentionId + rows.length } ∧
      rows.map (·.columns) = mentions.map (mentionRow (map.lookup ·)) ∧ count = rows.length ∧
      rows.map (·.graphEntityMentionId) = List.range' db.nextMentionId rows.length ∧
      ∀ row ∈ rows, row.documentVersionId = documentVersionId ∧
        row.documentChunkId ∈ db.chunkIds documentVersionId := by
  unfold persistMentions at done
  obtain ⟨items, listed, done⟩ := bind_ok done
  obtain ⟨last, created, done⟩ := bind_ok done
  cases done
  have rows := mapM_ok listed fun m member item h => mentionItem_ok (there m member) h
  have reduced : items.reduceOption = mentions.map (mentionRow (map.lookup ·)) := by
    rw [rows, List.reduceOption, List.filterMap_map, ← List.filterMap_eq_map]
    rfl
  rw [reduced] at created ⊢
  unfold createEntityMentionsForVersion at created
  split at created
  · rename_i empty
    cases created
    have none := List.isEmpty_iff.mp empty
    exact ⟨[], by simp, by simp [none], by simp [none], rfl, by simp⟩
  · obtain ⟨_, versions, created⟩ := bind_ok created
    obtain ⟨_, chunks, created⟩ := bind_ok created
    obtain ⟨_, _, created⟩ := bind_ok created
    cases created
    have versions := checkThat_ok versions
    have chunks := checkThat_ok chunks
    simp only [List.all_eq_true, beq_iff_eq, List.contains_eq_mem, decide_eq_true_eq]
      at versions chunks
    obtain ⟨ids, columns⟩ := numbered (mentions.map (mentionRow (map.lookup ·))) db.nextMentionId
      (fun m n => { m with graphEntityMentionId := n }) (·.graphEntityMentionId) (·.columns)
      (fun _ _ => rfl) fun _ _ => rfl
    refine ⟨_, ?_, columns.trans ?_, ?_, ids.trans ?_, ?_⟩
    · simp only [List.length_map, List.length_zipIdx]
    · rw [List.map_map]
      rfl
    · simp only [List.length_map, List.length_zipIdx]
    · simp only [List.length_map, List.length_zipIdx]
    · intro row member
      obtain ⟨⟨item, n⟩, inside, rfl⟩ := List.mem_map.mp member
      have old : item ∈ mentions.map (mentionRow (map.lookup ·)) := List.fst_mem_of_mem_zipIdx inside
      exact ⟨versions item old, chunks item old⟩

omit [GraphText] in
theorem row_columns {entity : EntityKey → Option Nat} {r : RelationCandidate} {row : GraphRelation}
    (made : relationRowOf entity r = some row) :
    row.columns = row ∧ row.sourceDocumentChunkId = r.sourceDocumentChunkId := by
  unfold relationRowOf at made
  split at made
  · cases made
    exact ⟨rfl, rfl⟩
  · cases made

theorem relationItem_ok {map : EntityMap} {allowed : List Nat} {r : RelationCandidate}
    {item : Option GraphRelation} (done : relationItem map allowed r = .ok item) :
    item = relationRowOf (map.lookup ·) r ∧ r.sourceDocumentChunkId ∈ allowed ∧
      ∀ row, item = some row → validateSafeGraphLabel 120 r.relationType = .ok row.relationType := by
  unfold relationItem at done
  obtain ⟨_, inside, done⟩ := bind_ok done
  have inside := checkThat_ok inside
  simp only [List.contains_eq_mem, decide_eq_true_eq] at inside
  split at done
  · rename_i source target foundSource foundTarget
    obtain ⟨relationType, typed, done⟩ := bind_ok done
    obtain ⟨relationLabel, labelled, done⟩ := bind_ok done
    obtain ⟨_, _, done⟩ := bind_ok done
    obtain ⟨_, _, done⟩ := bind_ok done
    obtain ⟨_, _, done⟩ := bind_ok done
    cases done
    simp only [relationRowOf, foundSource, foundTarget]
    have typed := field_label typed
    refine ⟨?_, inside, fun row same => by cases same; exact typed⟩
    rw [safe_label typed, safe_label (field_label labelled)]
  · rename_i unknown
    cases done
    refine ⟨?_, inside, fun row same => by cases same⟩
    unfold relationRowOf
    split
    · rename_i source target foundSource foundTarget
      exact absurd foundTarget (unknown source target foundSource)
    · rfl

theorem persistRelations_ok {relations : List RelationCandidate} {map : EntityMap} {count : Nat}
    {allowed : List Nat} {db db' : GraphDb}
    (done : persistRelations relations map allowed db = .ok (db', count)) :
    ∃ rows, db' = { db with
        relations := db.relations ++ rows, nextRelationId := db.nextRelationId + rows.length } ∧
      rows.map (·.columns) = relations.filterMap (relationRowOf (map.lookup ·)) ∧
      count = rows.length ∧
      rows.map (·.graphRelationId) = List.range' db.nextRelationId rows.length ∧
      ∀ row ∈ rows, row.sourceDocumentChunkId ∈ allowed ∧
        validateSafeGraphLabel 120 row.relationType = .ok row.relationType := by
  unfold persistRelations at done
  obtain ⟨items, listed, done⟩ := bind_ok done
  obtain ⟨last, created, done⟩ := bind_ok done
  cases done
  have each := mapM_ok listed fun r _ item h => (relationItem_ok h).1
  have reduced : items.reduceOption = relations.filterMap (relationRowOf (map.lookup ·)) := by
    rw [each, List.reduceOption, List.filterMap_map]
    rfl
  have checked := mapM_each listed
  rw [reduced] at created ⊢
  simp only [createRelations] at created
  split at created
  · cases created
    obtain ⟨ids, columns⟩ := numbered (relations.filterMap (relationRowOf (map.lookup ·)))
      db.nextRelationId (fun r n => { r with graphRelationId := n }) (·.graphRelationId)
      (·.columns) (fun _ _ => rfl) fun _ _ => rfl
    have plain : (relations.filterMap (relationRowOf (map.lookup ·))).map (·.columns) =
        relations.filterMap (relationRowOf (map.lookup ·)) := by
      conv_rhs => rw [← List.map_id (relations.filterMap _)]
      refine List.map_congr_left fun row member => ?_
      obtain ⟨r, _, same⟩ := List.mem_filterMap.mp member
      exact (row_columns same).1
    refine ⟨_, ?_, columns.trans plain, ?_, ids.trans ?_, ?_⟩
    · simp only [List.length_map, List.length_zipIdx]
    · simp only [List.length_map, List.length_zipIdx]
    · simp only [List.length_map, List.length_zipIdx]
    · intro row member
      obtain ⟨⟨item, n⟩, inside, rfl⟩ := List.mem_map.mp member
      have old : item ∈ relations.filterMap (relationRowOf (map.lookup ·)) := List.fst_mem_of_mem_zipIdx inside
      obtain ⟨r, member, same⟩ := List.mem_filterMap.mp old
      obtain ⟨y, h⟩ := checked r member
      obtain ⟨eq, allowed_r, typed⟩ := relationItem_ok h
      refine ⟨?_, label_again (typed item (eq.trans same))⟩
      rwa [← (row_columns same).2] at allowed_r
  · cases created

end Rows

section Replace
variable [GraphText]

/-- The tables after the rows of a version have been replaced by those of a result. -/
structure Replaced (snapshot : GraphIndexBuildSnapshot) (result : GraphExtractionResult)
    (now : Time) (db db' : GraphDb) (entity : EntityKey → Option Nat)
    (mentionRows : List GraphEntityMention) (relationRows : List GraphRelation) : Prop where
  tables : ∃ entities next, db' = { db with
    entities := entities
    nextEntityId := next
    mentions := db.mentions.filter (·.documentVersionId != snapshot.documentVersionId) ++
      mentionRows
    nextMentionId := db.nextMentionId + mentionRows.length
    relations := (deleteIndexArtifactsForDocumentVersion db snapshot.documentVersionId).relations ++
      relationRows
    nextRelationId := db.nextRelationId + relationRows.length
    runs := (setGraphRun db snapshot.graphIndexRunId (graphRunSucceeded
      (result.entityMentions.filterMap fun m => entity m.entityKey).dedup.length
      relationRows.length mentionRows.length now)).runs }
  kept : ∀ e ∈ db.entities, ∃ e' ∈ db'.entities, e'.name = e.name
  entities : EntitiesOk db'
  mentioned : ∀ m ∈ result.entityMentions, (entity m.entityKey).isSome
  keyed : ∀ key, (entity key).isSome → (∃ m ∈ result.entityMentions, m.entityKey = key) ∨
    key ∈ normalizedKeys ((entityWrites result.entityMentions).map (·.key))
  named : ∀ key id, entity key = some id → ∃ row ∈ db'.entities, row.graphEntityId = id ∧
    Names result.entityMentions key row
  injective : ∀ key other id, entity key = some id → entity other = some id → key = other
  mentions : mentionRows.map (·.columns) = result.entityMentions.map (mentionRow entity)
  mentionIds : mentionRows.map (·.graphEntityMentionId) =
    List.range' db.nextMentionId mentionRows.length
  mentionsPlaced : ∀ row ∈ mentionRows, row.documentVersionId = snapshot.documentVersionId ∧
    row.documentChunkId ∈ db.chunkIds snapshot.documentVersionId
  relations : relationRows.map (·.columns) = result.relations.filterMap (relationRowOf entity)
  relationIds : relationRows.map (·.graphRelationId) =
    List.range' db.nextRelationId relationRows.length
  relationsPlaced : ∀ row ∈ relationRows,
    row.sourceDocumentChunkId ∈ snapshot.chunks.map (·.documentChunkId)
  labels : LabelsOk db → LabelsOk db'

theorem replaceArtifacts_ok {snapshot : GraphIndexBuildSnapshot} {result : GraphExtractionResult}
    {now : Time} {db db' : GraphDb} (ok : EntitiesOk db)
    (done : replaceArtifacts snapshot result now db = .ok db') :
    ∃ entity mentionRows relationRows,
      Replaced snapshot result now db db' entity mentionRows relationRows := by
  unfold replaceArtifacts at done
  obtain ⟨⟨upserted, map⟩, first, done⟩ := bind_ok done
  obtain ⟨⟨mentioned, mentionCount⟩, second, done⟩ := bind_ok done
  obtain ⟨⟨related, relationCount⟩, third, done⟩ := bind_ok done
  cases done
  have base : EntitiesOk (deleteIndexArtifactsForDocumentVersion db snapshot.documentVersionId) :=
    ⟨ok.distinct, ok.fresh⟩
  have entities := upsertEntities_ok base first
  have there : ∀ m ∈ result.entityMentions, (map.lookup m.entityKey).isSome := by
    intro m member
    rcases entities.covered m member with ⟨w, none, _⟩ | there
    · cases none
    · exact there
  obtain ⟨mentionRows, rfl, mentionColumns, rfl, mentionIds, mentionsPlaced⟩ :=
    persistMentions_ok there second
  obtain ⟨relationRows, rfl, relationColumns, rfl, relationIds, relationsPlaced⟩ :=
    persistRelations_ok third
  obtain ⟨⟨rows, next, grown⟩, kept⟩ := entities.grown
  obtain rfl : upserted = { deleteIndexArtifactsForDocumentVersion db snapshot.documentVersionId with
    entities := rows, nextEntityId := next } := grown
  refine ⟨(map.lookup ·), mentionRows, relationRows, ⟨⟨rows, next, rfl⟩, kept,
    ⟨entities.resolved.entities.distinct, entities.resolved.entities.fresh⟩, there, entities.keyed,
    entities.resolved.named, entities.resolved.injective, mentionColumns, mentionIds,
    mentionsPlaced, relationColumns, relationIds, fun row member => (relationsPlaced row member).1,
    fun before => ?_⟩⟩
  have upserted := entities.labels ⟨before.names, before.types, fun r member =>
    before.relations r (List.mem_filter.mp member).1⟩
  refine ⟨upserted.names, upserted.types, fun r member => ?_⟩
  rcases List.mem_append.mp member with old | new
  · exact upserted.relations r old
  · exact (relationsPlaced r new).2

/-- A transaction that fails its run writes the run and nothing else. -/
structure RunFailed (runId : Nat) (db db' : GraphDb) (code : String) : Prop where
  tables : ∃ g : GraphIndexRun → GraphIndexRun, db' = setGraphRun db runId g ∧ ∀ run,
    (g run).graphIndexRunId = run.graphIndexRunId ∧ (g run).status = .failed ∧
      (g run).documentVersionId = run.documentVersionId ∧ (g run).jobId = run.jobId ∧
      (g run).errorCode = some code

omit [GraphText] in
theorem setGraphRun_twice (db : GraphDb) (runId : Nat) {f g : GraphIndexRun → GraphIndexRun}
    (sameId : ∀ run, (f run).graphIndexRunId = run.graphIndexRunId) :
    setGraphRun (setGraphRun db runId f) runId g = setGraphRun db runId (g ∘ f) := by
  simp only [setGraphRun, List.map_map]
  congr 1
  refine List.map_congr_left fun run _ => ?_
  simp only [Function.comp]
  by_cases hit : run.graphIndexRunId = runId
  · rw [if_pos hit, if_pos ((sameId run).trans hit), if_pos hit]
  · rw [if_neg hit, if_neg hit, if_neg hit]

/-- The transaction either fails its run or replaces the rows of the version. -/
def PersistOutcome (snapshot : GraphIndexBuildSnapshot) (result : GraphExtractionResult)
    (now : Time) (db db' : GraphDb) : Option String → Prop
  | some code => RunFailed snapshot.graphIndexRunId db db' code
  | none => ∃ entity mentionRows relationRows, Replaced snapshot result now
      (setGraphRun db snapshot.graphIndexRunId (mergeMetadata result.metadataJson)) db' entity
      mentionRows relationRows

theorem persistExtractionResult_ok {snapshot : GraphIndexBuildSnapshot}
    {result : GraphExtractionResult} {now : Time} {db db' : GraphDb} {outcome : Option String}
    (ok : EntitiesOk db)
    (done : persistExtractionResult snapshot result now db = .ok (db', outcome)) :
    (∃ run, getGraphIndexRun db snapshot.graphIndexRunId = some run ∧ run.status = .running) ∧
      (∃ version, db.docs.getVersionById snapshot.documentVersionId = some version ∧
        version.status = .ready) ∧
      PersistOutcome snapshot result now db db' outcome := by
  unfold persistExtractionResult at done
  split at done
  · cases done
  · rename_i version run found
    obtain ⟨_, running, done⟩ := bind_ok done
    have running := checkThat_ok running
    have running : run.status = .running := by simpa using running
    dsimp only at done
    split at done
    · cases done
    · rename_i versionRow foundVersion
      obtain ⟨_, ready, done⟩ := bind_ok done
      have ready := checkThat_ok ready
      have ready : versionRow.status = .ready := by simpa using ready
      refine ⟨⟨run, found, running⟩, ⟨versionRow, foundVersion, ready⟩, ?_⟩
      split at done
      · cases done
        exact ⟨_, setGraphRun_twice db _ fun _ => rfl, fun _ => ⟨rfl, rfl, rfl, rfl, rfl⟩⟩
      · split at done
        · cases done
          exact ⟨_, setGraphRun_twice db _ fun _ => rfl, fun _ => ⟨rfl, rfl, rfl, rfl, rfl⟩⟩
        · obtain ⟨last, replaced, done⟩ := bind_ok done
          cases done
          exact replaceArtifacts_ok ⟨ok.distinct, ok.fresh⟩ replaced

end Replace

end RagProject.Graph
