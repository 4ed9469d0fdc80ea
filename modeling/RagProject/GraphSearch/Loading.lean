import RagProject.GraphSearch.Paths
import RagProject.GraphSearch.Starvation
import RagProject.Lib.Trails

/-! Which relations a path search has loaded, and that they are all relations of the loaded
entities where the query cuts nothing off. -/
namespace RagProject.GraphSearch
open Python Documents Graph Retrieval KeepFirst Trails

section Neighbours
variable [GraphText] (db : GraphTables) (filters : RetrievalFilters)

/-- The visible relations at an entity, each with the entity at its other end. -/
def neighbours (entityId : Nat) : List (GraphRelationRow × Nat) :=
  ((incidentRelations db (some filters) [] entityId).filterMap (withEntities db)).map fun row =>
    (row, otherEnd row.relation entityId)

/-- A relation of the table that the filters let pass, with the rows of its entities. -/
structure VisibleRow (row : GraphRelationRow) : Prop where
  stored : row.relation ∈ db.relations
  entities : withEntities db row.relation = some row
  visible : db.visible (some filters) row.relation = true

def touches (r : GraphRelation) (entityId : Nat) : Prop :=
  r.sourceEntityId = entityId ∨ r.targetEntityId = entityId

instance (r : GraphRelation) (entityId : Nat) : Decidable (touches r entityId) :=
  inferInstanceAs (Decidable (_ ∨ _))

variable {db filters}

theorem withEntities_relation {r : GraphRelation} {row : GraphRelationRow}
    (joined : withEntities db r = some row) : row.relation = r := by
  unfold withEntities at joined
  cases source : db.entities.find? (·.graphEntityId == r.sourceEntityId) with
  | none =>
    rw [source] at joined
    cases joined
  | some a =>
    cases target : db.entities.find? (·.graphEntityId == r.targetEntityId) with
    | none =>
      rw [source, target] at joined
      cases joined
    | some b =>
      rw [source, target] at joined
      cases joined
      rfl

theorem VisibleRow.same {a b : GraphRelationRow} (left : VisibleRow db filters a)
    (right : VisibleRow db filters b)
    (ids : a.relation.graphRelationId = b.relation.graphRelationId) : a = b := by
  have relations := List.inj_on_of_nodup_map db.relationIds left.stored right.stored ids
  have rows := right.entities
  rw [← relations, left.entities] at rows
  exact Option.some.inj rows

theorem mem_incident {excluded : List Nat} {entityId : Nat} {r : GraphRelation} :
    r ∈ incidentRelations db (some filters) excluded entityId ↔
      r ∈ db.relations ∧ touches r entityId ∧ r.graphRelationId ∉ excluded ∧
        db.visible (some filters) r = true := by
  unfold incidentRelations GraphTables.eligible touches
  rw [(List.perm_insertionSort _ _).mem_iff, List.mem_filter]
  simp

theorem mem_neighbours {entityId next : Nat} {row : GraphRelationRow} :
    (row, next) ∈ neighbours db filters entityId ↔
      VisibleRow db filters row ∧ touches row.relation entityId ∧
        next = otherEnd row.relation entityId := by
  unfold neighbours
  rw [List.mem_map]
  constructor
  · rintro ⟨other, member, same⟩
    obtain ⟨rfl, rfl⟩ := Prod.mk.inj same
    obtain ⟨r, incident, joined⟩ := List.mem_filterMap.mp member
    have relation := withEntities_relation joined
    obtain ⟨stored, touching, _, visible⟩ := mem_incident.mp incident
    rw [← relation] at stored touching visible joined
    exact ⟨⟨stored, joined, visible⟩, touching, rfl⟩
  · rintro ⟨row_, touching, rfl⟩
    refine ⟨row, List.mem_filterMap.mpr ⟨row.relation, mem_incident.mpr ?_, row_.entities⟩, rfl⟩
    exact ⟨row_.stored, touching, List.not_mem_nil, row_.visible⟩

theorem neighbours_nodup (entityId : Nat) : (neighbours db filters entityId).Nodup := by
  unfold neighbours
  apply List.Nodup.map (fun a b same => (Prod.mk.inj same).1)
  apply List.Nodup.filterMap _ (incident_nodup entityId)
  intro a b row first second
  rw [Option.mem_def] at first second
  rw [← withEntities_relation first, withEntities_relation second]

end Neighbours

section Loaded
variable [GraphText] (db : GraphTables) (filters : RetrievalFilters)

/-- The rows that were loaded, in order. -/
structure Loaded (s : PathSearch) (rows : List GraphRelationRow) : Prop where
  adjacency : s.adjacency = rows.flatMap fun row =>
    [(row.relation.sourceEntityId, row), (row.relation.targetEntityId, row)]
  seen : ∀ id, id ∈ s.seenRelationIds ↔ id ∈ rows.map (·.relation.graphRelationId)
  distinct : (rows.map (·.relation.graphRelationId)).Nodup
  visible : ∀ row ∈ rows, VisibleRow db filters row

/-- Every relation of a loaded entity was loaded. -/
def Complete (s : PathSearch) (rows : List GraphRelationRow) : Prop :=
  ∀ entityId ∈ s.loadedEntityIds, ∀ row, VisibleRow db filters row → touches row.relation entityId →
    row ∈ rows

variable {db filters} {s : PathSearch} {rows : List GraphRelationRow}

theorem Loaded.mem_of_id (loaded : Loaded db filters s rows) {row : GraphRelationRow}
    (visible : VisibleRow db filters row)
    (known : row.relation.graphRelationId ∈ s.seenRelationIds) : row ∈ rows := by
  obtain ⟨other, member, same⟩ := List.mem_map.mp ((loaded.seen _).mp known)
  rwa [← (loaded.visible other member).same visible same]

/-- What loading leaves as it is. -/
structure SameSearch (s t : PathSearch) : Prop where
  paths : t.paths = s.paths
  reasonCodes : t.reasonCodes = s.reasonCodes
  loadedEntityIds : t.loadedEntityIds = s.loadedEntityIds

theorem loadRow_loaded (loaded : Loaded db filters s rows) {row : GraphRelationRow}
    (visible : VisibleRow db filters row) :
    SameSearch s (loadRow s row) ∧ ∃ more, Loaded db filters (loadRow s row) more ∧
      ∀ r, r ∈ more ↔ r ∈ rows ∨ r = row := by
  unfold loadRow
  by_cases known : row.relation.graphRelationId ∈ s.seenRelationIds
  · rw [if_pos known]
    refine ⟨⟨rfl, rfl, rfl⟩, rows, loaded, fun r => ⟨.inl, ?_⟩⟩
    rintro (before | rfl)
    · exact before
    · exact loaded.mem_of_id visible known
  · rw [if_neg known]
    refine ⟨⟨rfl, rfl, rfl⟩, rows ++ [row], ⟨?_, ?_, ?_, ?_⟩, fun r => ?_⟩
    · rw [List.flatMap_append, ← loaded.adjacency, List.flatMap_singleton]
    · intro id
      rw [List.map_append, List.mem_append, ← loaded.seen, List.mem_cons, or_comm]
      simp
    · rw [List.map_append, List.nodup_append]
      refine ⟨loaded.distinct, List.nodup_singleton _, ?_⟩
      rintro id before _ last rfl
      rw [List.map_singleton, List.mem_singleton] at last
      rw [last, ← loaded.seen] at before
      exact known before
    · intro r member
      rcases List.mem_append.mp member with before | last
      · exact loaded.visible r before
      · rw [List.mem_singleton.mp last]
        exact visible
    · rw [List.mem_append, List.mem_singleton]

theorem loadRows_loaded (loaded : Loaded db filters s rows) {list : List GraphRelationRow}
    (visible : ∀ row ∈ list, VisibleRow db filters row) :
    SameSearch s (list.foldl loadRow s) ∧ ∃ more, Loaded db filters (list.foldl loadRow s) more ∧
      ∀ r, r ∈ more ↔ r ∈ rows ∨ r ∈ list := by
  induction list generalizing s rows with
  | nil => exact ⟨⟨rfl, rfl, rfl⟩, rows, loaded, by simp⟩
  | cons row list ih =>
    obtain ⟨first, one, next, members⟩ :=
      loadRow_loaded loaded (visible row List.mem_cons_self)
    obtain ⟨rest, all, last, whole⟩ := ih next fun r member =>
      visible r (List.mem_cons_of_mem _ member)
    rw [List.foldl_cons]
    refine ⟨⟨rest.paths.trans first.paths, rest.reasonCodes.trans first.reasonCodes,
      rest.loadedEntityIds.trans first.loadedEntityIds⟩, all, last, fun r => ?_⟩
    rw [whole, members, List.mem_cons, or_assoc]

/-- The query returns visible relations of the table. -/
theorem listed_visible {maxRelationsPerEntity : Nat} {entityIds excludeRelationIds : List Nat}
    {row : GraphRelationRow} (member : row ∈ listRelationsForEntityIds db (some filters)
      maxRelationsPerEntity entityIds excludeRelationIds) : VisibleRow db filters row := by
  obtain ⟨credits, _⟩ := credits_shares db (some filters) maxRelationsPerEntity entityIds
    excludeRelationIds
  rw [list_eq, credits] at member
  obtain ⟨r, taken, joined⟩ := List.mem_filterMap.mp member
  obtain ⟨share, inside, mine⟩ := List.mem_flatMap.mp taken
  obtain ⟨before, same⟩ := share_taken inside
  rw [same] at mine
  have ranked := List.mem_of_mem_take ((keepFirst_sublist _ _).subset (List.mem_of_mem_take mine))
  obtain ⟨stored, _, _, visible⟩ := mem_incident.mp (mem_ranked.mp ranked)
  have relation := withEntities_relation joined
  rw [← relation] at stored visible joined
  exact ⟨stored, joined, visible⟩

theorem touches_positive {row : GraphRelationRow} (visible : VisibleRow db filters row)
    {entityId : Nat} (touching : touches row.relation entityId) : 0 < entityId := by
  rcases touching with rfl | rfl
  · obtain ⟨e, there, same⟩ := db.sources _ visible.stored
    rw [← same]
    exact db.entitiesPositive e there
  · obtain ⟨e, there, same⟩ := db.targets _ visible.stored
    rw [← same]
    exact db.entitiesPositive e there

/-- No rank of an entity lies behind the number of relations it may have. -/
def FewRows (db : GraphTables) (filters : RetrievalFilters) (maxRelationsPerEntity entityId : Nat) :
    Prop :=
  (rankedRelations db (some filters) [] entityId).length ≤ maxRelationsPerEntity

theorem FewRows.ranked {maxRelationsPerEntity entityId : Nat}
    (few : FewRows db filters maxRelationsPerEntity entityId) (excluded : List Nat) :
    (rankedRelations db (some filters) excluded entityId).length ≤ maxRelationsPerEntity := by
  apply Nat.le_trans _ few
  unfold rankedRelations
  rw [List.length_insertionSort, List.length_insertionSort, ← List.countP_eq_length_filter,
    ← List.countP_eq_length_filter]
  apply List.countP_mono_left
  intro r _
  simp [GraphTables.eligible]

theorem FewRows.incident {maxRelationsPerEntity entityId : Nat}
    (few : FewRows db filters maxRelationsPerEntity entityId) (excluded : List Nat) :
    (incidentRelations db (some filters) excluded entityId).length ≤ maxRelationsPerEntity := by
  apply Nat.le_trans _ (few.ranked excluded)
  apply List.Subperm.length_le
  apply List.subperm_of_subset (incident_nodup entityId)
  intro r member
  exact mem_ranked.mpr member

/-- Where the query cuts nothing off, it returns all relations of its entities that are not
excluded. -/
theorem all_listed {maxRelationsPerEntity : Nat} {entityIds excludeRelationIds : List Nat}
    (few : ∀ id ∈ entityIds, FewRows db filters maxRelationsPerEntity id) {entityId : Nat}
    (listed : entityId ∈ entityIds) {row : GraphRelationRow} (visible : VisibleRow db filters row)
    (touching : touches row.relation entityId)
    (fresh : row.relation.graphRelationId ∉ excludeRelationIds) :
    row ∈ listRelationsForEntityIds db (some filters) maxRelationsPerEntity entityIds
      excludeRelationIds := by
  have within : WithinCut db (some filters) maxRelationsPerEntity entityIds excludeRelationIds := by
    intro share member r mine
    have key := List.mem_map_of_mem (f := (·.1)) member
    rw [fair_keys, mem_safeIds] at key
    have all := (few share.1 key.1).ranked (excludeRelationIds.filter (0 < ·))
    obtain ⟨before, taken⟩ := share_taken member
    rw [taken] at mine
    rw [List.take_of_length_le (by omega), mem_ranked]
    exact (List.mem_filter.mp (List.mem_of_mem_take mine)).1
  have fair := unstarved_of_within within
  have key : entityId ∈ (orderedPositiveIds entityIds).insertionSort (· ≤ ·) :=
    mem_safeIds.mpr ⟨listed, touches_positive visible touching⟩
  rw [← fair_keys db (some filters) maxRelationsPerEntity entityIds excludeRelationIds] at key
  obtain ⟨share, member, rfl⟩ := List.mem_map.mp key
  have incident : row.relation ∈ incidentRelations db (some filters)
      (excludeRelationIds.filter (0 < ·)) share.1 := by
    refine mem_incident.mpr ⟨visible.stored, touching, ?_, visible.visible⟩
    exact fun excluded => fresh (List.mem_filter.mp excluded).1
  obtain ⟨other, there, taken⟩ := (share_fresh member
    (fun _ => share_few ((few _ listed).incident _)) incident).resolve_left List.not_mem_nil
  obtain ⟨r, mine, same⟩ := List.mem_map.mp taken
  obtain ⟨before, shape⟩ := share_taken there
  have stored : r ∈ db.relations := by
    rw [shape] at mine
    exact incident_mem (List.mem_filter.mp (List.mem_of_mem_take mine)).1
  have one := List.inj_on_of_nodup_map db.relationIds stored visible.stored same
  rw [fair.rows]
  exact List.mem_filterMap.mpr
    ⟨row.relation, List.mem_flatMap.mpr ⟨other, there, one ▸ mine⟩, visible.entities⟩

end Loaded

end RagProject.GraphSearch
