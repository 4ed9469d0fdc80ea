import Mathlib.Data.List.Sort
import RagProject.GraphSearch.Relations
import RagProject.Lib.Counter

/-! Whether the cut-off of the ranked query starves an entity of the frontier. -/
namespace RagProject.GraphSearch
open Python Documents Graph Retrieval KeepFirst

section Plain
variable [GraphText] (db : GraphTables) (filters : Option RetrievalFilters)
variable (excluded : List Nat)

/-- The relations of an entity that the filters let pass, best first, each of them once. -/
def incidentRelations (entityId : Nat) : List GraphRelation :=
  (db.relations.filter fun r => (r.sourceEntityId == entityId || r.targetEntityId == entityId) &&
    db.eligible filters excluded r).insertionSort fun a b => rankOrder a ≤ rankOrder b

/-- Each entity in turn takes relations that no earlier one has taken. -/
def sharesOf (take : List Nat → Nat → List GraphRelation) :
    List Nat → List Nat → List (Nat × List GraphRelation)
  | _, [] => []
  | seen, entityId :: entityIds =>
    (entityId, take seen entityId) ::
      sharesOf take ((take seen entityId).map (·.graphRelationId) ++ seen) entityIds

variable (maxRelationsPerEntity : Nat)

/-- The best relations of an entity that were not taken. -/
def bestFresh (seen : List Nat) (entityId : Nat) : List GraphRelation :=
  ((incidentRelations db filters excluded entityId).filter
    (·.graphRelationId ∉ seen)).take maxRelationsPerEntity

/-- The plain algorithm, in ascending order of the entities. -/
def plainShares (safeIds : List Nat) : List (Nat × List GraphRelation) :=
  sharesOf (bestFresh db filters excluded maxRelationsPerEntity) [] (safeIds.insertionSort (· ≤ ·))

/-- What is left of it in the first rows of a partition. -/
def cutFresh (rows : Nat) (seen : List Nat) (entityId : Nat) : List GraphRelation :=
  (keepFirst (·.graphRelationId) seen
    ((rankedRelations db filters excluded entityId).take rows)).take maxRelationsPerEntity

end Plain

section Ranks
variable [GraphText] {db : GraphTables} {filters : Option RetrievalFilters} {excluded : List Nat}

theorem rankOrder_antisymm {r s : GraphRelation} (there : r ∈ db.relations) (other : s ∈ db.relations)
    (le : rankOrder r ≤ rankOrder s) (ge : rankOrder s ≤ rankOrder r) : r = s := by
  have same := le_antisymm le ge
  have ids : r.graphRelationId = s.graphRelationId := by
    have parts := congrArg (fun k => (ofLex (ofLex k).2).2) same
    exact parts
  exact List.inj_on_of_nodup_map db.relationIds there other ids

theorem mem_ranked {entityId : Nat} {r : GraphRelation} :
    r ∈ rankedRelations db filters excluded entityId ↔
      r ∈ incidentRelations db filters excluded entityId := by
  unfold rankedRelations incidentRelations candidateRelations
  rw [(List.perm_insertionSort _ _).mem_iff, (List.perm_insertionSort _ _).mem_iff]
  simp only [List.mem_filter, List.mem_append, Bool.and_eq_true, Bool.or_eq_true]
  tauto

theorem incident_mem {entityId : Nat} {r : GraphRelation}
    (member : r ∈ incidentRelations db filters excluded entityId) : r ∈ db.relations :=
  (List.mem_filter.mp ((List.perm_insertionSort _ _).mem_iff.mp member)).1

theorem incident_sorted (entityId : Nat) :
    (incidentRelations db filters excluded entityId).Pairwise fun a b =>
      rankOrder a ≤ rankOrder b :=
  List.pairwise_insertionSort (fun a b => rankOrder a ≤ rankOrder b) _

theorem incident_nodup (entityId : Nat) :
    (incidentRelations db filters excluded entityId).Nodup :=
  (List.perm_insertionSort _ _).nodup_iff.mpr (db.relationIds.of_map.filter _)

/-- The fresh rows of a partition, each once, are the fresh relations of the entity. -/
theorem keepFirst_ranked (seen : List Nat) (entityId : Nat) :
    keepFirst (·.graphRelationId) seen (rankedRelations db filters excluded entityId) =
      (incidentRelations db filters excluded entityId).filter (·.graphRelationId ∉ seen) := by
  have known : ∀ r ∈ rankedRelations db filters excluded entityId, r ∈ db.relations :=
    fun r member => incident_mem (mem_ranked.mp member)
  have kept : (keepFirst (·.graphRelationId) seen
      (rankedRelations db filters excluded entityId)).Sublist
        (rankedRelations db filters excluded entityId) := keepFirst_sublist _ _
  have sorted : (rankedRelations db filters excluded entityId).Pairwise fun a b =>
      rankOrder a ≤ rankOrder b :=
    List.pairwise_insertionSort (fun a b => rankOrder a ≤ rankOrder b) _
  have distinct : (keepFirst (·.graphRelationId) seen
      (rankedRelations db filters excluded entityId)).Nodup := (keepFirst_distinct _ _).of_map
  apply List.Perm.eq_of_pairwise _ (sorted.sublist kept)
    ((incident_sorted entityId).sublist List.filter_sublist)
  · rw [List.perm_ext_iff_of_nodup distinct ((incident_nodup entityId).filter _)]
    intro r
    rw [List.mem_filter, ← mem_ranked, decide_eq_true_eq]
    constructor
    · exact fun member => ⟨kept.subset member, not_seen member⟩
    · rintro ⟨member, fresh⟩
      obtain ⟨k, there, same⟩ := key_kept member fresh
      rwa [List.inj_on_of_nodup_map db.relationIds (known k (kept.subset there)) (known r member)
        same] at there
  · intro a b left right
    exact rankOrder_antisymm (known a (kept.subset left))
      (incident_mem (List.mem_filter.mp right).1)

end Ranks

section Credits
variable [GraphText] {maxRelationsPerEntity : Nat} {safeIds : List Nat}

/-- What the rows of one entity change. -/
structure CreditsOf (entityId : Nat) (mine : List GraphRelation) (s t : Crediting) : Prop where
  rows : t.relationRows = s.relationRows ++ mine
  seen : ∀ id, id ∈ t.seenRelationIds ↔ id ∈ mine.map (·.graphRelationId) ∨ id ∈ s.seenRelationIds
  count : Counter.get t.frontierCounts entityId =
    Counter.get s.frontierCounts entityId + mine.length
  others : ∀ id ≠ entityId, Counter.get t.frontierCounts id = Counter.get s.frontierCounts id

variable (maxRelationsPerEntity) in
theorem credit_rows {entityId : Nat} (listed : entityId ∈ safeIds) (rows : List GraphRelation)
    (s : Crediting) :
    CreditsOf entityId ((keepFirst (·.graphRelationId) s.seenRelationIds rows).take
        (maxRelationsPerEntity - Counter.get s.frontierCounts entityId)) s
      ((rows.map (·, entityId)).foldl (creditRow maxRelationsPerEntity safeIds) s) := by
  induction rows generalizing s with
  | nil => constructor <;> simp [keepFirst]
  | cons r rows ih =>
    rw [List.map_cons, List.foldl_cons]
    unfold keepFirst
    by_cases old : r.graphRelationId ∈ s.seenRelationIds
    · rw [creditRow, if_pos old, if_pos old]
      exact ih s
    · by_cases full : maxRelationsPerEntity ≤ Counter.get s.frontierCounts entityId
      · rw [creditRow, if_neg old, if_neg (not_not.mpr listed), if_pos full, if_neg old,
          Nat.sub_eq_zero_of_le full, List.take_zero]
        have rest := ih s
        rwa [Nat.sub_eq_zero_of_le full, List.take_zero] at rest
      · rw [creditRow, if_neg old, if_neg (not_not.mpr listed), if_neg full, if_neg old]
        obtain ⟨last, room⟩ : ∃ last, maxRelationsPerEntity -
            Counter.get s.frontierCounts entityId = last + 1 :=
          ⟨maxRelationsPerEntity - Counter.get s.frontierCounts entityId - 1, by omega⟩
        have rest := ih
          { seenRelationIds := r.graphRelationId :: s.seenRelationIds
            frontierCounts := Counter.add s.frontierCounts entityId
            relationRows := s.relationRows ++ [r] }
        have fewer : maxRelationsPerEntity -
            Counter.get (Counter.add s.frontierCounts entityId) entityId = last := by
          rw [Counter.get_add, if_pos rfl]
          omega
        simp only [fewer] at rest
        rw [room, List.take_succ_cons]
        obtain ⟨grown, seen, count, others⟩ := rest
        constructor
        · rw [grown, List.append_assoc, List.singleton_append]
        · intro id
          rw [seen, List.map_cons, List.mem_cons, List.mem_cons]
          tauto
        · rw [count, Counter.get_add, if_pos rfl, List.length_cons]
          omega
        · intro id apart
          rw [others id apart, Counter.get_add, if_neg apart.symm, Nat.add_zero]

end Credits

section Run
variable [GraphText] {db : GraphTables} {filters : Option RetrievalFilters} {excluded : List Nat}
variable {maxRelationsPerEntity rows : Nat} {safeIds : List Nat}

theorem keepFirst_congr {seen other : List Nat} (same : ∀ id, id ∈ seen ↔ id ∈ other)
    (list : List GraphRelation) : keepFirst (·.graphRelationId) seen list =
      keepFirst (·.graphRelationId) other list := by
  induction list generalizing seen other with
  | nil => rfl
  | cons r list ih =>
    unfold keepFirst
    have more : ∀ id, id ∈ r.graphRelationId :: seen ↔ id ∈ r.graphRelationId :: other := by
      intro id
      rw [List.mem_cons, List.mem_cons, same]
    rw [ih same, ih more]
    simp only [same]

variable (db filters excluded maxRelationsPerEntity rows safeIds) in
/-- The loop over the rows takes the shares of the cut partitions. -/
theorem credit_run (s : Crediting) {ids seen : List Nat}
    (memory : ∀ id, id ∈ s.seenRelationIds ↔ id ∈ seen) (distinct : ids.Nodup)
    (listed : ∀ id ∈ ids, id ∈ safeIds) (fresh : ∀ id ∈ ids, Counter.get s.frontierCounts id = 0) :
    let t := (ids.flatMap fun id => ((rankedRelations db filters excluded id).take rows).map
      (·, id)).foldl (creditRow maxRelationsPerEntity safeIds) s
    let shares := sharesOf (cutFresh db filters excluded maxRelationsPerEntity rows) seen ids
    t.relationRows = s.relationRows ++ shares.flatMap (·.2) ∧
      (∀ share ∈ shares, Counter.get t.frontierCounts share.1 = share.2.length) ∧
      ∀ id ∉ ids, Counter.get t.frontierCounts id = Counter.get s.frontierCounts id := by
  induction ids generalizing s seen with
  | nil => simp [sharesOf]
  | cons e ids ih =>
    obtain ⟨new, distinct⟩ := List.nodup_cons.mp distinct
    have turn := credit_rows maxRelationsPerEntity (listed e List.mem_cons_self)
      ((rankedRelations db filters excluded e).take rows) s
    rw [fresh e List.mem_cons_self, Nat.sub_zero, keepFirst_congr memory] at turn
    have known : ∀ id, id ∈ (((((rankedRelations db filters excluded e).take rows).map
        (·, e)).foldl (creditRow maxRelationsPerEntity safeIds) s).seenRelationIds) ↔
          id ∈ (cutFresh db filters excluded maxRelationsPerEntity rows seen e).map
            (·.graphRelationId) ++ seen := by
      intro id
      rw [turn.seen, List.mem_append, memory]
      rfl
    obtain ⟨taken, counts, others⟩ := ih _ known distinct
      (fun id member => listed id (List.mem_cons_of_mem _ member)) (by
        intro id member
        have apart : id ≠ e := fun same => new (same ▸ member)
        rw [turn.others id apart]
        exact fresh id (List.mem_cons_of_mem _ member))
    dsimp only
    rw [List.flatMap_cons, List.foldl_append, sharesOf, List.flatMap_cons]
    refine ⟨?_, ?_, ?_⟩
    · rw [taken, turn.rows, List.append_assoc]
      rfl
    · intro share member
      rcases List.mem_cons.mp member with rfl | later
      · rw [others e new, turn.count, fresh e List.mem_cons_self, Nat.zero_add]
        rfl
      · exact counts share later
    · intro id outside
      obtain ⟨apart, absent⟩ := not_or.mp (List.mem_cons.not.mp outside)
      rw [others id absent, turn.others id apart]

variable (maxRelationsPerEntity rows) in
/-- The first rows of a partition give an entity the same relations exactly when these all stand in
them. -/
theorem cut_iff (seen : List Nat) (entityId : Nat) :
    cutFresh db filters excluded maxRelationsPerEntity rows seen entityId =
        bestFresh db filters excluded maxRelationsPerEntity seen entityId ↔
      ∀ r ∈ bestFresh db filters excluded maxRelationsPerEntity seen entityId,
        r ∈ (rankedRelations db filters excluded entityId).take rows := by
  have front : keepFirst (·.graphRelationId) seen
      ((rankedRelations db filters excluded entityId).take rows) <+:
        (incidentRelations db filters excluded entityId).filter (·.graphRelationId ∉ seen) := by
    rw [← keepFirst_ranked]
    exact keepFirst_prefix (List.take_prefix _ _) seen
  constructor
  · intro same r member
    rw [← same] at member
    exact (keepFirst_sublist _ _).subset (List.mem_of_mem_take member)
  · intro within
    obtain ⟨rest, whole⟩ := front
    unfold cutFresh
    unfold bestFresh at within ⊢
    rw [← whole] at within ⊢
    rw [List.take_append] at within ⊢
    have distinct : ((incidentRelations db filters excluded entityId).filter
        (·.graphRelationId ∉ seen)).Nodup := (incident_nodup entityId).filter _
    rw [← whole, List.nodup_append] at distinct
    have none : rest.take (maxRelationsPerEntity - (keepFirst (·.graphRelationId) seen
        ((rankedRelations db filters excluded entityId).take rows)).length) = [] := by
      rw [List.eq_nil_iff_forall_not_mem]
      intro r late
      have early := within r (List.mem_append_right _ late)
      have unseen : r.graphRelationId ∉ seen := by
        have there : r ∈ (incidentRelations db filters excluded entityId).filter
            (·.graphRelationId ∉ seen) := by
          rw [← whole]
          exact List.mem_append_right _ (List.mem_of_mem_take late)
        simpa using (List.mem_filter.mp there).2
      obtain ⟨k, kept, same⟩ := key_kept early unseen
      have known : ∀ x ∈ (rankedRelations db filters excluded entityId).take rows,
          x ∈ db.relations :=
        fun x member => incident_mem (mem_ranked.mp (List.mem_of_mem_take member))
      have one := List.inj_on_of_nodup_map db.relationIds
        (known k ((keepFirst_sublist _ _).subset kept)) (known r early) same
      exact distinct.2.2 k kept r (List.mem_of_mem_take late) one
    rw [none, List.append_nil]

theorem shares_iff (seen ids : List Nat) :
    sharesOf (cutFresh db filters excluded maxRelationsPerEntity rows) seen ids =
        sharesOf (bestFresh db filters excluded maxRelationsPerEntity) seen ids ↔
      ∀ share ∈ sharesOf (bestFresh db filters excluded maxRelationsPerEntity) seen ids,
        ∀ r ∈ share.2, r ∈ (rankedRelations db filters excluded share.1).take rows := by
  induction ids generalizing seen with
  | nil => simp [sharesOf]
  | cons e ids ih =>
    have first : cutFresh db filters excluded maxRelationsPerEntity rows seen e =
        bestFresh db filters excluded maxRelationsPerEntity seen e ↔ _ :=
      cut_iff maxRelationsPerEntity rows seen e
    unfold sharesOf
    rw [List.forall_mem_cons, ← first, List.cons.injEq, Prod.mk.injEq]
    constructor
    · rintro ⟨⟨_, same⟩, rest⟩
      rw [same] at rest
      exact ⟨same, (ih _).mp rest⟩
    · rintro ⟨same, rest⟩
      refine ⟨⟨rfl, same⟩, ?_⟩
      rw [same]
      exact (ih _).mpr rest

theorem shares_keys (take : List Nat → Nat → List GraphRelation) (seen ids : List Nat) :
    (sharesOf take seen ids).map (·.1) = ids := by
  induction ids generalizing seen with
  | nil => rfl
  | cons e ids ih => rw [sharesOf, List.map_cons, ih]

/-- Where an entity takes all that is left for it, each of its relations is taken. -/
theorem share_fresh {seen ids : List Nat} {share : Nat × List GraphRelation}
    (member : share ∈ sharesOf (bestFresh db filters excluded maxRelationsPerEntity) seen ids)
    (whole : ∀ before, share.2 = bestFresh db filters excluded maxRelationsPerEntity before share.1 →
      share.2 = (incidentRelations db filters excluded share.1).filter
        (·.graphRelationId ∉ before))
    {r : GraphRelation} (incident : r ∈ incidentRelations db filters excluded share.1) :
    r.graphRelationId ∈ seen ∨
      ∃ other ∈ sharesOf (bestFresh db filters excluded maxRelationsPerEntity) seen ids,
        r.graphRelationId ∈ other.2.map (·.graphRelationId) := by
  induction ids generalizing seen with
  | nil => cases member
  | cons e ids ih =>
    rw [sharesOf] at member ⊢
    rcases List.mem_cons.mp member with rfl | later
    · by_cases old : r.graphRelationId ∈ seen
      · exact .inl old
      · refine .inr ⟨_, List.mem_cons_self, List.mem_map_of_mem ?_⟩
        rw [whole seen rfl]
        exact List.mem_filter.mpr ⟨incident, by simpa using old⟩
    · rcases ih later with before | ⟨other, there, taken⟩
      · rcases List.mem_append.mp before with mine | old
        · exact .inr ⟨_, List.mem_cons_self, mine⟩
        · exact .inl old
      · exact .inr ⟨other, List.mem_cons_of_mem _ there, taken⟩

/-- An entity that takes fewer than it may takes all that is left. -/
theorem share_short {share : Nat × List GraphRelation} {before : List Nat}
    (short : share.2.length < maxRelationsPerEntity)
    (taken : share.2 = bestFresh db filters excluded maxRelationsPerEntity before share.1) :
    share.2 = (incidentRelations db filters excluded share.1).filter
      (·.graphRelationId ∉ before) := by
  rw [taken] at short ⊢
  unfold bestFresh at short ⊢
  rw [List.length_take] at short
  rw [List.take_of_length_le (by omega)]

/-- So does an entity with few relations. -/
theorem share_few {share : Nat × List GraphRelation} {before : List Nat}
    (few : (incidentRelations db filters excluded share.1).length ≤ maxRelationsPerEntity)
    (taken : share.2 = bestFresh db filters excluded maxRelationsPerEntity before share.1) :
    share.2 = (incidentRelations db filters excluded share.1).filter
      (·.graphRelationId ∉ before) := by
  rw [taken]
  unfold bestFresh
  rw [List.take_of_length_le (Nat.le_trans (List.length_filter_le _ _) few)]

end Run

section Claim
variable [GraphText] (db : GraphTables) (filters : Option RetrievalFilters)
variable (maxRelationsPerEntity : Nat) (entityIds excludeRelationIds : List Nat)

/-- The credits of the query and the shares of the plain algorithm, over the ids they look at. -/
def creditsOf : Crediting :=
  credited db filters (excludeRelationIds.filter (0 < ·)) maxRelationsPerEntity
    (orderedPositiveIds entityIds)

def fairShares : List (Nat × List GraphRelation) :=
  plainShares db filters (excludeRelationIds.filter (0 < ·)) maxRelationsPerEntity
    (orderedPositiveIds entityIds)

/-- The query returns what the plain algorithm takes, and an entity with fewer relations than it
may have has no other one that is left. -/
structure Unstarved : Prop where
  rows : listRelationsForEntityIds db filters maxRelationsPerEntity entityIds excludeRelationIds =
    ((fairShares db filters maxRelationsPerEntity entityIds excludeRelationIds).flatMap
      (·.2)).filterMap (withEntities db)
  credits : ∀ share ∈ fairShares db filters maxRelationsPerEntity entityIds excludeRelationIds,
    Counter.get (creditsOf db filters maxRelationsPerEntity entityIds
      excludeRelationIds).frontierCounts share.1 = share.2.length
  fair : ∀ share ∈ fairShares db filters maxRelationsPerEntity entityIds excludeRelationIds,
    Counter.get (creditsOf db filters maxRelationsPerEntity entityIds
      excludeRelationIds).frontierCounts share.1 < maxRelationsPerEntity →
    ∀ r ∈ incidentRelations db filters (excludeRelationIds.filter (0 < ·)) share.1,
      ∃ other ∈ fairShares db filters maxRelationsPerEntity entityIds excludeRelationIds,
        r.graphRelationId ∈ other.2.map (·.graphRelationId)

/-- Each relation that falls to an entity stands in the first rows of its partition, as many as it
may have and one more for each entity of the frontier. -/
def WithinCut : Prop :=
  ∀ share ∈ fairShares db filters maxRelationsPerEntity entityIds excludeRelationIds,
    ∀ r ∈ share.2, r ∈ (rankedRelations db filters (excludeRelationIds.filter (0 < ·))
      share.1).take (maxRelationsPerEntity + (orderedPositiveIds entityIds).length)

variable {db filters maxRelationsPerEntity entityIds excludeRelationIds}

theorem share_taken {take : List Nat → Nat → List GraphRelation} {seen ids : List Nat}
    {share : Nat × List GraphRelation} (member : share ∈ sharesOf take seen ids) :
    ∃ before, share.2 = take before share.1 := by
  induction ids generalizing seen with
  | nil => cases member
  | cons e ids ih =>
    rcases List.mem_cons.mp member with rfl | later
    · exact ⟨seen, rfl⟩
    · exact ih later

variable (db filters maxRelationsPerEntity entityIds excludeRelationIds) in
theorem fair_keys :
    (fairShares db filters maxRelationsPerEntity entityIds excludeRelationIds).map (·.1) =
      (orderedPositiveIds entityIds).insertionSort (· ≤ ·) :=
  shares_keys _ _ _

theorem mem_safeIds {entityId : Nat} :
    entityId ∈ (orderedPositiveIds entityIds).insertionSort (· ≤ ·) ↔
      entityId ∈ entityIds ∧ 0 < entityId := by
  rw [(List.perm_insertionSort _ _).mem_iff]
  unfold orderedPositiveIds
  constructor
  · intro member
    have first : (keepFirst id [] (entityIds.filter (0 < ·))).Sublist _ := keepFirst_sublist _ _
    have there := first.subset member
    exact ⟨(List.mem_filter.mp there).1, by simpa using (List.mem_filter.mp there).2⟩
  · rintro ⟨listed, positive⟩
    have inside : entityId ∈ entityIds.filter (0 < ·) :=
      List.mem_filter.mpr ⟨listed, by simpa using positive⟩
    obtain ⟨kept, there, one⟩ : ∃ kept ∈ keepFirst id [] (entityIds.filter (0 < ·)),
        kept = entityId := key_kept inside List.not_mem_nil
    exact one ▸ there

/-- The rows keep their relations, whose entities exist. -/
theorem rows_relations {rows : List GraphRelation} (known : ∀ r ∈ rows, r ∈ db.relations) :
    (rows.filterMap (withEntities db)).map (·.relation) = rows := by
  induction rows with
  | nil => rfl
  | cons r rows ih =>
    have there := known r List.mem_cons_self
    obtain ⟨source, from_, sourceId⟩ := db.sources r there
    obtain ⟨target, to_, targetId⟩ := db.targets r there
    have first : (db.entities.find? (·.graphEntityId == r.sourceEntityId)).isSome :=
      List.find?_isSome.mpr ⟨source, from_, by simpa using sourceId⟩
    have second : (db.entities.find? (·.graphEntityId == r.targetEntityId)).isSome :=
      List.find?_isSome.mpr ⟨target, to_, by simpa using targetId⟩
    obtain ⟨a, foundSource⟩ := Option.isSome_iff_exists.mp first
    obtain ⟨b, foundTarget⟩ := Option.isSome_iff_exists.mp second
    have row : withEntities db r = some ⟨r, a, b⟩ := by
      unfold withEntities
      rw [foundSource, foundTarget]
      rfl
    rw [List.filterMap_cons, row, List.map_cons,
      ih fun r member => known r (List.mem_cons_of_mem _ member)]

variable (db filters maxRelationsPerEntity entityIds excludeRelationIds) in
theorem credits_shares :
    let cut := sharesOf (cutFresh db filters (excludeRelationIds.filter (0 < ·))
      maxRelationsPerEntity (maxRelationsPerEntity + (orderedPositiveIds entityIds).length)) []
        ((orderedPositiveIds entityIds).insertionSort (· ≤ ·))
    let credits := creditsOf db filters maxRelationsPerEntity entityIds excludeRelationIds
    credits.relationRows = cut.flatMap (·.2) ∧
      ∀ share ∈ cut, Counter.get credits.frontierCounts share.1 = share.2.length := by
  have order := List.perm_insertionSort (· ≤ ·) (orderedPositiveIds entityIds)
  have distinct : (orderedPositiveIds entityIds).Nodup := by
    have keys : ((orderedPositiveIds entityIds).map id).Nodup := keepFirst_distinct _ _
    rwa [List.map_id] at keys
  have zero (ids : List Nat) (id : Nat) : Counter.get (ids.map (·, 0)) id = 0 := by
    induction ids with
    | nil => rfl
    | cons e ids ih =>
      rw [List.map_cons, Counter.get_cons, ih]
      split <;> rfl
  obtain ⟨rows, counts, _⟩ := credit_run db filters (excludeRelationIds.filter (0 < ·))
    maxRelationsPerEntity (maxRelationsPerEntity + (orderedPositiveIds entityIds).length)
    (orderedPositiveIds entityIds) ⟨[], (orderedPositiveIds entityIds).map (·, 0), []⟩
    (fun _ => Iff.rfl) (order.nodup_iff.mpr distinct) (fun id => order.mem_iff.mp)
    (fun id _ => zero _ id)
  exact ⟨rows, counts⟩

theorem list_eq : listRelationsForEntityIds db filters maxRelationsPerEntity entityIds
    excludeRelationIds = (creditsOf db filters maxRelationsPerEntity entityIds
      excludeRelationIds).relationRows.filterMap (withEntities db) := by
  unfold listRelationsForEntityIds
  dsimp only
  split
  · next nothing =>
    obtain ⟨rows, _⟩ := credits_shares db filters maxRelationsPerEntity entityIds excludeRelationIds
    have none : (creditsOf db filters maxRelationsPerEntity entityIds
        excludeRelationIds).relationRows = [] := by
      rw [rows, List.flatMap_eq_nil_iff]
      intro share member
      obtain ⟨before, same⟩ := share_taken member
      rw [Bool.or_eq_true, List.isEmpty_iff, decide_eq_true_eq] at nothing
      rcases nothing with empty | zero
      · rw [empty] at member
        cases member
      · rw [same, cutFresh, Nat.lt_one_iff.mp zero, List.take_zero]
    rw [none]
    rfl
  · rfl

/-- Shares within the cut-off are the shares of the loop. -/
theorem unstarved_of_within
    (within : WithinCut db filters maxRelationsPerEntity entityIds excludeRelationIds) :
    Unstarved db filters maxRelationsPerEntity entityIds excludeRelationIds := by
  obtain ⟨rows, counts⟩ :=
    credits_shares db filters maxRelationsPerEntity entityIds excludeRelationIds
  have equal := (shares_iff [] ((orderedPositiveIds entityIds).insertionSort (· ≤ ·))).mpr within
  rw [equal] at rows counts
  constructor
  · rw [list_eq, rows]
    rfl
  · exact counts
  · intro share member short r incident
    rw [counts share member] at short
    exact (share_fresh member (fun _ => share_short short) incident).resolve_left List.not_mem_nil

/-- The ranked query starves no entity of the frontier if and only if each share lies within the
cut-off of its partition. -/
theorem unstarved_iff :
    Unstarved db filters maxRelationsPerEntity entityIds excludeRelationIds ↔
      WithinCut db filters maxRelationsPerEntity entityIds excludeRelationIds := by
  obtain ⟨rows, counts⟩ :=
    credits_shares db filters maxRelationsPerEntity entityIds excludeRelationIds
  have same : _ ↔ WithinCut db filters maxRelationsPerEntity entityIds excludeRelationIds :=
    shares_iff [] ((orderedPositiveIds entityIds).insertionSort (· ≤ ·))
  rw [← same]
  constructor
  · intro fair
    have known (take : List Nat → Nat → List GraphRelation)
        (there : ∀ seen e, ∀ r ∈ take seen e, r ∈ db.relations) {ids : List Nat} :
        ∀ r ∈ (sharesOf take [] ids).flatMap (·.2), r ∈ db.relations := by
      intro r member
      obtain ⟨share, inside, mine⟩ := List.mem_flatMap.mp member
      obtain ⟨before, taken⟩ := share_taken inside
      rw [taken] at mine
      exact there _ _ r mine
    have lists := fair.rows
    rw [list_eq, rows] at lists
    have flat := congrArg (List.map (·.relation)) lists
    rw [rows_relations, rows_relations] at flat
    · have lengths (shares : List (Nat × List GraphRelation)) (count : Nat → Nat)
          (each : ∀ share ∈ shares, count share.1 = share.2.length) :
          (shares.map (·.2)).map List.length = (shares.map (·.1)).map count := by
        rw [List.map_map, List.map_map]
        exact List.map_congr_left fun share member => (each share member).symm
      have values := List.eq_iff_flatten_eq.mpr ⟨by simpa only [List.flatMap_def] using flat, by
        rw [lengths _ _ counts, lengths _ _ fair.credits, shares_keys, fairShares, plainShares,
          shares_keys]⟩
      have keys := (shares_keys (cutFresh db filters (excludeRelationIds.filter (0 < ·))
        maxRelationsPerEntity (maxRelationsPerEntity + (orderedPositiveIds entityIds).length)) []
          ((orderedPositiveIds entityIds).insertionSort (· ≤ ·))).trans
            (shares_keys (bestFresh db filters (excludeRelationIds.filter (0 < ·))
              maxRelationsPerEntity) [] _).symm
      rw [← List.zip_unzip (sharesOf (cutFresh _ _ _ _ _) _ _), List.unzip_fst, List.unzip_snd,
        keys, values, ← List.unzip_fst, fairShares, plainShares, ← List.unzip_snd, List.zip_unzip]
    · exact known _ fun seen e r member =>
        incident_mem (List.mem_filter.mp (List.mem_of_mem_take member)).1
    · exact known _ fun seen e r member => incident_mem (mem_ranked.mp (List.mem_of_mem_take
        ((keepFirst_sublist _ _).subset (List.mem_of_mem_take member))))
  · exact fun equal => unstarved_of_within (same.mp equal)

end Claim

section Hub

/-- Two entities, each joined to a third one by two relations, and two relations of the third. -/
def hub : @GraphTables asciiGraphText :=
  let _ : GraphText := asciiGraphText
  let entity (graphEntityId : Nat) : GraphEntity := ⟨graphEntityId, ⟨"entity", rfl⟩, none⟩
  let relation (graphRelationId source target : Nat) : GraphRelation :=
    ⟨graphRelationId, source, target, ⟨"uses", rfl⟩, some (1 / 2), none, none⟩
  { documents := ⟨[], [], [], [], 1, none, none, none⟩
    entities := [entity 1, entity 2, entity 3, entity 4]
    relations := [relation 1 1 3, relation 2 1 3, relation 3 2 3, relation 4 2 3, relation 5 3 4,
      relation 6 3 4]
    entityIds := by decide
    relationIds := by decide
    entitiesPositive := by decide
    relationsPositive := by decide
    confidences := by decide +kernel
    sources := by decide
    targets := by decide }

/-- The query gives the third entity one relation, the plain algorithm two. -/
theorem hub_starved : let _ : GraphText := asciiGraphText
    ¬Unstarved hub (some ⟨[], "text"⟩) 2 [1, 2, 3] [] := by
  intro _ fair
  have rows := congrArg (List.map (·.relation.graphRelationId)) fair.rows
  have query : (listRelationsForEntityIds hub (some ⟨[], "text"⟩) 2 [1, 2, 3] []).map
      (·.relation.graphRelationId) = [1, 2, 3, 4, 5] := by decide +kernel
  have plain : (((fairShares hub (some ⟨[], "text"⟩) 2 [1, 2, 3] []).flatMap (·.2)).filterMap
      (withEntities hub)).map (·.relation.graphRelationId) = [1, 2, 3, 4, 5, 6] := by
    decide +kernel
  rw [query, plain] at rows
  cases rows

end Hub

end RagProject.GraphSearch
