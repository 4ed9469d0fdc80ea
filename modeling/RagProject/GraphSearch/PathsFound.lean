import RagProject.GraphSearch.Loading

/-! What a path search returns: simple paths over visible relations, and all of them where no limit
is hit. -/
namespace RagProject.GraphSearch
open Python Documents Graph Retrieval KeepFirst Trails

section Starts
variable [GraphText]

def startIds (lookups : List GraphEntityLookupResult) : List Nat :=
  lookups.map (·.entity.graphEntityId)

theorem setLookup_ids (lookups : List GraphEntityLookupResult) (item : GraphEntityLookupResult) :
    startIds (setLookup lookups item) =
      if item.entity.graphEntityId ∈ startIds lookups then startIds lookups
      else startIds lookups ++ [item.entity.graphEntityId] := by
  unfold setLookup
  have listed : lookups.any (·.entity.graphEntityId == item.entity.graphEntityId) = true ↔
      item.entity.graphEntityId ∈ startIds lookups := by
    unfold startIds
    simp
  by_cases known : item.entity.graphEntityId ∈ startIds lookups
  · rw [if_pos (listed.mpr known), if_pos known]
    unfold startIds
    rw [List.map_map]
    apply List.map_congr_left
    intro old _
    simp only [Function.comp]
    split
    · next same => exact (beq_iff_eq.mp same).symm
    · rfl
  · rw [if_neg (mt listed.mp known), if_neg known]
    unfold startIds
    rw [List.map_append]
    rfl

/-- The starts are the given entities, each of them once. -/
theorem lookupById_ids (startEntities : List GraphEntityLookupResult) :
    (startIds (lookupById startEntities)).Nodup ∧
      ∀ id, id ∈ startIds (lookupById startEntities) ↔ id ∈ startIds startEntities := by
  induction startEntities using List.reverseRecOn with
  | nil => exact ⟨.nil, fun _ => Iff.rfl⟩
  | append_singleton items item ih =>
    have turn : lookupById (items ++ [item]) = setLookup (lookupById items) item := by
      unfold lookupById
      rw [List.foldl_append]
      rfl
    have grown : startIds (items ++ [item]) = startIds items ++ [item.entity.graphEntityId] := by
      unfold startIds
      rw [List.map_append]
      rfl
    rw [turn, setLookup_ids, grown]
    by_cases known : item.entity.graphEntityId ∈ startIds (lookupById items)
    · rw [if_pos known]
      refine ⟨ih.1, fun id => ?_⟩
      rw [ih.2, List.mem_append, List.mem_singleton]
      refine ⟨.inl, ?_⟩
      rintro (before | rfl)
      · exact before
      · exact (ih.2 _).mp known
    · rw [if_neg known]
      refine ⟨?_, fun id => by rw [List.mem_append, List.mem_append, ih.2]⟩
      rw [List.nodup_append]
      refine ⟨ih.1, List.nodup_singleton _, ?_⟩
      rintro id before _ last rfl
      exact known (List.mem_singleton.mp last ▸ before)

abbrev GraphTrail := Trail Nat GraphRelationRow

/-- The match score of the start of a trail. -/
def scoreOf (lookups : List GraphEntityLookupResult) (t : GraphTrail) : Rat :=
  ((lookups.find? (·.entity.graphEntityId == t.start)).map (·.matchScore)).getD 0

/-- A trail as an entry of the frontier. -/
def entryOf (lookups : List GraphEntityLookupResult) (t : GraphTrail) : FrontierEntry :=
  ⟨t.last, t.vertices, t.edges, scoreOf lookups t⟩

theorem start_entries {lookups : List GraphEntityLookupResult}
    (distinct : (startIds lookups).Nodup) :
    lookups.map startEntry = ((startIds lookups).map (⟨·, []⟩)).map (entryOf lookups) := by
  unfold startIds
  rw [List.map_map, List.map_map]
  apply List.map_congr_left
  intro lookup member
  have first : lookups.find? (·.entity.graphEntityId == lookup.entity.graphEntityId) =
      some lookup := by
    obtain ⟨found, there⟩ := Option.isSome_iff_exists.mp
      (List.find?_isSome (p := (·.entity.graphEntityId == lookup.entity.graphEntityId)) |>.mpr
        ⟨lookup, member, beq_self_eq_true _⟩)
    have same := List.find?_some there
    rw [there, List.inj_on_of_nodup_map distinct (List.mem_of_find?_eq_some there) member
      (beq_iff_eq.mp same)]
  simp only [Function.comp, startEntry, entryOf, scoreOf, first, Trail.last, Trail.vertices,
    Trail.edges, List.map_nil, List.getLast?_nil, Option.map_none, Option.getD_none,
    Option.map_some, Option.getD_some]

end Starts

section Moves
variable [GraphText] [Rounding] (lookups : List GraphEntityLookupResult)
variable (settings : BoundedSettings)

/-- The candidate for a trail. -/
def candidateOf (pathId : String) (t : GraphTrail) : GraphPathCandidate :=
  pathCandidate lookups settings pathId t.vertices t.edges (scoreOf lookups t)

/-- The relations by which an entry is extended. -/
def movesOf (s : PathSearch) (entry : FrontierEntry) : List GraphRelationRow :=
  ((s.adjacent entry.currentId).filter
    (otherEnd ·.relation entry.currentId ∉ entry.entityPath)).take settings.maxRelationsPerEntity

theorem expandEntry_eq (entry : FrontierEntry) (rows : List GraphRelationRow) (expanded : Nat)
    (state : PathSearch × List FrontierEntry) :
    expandEntry lookups settings entry rows expanded state =
      ((rows.filter (otherEnd ·.relation entry.currentId ∉ entry.entityPath)).take
        (settings.maxRelationsPerEntity - expanded)).foldl
          (fun state row => addPath lookups settings entry row state) state := by
  induction rows generalizing expanded state with
  | nil => simp [expandEntry]
  | cons row rows ih =>
    unfold expandEntry
    by_cases old : otherEnd row.relation entry.currentId ∈ entry.entityPath
    · rw [if_pos old, ih, List.filter_cons_of_neg (by simpa using old)]
    · rw [if_neg old, List.filter_cons_of_pos (by simpa using old)]
      by_cases full : settings.maxRelationsPerEntity ≤ expanded
      · rw [if_pos full, Nat.sub_eq_zero_of_le full]
        rfl
      · obtain ⟨room, more⟩ : ∃ room, settings.maxRelationsPerEntity - expanded = room + 1 :=
          ⟨settings.maxRelationsPerEntity - expanded - 1, by omega⟩
        have fewer : settings.maxRelationsPerEntity - (expanded + 1) = room := by omega
        rw [if_neg full, ih, more, fewer, List.take_succ_cons, List.foldl_cons]

theorem expandFrontier_eq (frontier : List FrontierEntry) (s : PathSearch) :
    expandFrontier lookups settings frontier s =
      (frontier.flatMap fun entry => (movesOf settings s entry).map (entry, ·)).foldl
        (fun state move => addPath lookups settings move.1 move.2 state) (s, []) := by
  unfold expandFrontier movesOf
  rw [List.foldl_flatMap]
  congr 1
  funext state entry
  rw [expandEntry_eq, Nat.sub_zero, List.foldl_map]

/-- What collecting paths leaves as it is. -/
structure SameGraph (s t : PathSearch) : Prop where
  adjacency : t.adjacency = s.adjacency
  loadedEntityIds : t.loadedEntityIds = s.loadedEntityIds
  seenRelationIds : t.seenRelationIds = s.seenRelationIds

theorem addPath_graph (entry : FrontierEntry) (row : GraphRelationRow)
    (state : PathSearch × List FrontierEntry) :
    SameGraph state.1 (addPath lookups settings entry row state).1 := by
  unfold addPath
  dsimp only
  split_ifs <;> exact ⟨rfl, rfl, rfl⟩

theorem moves_graph (moves : List (FrontierEntry × GraphRelationRow))
    (state : PathSearch × List FrontierEntry) :
    SameGraph state.1 (moves.foldl
      (fun state move => addPath lookups settings move.1 move.2 state) state).1 := by
  induction moves generalizing state with
  | nil => exact ⟨rfl, rfl, rfl⟩
  | cons move moves ih =>
    obtain ⟨adjacency, loaded, seen⟩ := addPath_graph lookups settings move.1 move.2 state
    have rest := ih (addPath lookups settings move.1 move.2 state)
    exact ⟨rest.adjacency.trans adjacency, rest.loadedEntityIds.trans loaded,
      rest.seenRelationIds.trans seen⟩

/-- A trail, longer by a relation. -/
def grow (t : GraphTrail) (row : GraphRelationRow) : GraphTrail :=
  t.snoc (row, otherEnd row.relation t.last)

theorem addPath_entry (t : GraphTrail) (row : GraphRelationRow)
    (state : PathSearch × List FrontierEntry) :
    addPath lookups settings (entryOf lookups t) row state =
      (if state.1.paths.length < pathCollectionLimit settings then
        { state.1 with paths := state.1.paths ++ [candidateOf lookups settings
            ("gp_" ++ toString (state.1.paths.length + 1)) (grow t row)] }
      else if "max_paths_reached" ∈ state.1.reasonCodes then state.1
      else { state.1 with reasonCodes := state.1.reasonCodes ++ ["max_paths_reached"] },
      if t.steps.length + 1 < settings.maxDepth ∧ state.2.length < frontierLimit settings then
        state.2 ++ [entryOf lookups (grow t row)]
      else state.2) := by
  have length : (t.edges ++ [row]).length = t.steps.length + 1 := by
    rw [List.length_append, List.length_singleton, Trail.edges, List.length_map]
  unfold addPath entryOf candidateOf grow
  dsimp only
  rw [length, Trail.snoc_vertices, Trail.snoc_edges, Trail.snoc_last]
  rfl

end Moves

section Adjacent
variable [GraphText] {db : GraphTables} {filters : RetrievalFilters} {s : PathSearch}
variable {rows : List GraphRelationRow}

theorem otherEnd_loop {r : GraphRelation} {entityId : Nat} (source : r.sourceEntityId = entityId)
    (target : r.targetEntityId = entityId) : otherEnd r entityId = entityId := by
  unfold otherEnd
  rw [if_pos source, target]

/-- The adjacent relations that lead away are the loaded ones at the entity, each of them once. -/
theorem adjacent_fresh (loaded : Loaded db filters s rows) {entityId : Nat} {path : List Nat}
    (inside : entityId ∈ path) :
    (s.adjacent entityId).filter (otherEnd ·.relation entityId ∉ path) =
      rows.filter fun row => touches row.relation entityId ∧ otherEnd row.relation entityId ∉ path := by
  unfold PathSearch.adjacent
  rw [loaded.adjacency]
  clear loaded
  induction rows with
  | nil => rfl
  | cons row rows ih =>
    rw [List.flatMap_cons, List.filter_append, List.map_append, List.filter_append, ih]
    by_cases old : otherEnd row.relation entityId ∈ path
    · have none : ((([(row.relation.sourceEntityId, row), (row.relation.targetEntityId, row)].filter
          (·.1 == entityId)).map (·.2)).filter (otherEnd ·.relation entityId ∉ path)) = [] := by
        rw [List.filter_eq_nil_iff]
        intro other member
        obtain ⟨pair, there, rfl⟩ := List.mem_map.mp member
        have same : pair.2 = row := by
          rcases List.mem_cons.mp (List.mem_filter.mp there).1 with rfl | last
          · rfl
          · rw [List.mem_singleton.mp last]
        simpa [same] using old
      rw [none, List.nil_append, List.filter_cons_of_neg (by simp [old])]
    · by_cases source : row.relation.sourceEntityId = entityId
      · by_cases target : row.relation.targetEntityId = entityId
        · rw [otherEnd_loop source target] at old
          exact absurd inside old
        · simp [touches, source, target, old]
      · by_cases target : row.relation.targetEntityId = entityId
        · simp [touches, source, target, old]
        · simp [touches, source, target]

theorem adjacent_neighbour (loaded : Loaded db filters s rows) {entityId : Nat}
    {row : GraphRelationRow} (member : row ∈ s.adjacent entityId) :
    (row, otherEnd row.relation entityId) ∈ neighbours db filters entityId := by
  unfold PathSearch.adjacent at member
  rw [loaded.adjacency] at member
  obtain ⟨pair, there, rfl⟩ := List.mem_map.mp member
  obtain ⟨inside, here⟩ := List.mem_filter.mp there
  obtain ⟨row, known, ends⟩ := List.mem_flatMap.mp inside
  rw [beq_iff_eq] at here
  refine mem_neighbours.mpr ?_
  rcases List.mem_cons.mp ends with rfl | last
  · exact ⟨loaded.visible row known, .inl here, rfl⟩
  · rw [List.mem_singleton.mp last] at here ⊢
    exact ⟨loaded.visible row known, .inr here, rfl⟩

variable {lookups : List GraphEntityLookupResult} {settings : BoundedSettings}

/-- The trails that the moves of an entry lead to are the extensions of its trail, where its entity
is loaded and has few relations. -/
theorem moves_extensions (loaded : Loaded db filters s rows) (complete : Complete db filters s rows)
    {t : GraphTrail} (known : t.last ∈ s.loadedEntityIds)
    (few : FewRows db filters settings.maxRelationsPerEntity t.last) :
    ((movesOf settings s (entryOf lookups t)).map (grow t)).Perm
      (extensions (neighbours db filters) t) := by
  have fresh := adjacent_fresh loaded t.last_mem
  have distinct : rows.Nodup := loaded.distinct.of_map
  have steps : ((rows.filter fun row => touches row.relation t.last ∧
      otherEnd row.relation t.last ∉ t.vertices).map fun row =>
        (row, otherEnd row.relation t.last)).Perm
          ((neighbours db filters t.last).filter (·.2 ∉ t.vertices)) := by
    rw [List.perm_ext_iff_of_nodup ((distinct.filter _).map fun a b same => (Prod.mk.inj same).1)
      ((neighbours_nodup _).filter _)]
    rintro ⟨row, next⟩
    rw [List.mem_filter, mem_neighbours, List.mem_map]
    constructor
    · rintro ⟨other, member, same⟩
      obtain ⟨rfl, rfl⟩ := Prod.mk.inj same
      obtain ⟨there, away⟩ := List.mem_filter.mp member
      rw [decide_eq_true_eq] at away
      exact ⟨⟨loaded.visible _ there, away.1, rfl⟩, by simpa using away.2⟩
    · rintro ⟨⟨visible, touching, rfl⟩, away⟩
      have there := complete t.last known row visible touching
      exact ⟨row, List.mem_filter.mpr ⟨there, by simpa using ⟨touching, by simpa using away⟩⟩, rfl⟩
  have bound : (rows.filter fun row => touches row.relation t.last ∧
      otherEnd row.relation t.last ∉ t.vertices).length ≤ settings.maxRelationsPerEntity := by
    have length := steps.length_eq
    rw [List.length_map] at length
    rw [length]
    apply Nat.le_trans (List.length_filter_le _ _)
    unfold neighbours
    rw [List.length_map]
    exact Nat.le_trans (List.length_filterMap_le _ _) (few.incident [])
  have whole : movesOf settings s (entryOf lookups t) = rows.filter fun row =>
      touches row.relation t.last ∧ otherEnd row.relation t.last ∉ t.vertices := by
    rw [← List.take_of_length_le bound, ← fresh]
    rfl
  have shape : (rows.filter fun row => touches row.relation t.last ∧
      otherEnd row.relation t.last ∉ t.vertices).map (grow t) =
        ((rows.filter fun row => touches row.relation t.last ∧
          otherEnd row.relation t.last ∉ t.vertices).map fun row =>
            (row, otherEnd row.relation t.last)).map t.snoc := by
    rw [List.map_map]
    rfl
  rw [whole, shape]
  exact steps.map t.snoc

end Adjacent

section Sound
variable [GraphText] [Rounding] (db : GraphTables) (filters : RetrievalFilters)
variable (lookups : List GraphEntityLookupResult) (settings : BoundedSettings)

/-- The paths and the frontier of a search are trails of the graph. -/
structure SoundState (k : Nat) (state : PathSearch × List FrontierEntry) : Prop where
  paths : ∀ c ∈ state.1.paths, ∃ t ∈ upTo (neighbours db filters) (startIds lookups)
    settings.maxDepth, c = candidateOf lookups settings c.pathId t
  next : ∀ entry ∈ state.2, ∃ t ∈ level (neighbours db filters) (startIds lookups) k,
    entry = entryOf lookups t

variable {db filters lookups settings}

omit [Rounding] in
theorem level_upTo {k : Nat} {t : GraphTrail} (below : k < settings.maxDepth)
    (member : t ∈ level (neighbours db filters) (startIds lookups) (k + 1)) :
    t ∈ upTo (neighbours db filters) (startIds lookups) settings.maxDepth := by
  obtain ⟨start, simple, length⟩ := mem_level.mp member
  exact mem_upTo.mpr ⟨start, simple, by omega, by omega⟩

theorem addPath_sound {k : Nat} (below : k < settings.maxDepth) {t : GraphTrail}
    {row : GraphRelationRow}
    (grown : grow t row ∈ level (neighbours db filters) (startIds lookups) (k + 1))
    {state : PathSearch × List FrontierEntry}
    (sound : SoundState db filters lookups settings (k + 1) state) :
    SoundState db filters lookups settings (k + 1)
      (addPath lookups settings (entryOf lookups t) row state) := by
  rw [addPath_entry]
  constructor
  · intro c member
    dsimp only at member
    split_ifs at member with room told
    · rcases List.mem_append.mp member with before | last
      · exact sound.paths c before
      · rw [List.mem_singleton.mp last]
        exact ⟨grow t row, level_upTo below grown, rfl⟩
    · exact sound.paths c member
    · exact sound.paths c member
  · intro entry member
    dsimp only at member
    split_ifs at member
    · rcases List.mem_append.mp member with before | last
      · exact sound.next entry before
      · rw [List.mem_singleton.mp last]
        exact ⟨grow t row, grown, rfl⟩
    · exact sound.next entry member

theorem expand_sound {k : Nat} (below : k < settings.maxDepth) {s : PathSearch}
    {frontier : List FrontierEntry} {rows : List GraphRelationRow}
    (loaded : Loaded db filters s rows)
    (sound : SoundState db filters lookups settings k (s, frontier)) :
    SoundState db filters lookups settings (k + 1) (expandFrontier lookups settings frontier s) := by
  rw [expandFrontier_eq]
  have start : SoundState db filters lookups settings (k + 1) (s, []) :=
    ⟨sound.paths, fun _ member => nomatch member⟩
  have good : ∀ move ∈ frontier.flatMap fun entry => (movesOf settings s entry).map (entry, ·),
      ∃ t, move.1 = entryOf lookups t ∧
        grow t move.2 ∈ level (neighbours db filters) (startIds lookups) (k + 1) := by
    intro move member
    obtain ⟨entry, there, inside⟩ := List.mem_flatMap.mp member
    obtain ⟨row, fresh, rfl⟩ := List.mem_map.mp inside
    obtain ⟨t, here, rfl⟩ := sound.next entry there
    obtain ⟨adjacent, away⟩ := List.mem_filter.mp (List.mem_of_mem_take fresh)
    rw [decide_eq_true_eq] at away
    refine ⟨t, rfl, ?_⟩
    rw [level, List.mem_flatMap]
    exact ⟨t, here, mem_extensions.mpr ⟨_, adjacent_neighbour loaded adjacent, away, rfl⟩⟩
  generalize frontier.flatMap (fun entry => (movesOf settings s entry).map (entry, ·)) = moves
    at good
  generalize (s, ([] : List FrontierEntry)) = state at start
  induction moves generalizing state with
  | nil => exact start
  | cons move moves ih =>
    obtain ⟨t, entry, grown⟩ := good move List.mem_cons_self
    rw [List.foldl_cons]
    apply ih fun move member => good move (List.mem_cons_of_mem _ member)
    rw [entry]
    exact addPath_sound below grown start

omit [Rounding] in
variable (settings) in
theorem loadFrontier_loaded {s : PathSearch} {rows : List GraphRelationRow}
    (loaded : Loaded db filters s rows) (frontier : List FrontierEntry) :
    (loadFrontier settings db filters frontier s).paths = s.paths ∧
      ∃ more, Loaded db filters (loadFrontier settings db filters frontier s) more := by
  unfold loadFrontier
  dsimp only
  split
  · exact ⟨rfl, rows, loaded⟩
  · have first : Loaded db filters { s with loadedEntityIds := s.loadedEntityIds ++
        ((frontier.map (·.currentId)).filter (· ∉ s.loadedEntityIds)).dedup } rows :=
      ⟨loaded.adjacency, loaded.seen, loaded.distinct, loaded.visible⟩
    obtain ⟨same, more, last, _⟩ := loadRows_loaded first fun row member => listed_visible member
    exact ⟨same.paths, more, last⟩

omit [Rounding] in
theorem Loaded.of_same {s t : PathSearch} {rows : List GraphRelationRow}
    (loaded : Loaded db filters s rows) (same : SameGraph s t) : Loaded db filters t rows :=
  ⟨same.adjacency.trans loaded.adjacency, fun id => by rw [same.seenRelationIds, loaded.seen],
    loaded.distinct, loaded.visible⟩

theorem searchLevels_sound {k : Nat} {elapsed : List Nat}
    (depth : k + elapsed.length = settings.maxDepth) {s : PathSearch}
    {frontier : List FrontierEntry} {rows : List GraphRelationRow}
    (loaded : Loaded db filters s rows)
    (sound : SoundState db filters lookups settings k (s, frontier)) :
    ∀ c ∈ (searchLevels lookups settings db filters elapsed (s, frontier)).paths,
      ∃ t ∈ upTo (neighbours db filters) (startIds lookups) settings.maxDepth,
        c = candidateOf lookups settings c.pathId t := by
  induction elapsed generalizing k s frontier rows with
  | nil => exact sound.paths
  | cons elapsedMs later ih =>
    rw [List.length_cons] at depth
    unfold searchLevels
    split
    · exact sound.paths
    · split
      · exact sound.paths
      · obtain ⟨paths, more, ready⟩ := loadFrontier_loaded settings loaded frontier
        have turn : SoundState db filters lookups settings k
            (loadFrontier settings db filters frontier s, frontier) :=
          ⟨fun c member => sound.paths c (paths ▸ member), sound.next⟩
        have next := expand_sound (by omega) ready turn
        have graph := moves_graph lookups settings (frontier.flatMap fun entry =>
          (movesOf settings (loadFrontier settings db filters frontier s) entry).map (entry, ·))
            (loadFrontier settings db filters frontier s, [])
        rw [← expandFrontier_eq] at graph
        exact ih (by omega) (ready.of_same graph) next

end Sound

section Found
variable [GraphText] [Rounding] {db : GraphTables} {filters : RetrievalFilters}
variable {lookups : List GraphEntityLookupResult} {settings : BoundedSettings}

/-- A candidate without its path id. -/
def bare (c : GraphPathCandidate) : GraphPathCandidate := { c with pathId := "" }

theorem bare_candidate (pathId : String) (t : GraphTrail) :
    bare (candidateOf lookups settings pathId t) = candidateOf lookups settings "" t := rfl

omit [GraphText] [Rounding] in
theorem limits (settings : BoundedSettings) :
    settings.maxPaths ≤ pathCollectionLimit settings ∧ settings.maxPaths ≤ frontierLimit settings := by
  have paths := settings.paths.2
  unfold pathCollectionLimit frontierLimit
  omega

/-- Moves within the limits collect all their paths. -/
theorem moves_collect (lookups : List GraphEntityLookupResult) (settings : BoundedSettings)
    {k : Nat} (moves : List (GraphTrail × GraphRelationRow))
    (depth : ∀ move ∈ moves, move.1.steps.length = k) (s : PathSearch) (ahead : List FrontierEntry)
    (paths : s.paths.length + moves.length ≤ settings.maxPaths)
    (next : ahead.length + moves.length ≤ settings.maxPaths) :
    let grown := moves.map fun move => grow move.1 move.2
    let state := (moves.map fun move => (entryOf lookups move.1, move.2)).foldl
      (fun state move => addPath lookups settings move.1 move.2 state) (s, ahead)
    state.1.paths.map bare = s.paths.map bare ++ grown.map (candidateOf lookups settings "") ∧
      state.2 = if k + 1 < settings.maxDepth then ahead ++ grown.map (entryOf lookups)
        else ahead := by
  induction moves generalizing s ahead with
  | nil => simp
  | cons move moves ih =>
    rw [List.length_cons] at paths next
    obtain ⟨collection, frontier⟩ := limits settings
    dsimp only
    rw [List.map_cons, List.map_cons, List.foldl_cons, addPath_entry,
      if_pos (show s.paths.length < pathCollectionLimit settings by omega),
      depth move List.mem_cons_self]
    have later : ∀ other ∈ moves, other.1.steps.length = k := fun other member =>
      depth other (List.mem_cons_of_mem _ member)
    by_cases more : k + 1 < settings.maxDepth
    · rw [if_pos ⟨more, show ahead.length < frontierLimit settings by omega⟩, if_pos more]
      obtain ⟨rest, last⟩ := ih later { s with paths := s.paths ++ [candidateOf lookups settings
          ("gp_" ++ toString (s.paths.length + 1)) (grow move.1 move.2)] }
        (ahead ++ [entryOf lookups (grow move.1 move.2)])
        (by rw [List.length_append, List.length_singleton]; omega)
        (by rw [List.length_append, List.length_singleton]; omega)
      rw [if_pos more] at last
      refine ⟨rest.trans ?_, last.trans ?_⟩
      · rw [List.map_append, List.map_singleton, bare_candidate, List.append_assoc, List.map_cons]
        rfl
      · rw [List.append_assoc, List.map_cons]
        rfl
    · rw [if_neg (fun both => more both.1), if_neg more]
      obtain ⟨rest, last⟩ := ih later { s with paths := s.paths ++ [candidateOf lookups settings
          ("gp_" ++ toString (s.paths.length + 1)) (grow move.1 move.2)] } ahead
        (by rw [List.length_append, List.length_singleton]; omega) (by omega)
      rw [if_neg more] at last
      refine ⟨rest.trans ?_, last⟩
      rw [List.map_append, List.map_singleton, bare_candidate, List.append_assoc, List.map_cons]
      rfl

/-- An entity that a search looks at: the end of a trail that may grow. -/
def Reached (db : GraphTables) (filters : RetrievalFilters)
    (lookups : List GraphEntityLookupResult) (maxDepth entityId : Nat) : Prop :=
  ∃ k < maxDepth, ∃ t ∈ level (neighbours db filters) (startIds lookups) k, t.last = entityId

omit [Rounding] in
theorem loadFrontier_complete {s : PathSearch} {rows : List GraphRelationRow}
    (loaded : Loaded db filters s rows) (complete : Complete db filters s rows)
    {frontier : List FrontierEntry}
    (few : ∀ entry ∈ frontier, FewRows db filters settings.maxRelationsPerEntity entry.currentId) :
    ∃ more, Loaded db filters (loadFrontier settings db filters frontier s) more ∧
      Complete db filters (loadFrontier settings db filters frontier s) more ∧
      ∀ entry ∈ frontier,
        entry.currentId ∈ (loadFrontier settings db filters frontier s).loadedEntityIds := by
  have known : ∀ entry ∈ frontier, entry.currentId ∈ s.loadedEntityIds ∨ entry.currentId ∈
      ((frontier.map (·.currentId)).filter (· ∉ s.loadedEntityIds)).dedup := by
    intro entry member
    by_cases old : entry.currentId ∈ s.loadedEntityIds
    · exact .inl old
    · refine .inr (List.mem_dedup.mpr (List.mem_filter.mpr ⟨List.mem_map_of_mem member, ?_⟩))
      simpa using old
  have pending : ∀ id ∈ ((frontier.map (·.currentId)).filter (· ∉ s.loadedEntityIds)).dedup,
      FewRows db filters settings.maxRelationsPerEntity id := by
    intro id member
    obtain ⟨inside, _⟩ := List.mem_filter.mp (List.mem_dedup.mp member)
    obtain ⟨entry, there, rfl⟩ := List.mem_map.mp inside
    exact few entry there
  unfold loadFrontier
  dsimp only
  generalize ((frontier.map (·.currentId)).filter (· ∉ s.loadedEntityIds)).dedup = ids
    at known pending
  split
  · next none =>
    rw [List.isEmpty_iff.mp none] at known
    exact ⟨rows, loaded, complete, fun entry member =>
      (known entry member).resolve_right List.not_mem_nil⟩
  · have first : Loaded db filters { s with loadedEntityIds := s.loadedEntityIds ++ ids } rows :=
      ⟨loaded.adjacency, loaded.seen, loaded.distinct, loaded.visible⟩
    obtain ⟨same, more, last, members⟩ :=
      loadRows_loaded first fun row member => listed_visible member
    refine ⟨more, last, ?_, ?_⟩
    · intro id there row visible touching
      rw [same.loadedEntityIds, List.mem_append] at there
      rw [members]
      rcases there with old | new
      · exact .inl (complete id old row visible touching)
      · by_cases seen : row.relation.graphRelationId ∈ s.seenRelationIds
        · exact .inl (loaded.mem_of_id visible seen)
        · exact .inr (all_listed pending new visible touching seen)
    · intro entry member
      rw [same.loadedEntityIds, List.mem_append]
      exact known entry member

/-- The paths up to a length are collected, and the frontier holds those of that length. -/
structure FoundState (db : GraphTables) (filters : RetrievalFilters)
    (lookups : List GraphEntityLookupResult) (settings : BoundedSettings) (k : Nat)
    (state : PathSearch × List FrontierEntry) : Prop where
  paths : (state.1.paths.map bare).Perm
    ((upTo (neighbours db filters) (startIds lookups) k).map (candidateOf lookups settings ""))
  next : k < settings.maxDepth → ∃ ts : List GraphTrail, ts.Perm (level (neighbours db filters) (startIds lookups) k) ∧
    state.2 = ts.map (entryOf lookups)

theorem expand_found {k : Nat} (below : k < settings.maxDepth)
    (total : (upTo (neighbours db filters) (startIds lookups) settings.maxDepth).length ≤
      settings.maxPaths)
    (few : ∀ id, Reached db filters lookups settings.maxDepth id →
      FewRows db filters settings.maxRelationsPerEntity id)
    {s : PathSearch} {rows : List GraphRelationRow} (loaded : Loaded db filters s rows)
    (complete : Complete db filters s rows) {frontier : List FrontierEntry}
    (ready : ∀ entry ∈ frontier, entry.currentId ∈ s.loadedEntityIds)
    (found : FoundState db filters lookups settings k (s, frontier)) :
    FoundState db filters lookups settings (k + 1) (expandFrontier lookups settings frontier s) := by
  obtain ⟨ts, level_, shape⟩ := found.next below
  dsimp only at shape
  have member : ∀ t ∈ ts, t ∈ level (neighbours db filters) (startIds lookups) k :=
    fun t inside => level_.mem_iff.mp inside
  have moves : frontier.flatMap (fun entry => (movesOf settings s entry).map (entry, ·)) =
      (ts.flatMap fun t => (movesOf settings s (entryOf lookups t)).map (t, ·)).map
        fun move => (entryOf lookups move.1, move.2) := by
    rw [shape, List.flatMap_map, List.map_flatMap]
    simp only [List.map_map, Function.comp_def]
  have grown : ((ts.flatMap fun t => (movesOf settings s (entryOf lookups t)).map (t, ·)).map
      fun move => grow move.1 move.2).Perm
        (level (neighbours db filters) (startIds lookups) (k + 1)) := by
    rw [List.map_flatMap]
    simp only [List.map_map, Function.comp_def]
    refine (List.Perm.flatMap_left ts ?_).trans (level_.flatMap_right _)
    intro t inside
    apply moves_extensions loaded complete
    · apply ready (entryOf lookups t)
      rw [shape]
      exact List.mem_map_of_mem inside
    · exact few _ ⟨k, below, t, member t inside, rfl⟩
  have depth : ∀ move ∈ ts.flatMap fun t => (movesOf settings s (entryOf lookups t)).map (t, ·),
      move.1.steps.length = k := by
    intro move inside
    obtain ⟨t, there, from_⟩ := List.mem_flatMap.mp inside
    obtain ⟨_, _, rfl⟩ := List.mem_map.mp from_
    exact (mem_level.mp (member t there)).2.2
  have collected := found.paths.length_eq
  rw [List.length_map, List.length_map] at collected
  have added := grown.length_eq
  rw [List.length_map] at added
  have bound : (upTo (neighbours db filters) (startIds lookups) (k + 1)).length ≤
      (upTo (neighbours db filters) (startIds lookups) settings.maxDepth).length :=
    (upTo_initial below).length_le
  rw [upTo_succ, List.length_append] at bound
  obtain ⟨paths, ahead⟩ := moves_collect lookups settings _ depth s []
    (by rw [added]; dsimp only at collected; omega) (by rw [added, List.length_nil]; omega)
  rw [expandFrontier_eq, moves]
  constructor
  · rw [paths, upTo_succ, List.map_append]
    exact found.paths.append (grown.map _)
  · intro more
    rw [if_pos more, List.nil_append] at ahead
    exact ⟨_, grown, ahead⟩

theorem searchLevels_found {k : Nat} {elapsed : List Nat}
    (depth : k + elapsed.length = settings.maxDepth)
    (timely : ∀ elapsedMs ∈ elapsed, elapsedMs ≤ settings.timeoutMs)
    (total : (upTo (neighbours db filters) (startIds lookups) settings.maxDepth).length ≤
      settings.maxPaths)
    (few : ∀ id, Reached db filters lookups settings.maxDepth id →
      FewRows db filters settings.maxRelationsPerEntity id)
    {s : PathSearch} {rows : List GraphRelationRow} (loaded : Loaded db filters s rows)
    (complete : Complete db filters s rows) {frontier : List FrontierEntry}
    (found : FoundState db filters lookups settings k (s, frontier)) :
    ((searchLevels lookups settings db filters elapsed (s, frontier)).paths.map bare).Perm
      ((upTo (neighbours db filters) (startIds lookups) settings.maxDepth).map
        (candidateOf lookups settings "")) := by
  induction elapsed generalizing k s frontier rows with
  | nil =>
    rw [List.length_nil, Nat.add_zero] at depth
    rw [← depth]
    exact found.paths
  | cons elapsedMs later ih =>
    rw [List.length_cons] at depth
    have below : k < settings.maxDepth := by omega
    obtain ⟨ts, level_, shape⟩ := found.next below
    dsimp only at shape
    unfold searchLevels
    split
    · next none =>
      rw [List.isEmpty_iff, shape, List.map_eq_nil_iff] at none
      rw [none] at level_
      rw [upTo_stop level_.nil_eq.symm (Nat.le_of_lt below)]
      exact found.paths
    · rw [if_neg (by have := timely elapsedMs List.mem_cons_self; omega)]
      have fewRows : ∀ entry ∈ frontier,
          FewRows db filters settings.maxRelationsPerEntity entry.currentId := by
        intro entry member
        rw [shape] at member
        obtain ⟨t, inside, rfl⟩ := List.mem_map.mp member
        exact few _ ⟨k, below, t, level_.mem_iff.mp inside, rfl⟩
      obtain ⟨more, ready, whole, known⟩ := loadFrontier_complete loaded complete fewRows
      obtain ⟨paths, _⟩ := loadFrontier_loaded settings loaded frontier
      have turn : FoundState db filters lookups settings k
          (loadFrontier settings db filters frontier s, frontier) :=
        ⟨by rw [paths]; exact found.paths, found.next⟩
      have next := expand_found below total few ready whole known turn
      have graph := moves_graph lookups settings (frontier.flatMap fun entry =>
        (movesOf settings (loadFrontier settings db filters frontier s) entry).map (entry, ·))
          (loadFrontier settings db filters frontier s, [])
      rw [← expandFrontier_eq] at graph
      have still : Complete db filters (expandFrontier lookups settings frontier
          (loadFrontier settings db filters frontier s)).1 more := by
        unfold Complete
        rw [graph.loadedEntityIds]
        exact whole
      exact ih (by omega) (fun ms member => timely ms (List.mem_cons_of_mem _ member))
        (ready.of_same graph) still next

end Found

section Claim
variable [GraphText] [Rounding] (db : GraphTables) (filters : RetrievalFilters)
variable (startEntities : List GraphEntityLookupResult) (settings : BoundedSettings)

/-- A candidate for a simple path over visible relations from a start entity. -/
def SoundPath (c : GraphPathCandidate) : Prop :=
  ∃ t : GraphTrail, t.start ∈ startIds startEntities ∧ Simple (neighbours db filters) t ∧
    1 ≤ t.steps.length ∧ t.steps.length ≤ settings.maxDepth ∧
      c = candidateOf (lookupById startEntities) settings c.pathId t

/-- The candidate shows the entities and the relations of the trail. -/
def shows (c : GraphPathCandidate) (t : GraphTrail) : Bool :=
  c.entityIds = t.vertices ∧ c.relationIds = t.edges.map (·.relation.graphRelationId)

variable {db filters startEntities settings}

omit [Rounding] in
theorem simple_rows {t : GraphTrail} (simple : Simple (neighbours db filters) t) :
    ∀ row ∈ t.edges, VisibleRow db filters row := by
  intro row member
  obtain ⟨step, there, rfl⟩ := List.mem_map.mp member
  obtain ⟨_, edge⟩ := simple.follows.edge step there
  exact (mem_neighbours.mp edge).1

omit [Rounding] in
theorem rows_same {rows other : List GraphRelationRow}
    (left : ∀ row ∈ rows, VisibleRow db filters row)
    (right : ∀ row ∈ other, VisibleRow db filters row)
    (ids : rows.map (·.relation.graphRelationId) = other.map (·.relation.graphRelationId)) :
    rows = other := by
  induction rows generalizing other with
  | nil => exact (List.map_eq_nil_iff.mp ids.symm).symm
  | cons row rows ih =>
    cases other with
    | nil => cases ids
    | cons second other =>
      obtain ⟨first, rest⟩ := List.cons.inj ids
      rw [(left row List.mem_cons_self).same (right second List.mem_cons_self) first,
        ih (fun r member => left r (List.mem_cons_of_mem _ member))
          (fun r member => right r (List.mem_cons_of_mem _ member)) rest]

/-- A candidate shows one trail only. -/
theorem shows_iff {lookups : List GraphEntityLookupResult} {pathId : String} {s t : GraphTrail}
    (left : Simple (neighbours db filters) s) (right : Simple (neighbours db filters) t) :
    shows (candidateOf lookups settings pathId s) t = true ↔ s = t := by
  unfold shows candidateOf pathCandidate
  rw [decide_eq_true_eq]
  constructor
  · rintro ⟨vertices, ids⟩
    obtain ⟨start, ends⟩ := List.cons.inj vertices
    have edges := rows_same (simple_rows left) (simple_rows right) ids
    apply Trail.ext start
    rw [← List.zip_unzip s.steps, ← List.zip_unzip t.steps, List.unzip_fst, List.unzip_snd,
      List.unzip_fst, List.unzip_snd, ends]
    exact congrArg (List.zip · _) edges
  · rintro rfl
    exact ⟨rfl, rfl⟩

omit [Rounding] in
variable (db filters) in
theorem start_state : Loaded db filters ⟨[], [], 0, [], [], []⟩ [] ∧
    Complete db filters ⟨[], [], 0, [], [], []⟩ [] := by
  refine ⟨⟨rfl, fun _ => Iff.rfl, .nil, fun _ none => nomatch none⟩, ?_⟩
  exact fun _ none => nomatch none

/-- Collected paths that are the trails up to a length show each of them once. -/
theorem shown_once {lookups : List GraphEntityLookupResult} {depth : Nat}
    (distinct : (startIds lookups).Nodup) {paths : List GraphPathCandidate}
    (found : (paths.map bare).Perm ((upTo (neighbours db filters) (startIds lookups) depth).map
      (candidateOf lookups settings ""))) {t : GraphTrail}
    (member : t ∈ upTo (neighbours db filters) (startIds lookups) depth) :
    (paths.filter (shows · t)).length = 1 := by
  have simple := (mem_upTo.mp member).2.1
  have barely : (paths.filter (shows · t)).length = ((paths.map bare).filter (shows · t)).length := by
    rw [List.filter_map, List.length_map]
    rfl
  have equal : (upTo (neighbours db filters) (startIds lookups) depth).countP
      (fun s => shows (candidateOf lookups settings "" s) t) =
        (upTo (neighbours db filters) (startIds lookups) depth).count t := by
    apply List.countP_congr
    intro s inside
    rw [shows_iff (mem_upTo.mp inside).2.1 simple, beq_iff_eq]
  rw [barely, (found.filter _).length_eq, List.filter_map, List.length_map,
    ← List.countP_eq_length_filter]
  exact equal.trans (List.count_eq_one_of_mem (upTo_nodup distinct neighbours_nodup depth) member)

end Claim

section Loops

theorem entity_safe : @validateSafeGraphLabel asciiGraphText 255 "entity" = .ok "entity" := rfl

theorem uses_safe : @validateSafeGraphLabel asciiGraphText 120 "uses" = .ok "uses" := rfl

/-- Two relations from an entity to itself, and one to another entity. -/
def loops : @GraphTables asciiGraphText :=
  let _ : GraphText := asciiGraphText
  let entity (graphEntityId : Nat) : GraphEntity := ⟨graphEntityId, ⟨"entity", entity_safe⟩, none⟩
  let relation (graphRelationId source target : Nat) : GraphRelation :=
    ⟨graphRelationId, source, target, ⟨"uses", uses_safe⟩, some (1 / 2), none, none⟩
  { documents := ⟨[], [], [], [], 1, none, none, none⟩
    entities := [entity 1, entity 2]
    relations := [relation 1 1 1, relation 2 1 1, relation 3 1 2]
    entityIds := by decide
    relationIds := by decide
    entitiesPositive := by decide
    relationsPositive := by decide
    confidences := by decide +kernel
    sources := by decide
    targets := by decide }

end Loops

end RagProject.GraphSearch
