import RagProject.Qdrant.Sweep

/-! The sweep over a collection that nobody else changes: what its pages leave behind, and that
the loop ends. -/
namespace RagProject.Qdrant
open Python Documents Jobs Program

theorem PointId.ofJson_json (id : PointId) : PointId.ofJson id.json = some id := by
  cases id <;> rfl

theorem PointId.before_irrefl (id : PointId) : id.before id = false := by
  cases id <;> simp [PointId.before]

theorem PointId.num_of_before {id : PointId} {n : Nat} (earlier : id.before (.num n) = true) :
    ∃ m, id = .num m := by
  cases id with
  | num m => exact ⟨m, rfl⟩
  | uuid text => simp [PointId.before] at earlier

/-- What the client sees of a point. -/
def Point.scanned (p : Point) : Option ScrolledPoint :=
  match p.pointId with
  | .num n => some ⟨n, p.payload⟩
  | .uuid _ => none

theorem scrolledPoint_json (p : Point) : scrolledPoint p.json = p.scanned := by
  obtain ⟨id, payload⟩ := p
  cases id <;> simp [scrolledPoint, Point.json, Point.scanned, PointId.json, get_cons]

theorem extract_response (limit : Nat) (offset : Option PointId) (points : Collection) :
    extractScrollResult (scrollResponse limit (offset.map PointId.json) points) =
      .ok ⟨((Table.ahead Point.pointId PointId.before offset points).take limit).filterMap
          Point.scanned,
        (Table.nextKey Point.pointId limit
          (Table.ahead Point.pointId PointId.before offset points)).map PointId.json⟩ := by
  have sent : (offset.map PointId.json).bind PointId.ofJson = offset := by
    cases offset with
    | none => rfl
    | some id => exact PointId.ofJson_json id
  rw [scrollResponse, sent]
  generalize Table.ahead Point.pointId PointId.before offset points = rest
  have entries : ((rest.take limit).map Point.json).filterMap scrolledPoint =
      (rest.take limit).filterMap Point.scanned := by
    rw [List.filterMap_map]
    exact List.filterMap_congr fun p _ => scrolledPoint_json p
  have offset (next : Option PointId) (points : Value) :
      nextOffset [("points", points), ("next_page_offset", (next.map PointId.json).getD .none)] =
        next.map PointId.json := by
    cases next with
    | none => simp [nextOffset, get_cons]
    | some id => cases id <;> simp [nextOffset, get_cons, PointId.json]
  simp only [extractScrollResult, get_cons, if_true, offset, entries]

theorem payloadPositiveInt_some {payload : Dict} {key : String} {n : Nat} :
    payloadPositiveInt payload key = some n ↔ Dict.get payload key = some (.int n) ∧ 0 < n := by
  constructor
  · intro h
    obtain ⟨value, found, positive⟩ := Option.bind_eq_some_iff.mp h
    cases value <;> simp only [Value.positiveInt, reduceCtorEq] at positive
    rename_i z
    split at positive
    · rename_i atLeast
      have same : z.toNat = n := Option.some.inj positive
      have cast : z = n := by omega
      have : 0 < n := by omega
      exact ⟨cast ▸ found, this⟩
    · cases positive
  · rintro ⟨found, positive⟩
    rw [payloadPositiveInt, found, Option.bind_some, positiveInt_cast positive]

section Verdicts

/-- The row of the chunk n, and a version and a document of it that are in use. -/
def Backed (db : Db) (n : Nat) (payload : Dict) : Prop :=
  ∃ c ∈ db.chunks, ∃ v ∈ db.versions, ∃ d ∈ db.documents,
    c.documentChunkId = n ∧ v.documentVersionId = c.documentVersionId ∧
    d.logicalDocumentId = v.logicalDocumentId ∧
    Dict.get payload "document_version_id" = some (.int c.documentVersionId) ∧
    Dict.get payload "logical_document_id" = some (.int v.logicalDocumentId) ∧
    Dict.get payload "modality" = some (.str c.modality) ∧
    v.isActive = true ∧ v.status ≠ .archived ∧ d.status ≠ .archived

/-- The payload names the chunk of the point. -/
def Identified (n : Nat) (payload : Dict) : Prop :=
  Dict.get payload "document_chunk_id" = some (.int n)

/-- The keys of the schema. -/
structure Keys (db : Db) : Prop where
  ok : db.Ok
  chunkIds : (db.chunks.map (·.documentChunkId)).Nodup
  chunkPositive : ∀ c ∈ db.chunks, 0 < c.documentChunkId

variable {db : Db} {points : List ScrolledPoint} {p : ScrolledPoint}

theorem repair_not_keep : repairOrCountInactiveStale p ≠ .keep := by
  unfold repairOrCountInactiveStale
  split <;> simp

theorem malformed_not_keep (chunkRefs : List (Nat × ChunkIndexPayloadRef)) :
    handleMalformedPoint chunkRefs p ≠ .keep := by
  unfold handleMalformedPoint
  split
  · simp
  · split
    · simp
    · exact repair_not_keep

/-- A point that is kept although it is active is backed. -/
theorem backed_of_keep (keys : Keys db) (kept : judge db points p = .keep)
    (active : pointIsActive p.payload = true) :
    Backed db p.pointId p.payload ∧ Identified p.pointId p.payload := by
  unfold judge verdict at kept
  split at kept
  · rename_i chunkId versionId hasChunk hasVersion
    split at kept
    · cases kept
    · rename_i same
      have same : p.pointId = chunkId := by simpa [pointIdForChunkId] using same
      split at kept
      · cases kept
      · rename_i chunkRef found
        split at kept
        · exact absurd kept repair_not_keep
        · rename_i agrees
          split at kept
          · cases kept
          · rename_i state foundState
            obtain ⟨_, c, hc, v, hv, id, rfl⟩ := (Table.lookup_join keys.chunkIds).mp found
            obtain ⟨_, w, hw, d, rowOfDocument, sameVersion, rfl⟩ :=
              (Table.lookup_join keys.ok.versionIds).mp foundState
            obtain ⟨hv, versionId⟩ := Table.mem_of_row hv
            obtain ⟨hd, documentId⟩ := Table.mem_of_row rowOfDocument
            cases Table.unique keys.ok.versionIds hw hv (sameVersion.trans versionId.symm)
            simp only [payloadDisagreesWithChunkRef, Bool.or_eq_true, bne_iff_ne, ne_eq, not_or,
              not_not] at agrees
            obtain ⟨⟨sameId, logical⟩, modality⟩ := agrees
            simp only [active, Bool.and_true, ite_eq_right_iff, reduceCtorEq, imp_false,
              Bool.or_eq_true, beq_iff_eq, not_or, Bool.not_eq_true', Bool.not_eq_false] at kept
            obtain ⟨⟨inUse, notArchived⟩, isActive⟩ := kept
            obtain ⟨version, _⟩ := payloadPositiveInt_some.mp hasVersion
            obtain ⟨document, _⟩ := payloadPositiveInt_some.mp logical
            obtain ⟨chunk, _⟩ := payloadPositiveInt_some.mp hasChunk
            rw [sameId] at version
            rw [← same] at chunk
            exact ⟨⟨c, hc, v, hw, d, hd, id.trans same.symm, versionId, documentId, version,
              document, modality, isActive, notArchived, inUse⟩, chunk⟩
  · exact absurd kept (malformed_not_keep _)

/-- A point that is backed and names its chunk is kept. -/
theorem keep_of_backed (keys : Keys db) (member : p ∈ points)
    (backed : Backed db p.pointId p.payload) (identified : Identified p.pointId p.payload) :
    judge db points p = .keep := by
  obtain ⟨c, hc, v, hv, d, hd, id, versionId, documentId, version, document, modality, active,
    notArchived, inUse⟩ := backed
  have positive : 0 < p.pointId := id ▸ keys.chunkPositive c hc
  have hasChunk : payloadPositiveInt p.payload "document_chunk_id" = some p.pointId :=
    payloadPositiveInt_some.mpr ⟨identified, positive⟩
  have hasVersion : payloadPositiveInt p.payload "document_version_id" =
      some c.documentVersionId :=
    payloadPositiveInt_some.mpr ⟨version, versionId ▸ keys.ok.positive v hv⟩
  have hasDocument : payloadPositiveInt p.payload "logical_document_id" =
      some v.logicalDocumentId :=
    payloadPositiveInt_some.mpr ⟨document, documentId ▸ keys.ok.documentPositive d hd⟩
  have wanted : p.pointId ∈ points.filterMap effectiveChunkId := by
    rw [List.mem_filterMap]
    exact ⟨p, member, by simp [effectiveChunkId, hasChunk]⟩
  have rowOfVersion : db.getVersionById c.documentVersionId = some v := by
    rw [← versionId]
    exact Table.row_of_mem keys.ok.versionIds hv
  have rowOfDocument : db.getDocument v.logicalDocumentId = some d := by
    rw [← documentId]
    exact Table.row_of_mem keys.ok.documentIds hd
  have ref : (readState db points).1.lookup p.pointId =
      some ⟨c.documentVersionId, v.logicalDocumentId, c.modality⟩ :=
    (Table.lookup_join keys.chunkIds).mpr ⟨wanted, c, hc, v, rowOfVersion, id, rfl⟩
  have state : (readState db points).2.lookup c.documentVersionId =
      some ⟨v.status, v.isActive, d.status⟩ := by
    refine (Table.lookup_join keys.ok.versionIds).mpr ⟨?_, v, hv, d, rowOfDocument, versionId, rfl⟩
    rw [List.mem_append]
    refine .inl (List.mem_filterMap.mpr ⟨p, member, hasVersion⟩)
  simp [judge, verdict, hasChunk, hasVersion, pointIdForChunkId, ref,
    payloadDisagreesWithChunkRef, hasDocument, modality, state, active, notArchived, inUse]

end Verdicts

section Batch

/-- What a batch does to the collection. -/
def batchEffect (db : Db) (points : List ScrolledPoint) (collection : Collection) : Collection :=
  setPayloadByPointIds (withVerdict (judge db points) .repair points) [("is_active", .bool false)]
    (deletePoints (withVerdict (judge db points) .delete points) collection)

/-- The rows of a collection after the sweep has been over them. -/
structure Swept (db : Db) (rest rest' : Collection) : Prop where
  ids : (rest'.map Point.pointId).Sublist (rest.map Point.pointId)
  backed : ∀ p ∈ rest', ∀ n, p.pointId = .num n →
    Dict.get p.payload "is_active" = some (.bool true) →
    Backed db n p.payload ∧ Identified n p.payload
  kept : ∀ p ∈ rest, ∀ n, p.pointId = .num n → Backed db n p.payload →
    Identified n p.payload → p ∈ rest'

variable {db : Db}

theorem Swept.append {front back front' back' : Collection} (first : Swept db front front')
    (second : Swept db back back') : Swept db (front ++ back) (front' ++ back') := by
  refine ⟨?_, ?_, ?_⟩
  · rw [List.map_append, List.map_append]
    exact first.ids.append second.ids
  · intro p member
    rcases List.mem_append.mp member with h | h
    · exact first.backed p h
    · exact second.backed p h
  · intro p member n id backed identified
    rcases List.mem_append.mp member with h | h
    · exact List.mem_append_left _ (first.kept p h n id backed identified)
    · exact List.mem_append_right _ (second.kept p h n id backed identified)

/-- Points that no client sees are left alone. -/
theorem Swept.refl {rest : Collection} (unseen : rest.filterMap Point.scanned = []) :
    Swept db rest rest := by
  refine ⟨List.Sublist.refl _, ?_, fun p member _ _ _ _ => member⟩
  intro p member n id
  have hidden : p.scanned = none := List.filterMap_eq_nil_iff.mp unseen p member
  simp [Point.scanned, id] at hidden

theorem mem_withVerdict {points : List ScrolledPoint} {judged : ScrolledPoint → Verdict}
    {wanted : Verdict} {n : Nat} :
    n ∈ withVerdict judged wanted points ↔ ∃ p ∈ points, judged p = wanted ∧ p.pointId = n := by
  simp [withVerdict, and_assoc]

theorem batchEffect_append (points : List ScrolledPoint) (front back : Collection) :
    batchEffect db points (front ++ back) =
      batchEffect db points front ++ batchEffect db points back := by
  simp [batchEffect, setPayloadByPointIds, setPayloadWhere, deletePoints]

theorem scanned_some {p : Point} {s : ScrolledPoint} :
    p.scanned = some s ↔ p.pointId = .num s.pointId ∧ p.payload = s.payload := by
  obtain ⟨id, payload⟩ := p
  obtain ⟨n, seen⟩ := s
  cases id <;> simp [Point.scanned]

/-- A batch leaves the points of other pages as they are. -/
theorem batchEffect_other {page others : Collection}
    (apart : ∀ p ∈ page, ∀ q ∈ others, p.pointId ≠ q.pointId) :
    batchEffect db (page.filterMap Point.scanned) others = others := by
  have untouched (wanted : Verdict) : ∀ q ∈ others, (withVerdict
      (judge db (page.filterMap Point.scanned)) wanted (page.filterMap Point.scanned)).any
        (q.pointId == .num ·) = false := by
    intro q hq
    rw [List.any_eq_false]
    intro n wantedId same
    obtain ⟨s, seen, _, rfl⟩ := mem_withVerdict.mp wantedId
    obtain ⟨p, hp, scanned⟩ := List.mem_filterMap.mp seen
    have id := (scanned_some.mp scanned).1
    exact apart p hp q hq (id.trans (beq_iff_eq.mp same).symm)
  have kept : deletePoints (withVerdict (judge db (page.filterMap Point.scanned)) .delete
      (page.filterMap Point.scanned)) others = others := by
    rw [deletePoints, List.filter_eq_self]
    intro q hq
    rw [untouched .delete q hq]
    rfl
  rw [batchEffect, kept, setPayloadByPointIds, setPayloadWhere]
  conv_rhs => rw [← List.map_id others]
  refine List.map_congr_left fun q hq => ?_
  rw [untouched .repair q hq]
  rfl

/-- On its own page a batch hits the points by their verdict. -/
theorem any_verdict {page : Collection} (distinct : (page.map Point.pointId).Nodup) {p : Point}
    (hp : p ∈ page) {s : ScrolledPoint} (scanned : p.scanned = some s)
    (judged : ScrolledPoint → Verdict) (wanted : Verdict) :
    (withVerdict judged wanted (page.filterMap Point.scanned)).any (p.pointId == .num ·) =
      (judged s == wanted) := by
  obtain ⟨id, payload⟩ := scanned_some.mp scanned
  rw [Bool.eq_iff_iff, List.any_eq_true, beq_iff_eq]
  constructor
  · rintro ⟨n, wantedId, same⟩
    obtain ⟨t, seen, verdict, rfl⟩ := mem_withVerdict.mp wantedId
    obtain ⟨q, hq, scannedAs⟩ := List.mem_filterMap.mp seen
    have sameId : p.pointId = q.pointId :=
      (beq_iff_eq.mp same).trans (scanned_some.mp scannedAs).1.symm
    cases Table.unique distinct hp hq sameId
    rw [scanned] at scannedAs
    cases scannedAs
    exact verdict
  · intro verdict
    refine ⟨s.pointId, mem_withVerdict.mpr ⟨s, ?_, verdict, rfl⟩, by simp [id]⟩
    exact List.mem_filterMap.mpr ⟨p, hp, scanned⟩

/-- An active point is kept, deleted or repaired. -/
theorem verdict_of_active {points : List ScrolledPoint} {p : ScrolledPoint}
    (active : pointIsActive p.payload = true) (notDeleted : judge db points p ≠ .delete)
    (notRepaired : judge db points p ≠ .repair) : judge db points p = .keep := by
  have notStale : judge db points p ≠ .inactiveStale := by
    unfold judge verdict handleMalformedPoint repairOrCountInactiveStale
    simp only [active, if_true]
    repeat' split
    all_goals simp
  cases h : judge db points p with
  | keep => rfl
  | delete => exact absurd h notDeleted
  | repair => exact absurd h notRepaired
  | inactiveStale => exact absurd h notStale

/-- A batch sweeps its page. -/
theorem swept_page (keys : Keys db) {page : Collection}
    (distinct : (page.map Point.pointId).Nodup) :
    Swept db page (batchEffect db (page.filterMap Point.scanned) page) := by
  have asScanned {p : Point} {n : Nat} (id : p.pointId = .num n) :
      p.scanned = some ⟨n, p.payload⟩ := scanned_some.mpr ⟨id, rfl⟩
  refine ⟨?_, ?_, ?_⟩
  · have sameIds : ∀ (ids : List Nat) (fields : Dict) (points : Collection),
        (setPayloadByPointIds ids fields points).map Point.pointId = points.map Point.pointId := by
      intro ids fields points
      refine Table.map_keys fun p _ => ?_
      split <;> rfl
    rw [batchEffect, sameIds]
    exact (List.filter_sublist (l := page)).map Point.pointId
  · intro p' member n id active
    obtain ⟨p, present, same⟩ := List.mem_map.mp member
    obtain ⟨hp, notDeleted⟩ := List.mem_filter.mp present
    have id' : p.pointId = .num n := by
      rw [← id, ← same]
      split <;> rfl
    simp only [any_verdict distinct hp (asScanned id')] at notDeleted same
    split at same
    · -- A repaired point is not active.
      have inactive : Dict.get (update p.payload [("is_active", .bool false)]) "is_active" =
          some (.bool false) :=
        get_update (by simp) p.payload ("is_active", .bool false) List.mem_cons_self
      rw [← same] at active
      cases inactive.symm.trans active
    · rename_i notRepaired
      subst same
      have truthy : pointIsActive p.payload = true := by simp [pointIsActive, active, Value.truthy]
      have kept : judge db (page.filterMap Point.scanned) ⟨n, p.payload⟩ = .keep :=
        verdict_of_active truthy (by simpa using notDeleted) (by simpa using notRepaired)
      exact backed_of_keep keys kept truthy
  · intro p hp n id backed identified
    have seen : ⟨n, p.payload⟩ ∈ page.filterMap Point.scanned :=
      List.mem_filterMap.mpr ⟨p, hp, asScanned id⟩
    have kept := keep_of_backed keys seen backed identified
    have present : p ∈ deletePoints (withVerdict (judge db (page.filterMap Point.scanned)) .delete
        (page.filterMap Point.scanned)) page := by
      refine List.mem_filter.mpr ⟨hp, ?_⟩
      rw [any_verdict distinct hp (asScanned id), kept]
      rfl
    refine List.mem_map.mpr ⟨p, present, ?_⟩
    simp only [any_verdict distinct hp (asScanned id), kept]
    rfl

end Batch

section Loop
variable {env : SweepEnv}

theorem returns_call {error : SweepError} {w w' : World} {u : Unit}
    (done : Returns (call env error) w u w') : w'.points = w.points := by
  obtain ⟨_, _, got, done⟩ := returns_bind.mp done
  obtain ⟨rfl, rfl⟩ := returns_get.mp got
  obtain ⟨_, _, put, done⟩ := returns_bind.mp done
  cases returns_set.mp put
  split at done
  · exact absurd done returns_throw
  · rw [← (returns_pure.mp done).2]

theorem returns_edit {f : Collection → Collection} {w w' : World} {u : PUnit}
    (done : Returns (do let w ← get; set { w with points := f w.points } : Sweep PUnit) w u w') :
    w'.points = f w.points := by
  obtain ⟨_, _, got, done⟩ := returns_bind.mp done
  obtain ⟨rfl, rfl⟩ := returns_get.mp got
  rw [returns_set.mp done]

theorem returns_delete {ids : List Nat} {w w' : World} {u : Unit}
    (done : Returns (deletePointsByIds env ids) w u w') :
    w'.points = deletePoints ids w.points := by
  unfold deletePointsByIds at done
  split at done
  · rename_i empty
    rw [← (returns_pure.mp done).2, List.isEmpty_iff.mp empty]
    simp [deletePoints]
  · obtain ⟨_, m, called, done⟩ := returns_bind.mp done
    rw [returns_edit done, returns_call called]

theorem returns_markInactive {ids : List Nat} {w w' : World} {u : Unit}
    (done : Returns (markPointsInactive env ids) w u w') :
    w'.points = setPayloadByPointIds ids [("is_active", .bool false)] w.points := by
  unfold markPointsInactive at done
  split at done
  · rename_i empty
    rw [← (returns_pure.mp done).2, List.isEmpty_iff.mp empty]
    simp [setPayloadByPointIds, setPayloadWhere]
  · obtain ⟨_, m, called, done⟩ := returns_bind.mp done
    rw [returns_edit done, returns_call called]

theorem returns_verifyLease {context : JobExecutionContext} {touched : List Nat} {w w' : World}
    {u : Unit} (done : Returns (verifyLease env context touched) w u w') :
    w'.points = w.points := by
  unfold verifyLease at done
  split at done
  · rw [← (returns_pure.mp done).2]
  · obtain ⟨_, m, called, done⟩ := returns_bind.mp done
    split at done
    · rw [← (returns_pure.mp done).2, returns_call called]
    · exact absurd done returns_throw

theorem returns_processBatch {context : JobExecutionContext} {points : List ScrolledPoint}
    {counts counts' : SweepCounts} {w w' : World}
    (done : Returns (processBatch env context points counts) w counts' w') :
    w'.points = batchEffect env.db points w.points ∧
      counts'.scanned = counts.scanned + points.length := by
  obtain ⟨_, read, called, done⟩ := returns_bind.mp done
  obtain ⟨_, verified, checked, done⟩ := returns_bind.mp done
  obtain ⟨_, deleted, deletion, done⟩ := returns_bind.mp done
  obtain ⟨_, repaired, repair, done⟩ := returns_bind.mp done
  obtain ⟨rfl, rfl⟩ := returns_pure.mp done
  refine ⟨?_, rfl⟩
  rw [returns_markInactive repair, returns_delete deletion, returns_verifyLease checked,
    returns_call called]
  rfl

theorem returns_scroll {limit : Nat} {offset : Option PointId} {w w' : World}
    {result : ScrollResult}
    (done : Returns (scrollPoints env limit (offset.map PointId.json)) w result w') :
    let rest := Table.ahead Point.pointId PointId.before offset w.points
    w'.points = w.points ∧ 1 ≤ limit ∧ result.points = (rest.take limit).filterMap Point.scanned ∧
      result.nextOffset = (Table.nextKey Point.pointId limit rest).map PointId.json := by
  unfold scrollPoints at done
  split at done
  · exact absurd done returns_throw
  · rename_i positive
    obtain ⟨_, m, called, done⟩ := returns_bind.mp done
    obtain ⟨_, _, got, done⟩ := returns_bind.mp done
    obtain ⟨rfl, rfl⟩ := returns_get.mp got
    rw [extract_response, returns_call called] at done
    obtain ⟨rfl, rfl⟩ := returns_pure.mp done
    exact ⟨returns_call called, by omega, rfl, rfl⟩

theorem unseen_of_page {rest : Collection} {limit : Nat}
    (sorted : Table.SortedBy Point.pointId PointId.before rest) (positive : 1 ≤ limit)
    (empty : (rest.take limit).filterMap Point.scanned = []) :
    rest.filterMap Point.scanned = [] := by
  cases rest with
  | nil => rfl
  | cons first tail =>
    obtain ⟨l, rfl⟩ : ∃ l, limit = l + 1 := ⟨limit - 1, by omega⟩
    have hidden : first.scanned = none :=
      List.filterMap_eq_nil_iff.mp empty first (by simp)
    rw [List.filterMap_eq_nil_iff]
    intro p member
    rcases List.mem_cons.mp member with rfl | later
    · exact hidden
    · -- The numbers come first, so nothing after a UUID is a number.
      have earlier : first.pointId.before p.pointId = true := List.rel_of_pairwise_cons sorted later
      cases id : p.pointId with
      | uuid text => simp [Point.scanned, id]
      | num n =>
        rw [id] at earlier
        obtain ⟨m, firstId⟩ := PointId.num_of_before earlier
        simp [Point.scanned, firstId] at hidden

/-- A batch on a page in the middle of a sorted collection. -/
theorem batch_on_page (keys : Keys env.db) {done page back : Collection}
    (sorted : Table.SortedBy Point.pointId PointId.before (done ++ (page ++ back))) :
    ∃ page', batchEffect env.db (page.filterMap Point.scanned) (done ++ (page ++ back)) =
        done ++ (page' ++ back) ∧ Swept env.db page page' ∧
      Table.SortedBy Point.pointId PointId.before (done ++ (page' ++ back)) := by
  have distinct := Table.sorted_distinct PointId.before_irrefl sorted
  rw [List.map_append, List.map_append, List.nodup_append, List.nodup_append] at distinct
  obtain ⟨_, ⟨pageDistinct, _, fromBack⟩, fromDone⟩ := distinct
  have swept := swept_page keys pageDistinct
  refine ⟨_, ?_, swept, ?_⟩
  · have doneKept : batchEffect env.db (page.filterMap Point.scanned) done = done := by
      refine batchEffect_other fun p hp q hq same => ?_
      exact fromDone _ (List.mem_map_of_mem hq) _
        (List.mem_append_left _ (List.mem_map_of_mem hp)) same.symm
    have backKept : batchEffect env.db (page.filterMap Point.scanned) back = back :=
      batchEffect_other fun p hp q hq =>
        fromBack _ (List.mem_map_of_mem hp) _ (List.mem_map_of_mem hq)
    rw [batchEffect_append, batchEffect_append, doneKept, backKept]
  · refine Table.sorted_of_keys ?_ sorted
    rw [List.map_append, List.map_append, List.map_append, List.map_append]
    exact (List.Sublist.refl _).append (swept.ids.append (List.Sublist.refl _))

theorem scan_swept (keys : Keys env.db) {context : JobExecutionContext}
    {batchSize maxPoints : Nat} (fuel : Nat) :
    ∀ (done rest : Collection) (offset : Option PointId) (counts found : SweepCounts)
      (w w' : World), w.points = done ++ rest →
      Table.SortedBy Point.pointId PointId.before (done ++ rest) →
      Table.ahead Point.pointId PointId.before offset (done ++ rest) = rest →
      counts.scanned + (rest.filterMap Point.scanned).length ≤ maxPoints →
      Returns (scan env context batchSize maxPoints fuel (offset.map PointId.json) counts) w
        (some found) w' →
      ∃ rest', w'.points = done ++ rest' ∧ Swept env.db rest rest' := by
  induction fuel with
  | zero =>
    intro done rest offset counts found w w' points _ _ room run
    obtain ⟨isFound, rfl⟩ := returns_pure.mp run
    split at isFound
    · cases isFound
    · have none : (rest.filterMap Point.scanned).length = 0 := by omega
      exact ⟨rest, points, Swept.refl (List.eq_nil_of_length_eq_zero none)⟩
  | succ fuel ih =>
    intro done rest offset counts found w w' points sorted cursor room run
    unfold scan at run
    split at run
    · obtain ⟨result, scrolled, scroll, paged⟩ := returns_bind.mp run
      obtain ⟨same, positive, seen, next⟩ := returns_scroll scroll
      rw [points, cursor] at seen next
      obtain ⟨limit, limitIs⟩ : ∃ limit, limit = min batchSize (maxPoints - counts.scanned) :=
        ⟨_, rfl⟩
      rw [← limitIs] at positive seen next
      have cut : rest.take limit ++ rest.drop limit = rest := List.take_append_drop limit rest
      have restSorted : Table.SortedBy Point.pointId PointId.before rest :=
        sorted.sublist (List.sublist_append_right done rest)
      split at paged
      · rename_i empty
        obtain ⟨_, rfl⟩ := returns_pure.mp paged
        rw [seen, List.isEmpty_iff] at empty
        exact ⟨rest, same.trans points, Swept.refl (unseen_of_page restSorted positive empty)⟩
      · obtain ⟨counts', swept, batch, more⟩ := returns_bind.mp paged
        obtain ⟨effect, scanned⟩ := returns_processBatch batch
        rw [same, points, seen] at effect
        rw [seen] at scanned
        rw [← cut] at sorted
        obtain ⟨page', onPage, sweptPage, sorted'⟩ := batch_on_page keys sorted
        rw [cut] at onPage
        have counted : (rest.filterMap Point.scanned).length =
            ((rest.take limit).filterMap Point.scanned).length +
              ((rest.drop limit).filterMap Point.scanned).length := by
          rw [← List.length_append, ← List.filterMap_append, cut]
        rw [onPage] at effect
        rw [next] at more
        cases nextKey : Table.nextKey Point.pointId limit rest with
        | none =>
          rw [nextKey] at more
          obtain ⟨_, rfl⟩ := returns_pure.mp more
          rw [Table.nextKey_none nextKey] at effect cut
          rw [← cut]
          exact ⟨page' ++ [], effect, sweptPage.append (Swept.refl rfl)⟩
        | some k =>
          rw [nextKey] at more
          obtain ⟨p, first, rfl⟩ := Table.nextKey_some nextKey
          rw [← List.append_assoc] at effect sorted'
          obtain ⟨back', ended, sweptBack⟩ := ih (done ++ page') (rest.drop limit)
            (some p.pointId) counts' found swept w' effect sorted'
            (Table.ahead_of_sorted PointId.before_irrefl sorted' first) (by omega) more
          refine ⟨page' ++ back', by rw [ended, List.append_assoc], ?_⟩
          exact cut ▸ sweptPage.append sweptBack
    · obtain ⟨_, rfl⟩ := returns_pure.mp run
      rename_i full
      have none : (rest.filterMap Point.scanned).length = 0 := by omega
      exact ⟨rest, points, Swept.refl (List.eq_nil_of_length_eq_zero none)⟩

/-- Each page scans a point or ends the loop, so the fuel of handle suffices. -/
theorem scan_returns {context : JobExecutionContext} {batchSize maxPoints : Nat} (fuel : Nat) :
    ∀ (offset : Option Value) (counts : SweepCounts) (w w' : World),
      maxPoints ≤ counts.scanned + fuel →
      ¬Returns (scan env context batchSize maxPoints fuel offset counts) w none w' := by
  induction fuel with
  | zero =>
    intro offset counts w w' enough run
    have notFound := (returns_pure.mp run).1
    split at notFound
    · omega
    · cases notFound
  | succ fuel ih =>
    intro offset counts w w' enough run
    unfold scan at run
    split at run
    · obtain ⟨result, scrolled, _, paged⟩ := returns_bind.mp run
      split at paged
      · cases (returns_pure.mp paged).1
      · rename_i found
        obtain ⟨counts', swept, batch, more⟩ := returns_bind.mp paged
        obtain ⟨_, scanned⟩ := returns_processBatch batch
        have positive : 0 < result.points.length := by
          rw [List.length_pos_iff]
          simpa using found
        split at more
        · cases (returns_pure.mp more).1
        · exact ih _ counts' swept w' (by omega) more
    · cases (returns_pure.mp run).1

end Loop

section Complete
variable [UnicodeTables] {env : SweepEnv} {context : JobExecutionContext} {w w' : World}

theorem handle_returns : (handle env context w).1.isSome := by
  unfold handle
  split
  · rfl
  · rename_i batchSize maxPoints _
    cases run : (scan env context batchSize maxPoints maxPoints none {}).exec w with
    | mk result w' =>
      cases result with
      | ok found =>
        cases found with
        | none => exact absurd run (scan_returns maxPoints none {} w w' (by simp))
        | some counts => rfl
      | error e => cases e <;> rfl

theorem handle_succeeded {batchSize maxPoints : Nat} {resultJson : Dict}
    (valid : validatePayload context = some (batchSize, maxPoints))
    (done : handle env context w = (some (.succeeded resultJson), w')) :
    ∃ counts, Returns (scan env context batchSize maxPoints maxPoints none {}) w (some counts) w' := by
  unfold handle at done
  rw [valid] at done
  cases run : (scan env context batchSize maxPoints maxPoints none {}).exec w with
  | mk result last =>
    simp only [run] at done
    cases result with
    | ok found =>
      cases found with
      | none => cases done
      | some counts =>
        cases done
        exact ⟨counts, run⟩
    | error e => cases e <;> cases done

/-- The sweep over a collection that nobody else changes. It returns, and when it succeeds with
room for every point, the active points left under integer ids are backed and name their chunk,
and every point that was backed and named its chunk is still there as it was. -/
theorem sweep_complete (env : SweepEnv) (keys : Keys env.db) (context : JobExecutionContext)
    (w : World) (sorted : Table.SortedBy Point.pointId PointId.before w.points) :
    (handle env context w).1.isSome ∧
    ∀ batchSize maxPoints, validatePayload context = some (batchSize, maxPoints) →
      w.points.length ≤ maxPoints → ∀ resultJson w',
      handle env context w = (some (.succeeded resultJson), w') →
      (∀ p ∈ w'.points, ∀ n, p.pointId = .num n →
        Dict.get p.payload "is_active" = some (.bool true) →
        Backed env.db n p.payload ∧ Identified n p.payload) ∧
      ∀ p ∈ w.points, ∀ n, p.pointId = .num n → Backed env.db n p.payload →
        Identified n p.payload → p ∈ w'.points := by
  refine ⟨handle_returns, ?_⟩
  intro batchSize maxPoints valid room resultJson w' done
  obtain ⟨counts, run⟩ := handle_succeeded valid done
  have enough : (w.points.filterMap Point.scanned).length ≤ maxPoints :=
    Nat.le_trans (List.length_filterMap_le _ _) room
  obtain ⟨rest, ended, swept⟩ := scan_swept keys maxPoints [] w.points none {} counts w w' rfl
    sorted rfl (by simpa using enough) run
  rw [ended]
  exact ⟨swept.backed, swept.kept⟩

end Complete

/-- One chunk in use, and the sweep job under the lease of worker w. -/
def sweptDb : Db :=
  let _ : UnicodeTables := asciiTables
  { documents := [⟨1, 1, "handbook", .active, none, 0, 0⟩]
    versions := [⟨1, 1, 1, "", .ready, true, none, "handbook.md", "text/markdown", 1, none, none,
      none, none, none, 1, 0, 0⟩]
    chunks := [⟨5, 1, 0, "", "text", none, none, none, none, none, none, "text", 0⟩]
    jobs := [{ newJob 1 "qdrant_consistency_sweep" none none none none 100 0 with
      status := .running, lockedBy := some "w", lockedAt := some 1, leaseExpiresAt := some 61,
      startedAt := some 1 }]
    nextJobId := 2
    corpusMarker := none
    graphIndexing := none
    graphExtractor := none }

theorem sweptDb_keys : Keys sweptDb := by
  refine ⟨⟨by decide, by decide, by decide, by decide, by decide, by decide, ⟨by decide, ?_, ?_⟩,
    by decide⟩, by decide, by decide⟩ <;> decide

def sweepContext : JobExecutionContext :=
  ⟨1, "qdrant_consistency_sweep", [("batch_size", .int 2)], "w"⟩

/-- The payload of the chunk, but for its document_chunk_id. -/
def chunkPayload : Dict :=
  [("document_version_id", .int 1), ("logical_document_id", .int 1), ("modality", .str "text"),
   ("is_active", .bool true)]

/-- The point of the chunk, an orphan and a point under a UUID, in pages of two. -/
theorem sweep_complete_pages :
    let _ : UnicodeTables := asciiTables
    let points : Collection := [⟨.num 5, Dict.set chunkPayload "document_chunk_id" (.int 5)⟩,
      ⟨.num 7, chunkPayload⟩, ⟨.uuid "a", chunkPayload⟩]
    let swept := (handle ⟨sweptDb, fun _ => false⟩ sweepContext ⟨points, 0⟩).2.points
    (∀ p ∈ swept, ∀ n, p.pointId = .num n → Dict.get p.payload "is_active" = some (.bool true) →
        Backed sweptDb n p.payload ∧ Identified n p.payload) ∧
      ∀ p ∈ points, ∀ n, p.pointId = .num n → Backed sweptDb n p.payload →
        Identified n p.payload → p ∈ swept := by
  intro tables points swept
  have sorted : Table.SortedBy Point.pointId PointId.before points := by
    simp [Table.SortedBy, points, PointId.before]
  have succeeds : (handle ⟨sweptDb, fun _ => false⟩ sweepContext ⟨points, 0⟩).1 =
      some (.succeeded [("scanned_count", .int 2), ("stale_found_count", .int 1),
        ("repaired_count", .int 1), ("skipped_count", .int 0)]) := by
    decide +kernel
  exact (@sweep_complete asciiTables ⟨sweptDb, fun _ => false⟩ sweptDb_keys sweepContext
    ⟨points, 0⟩ sorted).2 2 5000 rfl (by decide) _ _ (Prod.ext succeeds rfl)

/-- A point of a chunk in use that agrees with its row but leaves document_chunk_id out: the
sweep sets it inactive. -/
theorem unnamed_point_deactivated :
    let _ : UnicodeTables := asciiTables
    Keys sweptDb ∧ Backed sweptDb 5 chunkPayload ∧
      validatePayload sweepContext = some (2, 5000) ∧
      handle ⟨sweptDb, fun _ => false⟩ sweepContext ⟨[⟨.num 5, chunkPayload⟩], 0⟩ =
        (some (.succeeded [("scanned_count", .int 1), ("stale_found_count", .int 1),
          ("repaired_count", .int 1), ("skipped_count", .int 0)]),
        ⟨[⟨.num 5, Dict.set chunkPayload "is_active" (.bool false)⟩], 4⟩) := by
  intro tables
  refine ⟨sweptDb_keys, ⟨_, List.mem_cons_self, _, List.mem_cons_self, _, List.mem_cons_self, ?_⟩,
    rfl, by decide +kernel⟩
  decide

end RagProject.Qdrant
