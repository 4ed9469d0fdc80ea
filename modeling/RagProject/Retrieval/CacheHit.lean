import Mathlib.Data.List.Dedup
import RagProject.Retrieval.SavedResult

/-! What a hit makes of the payload of a path: the rows can be saved for another run, and give the
same result but for their ids and the payloads of the search. -/
namespace RagProject.Retrieval
open Python Documents Generation Context

section Saving
variable {retrievalRunId : Nat} {inputs : List RetrievalRunItemInput} {t t' : RunItems}

def Accepted (input : RetrievalRunItemInput) : Prop :=
  (savedItem 0 0 input).checks.find? (fun check => !check.2) = none

/-- Two rows of one run break no unique index. -/
def Apart (a b : RetrievalRunItemInput) : Prop := (savedItem 0 0 a).clash (savedItem 0 0 b) = none

theorem clash_same_run (run m n : Nat) (a b : RetrievalRunItemInput) :
    (savedItem run m a).clash (savedItem run n b) = (savedItem 0 0 a).clash (savedItem 0 0 b) := by
  have here : ¬(savedItem run m a).retrievalRunId ≠ (savedItem run n b).retrievalRunId :=
    fun other => other rfl
  have there : ¬(savedItem 0 0 a).retrievalRunId ≠ (savedItem 0 0 b).retrievalRunId :=
    fun other => other rfl
  unfold RetrievalRunItem.clash
  rw [if_neg here, if_neg there]
  rfl

theorem insertItem_ok {input : RetrievalRunItemInput}
    (done : insertItem retrievalRunId t input = .ok t') :
    Accepted input ∧ (∀ old ∈ t.rows, old.clash (savedItem retrievalRunId 0 input) = none) ∧
      t' = ⟨t.rows ++ [savedItem retrievalRunId t.nextId input], t.nextId + 1⟩ := by
  unfold insertItem at done
  simp only at done
  split at done
  · cases done
  · rename_i accepted
    split at done
    · cases done
    · rename_i apart
      cases done
      exact ⟨accepted, fun old member => List.findSome?_eq_none_iff.mp apart old member, rfl⟩

theorem saveItems_ok (done : saveItems retrievalRunId inputs t = .ok t') :
    (∀ x ∈ inputs, Accepted x) ∧ inputs.Pairwise Apart ∧
      ∀ old ∈ t.rows, ∀ x ∈ inputs, old.clash (savedItem retrievalRunId 0 x) = none := by
  induction inputs generalizing t with
  | nil =>
    exact ⟨fun _ none => (List.not_mem_nil none).elim, .nil, fun _ _ _ none =>
      (List.not_mem_nil none).elim⟩
  | cons input inputs ih =>
    unfold saveItems at done
    rw [List.foldlM_cons] at done
    obtain ⟨next, first, rest⟩ := Fallible.bind_ok done
    obtain ⟨accepted, apart, rfl⟩ := insertItem_ok first
    obtain ⟨others, pairwise, later⟩ := ih rest
    refine ⟨List.forall_mem_cons.mpr ⟨accepted, others⟩, List.pairwise_cons.mpr ⟨?_, pairwise⟩, ?_⟩
    · intro x member
      have here := later _ (List.mem_append_right _ (List.mem_singleton.mpr rfl)) x member
      rw [clash_same_run] at here
      exact here
    · intro old member
      exact List.forall_mem_cons.mpr
        ⟨apart old member, fun x there => later old (List.mem_append_left _ member) x there⟩

theorem saveItems_new (accepted : ∀ x ∈ inputs, Accepted x) (pairwise : inputs.Pairwise Apart)
    (apart : ∀ old ∈ t.rows, ∀ x ∈ inputs, old.clash (savedItem retrievalRunId 0 x) = none) :
    ∃ t', saveItems retrievalRunId inputs t = .ok t' := by
  induction inputs generalizing t with
  | nil => exact ⟨t, rfl⟩
  | cons input inputs ih =>
    obtain ⟨head, others⟩ := List.forall_mem_cons.mp accepted
    obtain ⟨first, rest⟩ := List.pairwise_cons.mp pairwise
    have checked : (savedItem retrievalRunId t.nextId input).checks.find? (fun check => !check.2) =
        none := head
    have unique : t.rows.findSome? (·.clash (savedItem retrievalRunId t.nextId input)) = none :=
      List.findSome?_eq_none_iff.mpr fun old member => apart old member input (.head _)
    have inserted : insertItem retrievalRunId t input =
        .ok ⟨t.rows ++ [savedItem retrievalRunId t.nextId input], t.nextId + 1⟩ := by
      simp only [insertItem, checked, unique]
    have later : ∃ t', saveItems retrievalRunId inputs
        ⟨t.rows ++ [savedItem retrievalRunId t.nextId input], t.nextId + 1⟩ = .ok t' := by
      apply ih others rest
      intro old member x there
      rcases List.mem_append.mp member with before | new
      · exact apart old before x (.tail _ there)
      · cases List.mem_singleton.mp new
        rw [clash_same_run]
        exact first x there
    obtain ⟨t', saved⟩ := later
    refine ⟨t', ?_⟩
    unfold saveItems
    rw [List.foldlM_cons, inserted]
    exact saved

/-- Two rows that differ in the breakdown of the scores only. -/
def Alike (a b : RetrievalRunItemInput) : Prop :=
  b = { a with scoreBreakdownJson := b.scoreBreakdownJson }

theorem Alike.accepted {a b : RetrievalRunItemInput} (alike : Alike a b) (accepted : Accepted a) :
    Accepted b := by
  rw [alike]
  exact accepted

theorem alike_apart {as bs : List RetrievalRunItemInput} (alike : List.Forall₂ Alike as bs)
    (apart : as.Pairwise Apart) : bs.Pairwise Apart := by
  induction alike with
  | nil => exact .nil
  | cons related rest ih =>
    obtain ⟨first, later⟩ := List.pairwise_cons.mp apart
    refine List.pairwise_cons.mpr ⟨fun y member => ?_, ih later⟩
    obtain ⟨x, there, same⟩ := Abreast.partner rest member
    have before := first x there
    rw [related, same]
    exact before

/-- Rows that were saved once can be saved for a run that has none. -/
theorem save_again {bs : List RetrievalRunItemInput} {run : Nat} {s : RunItems}
    (done : saveItems retrievalRunId inputs t = .ok t') (alike : List.Forall₂ Alike inputs bs)
    (fresh : ∀ row ∈ s.rows, row.retrievalRunId ≠ run) : ∃ s', saveItems run bs s = .ok s' := by
  obtain ⟨accepted, pairwise, _⟩ := saveItems_ok done
  apply saveItems_new
  · intro y member
    obtain ⟨x, there, same⟩ := Abreast.partner alike member
    exact same.accepted (accepted x there)
  · exact alike_apart alike pairwise
  · intro old member x _
    have other : old.retrievalRunId ≠ (savedItem run 0 x).retrievalRunId := fresh old member
    unfold RetrievalRunItem.clash
    rw [if_pos other]

end Saving

section Texts
variable {modality : String} {filters : RetrievalFilters} {db db' : Db}

/-- A row that is in both databases shows the same. -/
structure SameTexts (db db' : Db) : Prop where
  chunk : ∀ c ∈ db.chunks, ∀ c' ∈ db'.chunks, c'.documentChunkId = c.documentChunkId → c' = c
  version : ∀ v ∈ db.versions, ∀ v' ∈ db'.versions,
    v'.documentVersionId = v.documentVersionId →
      v'.logicalDocumentId = v.logicalDocumentId ∧ v'.versionNo = v.versionNo ∧
        v'.fileName = v.fileName
  document : ∀ d ∈ db.documents, ∀ d' ∈ db'.documents,
    d'.logicalDocumentId = d.logicalDocumentId → d'.title = d.title

structure Joined (db : Db) (chunk : DocumentChunk) (version : DocumentVersion)
    (document : LogicalDocument) : Prop where
  stored : chunk ∈ db.chunks
  versioned : version ∈ db.versions ∧ version.documentVersionId = chunk.documentVersionId
  documented : document ∈ db.documents ∧ document.logicalDocumentId = version.logicalDocumentId

theorem joinedRow_joined {id : Nat} {row : JoinedRow id}
    (found : joinedRow modality db id = some row) :
    Joined db row.chunk row.documentVersion row.logicalDocument := by
  unfold joinedRow at found
  split at found
  · cases found
  · rename_i chunk there
    simp only [Option.bind_eq_bind, Option.bind_eq_some_iff] at found
    obtain ⟨version, ready, document, active, shape⟩ := found
    cases shape
    exact ⟨List.mem_of_find?_eq_some there, Table.mem_of_row (Option.filter_eq_some_iff.mp ready).1,
      Table.mem_of_row (Option.filter_eq_some_iff.mp active).1⟩

theorem SameTexts.shown_eq (texts : SameTexts db db') {c c' : CheckedRetrievalCandidate}
    (before : Joined db c.chunk c.documentVersion c.logicalDocument)
    (now : Joined db' c'.chunk c'.documentVersion c'.logicalDocument)
    (same : c'.chunk.documentChunkId = c.chunk.documentChunkId) : shown c' = shown c := by
  have chunk := texts.chunk _ before.stored _ now.stored same
  have versionId : c'.documentVersion.documentVersionId = c.documentVersion.documentVersionId := by
    rw [now.versioned.2, before.versioned.2, chunk]
  obtain ⟨documentOf, versionNo, fileName⟩ :=
    texts.version _ before.versioned.1 _ now.versioned.1 versionId
  have documentId : c'.logicalDocument.logicalDocumentId =
      c.logicalDocument.logicalDocumentId := by
    rw [now.documented.2, before.documented.2, documentOf]
  have title := texts.document _ before.documented.1 _ now.documented.1 documentId
  unfold shown
  rw [chunk, versionId, versionNo, fileName, documentId, title]

theorem visibleRow_joined {id : Nat} {row : JoinedRow id}
    (found : visibleRow filters db id = some row) :
    joinedRow filters.modality db id = some row ∧
      withinDocuments filters row.logicalDocument.logicalDocumentId = true :=
  Option.filter_eq_some_iff.mp found

theorem HoldsRow.joined {c : CheckedRetrievalCandidate} (holds : HoldsRow filters db c) :
    Joined db c.chunk c.documentVersion c.logicalDocument := by
  obtain ⟨row, found, chunk, version, document⟩ := holds
  rw [← chunk, ← version, ← document]
  exact joinedRow_joined (visibleRow_joined found).1

end Texts

section Entries
variable [UnicodeTables] [Rounding] {display : Display} {source : RetrievalSource}

/-- What the cache gives back of the row of an entry. -/
def itemOf (e : PipelineEntry) : CachedRetrievalItem :=
  reread (cacheItemFromRunItem (savedItem 0 0 e.input))

/-- The two entries make the same result, but for the payload of the search. -/
structure SameEntry (e e' : PipelineEntry) : Prop where
  shown : shown e'.candidate.toCheckedRetrievalCandidate =
    shown e.candidate.toCheckedRetrievalCandidate
  score : e'.candidate.retrievalScore = e.candidate.retrievalScore
  rank : e'.candidate.rankOrder = e.candidate.rankOrder
  payload : e'.candidate.payload = []
  rerankScore : e'.rerankScore = e.rerankScore
  rerankOrder : e'.rerankOrder = e.rerankOrder
  selected : e'.selected = e.selected
  alike : Alike e.input e'.input

/-- An entry of a path whose scores have six decimals at most. -/
structure PathEntry (display : Display) (source : RetrievalSource) (e : PipelineEntry) : Prop where
  input : ∃ finalRank, e.input = itemInput display source e.candidate e.rerankScore e.rerankOrder
    finalRank e.selected
  score : SixDecimals e.candidate.retrievalScore
  rerankScore : ∀ s ∈ e.rerankScore, SixDecimals s

omit [UnicodeTables] [Rounding] in
theorem named_source (source : RetrievalSource) :
    ((some source.value).filter (fun s => decide (s ≠ ""))).getD RetrievalSource.dense.value =
      source.value := by
  cases source <;> rfl

omit [UnicodeTables] in
theorem round_rerank {score : Option Number} (six : ∀ s ∈ score, SixDecimals s) :
    score.map roundScore = score := by
  cases score with
  | none => rfl
  | some s => rw [Option.map_some, (six s rfl).round]

theorem itemOf_path {e : PipelineEntry} (path : PathEntry display source e) :
    itemOf e =
      { documentChunkId := e.candidate.chunk.documentChunkId
        retrievalScore := e.candidate.retrievalScore
        rerankScore := e.rerankScore
        rankOrder := e.candidate.rankOrder
        rerankOrder := e.rerankOrder
        selectedFlag := e.selected
        retrievalSource := source.value
        scoreBreakdownJson := (itemOf e).scoreBreakdownJson } := by
  obtain ⟨finalRank, input⟩ := path.input
  have scores := path.score.round
  have reranks := round_rerank path.rerankScore
  unfold itemOf
  rw [input]
  simp only [reread, cacheItemFromRunItem, savedItem, itemInput, scores, reranks, named_source,
    Option.getD_some]

omit [UnicodeTables] [Rounding] in
theorem Accepted.ranks {input : RetrievalRunItemInput} (accepted : Accepted input) :
    0 < input.rankOrder ∧ ∀ n ∈ input.rerankOrder, 0 < n := by
  have each := List.find?_eq_none.mp accepted
  have rank := each ("ck_retrieval_run_items_rank_order", 1 ≤ input.rankOrder) (.tail _ (.head _))
  have rerank := each ("ck_retrieval_run_items_rerank_order", input.rerankOrder.all (1 ≤ ·))
    (.tail _ (.tail _ (.head _)))
  simp only [Bool.not_eq_true', Bool.not_eq_false, decide_eq_true_eq] at rank rerank
  refine ⟨rank, fun n member => ?_⟩
  rw [Option.mem_def.mp member] at rerank
  have positive : 1 ≤ n := by simpa using rerank
  exact positive

theorem good_item {e : PipelineEntry} (path : PathEntry display source e)
    (accepted : Accepted e.input) (positive : 0 < e.candidate.chunk.documentChunkId) :
    GoodItem (cacheItemFromRunItem (savedItem 0 0 e.input)) := by
  have ranks := accepted.ranks
  obtain ⟨finalRank, input⟩ := path.input
  have score := path.score
  have rerankScore := path.rerankScore
  rw [input] at ranks ⊢
  refine ⟨positive, ranks.1, ranks.2, ?_, ?_, ⟨source, named_source source⟩⟩
  · change SixDecimals (roundScore e.candidate.retrievalScore)
    rw [score.round]
    exact score
  · change ∀ s ∈ e.rerankScore.map roundScore, SixDecimals s
    rw [round_rerank rerankScore]
    exact rerankScore

theorem hydrated_same {modality : String} {db db' : Db} (texts : SameTexts db db')
    {e : PipelineEntry} (path : PathEntry display source e)
    (before : Joined db e.candidate.chunk e.candidate.documentVersion e.candidate.logicalDocument)
    {h : HydratedItem} (found : hydrateItem modality db' (itemOf e) = some h) :
    SameEntry e (hydratedEntry h) := by
  unfold hydrateItem at found
  obtain ⟨row, joined, rfl⟩ := Option.map_eq_some_iff.mp found
  have now := joinedRow_joined joined
  have same : row.chunk.documentChunkId = e.candidate.chunk.documentChunkId := by
    rw [row.sameChunk, itemOf_path path]
  obtain ⟨finalRank, input⟩ := path.input
  refine ⟨texts.shown_eq before now same, ?_, ?_, rfl, ?_, ?_, ?_, ?_⟩
  · exact congrArg CachedRetrievalItem.retrievalScore (itemOf_path path)
  · exact congrArg CachedRetrievalItem.rankOrder (itemOf_path path)
  · exact congrArg CachedRetrievalItem.rerankScore (itemOf_path path)
  · exact congrArg CachedRetrievalItem.rerankOrder (itemOf_path path)
  · exact congrArg CachedRetrievalItem.selectedFlag (itemOf_path path)
  · have score : roundScore e.candidate.retrievalScore = e.candidate.retrievalScore :=
      path.score.round
    have reranks := round_rerank path.rerankScore
    unfold Alike hydratedEntry
    simp only
    rw [itemOf_path path, input]
    simp only [itemInput, score, reranks]

end Entries

section Visible
variable {filters : RetrievalFilters} {db : Db}

/-- The chunk of the id is of the modality and within the documents, and its version and document
are ready and active. -/
def Visible (filters : RetrievalFilters) (db : Db) (documentChunkId : Nat) : Prop :=
  (visibleRow filters db documentChunkId).isSome

instance (documentChunkId : Nat) : Decidable (Visible filters db documentChunkId) :=
  inferInstanceAs (Decidable (_ = true))

theorem visible_iff {id : Nat} : Visible filters db id ↔
    ∃ row, joinedRow filters.modality db id = some row ∧
      withinDocuments filters row.logicalDocument.logicalDocumentId = true := by
  unfold Visible
  rw [Option.isSome_iff_exists]
  exact exists_congr fun row => Option.filter_eq_some_iff

theorem within_iff {id : Nat} : withinDocuments filters id = true ↔
    (filters.logicalDocumentIds.isEmpty = false → filters.logicalDocumentIds.contains id = true) := by
  unfold withinDocuments
  cases filters.logicalDocumentIds.isEmpty <;> simp

/-- The ids of the documents that the query of a hit finds. -/
def foundDocuments (filters : RetrievalFilters) (db : Db) (ids : List Nat) : List Nat :=
  ids.filterMap fun id =>
    (joinedRow filters.modality db id).map (·.logicalDocument.logicalDocumentId)

theorem found_all {ids : List Nat} :
    (foundDocuments filters db ids).length = ids.length ↔
      ∀ id ∈ ids, (joinedRow filters.modality db id).isSome := by
  unfold foundDocuments
  induction ids with
  | nil => simp
  | cons id ids ih =>
    have shorter := List.length_filterMap_le (fun id =>
      (joinedRow filters.modality db id).map (·.logicalDocument.logicalDocumentId)) ids
    rw [List.forall_mem_cons, ← ih]
    cases joined : joinedRow filters.modality db id with
    | none =>
      rw [List.filterMap_cons, joined]
      simp only [Option.map_none, List.length_cons, Option.isSome_none, Bool.false_eq_true,
        false_and, iff_false]
      omega
    | some row =>
      rw [List.filterMap_cons, joined]
      simp

/-- The two tests of a hit pass exactly when every chunk is visible. -/
theorem tests_iff {ids : List Nat} :
    ((foundDocuments filters db ids).length = ids.length ∧
      (!filters.logicalDocumentIds.isEmpty && (foundDocuments filters db ids).any
        (!filters.logicalDocumentIds.contains ·)) = false) ↔
      ∀ id ∈ ids, Visible filters db id := by
  rw [found_all]
  constructor
  · rintro ⟨found, within⟩ id member
    obtain ⟨row, joined⟩ := Option.isSome_iff_exists.mp (found id member)
    refine visible_iff.mpr ⟨row, joined, within_iff.mpr fun filtered => ?_⟩
    have listed : row.logicalDocument.logicalDocumentId ∈ foundDocuments filters db ids := by
      apply List.mem_filterMap.mpr
      exact ⟨id, member, by rw [joined]; rfl⟩
    rw [filtered, Bool.not_false, Bool.true_and, List.any_eq_false] at within
    simpa using within _ listed
  · intro visible
    refine ⟨fun id member => ?_, ?_⟩
    · obtain ⟨row, joined, _⟩ := visible_iff.mp (visible id member)
      rw [joined]
      rfl
    · rw [Bool.and_eq_false_iff, List.any_eq_false]
      by_cases filtered : filters.logicalDocumentIds.isEmpty = true
      · exact .inl (by rw [filtered]; rfl)
      · refine .inr fun document listed => ?_
        obtain ⟨id, member, joined⟩ := List.mem_filterMap.mp listed
        obtain ⟨row, there, rfl⟩ := Option.map_eq_some_iff.mp joined
        obtain ⟨same, again, within⟩ := visible_iff.mp (visible id member)
        rw [there] at again
        cases again
        rw [within_iff.mp within (by simpa using filtered)]
        decide

variable [UnicodeTables] [Rounding] (display : Display) (settings : PipelineSettings)

/-- A hit without a chunk that is visible no more is nothing, and saves nothing. -/
theorem hydrate_gone {payload : CachedRetrievalPayload} {run : Nat} {t : RunItems}
    (readable : (RetrievalScoreSummary.ofFields payload.retrievalScoreSummary).isSome)
    (gone : ∃ item ∈ payload.items, ¬Visible filters db item.documentChunkId) :
    hydrateCachedRetrievalResult display settings payload run filters db t = .ok (none, t) := by
  obtain ⟨summary, parsed⟩ := Option.isSome_iff_exists.mp readable
  obtain ⟨item, member, hidden⟩ := gone
  have some_item : payload.items ≠ [] := List.ne_nil_of_mem member
  have failing : ¬∀ id ∈ (payload.items.map (·.documentChunkId)).dedup, Visible filters db id := by
    intro all
    exact hidden (all _ (List.mem_dedup.mpr (List.mem_map_of_mem member)))
  rw [← tests_iff] at failing
  unfold hydrateCachedRetrievalResult
  rw [parsed]
  simp only
  rw [if_neg some_item]
  split
  · rfl
  · rename_i found
    rw [if_pos]
    by_contra outside
    exact failing ⟨not_not.mp found, Bool.not_eq_true _ ▸ outside⟩

/-- A hit whose chunks are all visible saves the rows of its items and returns them. -/
theorem hydrate_visible (run : Nat) (t : RunItems) {payload : CachedRetrievalPayload}
    {summary : RetrievalScoreSummary}
    (readable : RetrievalScoreSummary.ofFields payload.retrievalScoreSummary = some summary)
    (some_item : payload.items ≠ [])
    (visible : ∀ item ∈ payload.items, Visible filters db item.documentChunkId) :
    ∃ hydrated, payload.items.mapM (hydrateItem filters.modality db) = some hydrated ∧
      ∀ t', saveItems run ((hydrated.map hydratedEntry).map (·.input)) t = .ok t' →
        let saved := savedCandidates run t.nextId (hydrated.map hydratedEntry)
        hydrateCachedRetrievalResult display settings payload run filters db t =
          .ok (some (pipelineResult display settings summary saved
            (saved.filter (·.entry.selected)) payload.noContext), t') := by
  have found : ∀ item ∈ payload.items, (hydrateItem filters.modality db item).isSome := by
    intro item member
    obtain ⟨row, joined, _⟩ := visible_iff.mp (visible item member)
    unfold hydrateItem
    rw [joined]
    rfl
  obtain ⟨hydrated, all⟩ := Fallible.mapM_isSome.mpr found
  refine ⟨hydrated, all, fun t' saved => ?_⟩
  have tests : ∀ id ∈ (payload.items.map (·.documentChunkId)).dedup, Visible filters db id := by
    intro id member
    obtain ⟨item, there, rfl⟩ := List.mem_map.mp (List.mem_dedup.mp member)
    exact visible item there
  obtain ⟨every, within⟩ := tests_iff.mpr tests
  unfold hydrateCachedRetrievalResult
  rw [readable]
  simp only
  rw [if_neg some_item]
  split
  · rename_i missing
    exact absurd every missing
  · split
    · rename_i outside
      exact absurd within (by rw [Bool.not_eq_false]; exact outside)
    · rw [all]
      simp only
      rw [saved]

end Visible

end RagProject.Retrieval
