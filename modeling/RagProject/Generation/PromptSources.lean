import RagProject.Context.BudgetTrace
import RagProject.Context.EvidenceBounds
import RagProject.Generation.Assembly
import RagProject.Generation.CitationRules

/-! The numbers of the prompt: every item of the prompt has the number of a source, and the row
behind every source is selected. -/
namespace RagProject.Generation
open Python Markers Context Documents Retrieval

section Packs
variable [UnicodeTables] [CaseFold] [Rounding] {policy : EvidencePackPolicy}

/-- An item shows the beginning of the text of a candidate, under its number. -/
def ShownFrom (c : EvidenceCandidate) (item : EvidenceItem) : Prop :=
  item.localCitationId = c.localCitationId ∧ item.documentChunkId = c.documentChunkId ∧
    item.evidenceTextForGeneration.toList <+: (cleanText (c.text.getD "")).toList

omit [CaseFold] in
theorem evidenceItem_ok {number : Nat} {prepared : CompressionCandidate} {text : String}
    {method : CompressionMethod} {item : EvidenceItem}
    (done : evidenceItem number prepared text method = .ok item) :
    item.localCitationId = prepared.candidate.localCitationId ∧
      item.documentChunkId = prepared.candidate.documentChunkId ∧
      item.evidenceTextForGeneration = text := by
  unfold evidenceItem at done
  split at done
  · cases done
  · split at done
    · cases done
    · cases done
      exact ⟨rfl, rfl, rfl⟩

theorem passCandidate_shown {c : EvidenceCandidate} {before after : List EvidenceItem × Nat}
    (done : passCandidate policy before (prepareCandidate c) = .ok after) :
    ∀ item ∈ after.1, item ∈ before.1 ∨ ShownFrom c item := by
  obtain ⟨accepted, outputChars⟩ := before
  intro item member
  unfold passCandidate at done
  simp only at done
  split at done
  · cases done
    exact .inl member
  · split at done
    · cases done
      exact .inl member
    · obtain ⟨made, built, done⟩ := Fallible.bind_ok done
      cases done
      obtain ⟨citation, chunk, text⟩ := evidenceItem_ok built
      rcases List.mem_append.mp member with old | new
      · exact .inl old
      · cases List.mem_singleton.mp new
        refine .inr ⟨citation, chunk, ?_⟩
        show made.evidenceTextForGeneration.toList <+: _
        rw [text, String.toList_ofList]
        exact List.take_prefix _ _

theorem passthrough_shown {candidates : List EvidenceCandidate} {items : List EvidenceItem}
    (done : passthroughItems policy candidates = .ok items) :
    ∀ item ∈ items, ∃ c ∈ candidates, ShownFrom c item := by
  unfold passthroughItems at done
  obtain ⟨⟨accepted, chars⟩, ran, done⟩ := Fallible.bind_ok done
  cases done
  apply Fallible.foldlM_ok (f := passCandidate policy)
    (fun rest (s : List EvidenceItem × Nat) => (∀ p ∈ rest, ∃ c ∈ candidates, p = prepareCandidate c) ∧
      ∀ item ∈ s.1, ∃ c ∈ candidates, ShownFrom c item) _ ran _ |>.2
  · rintro p rest s t ⟨prepared, shown⟩ turn
    obtain ⟨c, there, rfl⟩ := prepared p List.mem_cons_self
    refine ⟨fun q member => prepared q (List.mem_cons_of_mem _ member), fun item member => ?_⟩
    rcases passCandidate_shown turn item member with old | new
    · exact shown item old
    · exact ⟨c, there, new⟩
  · refine ⟨fun p member => ?_, by simp⟩
    obtain ⟨c, there, same⟩ := List.mem_map.mp member
    exact ⟨c, there, same.symm⟩

theorem compress_shown {candidates : List EvidenceCandidate} {items : List EvidenceItem}
    {drops : List DroppedEvidenceRef} {dropCounts : List (CompressionDropReason × Nat)}
    (done : compress policy candidates = .ok (items, drops, dropCounts)) :
    ∀ item ∈ items, ∃ c ∈ candidates, ShownFrom c item := by
  have pack := packed done
  intro item member
  rw [pack.accepted] at member
  obtain ⟨⟨c, verdict⟩, inside, took⟩ := List.mem_filterMap.mp member
  cases verdict with
  | error r => cases took
  | ok accepted =>
    cases took
    have there : c ∈ candidates := by
      rw [← pack.each]
      exact List.mem_map_of_mem (f := (·.1)) inside
    have excerpt := pack.excerpts c item inside
    exact ⟨c, there, excerpt.citation, excerpt.chunk, excerpt.cut⟩

theorem build_shown {candidates : List EvidenceCandidate} {items : List EvidenceItem}
    (done : buildItems policy candidates = .ok items) :
    ∀ item ∈ items, ∃ c ∈ candidates, ShownFrom c item := by
  unfold buildItems at done
  split at done
  · obtain ⟨⟨accepted, drops, dropCounts⟩, compressed, done⟩ := Fallible.bind_ok done
    cases done
    exact compress_shown compressed
  · exact passthrough_shown done

end Packs

section Sources
variable {labels : Labels} {maxChars : Nat} {refs : List ContextCandidateRef}

theorem sources_ids : (contextCitationSources labels maxChars refs).map (·.localCitationId) =
    (List.range' 1 refs.length).map Int.ofNat := by
  unfold contextCitationSources
  rw [List.map_map, ← List.zipIdx_map_snd 1 refs, List.map_map]
  rfl

theorem mem_sources {source : CitationSource}
    (member : source ∈ contextCitationSources labels maxChars refs) :
    ∃ ref ∈ refs, ∃ n, source = citationSource labels maxChars ref n := by
  obtain ⟨⟨ref, n⟩, inside, rfl⟩ := List.mem_map.mp member
  exact ⟨ref, List.fst_mem_of_mem_zipIdx inside, n, rfl⟩

theorem sources_numbered {source : CitationSource}
    (member : source ∈ contextCitationSources labels maxChars refs) : 1 ≤ source.localCitationId := by
  have there := List.mem_map_of_mem (f := (·.localCitationId)) member
  rw [sources_ids] at there
  obtain ⟨n, inside, same⟩ := List.mem_map.mp there
  rw [List.mem_range'_1] at inside
  have cast : source.localCitationId = (n : Int) := same.symm
  omega

theorem sources_distinct :
    ((contextCitationSources labels maxChars refs).map (·.localCitationId)).Nodup := by
  rw [sources_ids]
  exact List.Nodup.map (fun a b same => Int.ofNat.inj same) List.nodup_range'

theorem sourceByRunItemId_some {sources : List CitationSource} {id : Nat} {source : CitationSource}
    (found : sourceByRunItemId sources id = some source) :
    source ∈ sources ∧ source.retrievalRunItemId = id := by
  refine ⟨List.mem_reverse.mp (List.mem_of_find?_eq_some found), ?_⟩
  simpa using List.find?_some found

theorem mem_evidenceCandidates [Rounding] {sources : List CitationSource} {c : EvidenceCandidate}
    (member : c ∈ evidenceCandidates labels refs sources) :
    ∃ ref ∈ refs, ∃ source ∈ sources, source.retrievalRunItemId = ref.runItemId ∧
      c = evidenceCandidate labels ref source.localCitationId := by
  obtain ⟨ref, there, made⟩ := List.mem_filterMap.mp member
  obtain ⟨source, found, rfl⟩ := Option.map_eq_some_iff.mp made
  obtain ⟨inside, same⟩ := sourceByRunItemId_some found
  exact ⟨ref, there, source, inside, same, rfl⟩

end Sources

section Decisions
variable [UnicodeTables]

/-- The selected ids of a decision are those of its selected items. -/
def IdsOk (d : ContextBudgetDecision) : Prop :=
  d.selectedItemIds = (selectedItems d.items).map (·.retrievalRunItemId)

theorem decision_ids {items : List ContextItem} {policy : ContextBudgetPolicy} {prompt : Int}
    {strategy : Option ContextBudgetStrategySummary} {exhausted : Bool} {d : ContextBudgetDecision}
    (done : decision items policy prompt strategy exhausted = .ok d) : d.items = items ∧ IdsOk d := by
  unfold decision at done
  obtain ⟨sources, _, done⟩ := Fallible.bind_ok done
  cases done
  exact ⟨rfl, rfl⟩

theorem apply_ids [Rounding] {candidates : List ContextBudgetCandidate}
    {policy : ContextBudgetPolicy} {prompt : Int} {strategy : Option ContextBudgetStrategySummary}
    {d : ContextBudgetDecision} (done : apply candidates policy prompt strategy = .ok d) :
    IdsOk d := by
  unfold apply at done
  obtain ⟨items, _, done⟩ := Fallible.bind_ok done
  split at done
  · exact (decision_ids done).2
  · exact (decision_ids done).2

/-- A selected item that stands in the prompt stays selected. -/
theorem finalize_keeps {d final : ContextBudgetDecision} {selectedItemIds : List Nat}
    {reason : ContextDropReason} {id : Nat} (own : IdsOk d)
    (done : finalizeContextBudgetSelection d selectedItemIds reason = .ok final)
    (chosen : id ∈ d.selectedItemIds) (stands : id ∈ selectedItemIds) :
    id ∈ final.selectedItemIds := by
  unfold finalizeContextBudgetSelection at done
  split at done
  · cases done
    exact chosen
  · simp only at done
    split at done
    · obtain ⟨same, ids⟩ := decision_ids done
      rw [own] at chosen
      obtain ⟨item, inside, rfl⟩ := List.mem_map.mp chosen
      rw [ids, same]
      refine List.mem_map.mpr ⟨{ item with selected := true, dropReason := none }, ?_, rfl⟩
      refine List.mem_filter.mpr ⟨List.mem_map.mpr ⟨item, List.mem_of_mem_filter inside, ?_⟩, rfl⟩
      rw [if_pos stands]
    · cases done

end Decisions

section Selection

/-- A row of the run shows its chunk as selected. -/
def SelectedRow (items : List RetrievalRunItem) (retrievalRunId documentChunkId : Nat) : Prop :=
  ∃ item ∈ items, item.retrievalRunId = retrievalRunId ∧ item.documentChunkId = documentChunkId ∧
    item.selectedFlag = true

theorem update_row {items : List RetrievalRunItem} {retrievalRunId : Nat} {ids : List Nat}
    {row : RetrievalRunItem} (member : row ∈ items) (own : row.retrievalRunId = retrievalRunId) :
    withSelectedFlag (decide (row.retrievalRunItemId ∈ ids)) row ∈
      updateContextSelection retrievalRunId ids items :=
  List.mem_map.mpr ⟨row, member, if_pos own⟩

theorem update_selected {items : List RetrievalRunItem} {retrievalRunId : Nat} {ids : List Nat}
    {row : RetrievalRunItem} (member : row ∈ items) (own : row.retrievalRunId = retrievalRunId)
    (chosen : row.retrievalRunItemId ∈ ids) :
    SelectedRow (updateContextSelection retrievalRunId ids items) retrievalRunId row.documentChunkId :=
  ⟨_, update_row member own, own, rfl, decide_eq_true chosen⟩

/-- Of a row, a selection changes the flag and its copy in the breakdown. -/
theorem update_columns {A : Type} (column : RetrievalRunItem → A)
    (kept : ∀ selected item, column (withSelectedFlag selected item) = column item)
    (retrievalRunId : Nat) (ids : List Nat) (items : List RetrievalRunItem) :
    (updateContextSelection retrievalRunId ids items).map column = items.map column := by
  unfold updateContextSelection
  rw [List.map_map]
  apply List.map_congr_left
  intro item _
  show column (if _ then _ else _) = _
  split
  · exact kept _ item
  · rfl

end Selection

section Prompts

/-- The constraints of the tables. -/
structure TablesOk (t : AnswerTables) : Prop where
  itemIds : (t.items.map (·.retrievalRunItemId)).Nodup
  runChunks : (t.items.map fun item => (item.retrievalRunId, item.documentChunkId)).Nodup
  chunkIds : (t.chunks.map (·.documentChunkId)).Nodup
  versionIds : (t.versions.map (·.documentVersionId)).Nodup
  documentIds : (t.documents.map (·.logicalDocumentId)).Nodup
  itemChunks : ∀ item ∈ t.items, ∃ chunk ∈ t.chunks, chunk.documentChunkId = item.documentChunkId
  chunkVersions : ∀ chunk ∈ t.chunks, ∃ version ∈ t.versions,
    version.documentVersionId = chunk.documentVersionId
  versionDocuments : ∀ version ∈ t.versions, ∃ document ∈ t.documents,
    document.logicalDocumentId = version.logicalDocumentId

/-- The run is at the end of its retrieval: its candidates are saved and it has no citation. -/
structure Retrieved (inputs : AskInputs) (t : AnswerTables) : Prop where
  rows : ∀ ref ∈ inputs.contextCandidates, ∃ row ∈ t.items,
    row.retrievalRunItemId = ref.runItemId ∧ row.retrievalRunId = inputs.retrievalRunId ∧
      row.documentChunkId = ref.savedItem.documentChunkId
  uncited : ∀ c ∈ t.citations, c.retrievalRunId ≠ inputs.retrievalRunId

variable {inputs : AskInputs} {t : AnswerTables}

/-- Two candidates with one saved row are candidates for one chunk. -/
theorem same_chunk (ok : TablesOk t) (retrieved : Retrieved inputs t) {ref other : ContextCandidateRef}
    (member : ref ∈ inputs.contextCandidates) (memberOther : other ∈ inputs.contextCandidates)
    (same : ref.runItemId = other.runItemId) :
    ref.candidate.chunk.documentChunkId = other.candidate.chunk.documentChunkId := by
  obtain ⟨row, inside, id, _, chunk⟩ := retrieved.rows ref member
  obtain ⟨row', inside', id', _, chunk'⟩ := retrieved.rows other memberOther
  have one : row = row' := Table.unique ok.itemIds inside inside' (by rw [id, id', same])
  rw [← ref.sameChunk, ← other.sameChunk, ← chunk, ← chunk', one]

/-- An item of the prompt carries the number of a source and the beginning of its chunk. -/
structure Numbered (inputs : AskInputs) (source : CitationSource) (item : GenerationContextItem) :
    Prop where
  number : item.localCitationId = some source.localCitationId
  chunk : item.documentChunkId = source.documentChunkId
  text : ∃ ref ∈ inputs.contextCandidates,
    ref.candidate.chunk.documentChunkId = source.documentChunkId ∧
      item.text.toList <+: (cleanText ref.candidate.chunk.contentText).toList

variable [DigitTables] [CaseFold] [Rounding] {decision : ContextBudgetDecision} {prompt : Prompt}

omit [DigitTables] [CaseFold] [Rounding] in
theorem raising_ok {E A : Type} {failure : E → AskFailure} {x : Except E A} {a : A}
    (done : raising failure x = .ok a) : x = .ok a := by
  cases x with
  | error e => cases done
  | ok b => cases done; rfl

theorem assemblePrompt_ok (done : assemblePrompt inputs decision = .ok prompt) :
    let selectedRefs := selectedContextRefs inputs.contextCandidates decision
    let sources := contextCitationSources inputs.labels inputs.citationPreviewMaxChars selectedRefs
    ∃ items, buildItems inputs.packPolicy (evidenceCandidates inputs.labels selectedRefs sources) =
        .ok items ∧ items ≠ [] ∧
      prompt.contextItems = toGenerationContextItems items ∧
      prompt.citationSources = promptCitationSources prompt.contextItems sources ∧
      prompt.contextRefs = contextRefsForCitationSources selectedRefs prompt.citationSources := by
  unfold assemblePrompt at done
  obtain ⟨items, built, done⟩ := Fallible.bind_ok done
  split at done
  · cases done
  · next some_items =>
    cases done
    exact ⟨items, raising_ok built, fun none => some_items (.inr none), rfl, rfl, rfl⟩

/-- Every item of the prompt has a source. -/
theorem prompt_numbered (ok : TablesOk t) (retrieved : Retrieved inputs t)
    (done : assemblePrompt inputs decision = .ok prompt) :
    ∀ item ∈ prompt.contextItems, ∃ source ∈ prompt.citationSources, Numbered inputs source item := by
  obtain ⟨items, built, _, shape, sources, _⟩ := assemblePrompt_ok done
  intro item member
  have made := member
  rw [shape] at made
  obtain ⟨evidence, inside, rfl⟩ := List.mem_map.mp made
  obtain ⟨c, there, citation, chunk, text⟩ := build_shown built evidence inside
  obtain ⟨ref, selected, source, known, sameItem, rfl⟩ := mem_evidenceCandidates there
  obtain ⟨other, selected', n, named⟩ := mem_sources known
  have refs : ref ∈ inputs.contextCandidates := List.mem_of_mem_filter selected
  have others : other ∈ inputs.contextCandidates := List.mem_of_mem_filter selected'
  have one : ref.candidate.chunk.documentChunkId = source.documentChunkId := by
    rw [named]
    apply same_chunk ok retrieved refs others
    rw [← sameItem, named]
    rfl
  refine ⟨source, ?_, ?_, chunk.trans one, ref, refs, one, ?_⟩
  · rw [sources]
    exact List.mem_filter.mpr
      ⟨known, List.any_eq_true.mpr ⟨_, member, beq_iff_eq.mpr (congrArg some citation)⟩⟩
  · exact congrArg some citation
  · have clean : (evidenceCandidate inputs.labels ref source.localCitationId).text.getD "" =
        cleanText ref.candidate.chunk.contentText := rfl
    rw [clean, cleanText_cleanText] at text
    exact text

theorem prompt_sources (ok : TablesOk t) (retrieved : Retrieved inputs t)
    (done : assemblePrompt inputs decision = .ok prompt) : SourcesOk prompt.citationSources := by
  have numbered := prompt_numbered ok retrieved done
  obtain ⟨items, _, some_items, shape, sources, _⟩ := assemblePrompt_ok done
  refine ⟨?_, ?_, ?_⟩
  · intro none
    obtain ⟨evidence, rest, split⟩ := List.exists_cons_of_ne_nil some_items
    rw [none, shape, split] at numbered
    obtain ⟨source, member, _⟩ := numbered _ List.mem_cons_self
    cases member
  · intro source member
    rw [sources] at member
    exact sources_numbered (List.mem_of_mem_filter member)
  · rw [sources]
    exact sources_distinct.sublist (List.filter_sublist.map _)

/-- Every source of the prompt has an item. -/
theorem source_shown (ok : TablesOk t) (retrieved : Retrieved inputs t)
    (done : assemblePrompt inputs decision = .ok prompt) :
    ∀ source ∈ prompt.citationSources, ∃ item ∈ prompt.contextItems, Numbered inputs source item := by
  have distinct := (prompt_sources ok retrieved done).distinct
  have numbered := prompt_numbered ok retrieved done
  obtain ⟨items, _, _, _, sources, _⟩ := assemblePrompt_ok done
  intro source member
  have shown := member
  rw [sources] at shown
  obtain ⟨item, inside, same⟩ := List.any_eq_true.mp (List.mem_filter.mp shown).2
  obtain ⟨other, known, named⟩ := numbered item inside
  have number : source.localCitationId = other.localCitationId := by
    have both := (beq_iff_eq.mp same).symm.trans named.number
    exact Option.some.inj both
  have one : source = other := Table.unique distinct member known number
  exact ⟨item, inside, one ▸ named⟩

end Prompts

end RagProject.Generation
