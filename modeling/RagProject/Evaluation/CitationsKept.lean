import RagProject.Evaluation.Questions
import RagProject.Generation.StoredCitations

/-! The citations of an evaluated answer: those of its text, as far as the cited passages have a
selected row. evaluate_question and the orchestrators cite selected passages only, the other
strategies number all items of the search. -/
namespace RagProject.Evaluation
open Python Markers Documents Context Generation Retrieval

section Settled
variable [DigitTables] {display : Display} {safetyFirst : Bool} {retrievalRunId : Nat}
variable {retrievedItems : List RetrievedEvaluationItem} {contextItems : List GenerationContextItem}
variable {sources : List CitationSource} {content : String} {t : AnswerTables}
variable {answer : EvaluatedAnswer} {chunks : List DocumentChunk}

/-- The text begins the text of the chunk. -/
def ClippedText (chunks : List DocumentChunk) (documentChunkId : Nat) (text : String) : Prop :=
  ∃ chunk ∈ chunks, chunk.documentChunkId = documentChunkId ∧
    text.toList <+: (cleanText chunk.contentText).toList

/-- One citation for each number of the text, with the chunk that the generator received under the
number. -/
structure CitationsKept (chunks : List DocumentChunk) (answer : EvaluatedAnswer) : Prop where
  numbers : (answer.citations.map (·.localCitationId)).Perm
    ((markerValues answer.answerText).map Int.ofNat)
  chunks : ∀ c ∈ answer.citations, ∃ item ∈ answer.contextItems,
    item.localCitationId = some c.localCitationId ∧ item.documentChunkId = c.documentChunkId ∧
      ClippedText chunks c.documentChunkId item.text
  cites : answer.citations ≠ []

/-- Every source that may be cited has an item of its number. -/
structure SourcesShown (chunks : List DocumentChunk) (contextItems : List GenerationContextItem)
    (sources : List CitationSource) : Prop where
  positive : ∀ source ∈ sources, 1 ≤ source.localCitationId
  distinct : (sources.map (·.localCitationId)).Nodup
  items : ∀ source ∈ sources, ∃ item ∈ contextItems,
    item.localCitationId = some source.localCitationId ∧
      item.documentChunkId = source.documentChunkId ∧
      ClippedText chunks source.documentChunkId item.text

omit [DigitTables] in
theorem failing_ok {E A : Type} {failure : E → QuestionFailure} {x : Except E A} {a : A}
    (done : failing failure x = .ok a) : x = .ok a := by
  cases x with
  | error e => cases done
  | ok b => cases done; rfl

theorem validate_none {parsed : ParsedGenerationOutput} {cited : List CitationSource}
    (valid : validateGenerationCitations parsed [] = .ok cited) : False := by
  unfold validateGenerationCitations at valid
  split at valid
  · cases valid
  · split at valid
    · cases valid
    · split at valid
      · cases valid
      · cases valid

theorem settle_ok (done : settle display safetyFirst retrievalRunId retrievedItems contextItems
      sources content t = .ok answer) :
    answer.answerText = normalizeAnswerText content ∧ answer.retrievedItems = retrievedItems ∧
      answer.contextItems = contextItems ∧
      (answer.answerOutcome = .answered → ∃ cited,
        validateGenerationCitations (parsedOf answer.answerText) sources = .ok cited ∧
        saveCitations t retrievalRunId cited = .ok answer.tables ∧
        answer.citations = (listCitationsForRun answer.tables retrievalRunId).map
          (citationResponse display)) := by
  unfold settle at done
  obtain ⟨parsed, parsing, done⟩ := Fallible.bind_ok done
  obtain ⟨_, rfl⟩ := parse_ok.mp (failing_ok parsing)
  obtain ⟨_, _, done⟩ := Fallible.bind_ok done
  split at done
  · cases done
    exact ⟨rfl, rfl, rfl, fun answered => nomatch answered⟩
  · obtain ⟨cited, valid, done⟩ := Fallible.bind_ok done
    obtain ⟨tables, saved, done⟩ := Fallible.bind_ok done
    cases done
    exact ⟨rfl, rfl, rfl, fun _ => ⟨cited, failing_ok valid, failing_ok saved, rfl⟩⟩

omit [DigitTables] in
theorem joined_selected {c : Citation} {record : CitationRecord}
    (member : record ∈ joinedRecords t c) :
    record.citation = c ∧ SelectedRow t.items c.retrievalRunId c.documentChunkId := by
  obtain ⟨row, selected, member⟩ := List.mem_flatMap.mp member
  obtain ⟨chunk, _, member⟩ := List.mem_flatMap.mp member
  obtain ⟨version, _, member⟩ := List.mem_flatMap.mp member
  obtain ⟨document, _, rfl⟩ := List.mem_map.mp member
  obtain ⟨inside, key⟩ := List.mem_filter.mp selected
  obtain ⟨key, flag⟩ := of_decide_eq_true key
  exact ⟨rfl, row, inside, congrArg Prod.fst key, congrArg Prod.snd key, flag⟩

theorem SourcesShown.ok (shown : SourcesShown chunks contextItems sources)
    {parsed : ParsedGenerationOutput} {cited : List CitationSource}
    (valid : validateGenerationCitations parsed sources = .ok cited) : SourcesOk sources :=
  ⟨fun none => validate_none (none ▸ valid), shown.positive, shown.distinct⟩

/-- The citations of an answer are kept exactly when the cited sources have selected rows. -/
theorem settled_kept (ok : TablesOk answer.tables)
    (uncited : ∀ c ∈ t.citations, c.retrievalRunId ≠ retrievalRunId)
    (shown : SourcesShown chunks contextItems sources)
    (done : settle display safetyFirst retrievalRunId retrievedItems contextItems sources content t =
      .ok answer) (answered : answer.answerOutcome = .answered) :
    CitationsKept chunks answer ↔
      ∀ source ∈ sources, source.localCitationId ∈ (markerValues answer.answerText).map Int.ofNat →
        SelectedRow answer.tables.items retrievalRunId source.documentChunkId := by
  obtain ⟨_, _, sameItems, settled⟩ := settle_ok done
  obtain ⟨cited, valid, saved, listed⟩ := settled answered
  obtain ⟨numbers, members, marked⟩ := cited_values (shown.ok valid) valid
  have rows := saved_rows uncited saved
  have perm := List.perm_insertionSort beforeRank (savedRows retrievalRunId cited t.nextCitationId)
  constructor
  · intro kept source member said
    have there := kept.numbers.mem_iff.mpr said
    rw [listed, List.map_map] at there
    obtain ⟨record, inside, number⟩ := List.mem_map.mp there
    unfold listCitationsForRun at inside
    rw [rows] at inside
    obtain ⟨c, sorted, joined⟩ := List.mem_flatMap.mp inside
    obtain ⟨same, selected⟩ := joined_selected joined
    obtain ⟨other, cites, run, rank, chunk⟩ := savedRows_source c (perm.mem_iff.mp sorted)
    have one : other = source := by
      apply Table.unique shown.distinct (members other cites) member
      rw [← rank, ← same]
      exact number
    rw [run, chunk, one] at selected
    exact selected
  · intro selected
    obtain ⟨citations, _⟩ := listed_rows ok rows fun source member => by
      apply selected source (members source member)
      rw [← numbers]
      exact List.mem_map_of_mem member
    have ranks : answer.citations.map (·.localCitationId) =
        ((savedRows retrievalRunId cited t.nextCitationId).insertionSort beforeRank).map
          (·.rankOrder) := by
      rw [listed, List.map_map, ← citations, List.map_map]
      rfl
    have all : (answer.citations.map (·.localCitationId)).Perm
        ((markerValues answer.answerText).map Int.ofNat) := by
      rw [ranks, ← numbers, ← savedRows_ranks]
      exact perm.map _
    refine ⟨all, fun c member => ?_, fun none => ?_⟩
    · rw [listed] at member
      obtain ⟨record, inside, rfl⟩ := List.mem_map.mp member
      have saved : record.citation ∈ savedRows retrievalRunId cited t.nextCitationId := by
        rw [← perm.mem_iff, ← citations]
        exact List.mem_map_of_mem inside
      obtain ⟨source, cites, _, rank, chunk⟩ := savedRows_source _ saved
      obtain ⟨item, received, number, same, text⟩ := shown.items source (members source cites)
      rw [sameItems]
      rw [← rank] at number
      rw [← chunk] at same text
      exact ⟨item, received, number, same, text⟩
    · rw [none] at all
      exact marked (List.map_eq_nil_iff.mp all.nil_eq.symm)

end Settled

section Contexts
variable {chunks : List DocumentChunk} {sources : List CitationSource}

/-- An item shows a passage: its number, and the beginning of its text. -/
def ShowsPassage (passage : Passage) (item : GenerationContextItem) : Prop :=
  ∃ text, passage.contentText = some text ∧
    item.localCitationId = some passage.localCitationId ∧
    item.documentChunkId = passage.documentChunkId ∧ item.text.toList <+: (cleanText text).toList

theorem clipped_passage {passages : List Passage} {remaining : Nat} :
    ∀ item ∈ clipPassages remaining passages, ∃ passage ∈ passages, ShowsPassage passage item := by
  induction passages generalizing remaining with
  | nil =>
    intro item member
    cases remaining <;> cases member
  | cons passage passages ih =>
    intro item member
    have later {m : Nat} (inside : item ∈ clipPassages m passages) :
        ∃ other ∈ passage :: passages, ShowsPassage other item := by
      obtain ⟨other, there, shows_item⟩ := ih item inside
      exact ⟨other, List.mem_cons_of_mem _ there, shows_item⟩
    cases remaining with
    | zero => cases member
    | succ remaining =>
      rw [clipPassages] at member
      split at member
      · exact later member
      · exact later member
      · rename_i text _ shown
        rcases List.mem_cons.mp member with rfl | inside
        · obtain ⟨original, given, rfl⟩ := Option.map_eq_some_iff.mp shown
          refine ⟨passage, List.mem_cons_self, original, given, rfl, rfl, ?_⟩
          rw [String.toList_ofList]
          exact List.take_prefix _ _
        · exact later inside

/-- The sources of the prompt are shown, where the passages have the numbers of the sources. -/
theorem passages_shown {passages : List Passage} {remaining : Nat}
    (positive : ∀ source ∈ sources, 1 ≤ source.localCitationId)
    (distinct : (sources.map (·.localCitationId)).Nodup)
    (aligned : ∀ passage ∈ passages, ∃ source ∈ sources,
      source.localCitationId = passage.localCitationId ∧
        source.documentChunkId = passage.documentChunkId)
    (texts : ∀ passage ∈ passages, ∀ text, passage.contentText = some text → ∃ chunk ∈ chunks,
      chunk.documentChunkId = passage.documentChunkId ∧ chunk.contentText = text) :
    SourcesShown chunks (clipPassages remaining passages)
      (promptCitationSources (clipPassages remaining passages) sources) where
  positive source member := positive source (List.mem_of_mem_filter member)
  distinct := distinct.sublist (List.filter_sublist.map _)
  items source member := by
    obtain ⟨known, received⟩ := List.mem_filter.mp member
    obtain ⟨item, inside, number⟩ := List.any_eq_true.mp received
    obtain ⟨passage, there, text, given, named, chunk, clipped⟩ := clipped_passage item inside
    obtain ⟨other, listed, same, sameChunk⟩ := aligned passage there
    have one : other = source := by
      apply Table.unique distinct listed known
      rw [same]
      exact Option.some.inj (named.symm.trans (beq_iff_eq.mp number))
    obtain ⟨row, stored, id, content⟩ := texts passage there text given
    rw [one] at sameChunk
    refine ⟨item, inside, beq_iff_eq.mp number, chunk.trans sameChunk.symm, row, stored,
      id.trans sameChunk.symm, ?_⟩
    rw [content]
    exact clipped

theorem numbered_positive {A : Type} (number : A × Nat → CitationSource)
    (numbers : ∀ e, (number e).localCitationId = (e.2 : Int)) (found : List A) :
    (∀ source ∈ (found.zipIdx 1).map number, 1 ≤ source.localCitationId) ∧
      (((found.zipIdx 1).map number).map (·.localCitationId)).Nodup := by
  have ids : ((found.zipIdx 1).map number).map (·.localCitationId) =
      (List.range' 1 found.length).map Int.ofNat := by
    rw [List.map_map, ← List.zipIdx_map_snd 1 found, List.map_map]
    exact List.map_congr_left fun e _ => numbers e
  constructor
  · intro source member
    have there := List.mem_map_of_mem (f := (·.localCitationId)) member
    rw [ids] at there
    obtain ⟨n, inside, same⟩ := List.mem_map.mp there
    rw [List.mem_range'_1] at inside
    have cast : source.localCitationId = (n : Int) := same.symm
    omega
  · rw [ids]
    exact List.Nodup.map (fun a b same => Int.ofNat.inj same) List.nodup_range'

theorem search_shown (chunks : List DocumentChunk) (items : List RagSearchItem) (maxChars : Nat) :
    SourcesShown chunks (contextItemsFromSearchItems chunks items maxChars)
      (promptCitationSources (contextItemsFromSearchItems chunks items maxChars)
        (searchCitationSources items)) := by
  obtain ⟨positive, distinct⟩ := numbered_positive
    (fun e : RagSearchItem × Nat => citationSourceFromSearchItem e.2 e.1) (fun _ => rfl) items
  apply passages_shown positive distinct
  · intro passage member
    obtain ⟨e, inside, rfl⟩ := List.mem_map.mp member
    exact ⟨_, List.mem_map_of_mem inside, rfl, rfl⟩
  · intro passage member text given
    obtain ⟨e, _, rfl⟩ := List.mem_map.mp member
    obtain ⟨chunk, found, same⟩ := Option.map_eq_some_iff.mp given
    obtain ⟨stored, id⟩ := Table.mem_of_row found
    exact ⟨chunk, stored, id, same⟩

end Contexts

section Searches
variable {display : Display} {settings : PipelineSettings} [Rounding] {retrievalRunId : Nat}
variable {t t' : RunItems} {result : RetrievalPipelineResult} {selects : Nat → Bool}
variable {ranks : List Nat} {entries : List PipelineEntry}

/-- The chunk of a returned item has a selected row as the search selects the item. -/
theorem searched_selected
    (searched : Searched display settings retrievalRunId t t' result selects ranks entries)
    (distinct : (t'.rows.map fun item => (item.retrievalRunId, item.documentChunkId)).Nodup)
    {i : Nat} {item : RagSearchItem} (returned : result.items[i]? = some item) :
    SelectedRow t'.rows retrievalRunId item.documentChunkId ↔ selects i = true := by
  rw [searched.items, savedCandidates, List.map_map, List.getElem?_map, List.getElem?_zipIdx]
    at returned
  obtain ⟨⟨e, id⟩, there, shape⟩ := Option.map_eq_some_iff.mp returned
  obtain ⟨e', at_i, same⟩ := Option.map_eq_some_iff.mp there
  cases same
  have sameChunk : item.documentChunkId = e.input.documentChunkId := by
    rw [e.sameChunk, ← shape]
    rfl
  have stored : savedItem retrievalRunId (t.nextId + i) e.input ∈ t'.rows := by
    rw [saveItems_rows searched.saved]
    apply List.mem_append_right
    apply List.mem_of_getElem? (i := i)
    rw [List.getElem?_map, List.getElem?_zipIdx, List.getElem?_map, at_i]
    rfl
  have flag : (savedItem retrievalRunId (t.nextId + i) e.input).selectedFlag = selects i :=
    (searched.flags e (List.mem_of_getElem? at_i)).trans (searched.selected i e at_i)
  constructor
  · rintro ⟨row, inside, run, chunk, selected⟩
    have one : row = savedItem retrievalRunId (t.nextId + i) e.input := by
      apply Table.unique distinct inside stored
      exact Prod.ext run (chunk.trans sameChunk)
    rw [← flag, ← one]
    exact selected
  · intro selected
    exact ⟨_, stored, rfl, sameChunk.symm, flag.trans selected⟩

end Searches

section Answers
variable [DigitTables] [Rounding] {services : RetrievalServices} {display : Display}
variable {settings : QuestionSettings} {generate : EvaluationRequest → Option String}
variable {question : String} {request : SearchRequest} {t : QuestionTables}
variable {answer : EvaluatedAnswer}

/-- An output of the generator, on the first try or on the second one. -/
def Generated (generate : EvaluationRequest → Option String) (content : String) : Prop :=
  ∃ asked, generate asked = some content

omit [Rounding] in
theorem generateAnswer_ok {asked : EvaluationRequest} {content : String}
    (done : generateAnswer generate asked = .ok content) : Generated generate content := by
  unfold generateAnswer at done
  split at done
  · cases done
  · rename_i first answered
    obtain ⟨again, _, done⟩ := Fallible.bind_ok done
    split at done
    · cases second : generate (citationRetryRequest asked) with
      | none =>
        rw [second] at done
        cases done
        exact ⟨asked, answered⟩
      | some content =>
        rw [second] at done
        cases done
        exact ⟨_, second⟩
    · cases done
      exact ⟨asked, answered⟩

omit [Rounding] in
theorem answerFromSearch_ok {graph : Bool} {retrievalRunId : Nat}
    {response : RetrievalPipelineResult} {t : AnswerTables}
    (done : answerFromSearch display settings generate question graph retrievalRunId response t =
      .ok answer) :
    let contextItems := contextItemsFromSearchItems t.chunks response.items
      settings.generationMaxContextChars
    ∃ content, Generated generate content ∧
      settle display false retrievalRunId (response.items.map retrievedItemFromSearchItem)
        contextItems (promptCitationSources contextItems (searchCitationSources response.items))
        content t = .ok answer := by
  unfold answerFromSearch at done
  split at done
  · split at done
    · cases done
    · cases done
  · simp only at done
    split at done
    · cases done
    · obtain ⟨content, produced, done⟩ := Fallible.bind_ok done
      exact ⟨content, generateAnswer_ok produced, done⟩

omit [Rounding] in
theorem settled_items {safetyFirst : Bool} {retrievalRunId : Nat}
    {retrievedItems : List RetrievedEvaluationItem} {contextItems : List GenerationContextItem}
    {sources : List CitationSource} {content : String} {t : AnswerTables}
    (done : settle display safetyFirst retrievalRunId retrievedItems contextItems sources content t =
      .ok answer) (answered : answer.answerOutcome = .answered) : answer.tables.items = t.items := by
  obtain ⟨_, _, _, settled⟩ := settle_ok done
  obtain ⟨cited, _, saved, _⟩ := settled answered
  rw [saveCitations_ok saved]

/-- Every number of the output is the number of an item that the search selects. -/
def CitesSelected (display : Display) (settings : QuestionSettings)
    (request : SearchRequest) (t : QuestionTables) (cached : Option CachedRetrievalPayload)
    (path : SearchPath) (content : String) : Prop :=
  ∀ n ∈ markerValues (normalizeAnswerText content),
    searchSelects display settings.pipeline request t.db cached path t.runItems (n - 1) = true

omit [DigitTables] [Rounding] in
theorem mem_searchSources {items : List RagSearchItem} {source : CitationSource}
    (member : source ∈ searchCitationSources items) : ∃ i item, items[i]? = some item ∧
      source.localCitationId = ((i + 1 : Nat) : Int) ∧
      source.documentChunkId = item.documentChunkId := by
  obtain ⟨⟨item, n⟩, inside, rfl⟩ := List.mem_map.mp member
  obtain ⟨i, at_i⟩ := List.mem_iff_getElem?.mp inside
  rw [List.getElem?_zipIdx] at at_i
  obtain ⟨other, there, same⟩ := Option.map_eq_some_iff.mp at_i
  cases same
  exact ⟨i, item, there, by rw [Nat.add_comm]; rfl, rfl⟩

theorem search_kept {cached : Option CachedRetrievalPayload} {path : SearchPath}
    (ok : TablesOk answer.tables) (uncited : ∀ c ∈ t.citations, c.retrievalRunId ≠ request.retrievalRunId)
    (done : answerQuestionWithStrategy display services settings generate question request t cached
      path = .ok answer) (answered : answer.answerOutcome = .answered) :
    ∃ content, Generated generate content ∧ answer.answerText = normalizeAnswerText content ∧
      (CitationsKept t.db.chunks answer ↔
        CitesSelected display settings request t cached path content) := by
  unfold answerQuestionWithStrategy at done
  obtain ⟨⟨response, runItems⟩, found, done⟩ := Fallible.bind_ok done
  obtain ⟨entries, searched⟩ := search_searched (failing_ok found)
  obtain ⟨content, produced, settled⟩ := answerFromSearch_ok done
  have items : answer.tables.items = runItems.rows := settled_items settled answered
  have shown := search_shown t.db.chunks response.items settings.generationMaxContextChars
  have kept := settled_kept ok uncited shown settled answered
  obtain ⟨text, _, _, steps⟩ := settle_ok settled
  obtain ⟨cited, valid, _⟩ := steps answered
  obtain ⟨numbers, members, _⟩ := cited_values (shown.ok valid) valid
  have distinct := ok.runChunks
  rw [items] at distinct
  refine ⟨content, produced, text, kept.trans ?_⟩
  rw [text] at numbers ⊢
  rw [items]
  constructor
  · intro selected n said
    have numbered : (n : Int) ∈ cited.map (·.localCitationId) := by
      rw [numbers]
      exact List.mem_map_of_mem said
    obtain ⟨source, cites, number⟩ := List.mem_map.mp numbered
    have prompted := members source cites
    obtain ⟨i, item, returned, index, chunk⟩ := mem_searchSources (List.mem_of_mem_filter prompted)
    have row := selected source prompted (number ▸ List.mem_map_of_mem said)
    rw [chunk] at row
    have place : i = n - 1 := by
      rw [number] at index
      omega
    rw [← place]
    exact (searched_selected searched distinct returned).mp row
  · intro selected source prompted said
    obtain ⟨i, item, returned, index, chunk⟩ := mem_searchSources (List.mem_of_mem_filter prompted)
    obtain ⟨n, value, same⟩ := List.mem_map.mp said
    have place : i = n - 1 := by
      have cast : (n : Int) = source.localCitationId := same
      omega
    rw [chunk]
    apply (searched_selected searched distinct returned).mpr
    rw [place]
    exact selected n value

omit [DigitTables] in
theorem savedResult_ok {settings : PipelineSettings} {entries : List PipelineEntry}
    {selectedCount : Nat} {summary : RetrievalScoreSummary} {t t' : RunItems}
    {result : RetrievalPipelineResult}
    (done : savedResult display settings request entries selectedCount summary t =
      .ok (result, t')) :
    let saved := savedCandidates request.retrievalRunId t.nextId entries
    result = pipelineResult display settings summary saved (saved.take selectedCount) false := by
  unfold savedResult at done
  split at done
  · cases done
  · cases done
    rfl

theorem dense_stored {source : RetrievalSource} {db : Db} : ∀ c ∈
    (RetrievalPath.dense source).delivers services request db, c.chunk ∈ db.chunks := by
  intro c member
  simp only [RetrievalPath.delivers] at member
  cases found : services.vectorSearch request.query request.topK request.filters with
  | none =>
    rw [found] at member
    cases answered : rerankResults services request [] with
    | none =>
      simp only [Option.elim_none, answered] at member
      cases member
    | some results =>
      simp only [Option.elim_none, answered, Option.elim_some] at member
      cases member
  | some hits =>
    simp only [found, Option.elim_some] at member
    cases answered : rerankResults services request
        (finalCheckCandidates request.filters db hits) with
    | none =>
      rw [answered] at member
      cases member
    | some results =>
      rw [answered] at member
      obtain ⟨pair, there, rfl⟩ := List.mem_map.mp member
      exact (finalCheck_holds (reranked_mem there)).joined.stored

omit [DigitTables] [Rounding] in
theorem zip_numbered {A B C : Type} (f : A → B) (g : A × Nat → C) (found : List A) :
    (found.map f).zip ((found.zipIdx 1).map g) = (found.zipIdx 1).map fun e => (f e.1, g e) := by
  have numbered : found.map f = (found.zipIdx 1).map fun e => f e.1 := by
    conv_lhs => rw [← List.zipIdx_map_fst 1 found]
    rw [List.map_map]
    rfl
  rw [numbered, List.zip_map']

omit [DigitTables] in
/-- The selected candidates are shown under the numbers of their sources. -/
theorem selected_shown {settings : PipelineSettings} {chunks : List DocumentChunk}
    {summary : RetrievalScoreSummary} {saved selected : List SavedCandidate} {noContext : Bool}
    (stored : ∀ row ∈ selected, row.entry.candidate.chunk ∈ chunks) (maxChars : Nat) :
    let result := pipelineResult display settings summary saved selected noContext
    let contextItems := assembleContext display result.selectedCandidates result.citationSources
      maxChars
    SourcesShown chunks contextItems
      (promptCitationSources contextItems result.citationSources) := by
  intro result
  obtain ⟨positive, distinct⟩ := numbered_positive
    (fun e : SavedCandidate × Nat => citationSource display.labels settings.citationPreviewMaxChars
      (contextRef e.1 e.2) e.2) (fun _ => rfl) selected
  have pairs : result.selectedCandidates.zip result.citationSources =
      (selected.zipIdx 1).map fun e => (e.1.entry.candidate, citationSource display.labels
        settings.citationPreviewMaxChars (contextRef e.1 e.2) e.2) := zip_numbered _ _ selected
  unfold assembleContext
  rw [pairs, List.map_map]
  apply passages_shown positive distinct
  · intro passage member
    obtain ⟨e, inside, rfl⟩ := List.mem_map.mp member
    exact ⟨_, List.mem_map_of_mem inside, rfl, rfl⟩
  · intro passage member text given
    obtain ⟨e, inside, rfl⟩ := List.mem_map.mp member
    exact ⟨_, stored e.1 (List.fst_mem_of_mem_zipIdx inside), rfl, Option.some.inj given⟩

/-- On the default strategy the selected candidates are cited only. -/
theorem evaluated_kept (ok : TablesOk answer.tables)
    (uncited : ∀ c ∈ t.citations, c.retrievalRunId ≠ request.retrievalRunId)
    (done : evaluateQuestion display services settings generate question request t = .ok answer)
    (answered : answer.answerOutcome = .answered) : CitationsKept t.db.chunks answer := by
  unfold evaluateQuestion at done
  obtain ⟨⟨result, runItems⟩, found, done⟩ := Fallible.bind_ok done
  obtain ⟨entries, searched⟩ := dense_searched (failing_ok found)
  by_cases none_selected : result.selectedCandidates = []
  · simp only [none_selected, if_true] at done
    cases done
  · simp only [if_neg none_selected] at done
    obtain ⟨content, _, settled⟩ := Fallible.bind_ok done
    have items : answer.tables.items = runItems.rows := settled_items settled answered
    have distinct := ok.runChunks
    rw [items] at distinct
    rcases dense_saved (failing_ok found) with ⟨_, _, summary, rfl⟩ |
        ⟨ordered, summary, delivered, saved⟩
    · exact absurd rfl none_selected
    · have shape := savedResult_ok saved
      simp only at shape
      have stored : ∀ row ∈ savedCandidates request.retrievalRunId t.runItems.nextId
          (rerankedEntries display .dense ordered (min request.rerankTopN ordered.length)),
            row.entry.candidate.chunk ∈ t.db.chunks := by
        intro row member
        obtain ⟨e, inside, rfl⟩ := List.mem_map.mp member
        obtain ⟨pair, there, same⟩ := List.mem_map.mp (List.fst_mem_of_mem_zipIdx inside)
        have inside_path : e.1.candidate ∈
            (RetrievalPath.dense .dense).delivers services request t.db := by
          rw [delivered, ← same]
          exact List.mem_map_of_mem (List.fst_mem_of_mem_zipIdx there)
        exact dense_stored _ inside_path
      generalize savedCandidates request.retrievalRunId t.runItems.nextId _ = rows at shape stored
      rw [shape] at settled
      refine (settled_kept ok uncited ?_ settled answered).mpr ?_
      · exact selected_shown (fun row member => stored row (List.mem_of_mem_take member)) _
      intro source prompted _
      obtain ⟨e, inside, rfl⟩ := List.mem_map.mp (List.mem_of_mem_filter prompted)
      obtain ⟨i, at_i⟩ := List.mem_iff_getElem?.mp (List.fst_mem_of_mem_zipIdx inside)
      rw [List.getElem?_take] at at_i
      split at at_i
      · rename_i early
        have returned : result.items[i]? = some (responseItem display settings.pipeline e.1) := by
          rw [shape]
          show (rows.map _)[i]? = _
          rw [List.getElem?_map, at_i]
          rfl
        have chosen : decide (i < request.rerankTopN) = true := decide_eq_true (by omega)
        rw [items]
        exact (searched_selected searched distinct returned).mpr chosen
      · cases at_i

end Answers

section Orchestrated
variable [DigitTables] [CaseFold] [Rounding] {display : Display} {settings : QuestionSettings}
variable {generate : EvaluationRequest → Option String} {question : String} {inputs : AskInputs}
variable {t : AnswerTables} {answer : EvaluatedAnswer}

/-- An orchestrator selects the rows behind its prompt before it asks the generator. -/
theorem orchestrated_kept (ok : TablesOk t) (retrieved : Generation.Retrieved inputs t)
    (done : answerOrchestrated display settings generate question inputs t = .ok answer)
    (answered : answer.answerOutcome = .answered) :
    CitationsKept (inputs.contextCandidates.map (·.candidate.chunk)) answer := by
  unfold answerOrchestrated at done
  obtain ⟨⟨decision, applied⟩, budget, done⟩ := Fallible.bind_ok done
  obtain ⟨prompt, assembling, done⟩ := Fallible.bind_ok done
  obtain ⟨t', finalizing, done⟩ := Fallible.bind_ok done
  obtain ⟨content, _, settled⟩ := Fallible.bind_ok done
  have budgeted := failing_ok budget
  unfold applyContextBudget at budgeted
  obtain ⟨_, decided, budgeted⟩ := Fallible.bind_ok budgeted
  cases budgeted
  have assembled := failing_ok assembling
  obtain ⟨ok', retrieved', selected⟩ := finalized ok retrieved (apply_ids (raising_ok decided))
    assembled (failing_ok finalizing)
  have sourcesOk := prompt_sources ok retrieved assembled
  have shown : SourcesShown (inputs.contextCandidates.map (·.candidate.chunk)) prompt.contextItems
      prompt.citationSources := by
    refine ⟨sourcesOk.positive, sourcesOk.distinct, fun source member => ?_⟩
    obtain ⟨item, inside, numbered⟩ := source_shown ok retrieved assembled source member
    obtain ⟨ref, candidate, chunk, text⟩ := numbered.text
    exact ⟨item, inside, numbered.number, numbered.chunk, _, List.mem_map_of_mem candidate, chunk,
      text⟩
  have committed : TablesOk answer.tables := by
    obtain ⟨_, _, _, steps⟩ := settle_ok settled
    obtain ⟨cited, _, saved, _⟩ := steps answered
    exact saved_ok ok' saved
  apply (settled_kept committed retrieved'.uncited shown settled answered).mpr
  intro source prompted _
  rw [settled_items settled answered]
  exact selected source prompted

end Orchestrated

section Theorem
variable [DigitTables] [CaseFold] [Rounding]

/-- A search keeps the citations exactly when the answer cites selected items only; evaluate_question
on the default strategy and the orchestrators always keep them. -/
theorem evaluated_citations_kept :
    (∀ display services settings generate question request t cached path answer,
      TablesOk answer.tables → (∀ c ∈ t.citations, c.retrievalRunId ≠ request.retrievalRunId) →
      answerQuestionWithStrategy display services settings generate question request t cached path =
        .ok answer → answer.answerOutcome = .answered →
      ∃ content, Generated generate content ∧ answer.answerText = normalizeAnswerText content ∧
        (CitationsKept t.db.chunks answer ↔
          CitesSelected display settings request t cached path content)) ∧
    (∀ display services settings generate question request t answer,
      TablesOk answer.tables → (∀ c ∈ t.citations, c.retrievalRunId ≠ request.retrievalRunId) →
      evaluateQuestion display services settings generate question request t = .ok answer →
      answer.answerOutcome = .answered → CitationsKept t.db.chunks answer) ∧
    ∀ display settings generate question inputs t answer, TablesOk t →
      Generation.Retrieved inputs t →
      answerOrchestrated display settings generate question inputs t = .ok answer →
      answer.answerOutcome = .answered →
      CitationsKept (inputs.contextCandidates.map (·.candidate.chunk)) answer :=
  ⟨fun _ _ _ _ _ _ _ _ _ _ ok uncited done answered => search_kept ok uncited done answered,
    fun _ _ _ _ _ _ _ _ ok uncited done answered => evaluated_kept ok uncited done answered,
    fun _ _ _ _ _ _ _ ok retrieved done answered => orchestrated_kept ok retrieved done answered⟩

end Theorem

section Runs

def hotelChunk : DocumentChunk :=
  ⟨2, 1, 1, "hash", "Hotels cost up to 100 a night.", none, none, none, none, none, none, "text", 0⟩

def travelQuestion : QuestionTables where
  db := ⟨[travelDocument], [travelVersion], [travelChunk, hotelChunk], [], 1, none, none, none⟩
  runItems := ⟨[], 1⟩
  citations := []
  nextCitationId := 1

/-- Two candidates, which the reranker turns round. -/
def travelServices : RetrievalServices where
  vectorSearch _ _ _ := some [⟨⟨some 1, .finite (9 / 10)⟩, []⟩, ⟨⟨some 2, .finite (8 / 10)⟩, []⟩]
  sparseSearch _ _ _ := none
  fuse denseCandidates _ _ _ := denseCandidates
  rerank _ candidates := some ((candidates.reverse.zipIdx 1).map fun e =>
    ⟨e.1.documentChunkId, 1 / e.2, e.2⟩)
  average _ := 0

def travelDisplay : Display where
  sourceLabel rows := rows.fileName
  safeDisplayText := id
  sourceType _ := "upload"
  sourceUrl _ := none
  payloadSnapshot rows := [("logical_document_id", .int rows.logicalDocumentId)]
  scoreBreakdown _ _ _ _ _ _ := []

def travelSettings : QuestionSettings := ⟨⟨240, 240⟩, 4000, 8000⟩

/-- Five candidates at most, and the first one is selected. -/
def travelRequest : SearchRequest := ⟨"flights", 5, 1, ⟨[], "text"⟩, 1⟩

instance (t : AnswerTables) : Decidable (TablesOk t) :=
  decidable_of_iff ((t.items.map (·.retrievalRunItemId)).Nodup ∧
      (t.items.map fun item => (item.retrievalRunId, item.documentChunkId)).Nodup ∧
      (t.chunks.map (·.documentChunkId)).Nodup ∧ (t.versions.map (·.documentVersionId)).Nodup ∧
      (t.documents.map (·.logicalDocumentId)).Nodup ∧
      (∀ item ∈ t.items, ∃ chunk ∈ t.chunks, chunk.documentChunkId = item.documentChunkId) ∧
      (∀ chunk ∈ t.chunks, ∃ version ∈ t.versions,
        version.documentVersionId = chunk.documentVersionId) ∧
      ∀ version ∈ t.versions, ∃ document ∈ t.documents,
        document.logicalDocumentId = version.logicalDocumentId)
    ⟨fun ⟨a, b, c, d, e, f, g, h⟩ => ⟨a, b, c, d, e, f, g, h⟩,
      fun ok => ⟨ok.itemIds, ok.runChunks, ok.chunkIds, ok.versionIds, ok.documentIds,
        ok.itemChunks, ok.chunkVersions, ok.versionDocuments⟩⟩

/-- The test of what a run returns. -/
def answersWith (p : EvaluatedAnswer → Bool) : Except QuestionFailure EvaluatedAnswer → Bool
  | .ok answer => p answer
  | .error _ => false

theorem answersWith_ok {p : EvaluatedAnswer → Bool} {r : Except QuestionFailure EvaluatedAnswer}
    (checked : answersWith p r = true) : ∃ answer, r = .ok answer ∧ p answer = true := by
  cases r with
  | error e => cases checked
  | ok answer => exact ⟨answer, rfl, checked⟩

theorem evaluated_citations_travel :
    let _ : DigitTables := asciiDigits
    let _ : CaseFold := asciiCaseFold
    let _ : Rounding := exactRounding
    (∃ answer, answerQuestionWithStrategy travelDisplay travelServices travelSettings
        (fun _ => some "Hotels [1].") "What do hotels cost?" travelRequest travelQuestion none
        (.direct (.dense .dense)) = .ok answer ∧ CitationsKept travelQuestion.db.chunks answer) ∧
    (∃ answer, evaluateQuestion travelDisplay travelServices travelSettings
        (fun _ => some "Hotels [1].") "What do hotels cost?" travelRequest travelQuestion =
          .ok answer ∧ CitationsKept travelQuestion.db.chunks answer) ∧
    ∃ answer, answerOrchestrated travelDisplay travelSettings (fun _ => some "Economy [1].")
        "How are flights booked?" travelInputs travelTables = .ok answer ∧
      CitationsKept [travelChunk] answer := by
  intro _ _ _
  have uncited : ∀ c ∈ travelQuestion.citations, c.retrievalRunId ≠ travelRequest.retrievalRunId :=
    fun _ none => nomatch none
  refine ⟨?_, ?_, ?_⟩
  · obtain ⟨answer, run, checked⟩ := answersWith_ok (r := answerQuestionWithStrategy travelDisplay
      travelServices travelSettings (fun _ => some "Hotels [1].") "What do hotels cost?"
      travelRequest travelQuestion none (.direct (.dense .dense)))
      (p := fun answer => decide (TablesOk answer.tables ∧ answer.answerOutcome = .answered ∧
        answer.answerText = "Hotels [1].")) (by decide +kernel)
    obtain ⟨ok, answered, shown⟩ := of_decide_eq_true checked
    obtain ⟨content, _, text, kept⟩ :=
      evaluated_citations_kept.1 _ _ _ _ _ _ _ _ _ _ ok uncited run answered
    refine ⟨answer, run, kept.mpr ?_⟩
    unfold CitesSelected
    rw [← text, shown]
    decide +kernel
  · obtain ⟨answer, run, checked⟩ := answersWith_ok (r := evaluateQuestion travelDisplay
      travelServices travelSettings (fun _ => some "Hotels [1].") "What do hotels cost?"
      travelRequest travelQuestion)
      (p := fun answer => decide (TablesOk answer.tables ∧ answer.answerOutcome = .answered))
      (by decide +kernel)
    obtain ⟨ok, answered⟩ := of_decide_eq_true checked
    exact ⟨answer, run,
      evaluated_citations_kept.2.1 _ _ _ _ _ _ _ _ ok uncited run answered⟩
  · obtain ⟨answer, run, checked⟩ := answersWith_ok (r := answerOrchestrated travelDisplay
      travelSettings (fun _ => some "Economy [1].") "How are flights booked?" travelInputs
      travelTables)
      (p := fun answer => decide (answer.answerOutcome = .answered)) (by decide +kernel)
    have ok : TablesOk travelTables := by decide
    have retrieved : Generation.Retrieved travelInputs travelTables := by
      constructor
      · intro ref member
        cases List.mem_singleton.mp member
        exact ⟨travelItem, List.mem_cons_self, rfl, rfl, rfl⟩
      · exact fun _ none => nomatch none
    exact ⟨answer, run, evaluated_citations_kept.2.2 _ _ _ _ _ _ _ ok retrieved run
      (of_decide_eq_true checked)⟩

/-- An answer that cites the second passage is returned without citations. -/
theorem second_passage_lost :
    let _ : DigitTables := asciiDigits
    let _ : Rounding := exactRounding
    ∃ answer, answerQuestionWithStrategy travelDisplay travelServices travelSettings
        (fun _ => some "Economy [2].") "How are flights booked?" travelRequest travelQuestion none
        (.direct (.dense .dense)) = .ok answer ∧
      answer.answerOutcome = .answered ∧ TablesOk answer.tables ∧
      ¬CitationsKept travelQuestion.db.chunks answer := by
  intro _ _
  obtain ⟨answer, run, checked⟩ := answersWith_ok (r := answerQuestionWithStrategy travelDisplay
    travelServices travelSettings (fun _ => some "Economy [2].") "How are flights booked?"
    travelRequest travelQuestion none (.direct (.dense .dense)))
    (p := fun answer => decide (answer.answerOutcome = .answered ∧ TablesOk answer.tables ∧
      answer.citations = [])) (by decide +kernel)
  obtain ⟨answered, ok, none⟩ := of_decide_eq_true checked
  exact ⟨answer, run, answered, ok, fun kept => kept.cites none⟩

end Runs

end RagProject.Evaluation
