import RagProject.Generation.PromptSources
import RagProject.Generation.StoredSafe

/-! The citations of a stored answer: one for each number in its text, read back with the chunk that
the prompt showed under the number. -/
namespace RagProject.Generation
open Python Markers Context Documents Retrieval

section Validated
variable [DigitTables] {content : String} {contextItems : List GenerationContextItem}
  {first : CitationSource} {rest cited : List CitationSource} {allowInsufficient allow flag : Bool}
  {parsed : ParsedGenerationOutput}

theorem parse_parsed {content : String} (done : parseGenerationOutput content = .ok parsed) :
    parsed = parsedOf parsed.answerText := by
  obtain ⟨_, rfl⟩ := parse_ok.mp done
  rfl

theorem insufficient_valid
    (done : insufficientCitationFallback (first :: rest) = .ok (parsed, cited)) :
    parsed = parsedOf parsed.answerText ∧
      validateGenerationCitations parsed (first :: rest) = .ok cited := by
  unfold insufficientCitationFallback at done
  obtain ⟨out, parsing, done⟩ := Fallible.bind_ok done
  obtain ⟨found, valid, done⟩ := Fallible.bind_ok done
  cases done
  exact ⟨parse_parsed parsing, valid⟩

/-- What is returned has been parsed and validated. -/
theorem validated_valid
    (done : validatedGenerationOrFallback content contextItems (first :: rest) allowInsufficient
      allow = .ok (parsed, cited, flag)) :
    parsed = parsedOf parsed.answerText ∧
      validateGenerationCitations parsed (first :: rest) = .ok cited := by
  rcases validated_cases done with ⟨_, fallback⟩ | ⟨_, _, ⟨valid, rfl⟩ | ⟨_, _, repaired⟩⟩
  · exact insufficient_valid fallback
  · exact ⟨rfl, valid⟩
  · rcases repair_cases repaired with ⟨_, fallback⟩ | ⟨_, again, valid⟩
    · exact insufficient_valid fallback
    · exact ⟨parse_parsed again, valid⟩

/-- A repair of a parsed answer does not raise while the first source has a short number. -/
theorem repair_total (ok : SourcesOk (first :: rest))
    (small : first.localCitationId < 10 ^ maxMarkerDigits)
    (parsing : parseGenerationOutput content = .ok parsed) :
    ∃ out, repairGenerationCitations parsed (first :: rest) = .ok out := by
  obtain ⟨short, rfl⟩ := parse_ok.mp parsing
  have one := ok.positive first List.mem_cons_self
  obtain ⟨n, number⟩ := Int.eq_ofNat_of_zero_le (Int.le_trans (by decide : (0 : Int) ≤ 1) one)
  by_cases more : SaysMore content
  · obtain ⟨cited, repaired⟩ := repair_runs ok number short more (small_repaired ok number short small)
    exact ⟨_, repaired⟩
  · obtain ⟨out, fallback⟩ := (fallback_iff ok).mpr small
    have unsaid := not_not.mp (mt saysMore_iff.mp more)
    refine ⟨out, ?_⟩
    unfold repairGenerationCitations
    simp only [parsedOf_text, unsaid, if_true, fallback]

end Validated

section Saving
variable {t t' : AnswerTables} {retrievalRunId : Nat}

/-- The rows of the cited sources, in their order. -/
def savedRows (retrievalRunId : Nat) (cited : List CitationSource) (next : Nat) : List Citation :=
  (cited.zipIdx next).map fun entry => citationOf entry.1 retrievalRunId entry.2

theorem insertCitation_ok {source : CitationSource}
    (done : insertCitation retrievalRunId t source = .ok t') :
    t' = { t with
      citations := t.citations ++ [citationOf source retrievalRunId t.nextCitationId]
      nextCitationId := t.nextCitationId + 1 } := by
  unfold insertCitation at done
  simp only at done
  split at done
  · cases done
  · split at done
    · cases done
    · split at done
      · cases done
      · cases done
        rfl

theorem saveCitations_ok {cited : List CitationSource}
    (done : saveCitations t retrievalRunId cited = .ok t') :
    t' = { t with
      citations := t.citations ++ savedRows retrievalRunId cited t.nextCitationId
      nextCitationId := t.nextCitationId + cited.length } := by
  unfold saveCitations at done
  induction cited generalizing t with
  | nil =>
    cases done
    simp [savedRows]
  | cons source cited ih =>
    rw [List.foldlM_cons] at done
    obtain ⟨next, head, tail⟩ := Fallible.bind_ok done
    rw [ih tail, insertCitation_ok head]
    simp [savedRows, List.zipIdx_cons, Nat.add_assoc, Nat.add_comm 1]

variable {cited : List CitationSource} {next : Nat}

theorem savedRows_source : ∀ c ∈ savedRows retrievalRunId cited next, ∃ source ∈ cited,
    c.retrievalRunId = retrievalRunId ∧ c.rankOrder = source.localCitationId ∧
      c.documentChunkId = source.documentChunkId := by
  intro c member
  obtain ⟨entry, inside, rfl⟩ := List.mem_map.mp member
  exact ⟨entry.1, List.fst_mem_of_mem_zipIdx inside, rfl, rfl, rfl⟩

theorem savedRows_ranks : (savedRows retrievalRunId cited next).map (·.rankOrder) =
    cited.map (·.localCitationId) := by
  unfold savedRows
  rw [List.map_map]
  conv_rhs => rw [← List.zipIdx_map_fst next cited]
  rw [List.map_map]
  rfl

/-- The rows of a run that had none. -/
theorem saved_rows (uncited : ∀ c ∈ t.citations, c.retrievalRunId ≠ retrievalRunId)
    (saved : saveCitations t retrievalRunId cited = .ok t') :
    t'.citations.filter (·.retrievalRunId == retrievalRunId) =
      savedRows retrievalRunId cited t.nextCitationId := by
  rw [saveCitations_ok saved]
  show List.filter _ (t.citations ++ _) = _
  have old : t.citations.filter (·.retrievalRunId == retrievalRunId) = [] := by
    rw [List.filter_eq_nil_iff]
    intro c member same
    exact uncited c member (by simpa using same)
  have new : (savedRows retrievalRunId cited t.nextCitationId).filter
      (·.retrievalRunId == retrievalRunId) = savedRows retrievalRunId cited t.nextCitationId := by
    rw [List.filter_eq_self]
    intro c member
    obtain ⟨source, _, run, _⟩ := savedRows_source c member
    exact beq_iff_eq.mpr run
  rw [List.filter_append, old, List.nil_append]
  exact new

end Saving

section Listing
variable {t : AnswerTables}

/-- A citation of a selected row is listed once. -/
theorem joined_one (ok : TablesOk t) {c : Citation}
    (selected : SelectedRow t.items c.retrievalRunId c.documentChunkId) :
    ∃ record, joinedRecords t c = [record] ∧ record.citation = c ∧
      record.chunk.documentChunkId = c.documentChunkId := by
  obtain ⟨row, member, run, chunkId, flag⟩ := selected
  obtain ⟨chunk, inChunks, sameChunk⟩ := ok.itemChunks row member
  obtain ⟨version, inVersions, sameVersion⟩ := ok.chunkVersions chunk inChunks
  obtain ⟨document, inDocuments, sameDocument⟩ := ok.versionDocuments version inVersions
  have items : t.items.filter (fun item =>
      (item.retrievalRunId, item.documentChunkId) = (c.retrievalRunId, c.documentChunkId) ∧
        item.selectedFlag) = [row] := by
    have keyed := Table.filter_one ok.runChunks member
    rw [run, chunkId] at keyed
    have both : (fun item : RetrievalRunItem => decide ((item.retrievalRunId, item.documentChunkId) =
        (c.retrievalRunId, c.documentChunkId) ∧ item.selectedFlag)) =
        fun item => item.selectedFlag && decide ((item.retrievalRunId, item.documentChunkId) =
          (c.retrievalRunId, c.documentChunkId)) := by
      funext item
      rw [Bool.decide_and, Bool.and_comm, Bool.decide_eq_true]
    rw [both, ← List.filter_filter, keyed, List.filter_cons, if_pos flag, List.filter_nil]
  have chunks := Table.filter_one ok.chunkIds inChunks
  have versions := Table.filter_one ok.versionIds inVersions
  have documents := Table.filter_one ok.documentIds inDocuments
  rw [sameChunk, chunkId] at chunks
  rw [sameVersion] at versions
  rw [sameDocument] at documents
  refine ⟨⟨c, chunk, version, document⟩, ?_, rfl, sameChunk.trans chunkId⟩
  unfold joinedRecords
  simp only [items, chunks, versions, documents, List.flatMap_cons, List.flatMap_nil,
    List.append_nil, List.map_cons, List.map_nil]

theorem joined_each (ok : TablesOk t) {citations : List Citation}
    (selected : ∀ c ∈ citations, SelectedRow t.items c.retrievalRunId c.documentChunkId) :
    (citations.flatMap (joinedRecords t)).map (·.citation) = citations ∧
      ∀ record ∈ citations.flatMap (joinedRecords t),
        record.chunk.documentChunkId = record.citation.documentChunkId := by
  induction citations with
  | nil => exact ⟨rfl, by simp⟩
  | cons c citations ih =>
    obtain ⟨record, one, same, chunk⟩ := joined_one ok (selected c List.mem_cons_self)
    obtain ⟨rest, chunks⟩ := ih fun d member => selected d (List.mem_cons_of_mem _ member)
    rw [List.flatMap_cons, one]
    refine ⟨?_, fun other member => ?_⟩
    · rw [List.map_append, rest, List.map_singleton, same]
      rfl
    · rcases List.mem_append.mp member with head | later
      · rw [List.mem_singleton.mp head, chunk, same]
      · exact chunks other later

instance : Std.Total beforeRank := ⟨fun a b => by unfold beforeRank; omega⟩

instance : IsTrans Citation beforeRank := ⟨fun a b c => by unfold beforeRank; omega⟩

/-- Distinct ranks are listed in increasing order. -/
theorem sorted_ranks {citations : List Citation} (distinct : (citations.map (·.rankOrder)).Nodup) :
    ((citations.insertionSort beforeRank).map (·.rankOrder)).Pairwise (· < ·) := by
  have sorted := List.pairwise_insertionSort beforeRank citations
  have apart : ((citations.insertionSort beforeRank).map (·.rankOrder)).Nodup :=
    ((List.perm_insertionSort _ citations).map _).nodup_iff.mpr distinct
  unfold List.Nodup at apart
  rw [List.pairwise_map] at apart ⊢
  exact (sorted.and apart).imp fun both => by
    rcases both.1 with less | ⟨same, _⟩
    · exact less
    · exact absurd same both.2

/-- The rows of cited sources that are selected are all listed. -/
theorem listed_rows (ok : TablesOk t) {retrievalRunId next : Nat} {cited : List CitationSource}
    (rows : t.citations.filter (·.retrievalRunId == retrievalRunId) =
      savedRows retrievalRunId cited next)
    (selected : ∀ source ∈ cited, SelectedRow t.items retrievalRunId source.documentChunkId) :
    (listCitationsForRun t retrievalRunId).map (·.citation) =
        (savedRows retrievalRunId cited next).insertionSort beforeRank ∧
      ∀ record ∈ listCitationsForRun t retrievalRunId,
        record.chunk.documentChunkId = record.citation.documentChunkId := by
  unfold listCitationsForRun
  rw [rows]
  apply joined_each ok
  intro c member
  obtain ⟨source, there, run, _, chunk⟩ :=
    savedRows_source c ((List.perm_insertionSort beforeRank _).mem_iff.mp member)
  rw [run, chunk]
  exact selected source there

theorem saved_ok {t t' : AnswerTables} {retrievalRunId : Nat} {cited : List CitationSource}
    (ok : TablesOk t) (saved : saveCitations t retrievalRunId cited = .ok t') : TablesOk t' := by
  rw [saveCitations_ok saved]
  exact ⟨ok.itemIds, ok.runChunks, ok.chunkIds, ok.versionIds, ok.documentIds, ok.itemChunks,
    ok.chunkVersions, ok.versionDocuments⟩

end Listing

section Answers
variable {inputs : AskInputs} {t t' : AnswerTables} {decision : ContextBudgetDecision}

theorem selectItems_ok (ok : TablesOk t) : TablesOk (selectItems inputs t decision) where
  itemIds := by
    show (List.map _ (updateContextSelection _ _ _)).Nodup
    rw [update_columns _ fun _ _ => rfl]
    exact ok.itemIds
  runChunks := by
    show (List.map _ (updateContextSelection _ _ _)).Nodup
    rw [update_columns _ fun _ _ => rfl]
    exact ok.runChunks
  chunkIds := ok.chunkIds
  versionIds := ok.versionIds
  documentIds := ok.documentIds
  itemChunks item member := by
    have there := List.mem_map_of_mem (f := (·.documentChunkId)) member
    have columns : (selectItems inputs t decision).items.map (·.documentChunkId) =
        t.items.map (·.documentChunkId) := update_columns _ (fun _ _ => rfl) _ _ _
    rw [columns] at there
    obtain ⟨original, inside, same⟩ := List.mem_map.mp there
    obtain ⟨chunk, inChunks, sameChunk⟩ := ok.itemChunks original inside
    exact ⟨chunk, inChunks, sameChunk.trans same⟩
  chunkVersions := ok.chunkVersions
  versionDocuments := ok.versionDocuments

theorem selectItems_retrieved (retrieved : Retrieved inputs t) :
    Retrieved inputs (selectItems inputs t decision) := by
  refine ⟨fun ref member => ?_, retrieved.uncited⟩
  obtain ⟨row, inside, id, run, chunk⟩ := retrieved.rows ref member
  exact ⟨_, update_row inside run, id, run, chunk⟩

theorem selectItems_selected (retrieved : Retrieved inputs t) {ref : ContextCandidateRef}
    (member : ref ∈ inputs.contextCandidates) (chosen : ref.runItemId ∈ decision.selectedItemIds) :
    SelectedRow (selectItems inputs t decision).items inputs.retrievalRunId
      ref.candidate.chunk.documentChunkId := by
  obtain ⟨row, inside, id, run, chunk⟩ := retrieved.rows ref member
  have selected : SelectedRow (selectItems inputs t decision).items inputs.retrievalRunId
      row.documentChunkId := update_selected inside run (id ▸ chosen)
  rw [chunk, ref.sameChunk] at selected
  exact selected

variable [DigitTables] [CaseFold] [Rounding] {prompt : Prompt}

/-- After the last selection, every row behind the prompt is selected. -/
theorem finalized (ok : TablesOk t) (retrieved : Retrieved inputs t) (own : IdsOk decision)
    (assembled : assemblePrompt inputs decision = .ok prompt)
    (done : finalizeContextBudgetAfterAssembly inputs (selectItems inputs t decision) decision
      prompt.contextRefs = .ok t') :
    TablesOk t' ∧ Retrieved inputs t' ∧ ∀ source ∈ prompt.citationSources,
      SelectedRow t'.items inputs.retrievalRunId source.documentChunkId := by
  have first : TablesOk (selectItems inputs t decision) := selectItems_ok ok
  have begun : Retrieved inputs (selectItems inputs t decision) := selectItems_retrieved retrieved
  obtain ⟨_, _, _, _, sources, refs⟩ := assemblePrompt_ok assembled
  have behind : ∀ source ∈ prompt.citationSources, ∃ ref ∈ inputs.contextCandidates,
      ref.candidate.chunk.documentChunkId = source.documentChunkId ∧
        ref.runItemId ∈ decision.selectedItemIds ∧
        ref.runItemId ∈ prompt.contextRefs.map (·.runItemId) := by
    intro source member
    have known := member
    rw [sources] at known
    obtain ⟨ref, inside, n, named⟩ := mem_sources (List.mem_of_mem_filter known)
    have chosen := List.mem_filter.mp inside
    refine ⟨ref, chosen.1, by rw [named]; rfl, of_decide_eq_true chosen.2, ?_⟩
    rw [refs]
    refine List.mem_map_of_mem (List.mem_filter.mpr ⟨inside, List.any_eq_true.mpr ⟨source, member, ?_⟩⟩)
    rw [named]
    exact beq_iff_eq.mpr rfl
  unfold finalizeContextBudgetAfterAssembly at done
  obtain ⟨final, finalizing, done⟩ := Fallible.bind_ok done
  split at done
  · cases done
    refine ⟨first, begun, fun source member => ?_⟩
    obtain ⟨ref, there, chunk, chosen, _⟩ := behind source member
    exact chunk ▸ selectItems_selected retrieved there chosen
  · cases done
    refine ⟨selectItems_ok first, selectItems_retrieved begun, fun source member => ?_⟩
    obtain ⟨ref, there, chunk, chosen, stands⟩ := behind source member
    have kept := finalize_keeps own (raising_ok finalizing) chosen stands
    exact chunk ▸ selectItems_selected begun there kept

/-- The steps of a committed answer. -/
theorem answer_ok {done : Answered} (run : answer inputs t = .ok done) :
    ∃ decision t' content allow flag, IdsOk decision ∧
      assemblePrompt inputs decision = .ok done.prompt ∧
      finalizeContextBudgetAfterAssembly inputs (selectItems inputs t decision) decision
        done.prompt.contextRefs = .ok t' ∧
      validatedGenerationOrFallback content done.prompt.contextItems done.prompt.citationSources true
        allow = .ok (done.parsed, done.cited, flag) ∧
      saveCitations (createMessage t' inputs.chatSessionId "assistant" done.parsed.answerText
        (some inputs.retrievalRunId)) inputs.retrievalRunId done.cited = .ok done.tables := by
  unfold answer at run
  obtain ⟨⟨decision, applied⟩, budget, run⟩ := Fallible.bind_ok run
  obtain ⟨prompt, assembled, run⟩ := Fallible.bind_ok run
  obtain ⟨t', final, run⟩ := Fallible.bind_ok run
  obtain ⟨attempt, _, run⟩ := Fallible.bind_ok run
  obtain ⟨⟨parsed, cited, flag⟩, validated, run⟩ := Fallible.bind_ok run
  obtain ⟨tables, saved, run⟩ := Fallible.bind_ok run
  cases run
  unfold applyContextBudget at budget
  obtain ⟨_, decided, budget⟩ := Fallible.bind_ok budget
  cases budget
  exact ⟨decision, t', attempt.content, attempt.allowValidationErrorFallback, flag,
    apply_ids (raising_ok decided), assembled, final, raising_ok validated, raising_ok saved⟩

end Answers

section Theorem
variable [DigitTables]

/-- The distinct values of the markers of a text, in the order of their first markers. -/
def markerValues (text : String) : List Nat :=
  uniqueInOrder (((pieces anyDigits text.toList).filterMap markerDigits).map intOf)

theorem parsedOf_values (text : String) : (parsedOf text).uniqueMarkerIds = markerValues text := by
  simp only [parsedOf, markersFrom_ids, markerValues]

theorem values_distinct (text : String) : (markerValues text).Nodup := by
  have distinct : ((markerValues text).map id).Nodup := KeepFirst.keepFirst_distinct [] _
  rw [List.map_id] at distinct
  exact distinct

/-- The sources that a valid answer cites: one for each number of its text, which has one. -/
theorem cited_values {text : String} {sources cited : List CitationSource} (ok : SourcesOk sources)
    (valid : validateGenerationCitations (parsedOf text) sources = .ok cited) :
    cited.map (·.localCitationId) = (markerValues text).map Int.ofNat ∧
      (∀ source ∈ cited, source ∈ sources) ∧ markerValues text ≠ [] := by
  obtain ⟨marked, _, _⟩ := (validate_iff ok).mp valid
  obtain ⟨numbers, members⟩ := validate_ids ok valid
  rw [parsedOf_values] at numbers
  refine ⟨?_, members, fun none => marked ?_⟩
  · rw [← numbers, List.map_map]
    apply List.map_congr_left
    intro source member
    have one := ok.positive source (members source member)
    exact (Int.toNat_of_nonneg (by omega)).symm
  · rw [parsedOf_markers]
    intro digits inside
    have named := parsedOf_ids.mpr ⟨digits, inside, rfl⟩
    rw [parsedOf_values, none] at named
    cases named

/-- The citations of a stored answer agree with its markers and with the prompt. -/
structure Sound (inputs : AskInputs) (done : Answered) (text : String) : Prop where
  message : ∃ m ∈ done.tables.messages, m.role = "assistant" ∧ m.content = text ∧
    m.linkedRetrievalRunId = some inputs.retrievalRunId
  markers : ∀ n ∈ markerValues text, ∃ item ∈ done.prompt.contextItems,
    item.localCitationId = some (n : Int)
  stored : (done.tables.citations.filter (·.retrievalRunId == inputs.retrievalRunId)).map
    (·.rankOrder) = (markerValues text).map Int.ofNat
  listed : ((listCitationsForRun done.tables inputs.retrievalRunId).map (·.citation)).Perm
    (done.tables.citations.filter (·.retrievalRunId == inputs.retrievalRunId))
  ordered : ((listCitationsForRun done.tables inputs.retrievalRunId).map
    (·.citation.rankOrder)).Pairwise (· < ·)
  chunks : ∀ record ∈ listCitationsForRun done.tables inputs.retrievalRunId,
    record.chunk.documentChunkId = record.citation.documentChunkId ∧
      ∃ item ∈ done.prompt.contextItems, item.localCitationId = some record.citation.rankOrder ∧
        item.documentChunkId = record.citation.documentChunkId ∧
        ∃ ref ∈ inputs.contextCandidates,
          ref.candidate.chunk.documentChunkId = record.citation.documentChunkId ∧
            item.text.toList <+: (cleanText ref.candidate.chunk.contentText).toList
  cites : listCitationsForRun done.tables inputs.retrievalRunId ≠ []
  speaks : ∃ c, .plain c ∈ pieces anyDigits text.toList ∧ isSpace c = false

variable [CaseFold] [Rounding]

omit [DigitTables] [CaseFold] [Rounding] in
/-- The rows that an answer saves. -/
theorem saved_citations {inputs : AskInputs} {t' tables : AnswerTables} {content : String}
    {cited : List CitationSource} (uncited : ∀ c ∈ t'.citations, c.retrievalRunId ≠ inputs.retrievalRunId)
    (saved : saveCitations (createMessage t' inputs.chatSessionId "assistant" content
      (some inputs.retrievalRunId)) inputs.retrievalRunId cited = .ok tables) :
    tables.items = t'.items ∧
      tables.messages = (createMessage t' inputs.chatSessionId "assistant" content
        (some inputs.retrievalRunId)).messages ∧
      tables.citations.filter (·.retrievalRunId == inputs.retrievalRunId) =
        savedRows inputs.retrievalRunId cited t'.nextCitationId := by
  have rows := saved_rows (t := createMessage t' inputs.chatSessionId "assistant" content
    (some inputs.retrievalRunId)) uncited saved
  rw [saveCitations_ok saved] at rows ⊢
  exact ⟨rfl, rfl, rows⟩

theorem answer_sound {inputs : AskInputs} {t : AnswerTables} (ok : TablesOk t)
    (retrieved : Retrieved inputs t) {done : Answered} (run : answer inputs t = .ok done) :
    Sound inputs done done.parsed.answerText := by
  obtain ⟨decision, t', content, allow, flag, own, assembled, final, validated, saved⟩ := answer_ok run
  obtain ⟨ok', retrieved', selected⟩ := finalized ok retrieved own assembled final
  have sourcesOk := prompt_sources ok retrieved assembled
  have shown := source_shown ok retrieved assembled
  obtain ⟨items, messages, rows⟩ := saved_citations retrieved'.uncited saved
  have tablesOk : TablesOk done.tables := saved_ok (t := createMessage t' _ _ _ _)
    ⟨ok'.itemIds, ok'.runChunks, ok'.chunkIds, ok'.versionIds, ok'.documentIds, ok'.itemChunks,
      ok'.chunkVersions, ok'.versionDocuments⟩ saved
  obtain ⟨first, rest, split⟩ := List.exists_cons_of_ne_nil sourcesOk.shows
  rw [split] at validated
  obtain ⟨parsed, valid⟩ := validated_valid validated
  rw [← split, parsed] at valid
  obtain ⟨_, speaks, _⟩ := (validate_iff sourcesOk).mp valid
  obtain ⟨ranks, members, marked⟩ := cited_values sourcesOk valid
  have stored : (savedRows inputs.retrievalRunId done.cited t'.nextCitationId).map (·.rankOrder) =
      (markerValues done.parsed.answerText).map Int.ofNat := savedRows_ranks.trans ranks
  obtain ⟨citations, sameChunks⟩ := listed_rows tablesOk rows fun source member => by
    rw [items]
    exact selected source (members source member)
  have perm := List.perm_insertionSort beforeRank
    (savedRows inputs.retrievalRunId done.cited t'.nextCitationId)
  refine ⟨?_, ?_, ?_, ?_, ?_, ?_, ?_, speaks⟩
  · rw [messages]
    exact ⟨_, List.mem_append_right _ List.mem_cons_self, rfl, rfl, rfl⟩
  · intro n member
    have numbered : (n : Int) ∈ done.cited.map (·.localCitationId) := by
      rw [ranks]
      exact List.mem_map_of_mem member
    obtain ⟨source, cited, same⟩ := List.mem_map.mp numbered
    obtain ⟨item, inside, named⟩ := shown source (members source cited)
    exact ⟨item, inside, named.number.trans (congrArg some same)⟩
  · rw [rows, stored]
  · rw [citations, rows]
    exact perm
  · have both : (listCitationsForRun done.tables inputs.retrievalRunId).map (·.citation.rankOrder) =
        ((savedRows inputs.retrievalRunId done.cited t'.nextCitationId).insertionSort
          beforeRank).map (·.rankOrder) := by
      rw [← citations, List.map_map]
      rfl
    rw [both]
    apply sorted_ranks
    rw [stored]
    exact (values_distinct _).map fun a b same => Int.ofNat.inj same
  · intro record member
    refine ⟨sameChunks record member, ?_⟩
    have inRows : record.citation ∈ savedRows inputs.retrievalRunId done.cited t'.nextCitationId := by
      rw [← perm.mem_iff, ← citations]
      exact List.mem_map_of_mem member
    obtain ⟨source, there, _, rank, chunk⟩ := savedRows_source _ inRows
    obtain ⟨item, inside, named⟩ := shown source (members source there)
    obtain ⟨ref, candidate, sameChunk, text⟩ := named.text
    exact ⟨item, inside, by rw [rank]; exact named.number, named.chunk.trans chunk.symm, ref,
      candidate, sameChunk.trans chunk.symm, text⟩
  · intro none
    rw [none, List.map_nil] at citations
    rw [← citations] at perm
    have empty := congrArg List.length stored
    rw [List.length_map, List.length_map, ← perm.length_eq] at empty
    exact marked (List.length_eq_zero_iff.mp empty.symm)

/-- The citations are sound, and a repair raises only for a first source with a long number. -/
theorem stored_citations_sound :
    (∀ inputs t done, TablesOk t → Retrieved inputs t → answer inputs t = .ok done →
      Sound inputs done done.parsed.answerText) ∧
    ∀ first rest content parsed, SourcesOk (first :: rest) →
      first.localCitationId < 10 ^ maxMarkerDigits → parseGenerationOutput content = .ok parsed →
        ∃ out, repairGenerationCitations parsed (first :: rest) = .ok out :=
  ⟨fun _ _ _ ok retrieved run => answer_sound ok retrieved run,
    fun _ _ _ _ ok small parsing => repair_total ok small parsing⟩

end Theorem

section Runs

def travelDocument : LogicalDocument := ⟨1, 1, "Travel policy", .active, none, 0, 0⟩

def travelVersion : DocumentVersion :=
  ⟨1, 1, 1, "hash", .ready, true, none, "travel.md", "text/markdown", 30, none, none, none, none, none,
    1, 0, 0⟩

def travelChunk : DocumentChunk :=
  ⟨1, 1, 0, "hash", "Flights are booked in economy.", none, none, none, none, none, none, "text", 0⟩

def travelItem : RetrievalRunItem := ⟨1, 1, 1, .finite 1, none, 1, none, true, some "dense", none⟩

def travelTables : AnswerTables :=
  ⟨[travelDocument], [travelVersion], [travelChunk], [travelItem], [], [], 1, 1⟩

/-- One candidate, with the pack disabled, and a generator that cites it. -/
def travelInputs : AskInputs where
  labels := ⟨fun _ => "travel.md", id, fun _ => "upload", fun _ => none⟩
  chatSessionId := 1
  message := "How are flights booked?"
  retrievalRunId := 1
  contextCandidates := [⟨⟨travelChunk, travelVersion, travelDocument, .finite 1, 1⟩, travelItem, 1,
    none, none, true, rfl⟩]
  noContext := false
  strategy := ⟨none, none, none, []⟩
  budgetPolicy := ⟨true, 100, 10, 3, 50, 1, true, true⟩
  packPolicy := ⟨false, 3, 3, 2000, 2000, 17 / 20, true⟩
  citationPreviewMaxChars := 240
  maxOutputChars := 8000
  retryOnInsufficientEvidence := false
  highRetrievalSupport := fun _ => false
  generate := fun _ => some "Economy [1]."

theorem stored_citations_travel :
    let _ : DigitTables := asciiDigits
    let _ : CaseFold := asciiCaseFold
    let _ : Rounding := exactRounding
    (∃ done, answer travelInputs travelTables = .ok done ∧
      Sound travelInputs done done.parsed.answerText) ∧
    ∃ out, repairGenerationCitations (parsedOf (normalizeAnswerText "Economy [7].")) [numberedSource 1] =
      .ok out := by
  intro tables folds rounding
  constructor
  · have returns : (answer travelInputs travelTables).toOption.isSome = true := by decide +kernel
    cases run : answer travelInputs travelTables with
    | error e =>
      rw [run] at returns
      cases returns
    | ok done =>
      have ok : TablesOk travelTables := by
        constructor <;> decide
      have retrieved : Retrieved travelInputs travelTables := by
        constructor
        · intro ref member
          cases List.mem_singleton.mp member
          exact ⟨travelItem, List.mem_cons_self, rfl, rfl, rfl⟩
        · intro c member
          cases member
      exact ⟨done, rfl, stored_citations_sound.1 travelInputs travelTables done ok retrieved run⟩
  · have parses : parseGenerationOutput "Economy [7]." =
        .ok (parsedOf (normalizeAnswerText "Economy [7].")) := by decide +kernel
    exact stored_citations_sound.2 _ [] _ _ numberedSource_ok (by decide) parses

/-- A repair with a source whose number has seven digits raises. -/
theorem long_number :
    let _ : DigitTables := asciiDigits
    SourcesOk [numberedSource 1000000] ∧
      parseGenerationOutput "Economy." = .ok (parsedOf (normalizeAnswerText "Economy.")) ∧
      repairGenerationCitations (parsedOf (normalizeAnswerText "Economy.")) [numberedSource 1000000] =
        .error (.citationBuild "citation_parse_invalid") := by
  intro tables
  refine ⟨⟨by simp, by simp [numberedSource], by simp⟩, by decide +kernel, by decide +kernel⟩

end Runs

end RagProject.Generation
