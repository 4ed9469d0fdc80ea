import Mathlib.Data.List.Find
import RagProject.Context.RowNames
import RagProject.Retrieval.CacheRoundTrip
import RagProject.Retrieval.KeptTexts

/-! The budget and the prompt of a hit are those of the first retrieval, whatever happened to the
documents in between, as long as their chunks can be seen. -/
namespace RagProject.Retrieval
open Python Documents Generation Context

section Candidates
variable [UnicodeTables] [Rounding] {display : Display} {rename : Nat → Nat}
variable {refs refs' : List ContextCandidateRef}

def renamedSource (rename : Nat → Nat) (source : CitationSource) : CitationSource :=
  { source with retrievalRunItemId := rename source.retrievalRunItemId }

omit [UnicodeTables] in
theorem budgetCandidates_same (same : List.Forall₂ (SameRef rename) refs refs') :
    contextBudgetCandidates display.labels refs' =
      (contextBudgetCandidates display.labels refs).map (·.withRow rename) := by
  unfold contextBudgetCandidates
  rw [List.map_map]
  apply (Abreast.map_eq same ?_).symm
  intro r r' each
  have chunk := congrArg ShownRows.chunk each.shown
  have document := congrArg ShownRows.logicalDocumentId each.shown
  simp only [shown] at chunk document
  simp only [Function.comp_apply, ContextBudgetCandidate.withRow, Display.labels, sourceGroupKey,
    each.row, each.shown, each.score, each.rank, each.rerankScore, each.rerankOrder,
    each.citationCandidate, each.source, chunk, document]

omit [UnicodeTables] [Rounding] in
theorem contextSources_same (display : Display) (same : List.Forall₂ (SameRef rename) refs refs')
    (chars : Nat) :
    contextCitationSources display.labels chars refs' =
      (contextCitationSources display.labels chars refs).map (renamedSource rename) := by
  unfold contextCitationSources
  rw [List.map_map]
  apply (Abreast.map_eq (Abreast.zipIdx same 1 1) ?_).symm
  rintro ⟨r, i⟩ ⟨r', j⟩ ⟨each, k, rfl, rfl⟩
  have chunk := congrArg ShownRows.chunk each.shown
  simp only [shown] at chunk
  simp only [Function.comp_apply, renamedSource, citationSource, Display.labels, each.shown,
    each.row, chunk]

omit [UnicodeTables] [Rounding] in
theorem selectedRefs_same (same : List.Forall₂ (SameRef rename) refs refs')
    {d : ContextBudgetDecision} (apart : Set.InjOn rename {id | id ∈ refs.map (·.runItemId)})
    (named : ∀ id ∈ d.selectedItemIds, id ∈ refs.map (·.runItemId)) :
    List.Forall₂ (SameRef rename) (selectedContextRefs refs d)
      (selectedContextRefs refs' (d.withRows rename)) := by
  have known : List.Forall₂ (fun r r' => r.runItemId ∈ refs.map (·.runItemId) ∧
      SameRef rename r r') refs refs' :=
    (List.forall₂_and_left _ _).mpr ⟨fun r member => List.mem_map_of_mem member, same⟩
  have chosen : List.Forall₂ (fun r r' => r.runItemId ∈ refs.map (·.runItemId) ∧
      SameRef rename r r') (selectedContextRefs refs d)
        (selectedContextRefs refs' (d.withRows rename)) := by
    apply Abreast.filter known
    rintro r r' ⟨inside, each⟩
    rw [decide_eq_decide]
    constructor
    · intro there
      exact List.mem_map.mpr ⟨r.runItemId, there, each.row.symm⟩
    · intro there
      obtain ⟨id, picked, eq⟩ := List.mem_map.mp there
      have one : id = r.runItemId := apart (named id picked) inside (eq.trans each.row)
      rwa [one] at picked
  exact chosen.imp fun _ _ both => both.2

omit [UnicodeTables] [Rounding] in
theorem sourceOf_same {sources : List CitationSource} {ids : List Nat} {id : Nat}
    (apart : Set.InjOn rename {id | id ∈ ids}) (known : id ∈ ids)
    (named : ∀ source ∈ sources, source.retrievalRunItemId ∈ ids) :
    sourceByRunItemId (sources.map (renamedSource rename)) (rename id) =
      (sourceByRunItemId sources id).map (renamedSource rename) := by
  unfold sourceByRunItemId
  rw [← List.map_reverse, List.find?_map]
  apply congrArg (Option.map (renamedSource rename))
  apply List.find?_congr
  intro source member
  rw [List.mem_reverse] at member
  rw [Function.comp_apply, Bool.eq_iff_iff, beq_iff_eq, beq_iff_eq]
  constructor
  · exact fun same => apart (named source member) known same
  · exact fun same => congrArg rename same

omit [UnicodeTables] in
theorem evidence_same (display : Display) (same : List.Forall₂ (SameRef rename) refs refs')
    (apart : Set.InjOn rename {id | id ∈ refs.map (·.runItemId)}) (chars : Nat) :
    evidenceCandidates display.labels refs' (contextCitationSources display.labels chars refs') =
      (evidenceCandidates display.labels refs
        (contextCitationSources display.labels chars refs)).map (·.withRow rename) := by
  have named : ∀ source ∈ contextCitationSources display.labels chars refs,
      source.retrievalRunItemId ∈ refs.map (·.runItemId) := by
    intro source member
    obtain ⟨⟨ref, i⟩, inside, rfl⟩ := List.mem_map.mp member
    exact List.mem_map_of_mem (List.fst_mem_of_mem_zipIdx inside)
  have known : List.Forall₂ (fun r r' => r.runItemId ∈ refs.map (·.runItemId) ∧
      SameRef rename r r') refs refs' :=
    (List.forall₂_and_left _ _).mpr ⟨fun r member => List.mem_map_of_mem member, same⟩
  have one (r r' : ContextCandidateRef) (each : SameRef rename r r') (n : Int) :
      evidenceCandidate display.labels r' n =
        (evidenceCandidate display.labels r n).withRow rename := by
    have chunk := congrArg ShownRows.chunk each.shown
    have document := congrArg ShownRows.logicalDocumentId each.shown
    have version := congrArg ShownRows.documentVersionId each.shown
    simp only [shown] at chunk document version
    simp only [evidenceCandidate, EvidenceCandidate.withRow, Display.labels, sourceGroupKey,
      each.row, each.shown, each.score, each.rank, each.rerankScore, each.rerankOrder,
      each.citationCandidate, each.source, chunk, document, version]
  rw [contextSources_same display same]
  unfold evidenceCandidates
  rw [List.map_filterMap]
  symm
  apply Abreast.filterMap_eq known
  rintro r r' ⟨inside, each⟩
  rw [each.row, sourceOf_same apart inside named, Option.map_map, Option.map_map]
  apply congrFun
  apply congrArg Option.map
  funext source
  exact (one r r' each source.localCitationId).symm

omit [UnicodeTables] [Rounding] in
theorem promptSources_same (items : List GenerationContextItem) (sources : List CitationSource) :
    promptCitationSources items (sources.map (renamedSource rename)) =
      (promptCitationSources items sources).map (renamedSource rename) := by
  unfold promptCitationSources
  rw [List.filter_map]
  rfl

omit [UnicodeTables] [Rounding] in
theorem contextRefs_same (same : List.Forall₂ (SameRef rename) refs refs')
    {sources : List CitationSource} (apart : Set.InjOn rename {id | id ∈ refs.map (·.runItemId)})
    (named : ∀ source ∈ sources, source.retrievalRunItemId ∈ refs.map (·.runItemId)) :
    List.Forall₂ (SameRef rename) (contextRefsForCitationSources refs sources)
      (contextRefsForCitationSources refs' (sources.map (renamedSource rename))) := by
  have known : List.Forall₂ (fun r r' => r.runItemId ∈ refs.map (·.runItemId) ∧
      SameRef rename r r') refs refs' :=
    (List.forall₂_and_left _ _).mpr ⟨fun r member => List.mem_map_of_mem member, same⟩
  have chosen : List.Forall₂ (fun r r' => r.runItemId ∈ refs.map (·.runItemId) ∧
      SameRef rename r r') (contextRefsForCitationSources refs sources)
        (contextRefsForCitationSources refs' (sources.map (renamedSource rename))) := by
    apply Abreast.filter known
    rintro r r' ⟨inside, each⟩
    rw [List.any_map, Bool.eq_iff_iff, List.any_eq_true, List.any_eq_true]
    apply exists_congr
    intro source
    apply and_congr_right
    intro member
    rw [Function.comp_apply, beq_iff_eq, beq_iff_eq, each.row]
    exact ⟨congrArg rename, fun eq => apart (named source member) inside eq⟩
  exact chosen.imp fun _ _ both => both.2

end Candidates

section Prompts
variable [DigitTables] [CaseFold] [Rounding] {display : Display} {rename : Nat → Nat}

/-- The decision of the budget and the prompt. -/
def budgetedPrompt (inputs : AskInputs) (t : AnswerTables) :
    Except AskFailure (ContextBudgetDecision × Prompt) := do
  let (decision, _) ← applyContextBudget inputs t
  let prompt ← assemblePrompt inputs decision
  .ok (decision, prompt)

/-- The same items for the generator, from the same sources by other names of the rows. -/
structure SamePrompt (rename : Nat → Nat) (prompt prompt' : Prompt) : Prop where
  contextItems : prompt'.contextItems = prompt.contextItems
  citationSources : prompt'.citationSources = prompt.citationSources.map (renamedSource rename)
  contextRefs : List.Forall₂ (SameRef rename) prompt.contextRefs prompt'.contextRefs

/-- Both end with the same error, or with the same decision and the same prompt. -/
inductive SameOutcome (rename : Nat → Nat) :
    Except AskFailure (ContextBudgetDecision × Prompt) →
      Except AskFailure (ContextBudgetDecision × Prompt) → Prop where
  | failed (e : AskFailure) : SameOutcome rename (.error e) (.error e)
  | prompted {decision : ContextBudgetDecision} {prompt prompt' : Prompt}
      (same : SamePrompt rename prompt prompt') :
      SameOutcome rename (.ok (decision, prompt)) (.ok (decision.withRows rename, prompt'))

/-- The inputs of ask with what a retrieval found. -/
def withRetrieval (inputs : AskInputs) (display : Display) (retrievalRunId : Nat)
    (result : RetrievalPipelineResult) : AskInputs :=
  { inputs with
    labels := display.labels
    retrievalRunId := retrievalRunId
    contextCandidates := result.contextCandidates
    noContext := result.noContext }

variable {result hit : RetrievalPipelineResult}

theorem assemblePrompt_same (display : Display) (same : SameHit rename result hit)
    (apart : Set.InjOn rename {id | id ∈ result.contextCandidates.map (·.runItemId)})
    (inputs : AskInputs) (run run' : Nat) {d : ContextBudgetDecision}
    (named : ∀ id ∈ d.selectedItemIds, id ∈ result.contextCandidates.map (·.runItemId)) :
    (∃ e, assemblePrompt (withRetrieval inputs display run result) d = .error e ∧
      assemblePrompt (withRetrieval inputs display run' hit) (d.withRows rename) = .error e) ∨
    ∃ prompt prompt', assemblePrompt (withRetrieval inputs display run result) d = .ok prompt ∧
      assemblePrompt (withRetrieval inputs display run' hit) (d.withRows rename) = .ok prompt' ∧
      SamePrompt rename prompt prompt' := by
  have chosen := selectedRefs_same same.context apart named
  have fewer : ∀ id ∈ (selectedContextRefs result.contextCandidates d).map (·.runItemId),
      id ∈ result.contextCandidates.map (·.runItemId) := by
    intro id member
    obtain ⟨ref, inside, rfl⟩ := List.mem_map.mp member
    exact List.mem_map_of_mem (List.mem_of_mem_filter inside)
  have apart' := apart.mono fewer
  have evidence := evidence_same display chosen apart' inputs.citationPreviewMaxChars
  have sources := contextSources_same display chosen inputs.citationPreviewMaxChars
  have items := buildItems_rows rename inputs.packPolicy
    (evidenceCandidates display.labels (selectedContextRefs result.contextCandidates d)
      (contextCitationSources display.labels inputs.citationPreviewMaxChars
        (selectedContextRefs result.contextCandidates d)))
  rw [← evidence, sources] at items
  unfold assemblePrompt
  dsimp only [withRetrieval]
  simp only [items, same.noContext, sources]
  cases built : buildItems inputs.packPolicy (evidenceCandidates display.labels
      (selectedContextRefs result.contextCandidates d)
      (contextCitationSources display.labels inputs.citationPreviewMaxChars
        (selectedContextRefs result.contextCandidates d))) with
  | error e => exact .inl ⟨.evidence e, rfl, rfl⟩
  | ok items =>
    simp only [Except.map, raising, bind, Except.bind, List.map_eq_nil_iff]
    by_cases none : result.noContext ∨ items = []
    · simp only [none, if_true]
      exact .inl ⟨.noContextFound, rfl, rfl⟩
    · simp only [none, if_false]
      refine .inr ⟨_, _, rfl, rfl, ?_⟩
      have shown : toGenerationContextItems (items.map (·.withRow rename)) =
          toGenerationContextItems items := by
        unfold toGenerationContextItems
        rw [List.map_map]
        rfl
      rw [shown, promptSources_same]
      refine ⟨rfl, rfl, contextRefs_same chosen apart' ?_⟩
      intro source member
      obtain ⟨⟨ref, i⟩, inside, rfl⟩ := List.mem_map.mp (List.mem_of_mem_filter member)
      exact List.mem_map_of_mem (List.fst_mem_of_mem_zipIdx inside)

/-- The decision of the budget on what a retrieval found. -/
def budgetDecision (inputs : AskInputs) (display : Display) (result : RetrievalPipelineResult) :
    Except BudgetError ContextBudgetDecision :=
  apply (contextBudgetCandidates display.labels result.contextCandidates)
    (if result.noContext then { inputs.budgetPolicy with minCitationCandidates := 0 }
      else inputs.budgetPolicy) (estimateTokens inputs.message) (some inputs.strategy)

omit [DigitTables] [CaseFold] in
theorem candidate_ids (display : Display) (refs : List ContextCandidateRef) :
    (contextBudgetCandidates display.labels refs).map (·.retrievalRunItemId) =
      refs.map (·.runItemId) := by
  unfold contextBudgetCandidates
  rw [List.map_map]
  rfl

omit [CaseFold] in
theorem decision_same (same : SameHit rename result hit)
    (apart : Set.InjOn rename {id | id ∈ result.contextCandidates.map (·.runItemId)})
    (inputs : AskInputs) : budgetDecision inputs display hit =
      (budgetDecision inputs display result).map (·.withRows rename) := by
  unfold budgetDecision
  rw [budgetCandidates_same same.context, same.noContext]
  apply apply_rows
  intro c first d second eq
  apply apart _ _ eq
  · show c.retrievalRunItemId ∈ result.contextCandidates.map (·.runItemId)
    rw [← candidate_ids display]
    exact List.mem_map_of_mem first
  · show d.retrievalRunItemId ∈ result.contextCandidates.map (·.runItemId)
    rw [← candidate_ids display]
    exact List.mem_map_of_mem second

theorem budgetedPrompt_eq (inputs : AskInputs) (run : Nat) (t : AnswerTables) :
    budgetedPrompt (withRetrieval inputs display run result) t =
      (raising .budget (budgetDecision inputs display result) >>= fun decision =>
        assemblePrompt (withRetrieval inputs display run result) decision >>= fun prompt =>
          .ok (decision, prompt)) := by
  have applied : applyContextBudget (withRetrieval inputs display run result) t =
      (raising .budget (budgetDecision inputs display result) >>= fun decision =>
        .ok (decision, selectItems (withRetrieval inputs display run result) t decision)) := rfl
  unfold budgetedPrompt
  rw [applied]
  cases budgetDecision inputs display result with
  | error e => rfl
  | ok decision => rfl

/-- The budget decides the same on a hit, and the prompt is the same. -/
theorem prompt_same (same : SameHit rename result hit)
    (apart : Set.InjOn rename {id | id ∈ result.contextCandidates.map (·.runItemId)})
    (inputs : AskInputs) (run run' : Nat) (t t' : AnswerTables) :
    SameOutcome rename (budgetedPrompt (withRetrieval inputs display run result) t)
      (budgetedPrompt (withRetrieval inputs display run' hit) t') := by
  rw [budgetedPrompt_eq, budgetedPrompt_eq, decision_same same apart]
  cases done : budgetDecision inputs display result with
  | error e => exact .failed (.budget e)
  | ok d =>
    have named := selected_named done
    rw [candidate_ids] at named
    show SameOutcome rename
      (assemblePrompt (withRetrieval inputs display run result) d >>= fun prompt => .ok (d, prompt))
      (assemblePrompt (withRetrieval inputs display run' hit) (d.withRows rename) >>= fun prompt =>
        .ok (d.withRows rename, prompt))
    rcases assemblePrompt_same display same apart inputs run run' named with
        ⟨e, first, second⟩ | ⟨prompt, prompt', first, second, shown⟩
    · rw [first, second]
      exact .failed e
    · rw [first, second]
      exact .prompted shown

end Prompts

section Stored
variable [DigitTables] [CaseFold] [Rounding] {services : RetrievalServices} {display : Display}
variable {settings : PipelineSettings} {request : SearchRequest} {db later : Db}
variable {t t' : RunItems} {result : RetrievalPipelineResult} {source : RetrievalSource}
variable {selectedCount : Nat} {ranked : List RankedCandidate}

/-- The names of the rows of a hit: they take the next ids in the same order. -/
def laterRow (old new : RunItems) (k : Nat) : Nat := new.nextId + (k - old.nextId)

omit [DigitTables] [CaseFold] in
/-- A reference of the context is that of an entry, and its row was new. -/
theorem context_entry
    (retrieved : Retrieved display settings request db t t' result source selectedCount ranked)
    {ref : ContextCandidateRef} (member : ref ∈ result.contextCandidates) :
    t.nextId ≤ ref.runItemId ∧ ∃ e ∈ rankedEntries display source selectedCount ranked,
      ref.candidate = e.candidate.toCheckedRetrievalCandidate := by
  rw [retrieved.context] at member
  obtain ⟨⟨saved, i⟩, inside, rfl⟩ := List.mem_map.mp member
  obtain ⟨⟨e, id⟩, there, rfl⟩ := List.mem_map.mp (List.fst_mem_of_mem_zipIdx inside)
  exact ⟨List.le_snd_of_mem_zipIdx there, e, List.fst_mem_of_mem_zipIdx there, rfl⟩

omit [DigitTables] [CaseFold] in
theorem later_apart
    (retrieved : Retrieved display settings request db t t' result source selectedCount ranked)
    (s : RunItems) :
    Set.InjOn (laterRow t s) {id | id ∈ result.contextCandidates.map (·.runItemId)} := by
  intro m first n second same
  obtain ⟨a, inA, rfl⟩ := List.mem_map.mp first
  obtain ⟨b, inB, rfl⟩ := List.mem_map.mp second
  have lowA := (context_entry retrieved inA).1
  have lowB := (context_entry retrieved inB).1
  unfold laterRow at same
  omega

omit [CaseFold] in
/-- What is stored of a retrieval is nothing once a chunk of it can be seen no more. -/
theorem stored_gone
    (retrieved : Retrieved display settings request db t t' result source selectedCount ranked)
    (six : SixDecimalScores result) {ref : ContextCandidateRef}
    (member : ref ∈ result.contextCandidates)
    (hidden : ¬Visible request.filters later ref.candidate.chunk.documentChunkId)
    (strategy : RetrievalStrategy) (run : Nat) (s : RunItems) :
    hydrateCachedRetrievalResult display settings (storedPayload request.query strategy
      result.summary (rankedEntries display source selectedCount ranked)) run request.filters later
        s = .ok (none, s) := by
  have path : PathSummary result.summary := ⟨retrieved.extra, six.top1, six.top3, six.rerank⟩
  obtain ⟨_, e, inside, same⟩ := context_entry retrieved member
  apply hydrate_gone
  · show (RetrievalScoreSummary.ofFields result.summary.modelDump).isSome
    rw [ofFields_modelDump path]
    rfl
  · refine ⟨itemOf e, List.mem_map_of_mem inside, ?_⟩
    have chunk : (itemOf e).documentChunkId = ref.candidate.chunk.documentChunkId := by
      rw [same]
      exact e.sameChunk
    rw [chunk]
    exact hidden

/-- What a hit gives: the result of the first run by other names of the rows, and for every question
the same decision of the budget and the same prompt. -/
structure SameAnswerInputs (display : Display) (rename : Nat → Nat) (run run' : Nat)
    (result hit : RetrievalPipelineResult) : Prop where
  same : SameHit rename result hit
  apart : Set.InjOn rename {id | id ∈ result.contextCandidates.map (·.runItemId)}
  prompts : ∀ inputs t t', SameOutcome rename
    (budgetedPrompt (withRetrieval inputs display run result) t)
    (budgetedPrompt (withRetrieval inputs display run' hit) t')

/-- Every retrieval that is cached, whatever happens to the documents: what is read back of it gives
a later run the same result and the same prompt when all chunks can still be seen, and else nothing
and no row. -/
theorem stored_retrieval_round_trip (str : Value → String) (services : RetrievalServices)
    (display : Display) (settings : PipelineSettings) (request : SearchRequest) (db : Db)
    (path : RetrievalPath) (t t' : RunItems) (result : RetrievalPipelineResult)
    (strategy : RetrievalStrategy) (steps : List StoreStep)
    (cacheable : isCacheableRetrievalStrategy strategy = true) (keys : DistinctKeys db)
    (positive : ∀ c ∈ db.chunks, 0 < c.documentChunkId) (new : ∀ step ∈ steps, step.New db)
    (done : path.run services display settings request db t = .ok (result, t'))
    (six : SixDecimalScores result) :
    ∃ payload stored, cachePayloadFromResult str result (Sha256.hexDigest request.query)
        strategy.value request.retrievalRunId t' = some payload ∧
      CachedRetrievalPayload.fromJson payload.toJson = some stored ∧
      ∀ run s, (∀ row ∈ s.rows, row.retrievalRunId ≠ run) →
        let later := steps.foldl StoreStep.run db
        ((∀ ref ∈ result.contextCandidates,
            Visible request.filters later ref.candidate.chunk.documentChunkId) →
          ∃ hit s' rename, hydrateCachedRetrievalResult display settings stored run
              request.filters later s = .ok (some hit, s') ∧
            SameAnswerInputs display rename request.retrievalRunId run result hit) ∧
        ((∃ ref ∈ result.contextCandidates,
            ¬Visible request.filters later ref.candidate.chunk.documentChunkId) →
          hydrateCachedRetrievalResult display settings stored run request.filters later s =
            .ok (none, s)) := by
  obtain ⟨source, selectedCount, ranked, retrieved⟩ := path_retrieved done
  obtain ⟨payload, made, read⟩ := stored_payload retrieved six positive cacheable str
  refine ⟨payload, _, made, read, fun run s fresh => ⟨fun visible => ?_, ?_⟩⟩
  · obtain ⟨hit, s', hydrated, same⟩ :=
      hit_of_stored retrieved six (texts_kept keys new) visible fresh strategy
    have apart := later_apart retrieved s
    exact ⟨hit, s', laterRow t s, hydrated, same, apart,
      fun inputs t t' => prompt_same same apart inputs _ _ t t'⟩
  · rintro ⟨ref, member, hidden⟩
    exact stored_gone retrieved six member hidden strategy run s

end Stored

section Runs

def mealChunk : DocumentChunk :=
  ⟨1, 1, 0, "hash", "Meals cost up to 50 a day.", none, none, none, none, none, none, "text", 0⟩

def mealVersion (documentVersionId versionNo : Nat) (isActive : Bool) : DocumentVersion :=
  ⟨documentVersionId, 1, versionNo, "hash", .ready, isActive, none, "meals.md", "text/markdown", 10,
    none, none, none, none, none, 1, 0, 0⟩

def mealDb : Db where
  documents := [⟨1, 1, "Meals", .active, none, 0, 0⟩]
  versions := [mealVersion 1 1 true]
  chunks := [mealChunk]
  jobs := []
  nextJobId := 1
  corpusMarker := none
  graphIndexing := none
  graphExtractor := none

def mealServices : RetrievalServices where
  vectorSearch _ _ _ := none
  sparseSearch _ _ _ := some [⟨⟨some 1, .finite (9 / 10)⟩, []⟩]
  fuse denseCandidates _ _ _ := denseCandidates
  rerank _ _ := none
  average _ := 9 / 10

def mealDisplay : Display where
  sourceLabel rows := rows.fileName
  safeDisplayText := id
  sourceType _ := "upload"
  sourceUrl _ := none
  payloadSnapshot _ := []
  scoreBreakdown _ _ _ _ _ _ := []

def mealRequest : SearchRequest := ⟨"meals", 5, 1, ⟨[], "text"⟩, 1⟩

/-- Another version is uploaded before the second run. -/
theorem meals_read_back :
    let _ : DigitTables := asciiDigits
    let _ : CaseFold := asciiCaseFold
    let _ : Rounding := exactRounding
    ∃ result t' payload stored hit s' rename,
      RetrievalPath.sparse.run mealServices mealDisplay ⟨240, 240⟩ mealRequest mealDb ⟨[], 1⟩ =
        .ok (result, t') ∧ result.items ≠ [] ∧
      cachePayloadFromResult (fun _ => "") result (Sha256.hexDigest mealRequest.query) "sparse" 1 t' =
        some payload ∧ CachedRetrievalPayload.fromJson payload.toJson = some stored ∧
      hydrateCachedRetrievalResult mealDisplay ⟨240, 240⟩ stored 2 mealRequest.filters
        (StoreStep.run mealDb (.upload none (mealVersion 2 2 false))) t' = .ok (some hit, s') ∧
      SameAnswerInputs mealDisplay rename 1 2 result hit := by
  intro _ _ _
  obtain ⟨⟨result, t'⟩, run, checked⟩ := Fallible.ok_with
    (r := RetrievalPath.sparse.run mealServices mealDisplay ⟨240, 240⟩ mealRequest mealDb ⟨[], 1⟩)
    (p := fun r : RetrievalPipelineResult × RunItems => decide (r.1.items ≠ [] ∧
      (∀ row ∈ r.2.rows, row.retrievalRunId ≠ 2) ∧
      (∀ ref ∈ r.1.contextCandidates, ref.candidate.retrievalScore = .finite (9 / 10) ∧
        ref.rerankScore = none ∧ ref.candidate.chunk.documentChunkId = 1) ∧
      (∀ n ∈ r.1.summary.top1RetrievalScore, n ≠ .nonFinite) ∧
      (∀ n ∈ r.1.summary.top3AvgRetrievalScore, n ≠ .nonFinite) ∧
      ∀ n ∈ r.1.summary.top1RerankScore, n ≠ .nonFinite)) (by decide +kernel)
  obtain ⟨some_item, fresh, refs, top1, top3, rerank⟩ := of_decide_eq_true checked
  have six : SixDecimalScores result := by
    refine ⟨fun ref member => ?_, top1, top3, rerank⟩
    obtain ⟨score, none, _⟩ := refs ref member
    rw [score, none]
    exact ⟨⟨9 / 10, rfl, by decide +kernel⟩, fun _ absent => nomatch absent⟩
  have new : ∀ step ∈ [StoreStep.upload none (mealVersion 2 2 false)], step.New mealDb := by
    intro step member
    rw [List.mem_singleton.mp member]
    exact ⟨fun _ absent => (nomatch absent), by decide⟩
  obtain ⟨payload, stored, made, read, later⟩ := stored_retrieval_round_trip (fun _ => "")
    mealServices mealDisplay ⟨240, 240⟩ mealRequest mealDb .sparse ⟨[], 1⟩ t' result .sparse
    [.upload none (mealVersion 2 2 false)] rfl ⟨by decide, by decide, by decide⟩ (by decide) new run
    six
  obtain ⟨hit, s', rename, hydrated, same⟩ := (later 2 t' fresh).1 fun ref member => by
    rw [(refs ref member).2.2]
    decide
  exact ⟨result, t', payload, stored, hit, s', rename, run, some_item, made, read, hydrated, same⟩

end Runs

end RagProject.Retrieval
