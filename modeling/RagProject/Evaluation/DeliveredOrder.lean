import RagProject.Evaluation.CitationsKept
import RagProject.Evaluation.MetricsAgree
import RagProject.Retrieval.DeliveredRanks

/-! The order in which the retrieved items of an evaluation are scored: by their ranks. It is the
order in which the search returned them, and the generator received them, exactly when the search
keeps the ranks of the visibility check; the orchestrators number their items anew. -/
namespace RagProject.Evaluation
open Python Documents Context Generation Retrieval

section Scored
variable {items : List RetrievedEvaluationItem}

/-- The metrics see the items in the order in which they were delivered, with the ranks from one. -/
structure ScoredAsDelivered (items : List RetrievedEvaluationItem) : Prop where
  sorted : sortedItems items = items
  ranks : (items.map (·.rankOrder)).Perm (List.range' 1 items.length)

theorem scored_iff : ScoredAsDelivered items ↔ RankedInOrder (items.map (·.rankOrder)) := by
  unfold RankedInOrder
  rw [List.length_map]
  constructor
  · rintro ⟨sorted, ranks⟩
    have increasing : (items.map (·.rankOrder)).Pairwise (· ≤ ·) := by
      rw [← sorted]
      exact List.pairwise_map.mpr sortedItems_sorted
    apply ranks.eq_of_pairwise (fun a b _ _ le ge => Nat.le_antisymm le ge) increasing
    exact List.Pairwise.imp (fun less => Nat.le_of_lt less) List.pairwise_lt_range'
  · intro ranks
    refine ⟨?_, ranks ▸ .refl _⟩
    apply sortedItems_unique
    · rw [ranks]
      exact List.nodup_range'
    · exact .refl _
    · have increasing : (items.map (·.rankOrder)).Pairwise (· < ·) := by
        rw [ranks]
        exact List.pairwise_lt_range'
      exact (List.pairwise_map.mp increasing).imp fun less => Nat.le_of_lt less

/-- The reciprocal of the position of the first item of a kind. -/
def positionScore (wanted : RetrievedEvaluationItem → Bool) (items : List RetrievedEvaluationItem) :
    Rat :=
  ((items.findIdx? wanted).map fun i : Nat => roundDecimal 6 (1 / ((i + 1 : Nat) : Rat))).getD 0

theorem find_position (wanted : RetrievedEvaluationItem → Bool) {start : Nat}
    (ranks : items.map (·.rankOrder) = List.range' start items.length) :
    (items.find? wanted).map (·.rankOrder) = (items.findIdx? wanted).map (start + ·) := by
  induction items generalizing start with
  | nil => rfl
  | cons item items ih =>
    rw [List.map_cons, List.length_cons, List.range'_succ] at ranks
    obtain ⟨first, rest⟩ := List.cons.inj ranks
    rw [List.find?_cons, List.findIdx?_cons]
    cases wanted item with
    | true =>
      simp only [Option.map_some, if_true, Nat.add_zero]
      exact congrArg some first
    | false =>
      simp only [ih rest, Option.map_map, Bool.false_eq_true, if_false, Function.comp_def,
        Nat.add_assoc, Nat.add_comm 1]

theorem mrr_position [CaseFold] {inputs : EvaluationMetricInputs}
    (scored : ScoredAsDelivered inputs.retrievedItems) (each : ItemWise inputs.case) :
    mrrScore inputs = some (positionScore (matchesTarget inputs.case) inputs.retrievedItems) := by
  have ranks := scored_iff.mp scored
  unfold RankedInOrder at ranks
  rw [List.length_map] at ranks
  have found := find_position (matchesTarget inputs.case) ranks
  rw [mrrScore_itemwise _ each, scored.sorted]
  unfold positionScore
  have composed : ((inputs.retrievedItems.find? (matchesTarget inputs.case)).map fun item =>
      roundDecimal 6 (1 / (item.rankOrder : Rat))) =
        ((inputs.retrievedItems.find? (matchesTarget inputs.case)).map (·.rankOrder)).map
          fun rank : Nat => roundDecimal 6 (1 / (rank : Rat)) := by
    rw [Option.map_map]
    rfl
  rw [composed, found, Option.map_map]
  simp only [Function.comp_def, Nat.add_comm 1]

end Scored

section Numbering

/-- The generator received each passage under the position of its item. -/
def NumberedByPosition (answer : EvaluatedAnswer) : Prop :=
  ∀ item ∈ answer.contextItems, ∃ (i : Nat) (retrieved : RetrievedEvaluationItem),
    answer.retrievedItems[i]? = some retrieved ∧
      item.localCitationId = some ((i + 1 : Nat) : Int) ∧
      retrieved.documentChunkId = (item.documentChunkId : Int)

variable [DigitTables] [Rounding] {services : RetrievalServices} {display : Display}
variable {settings : QuestionSettings} {generate : EvaluationRequest → Option String}
variable {question : String} {request : SearchRequest} {t : QuestionTables}
variable {answer : EvaluatedAnswer}

omit [DigitTables] [Rounding] in
theorem search_item_ranks (items : List RagSearchItem) :
    (items.map retrievedItemFromSearchItem).map (·.rankOrder) = items.map (·.rankOrder) := by
  rw [List.map_map]
  rfl

theorem search_delivered {cached : Option CachedRetrievalPayload} {path : SearchPath}
    (done : answerQuestionWithStrategy display services settings generate question request t cached
      path = .ok answer) :
    NumberedByPosition answer ∧ (ScoredAsDelivered answer.retrievedItems ↔
      SearchKeeps services display settings.pipeline request t.db cached path t.runItems) := by
  unfold answerQuestionWithStrategy at done
  obtain ⟨⟨response, runItems⟩, found, done⟩ := Fallible.bind_ok done
  obtain ⟨content, _, settled⟩ := answerFromSearch_ok done
  obtain ⟨_, retrieved, received, _⟩ := settle_ok settled
  constructor
  · intro item member
    rw [received] at member
    obtain ⟨passage, there, text, _, number, chunk, _⟩ := clipped_passage item member
    obtain ⟨e, inside, rfl⟩ := List.mem_map.mp there
    obtain ⟨i, at_i⟩ := List.mem_iff_getElem?.mp inside
    rw [List.getElem?_zipIdx] at at_i
    obtain ⟨other, at_other, rfl⟩ := Option.map_eq_some_iff.mp at_i
    refine ⟨i, retrievedItemFromSearchItem other, ?_, ?_, ?_⟩
    · rw [retrieved, List.getElem?_map, at_other]
      rfl
    · rw [number, Nat.add_comm i]
      rfl
    · rw [chunk]
      rfl
  · rw [scored_iff, retrieved, search_item_ranks]
    exact search_ranks (failing_ok found)

theorem evaluated_delivered {cached : Option CachedRetrievalPayload}
    {path : SearchPath} {evaluated : EvaluatedSearch}
    (done : evaluateStrategy display services settings request t cached path = .ok evaluated) :
    ScoredAsDelivered evaluated.retrievedItems ↔
      SearchKeeps services display settings.pipeline request t.db cached path t.runItems := by
  unfold evaluateStrategy at done
  obtain ⟨⟨response, runItems⟩, found, done⟩ := Fallible.bind_ok done
  cases done
  rw [scored_iff, search_item_ranks]
  exact search_ranks (failing_ok found)

variable [CaseFold] {inputs : AskInputs} {tables : AnswerTables}

/-- The orchestrators number the selected references of the context. -/
theorem orchestrated_delivered (ok : TablesOk tables) (retrieved : Generation.Retrieved inputs tables)
    (done : answerOrchestrated display settings generate question inputs tables = .ok answer) :
    NumberedByPosition answer ∧ ScoredAsDelivered answer.retrievedItems := by
  unfold answerOrchestrated at done
  obtain ⟨⟨decision, applied⟩, budget, done⟩ := Fallible.bind_ok done
  obtain ⟨prompt, assembling, done⟩ := Fallible.bind_ok done
  obtain ⟨t', finalizing, done⟩ := Fallible.bind_ok done
  obtain ⟨content, _, settled⟩ := Fallible.bind_ok done
  obtain ⟨_, items, received, _⟩ := settle_ok settled
  have assembled := failing_ok assembling
  constructor
  · intro item member
    rw [received] at member
    obtain ⟨source, prompted, number, chunk, _⟩ := prompt_numbered ok retrieved assembled item member
    obtain ⟨_, _, _, _, sources, _⟩ := assemblePrompt_ok assembled
    rw [sources] at prompted
    obtain ⟨e, inside, rfl⟩ := List.mem_map.mp (List.mem_of_mem_filter prompted)
    obtain ⟨i, at_i⟩ := List.mem_iff_getElem?.mp inside
    refine ⟨i, retrievedItemFromContextRef settings.pipeline.searchSnippetMaxChars e.1 e.2, ?_, ?_,
      ?_⟩
    · rw [items, List.getElem?_map, at_i]
      rfl
    · rw [List.getElem?_zipIdx] at at_i
      obtain ⟨ref, _, rfl⟩ := Option.map_eq_some_iff.mp at_i
      rw [number, Nat.add_comm i]
      rfl
    · rw [chunk]
      rfl
  · rw [scored_iff, items]
    unfold RankedInOrder
    rw [List.map_map, List.length_map, List.length_zipIdx]
    exact List.zipIdx_map_snd 1 _

end Numbering

section Theorem
variable [DigitTables] [CaseFold] [Rounding]

end Theorem

section Runs

/-- The relevant chunk is the first one of the search, which the reranker puts last. -/
def flightCase : EvaluationCase := ⟨"flights", [], none, [], [1]⟩

end Runs

end RagProject.Evaluation
