import RagProject.Context.BudgetSound

/-! The trace of a context budget decision counts what the decision did, also after the selection
was finalized. -/
namespace RagProject.Context
open Python

section Trace
variable [UnicodeTables]

def droppedItems (items : List ContextItem) : List ContextItem := items.filter (!·.selected)

def ofSource (items : List ContextItem) (source : String) : List ContextItem :=
  items.filter (·.sourceGroupKey = source)

/-- The counters of one source. -/
structure SourceCounts (items : List ContextItem) (source : String) (ref : ContextBudgetSourceRef) :
    Prop where
  candidates : ref.candidateCount = (ofSource items source).length
  selected : ref.selectedCount = (selectedItems (ofSource items source)).length
  dropped : ref.droppedCount = (droppedItems (ofSource items source)).length
  tokens : ref.estimatedTokens =
    ((selectedItems (ofSource items source)).map (·.estimatedTokens)).sum

structure Accounted (d : ContextBudgetDecision) : Prop where
  ids : d.selectedItemIds = (selectedItems d.items).map (·.retrievalRunItemId)
  candidates : d.trace.items.candidateCount = d.items.length
  selected : d.trace.items.selectedCount = (selectedItems d.items).length
  dropped : d.trace.items.droppedCount = (droppedItems d.items).length
  all : d.trace.items.selectedCount + d.trace.items.droppedCount = d.trace.items.candidateCount
  reasons : Counter.total d.trace.dropReasons = d.trace.items.droppedCount
  reason : ∀ r, Counter.get d.trace.dropReasons r =
    ((droppedItems d.items).filter fun item => item.dropReason.getD .unknown = r).length
  tokens : d.trace.usage.estimatedContextTokens =
    ((selectedItems d.items).map (·.estimatedTokens)).sum
  sources : ∃ keys : List String, keys.Nodup ∧
    (∀ key, key ∈ keys ↔ ∃ item ∈ d.items, item.sourceGroupKey = key) ∧
    List.Forall₂ (SourceCounts d.items) keys d.trace.sources.bySource
  sourceCandidates :
    (d.trace.sources.bySource.map (·.candidateCount)).sum = d.trace.items.candidateCount
  sourceSelected :
    (d.trace.sources.bySource.map (·.selectedCount)).sum = d.trace.items.selectedCount
  sourceDropped :
    (d.trace.sources.bySource.map (·.droppedCount)).sum = d.trace.items.droppedCount
  sourceTokens :
    (d.trace.sources.bySource.map (·.estimatedTokens)).sum = d.trace.usage.estimatedContextTokens

/-- The reference of a group whose key can be shown. -/
def refOf (group : String × List ContextItem) : ContextBudgetSourceRef where
  sourceGroupKey := safeContextString 255 group.1
  sourceLabel := safeField (group.2.findSome? fun item => item.sourceLabel.filter (· ≠ ""))
  candidateCount := group.2.length
  selectedCount := (selectedItems group.2).length
  droppedCount := (droppedItems group.2).length
  estimatedTokens := ((selectedItems group.2).map (·.estimatedTokens)).sum

theorem sourceRef_ok {group : String × List ContextItem} (shown : Shows group.1) :
    sourceRef group = .ok (refOf group) := by
  have key : safeOrNone 255 group.1 = some (safeContextString 255 group.1) :=
    (safeOrNone_some (by decide)).mpr ⟨shown, rfl⟩
  unfold sourceRef
  rw [key]
  rfl

def sortedGroups (items : List ContextItem) : List (String × List ContextItem) :=
  (Counter.grouped (·.sourceGroupKey) items).insertionSort fun a b => a.1 ≤ b.1

theorem sourceSummary_ok {items : List ContextItem}
    (shown : ∀ item ∈ items, Shows item.sourceGroupKey) :
    sourceSummary items = .ok ⟨(sortedGroups items).length, (sortedGroups items).map refOf⟩ := by
  obtain ⟨keys, _, present, groups⟩ := Counter.grouped_eq (·.sourceGroupKey) items
  have each : ∀ group ∈ sortedGroups items, sourceRef group = .ok (refOf group) := by
    intro group member
    have inside := (List.perm_insertionSort _ _).mem_iff.mp member
    rw [groups] at inside
    obtain ⟨key, known, rfl⟩ := List.mem_map.mp inside
    obtain ⟨item, there, rfl⟩ := (present key).mp known
    exact sourceRef_ok (shown item there)
  have refs := Fallible.mapM_total each
  simp only [sourceSummary]
  rw [show (Counter.grouped (·.sourceGroupKey) items).insertionSort (fun a b => a.1 ≤ b.1) =
    sortedGroups items from rfl, refs]
  simp [bind, Except.bind]

omit [UnicodeTables] in
/-- A total over the references is the total over the items. -/
theorem sum_sources (items : List ContextItem) (f : ContextItem → Nat) :
    ((sortedGroups items).map fun group => (group.2.map f).sum).sum = (items.map f).sum := by
  rw [← Counter.sum_grouped (·.sourceGroupKey) f items]
  exact ((List.perm_insertionSort _ _).map _).sum_eq

omit [UnicodeTables] in
theorem length_eq_sum (items : List ContextItem) (p : ContextItem → Bool) :
    (items.filter p).length = (items.map fun item => if p item then 1 else 0).sum := by
  induction items with
  | nil => rfl
  | cons item items ih =>
    rw [List.map_cons, List.sum_cons, ← ih, List.filter_cons]
    split <;> simp [Nat.add_comm]

omit [UnicodeTables] in
theorem tokens_eq_sum (items : List ContextItem) :
    ((selectedItems items).map (·.estimatedTokens)).sum =
      (items.map fun item => if item.selected then item.estimatedTokens else 0).sum := by
  unfold selectedItems
  induction items with
  | nil => rfl
  | cons item items ih =>
    rw [List.map_cons, List.sum_cons, ← ih, List.filter_cons]
    split <;> simp

theorem source_refs (items : List ContextItem) : ∃ keys : List String, keys.Nodup ∧
    (∀ key, key ∈ keys ↔ ∃ item ∈ items, item.sourceGroupKey = key) ∧
    List.Forall₂ (SourceCounts items) keys ((sortedGroups items).map refOf) := by
  obtain ⟨keys, distinct, present, groups⟩ := Counter.grouped_eq (·.sourceGroupKey) items
  have perm := List.perm_insertionSort (fun a b : String × List ContextItem => a.1 ≤ b.1)
    (Counter.grouped (·.sourceGroupKey) items)
  have names : ((sortedGroups items).map (·.1)).Perm keys := by
    refine (perm.map _).trans ?_
    rw [groups, List.map_map]
    exact .of_eq (List.map_id keys)
  refine ⟨(sortedGroups items).map (·.1), names.nodup_iff.mpr distinct, fun key => ?_, ?_⟩
  · rw [names.mem_iff, present]
  · rw [List.forall₂_map_left_iff, List.forall₂_map_right_iff, List.forall₂_same]
    intro group member
    have inside := perm.mem_iff.mp member
    rw [groups] at inside
    obtain ⟨key, _, rfl⟩ := List.mem_map.mp inside
    exact ⟨rfl, rfl, rfl, rfl⟩

theorem decision_accounted {items : List ContextItem}
    (shown : ∀ item ∈ items, Shows item.sourceGroupKey) (policy : ContextBudgetPolicy)
    (prompt : Int) (strategy : Option ContextBudgetStrategySummary) (exhausted : Bool) :
    ∃ d, decision items policy prompt strategy exhausted = .ok d ∧ d.items = items ∧
      tracePolicy d.trace = policy ∧ Accounted d := by
  unfold decision
  rw [sourceSummary_ok shown]
  refine ⟨_, rfl, rfl, rfl, rfl, rfl, rfl, rfl, ?_, ?_, fun r => ?_, rfl, source_refs items,
    ?_, ?_, ?_, ?_⟩
  · simp only
    have split := List.length_eq_length_filter_add (l := items) (·.selected)
    exact split.symm
  · simp only
    rw [Counter.total_counted, List.length_map]
  · simp only
    rw [Counter.get_counted, List.count_eq_countP, List.countP_map, List.countP_eq_length_filter]
    rfl
  · have total := sum_sources items fun _ => 1
    simp only [List.map_const', List.sum_replicate_nat, Nat.mul_one] at total
    rw [List.map_map]
    exact total
  · have total := sum_sources items fun item => if item.selected then 1 else 0
    simp only [← length_eq_sum] at total
    rw [List.map_map]
    exact total
  · have total := sum_sources items fun item => if !item.selected then 1 else 0
    simp only [← length_eq_sum] at total
    rw [List.map_map]
    exact total
  · have total := sum_sources items fun item => if item.selected then item.estimatedTokens else 0
    simp only [← tokens_eq_sum] at total
    rw [List.map_map]
    exact total

theorem finalize_accounted {d : ContextBudgetDecision} (accounted : Accounted d)
    (valid : (tracePolicy d.trace).Valid) (shown : ∀ item ∈ d.items, Shows item.sourceGroupKey)
    (selectedItemIds : List Nat) (dropReason : ContextDropReason) :
    ∃ final, finalizeContextBudgetSelection d selectedItemIds dropReason = .ok final ∧
      Accounted final := by
  unfold finalizeContextBudgetSelection
  split
  · exact ⟨d, rfl, accounted⟩
  · simp only [if_pos valid]
    have kept : ∀ item ∈ d.items.map (fun item =>
        if item.retrievalRunItemId ∈ selectedItemIds then
          { item with selected := true, dropReason := none }
        else
          { item with
            selected := false
            reason := none
            dropReason :=
              some ((if item.selected then some dropReason else item.dropReason).getD .unknown) }),
        Shows item.sourceGroupKey := by
      intro item member
      obtain ⟨original, inside, rfl⟩ := List.mem_map.mp member
      split <;> exact shown original inside
    obtain ⟨final, done, _, _, ok⟩ := decision_accounted kept (tracePolicy d.trace)
      d.trace.usage.estimatedPromptTokens d.trace.strategy true
    exact ⟨final, done, ok⟩

end Trace

section Theorem
variable [UnicodeTables] [Rounding]

/-- An item as the manager reads it off a candidate. -/
structure Prepared (candidate : ContextBudgetCandidate) (item : ContextItem) : Prop where
  id : item.retrievalRunItemId = candidate.retrievalRunItemId
  chunk : item.documentChunkId = candidate.documentChunkId
  text : item.charCount = (cleanText (candidate.text.getD "")).length
  tokens : item.estimatedTokens = estimateTokens (cleanText (candidate.text.getD ""))
  citation : item.citationCandidate = candidate.citationCandidate
  source : item.sourceGroupKey = safeContextString 255 candidate.sourceGroupKey
  unselected : item.selected = false

theorem contextItem_ok {candidate : ContextBudgetCandidate}
    (shown : Shows candidate.sourceGroupKey) :
    ∃ item, contextItem candidate = .ok item ∧ Prepared candidate item := by
  have key : safeOrNone 255 candidate.sourceGroupKey =
      some (safeContextString 255 candidate.sourceGroupKey) :=
    (safeOrNone_some (by decide)).mpr ⟨shown, rfl⟩
  unfold contextItem
  simp only [key]
  refine ⟨_, rfl, ?_⟩
  constructor <;> dsimp only

/-- The only candidate that is refused is one whose source has nothing to show. -/
theorem contextItem_blank {candidate : ContextBudgetCandidate}
    (blank : ¬Shows candidate.sourceGroupKey) :
    contextItem candidate = .error .sourceGroupKey := by
  have key : safeOrNone 255 candidate.sourceGroupKey = none := by
    unfold safeOrNone
    rw [safeContextString_blank blank]
    rfl
  unfold contextItem
  simp only [key]

theorem contextItems_ok {candidates : List ContextBudgetCandidate}
    (shown : ∀ c ∈ candidates, Shows c.sourceGroupKey) :
    ∃ items, candidates.mapM contextItem = .ok items ∧ List.Forall₂ Prepared candidates items ∧
      ∀ item ∈ items, item.selected = false ∧ Shows item.sourceGroupKey := by
  induction candidates with
  | nil => exact ⟨[], rfl, .nil, by simp⟩
  | cons c candidates ih =>
    have mine := shown c List.mem_cons_self
    obtain ⟨item, first, prepared⟩ := contextItem_ok mine
    obtain ⟨items, rest, others, fresh⟩ := ih fun d member =>
      shown d (List.mem_cons_of_mem _ member)
    refine ⟨item :: items, ?_, .cons prepared others, fun i member => ?_⟩
    · rw [List.mapM_cons, first, rest]
      rfl
    · rcases List.mem_cons.mp member with rfl | later
      · refine ⟨prepared.unselected, ?_⟩
        rw [prepared.source]
        exact safeContextString_shows (by decide) mine
      · exact fresh i later

omit [UnicodeTables] [Rounding] in
/-- What is selected is worth its place, and no chunk is selected twice. -/
theorem Selected.sound {policy : ContextBudgetPolicy} {items decided : List ContextItem}
    {order : List Entry} (selected : Selected policy items decided order) :
    ((selectedItems decided).map (·.documentChunkId)).Nodup ∧
      ∀ item ∈ selectedItems decided,
        0 < item.charCount ∧ item.estimatedTokens ≤ policy.maxTokensPerItem := by
  have chosen : ∀ (i : Nat) (item : ContextItem), decided[i]? = some item → item.selected = true →
      ∃ original, items[i]? = some original ∧ Eligible policy items i original ∧
        item.documentChunkId = original.documentChunkId ∧ item.charCount = original.charCount ∧
          item.estimatedTokens = original.estimatedTokens := by
    intro i item there on
    have inside := (List.getElem?_eq_some_iff.mp there).1
    rw [selected.length] at inside
    have origin := List.getElem?_eq_getElem inside
    obtain ⟨s, reason, drop, final⟩ := selected.places i _ origin
    rw [there] at final
    have eligible := (selected.eligible i _ origin).mpr (selected.ordered i ⟨item, there, on⟩)
    rw [Option.some.inj final]
    exact ⟨_, origin, eligible, rfl, rfl, rfl⟩
  constructor
  · unfold selectedItems
    rw [List.Nodup, List.pairwise_map, List.pairwise_filter, List.pairwise_iff_getElem]
    intro i j iInside jInside before iOn jOn same
    obtain ⟨first, firstPlace, _, firstChunk, _⟩ :=
      chosen i _ (List.getElem?_eq_getElem iInside) (by simpa using iOn)
    obtain ⟨second, _, eligible, secondChunk, _⟩ :=
      chosen j _ (List.getElem?_eq_getElem jInside) (by simpa using jOn)
    apply eligible.first i before first firstPlace
    rw [← firstChunk, same, secondChunk]
  · intro item member
    obtain ⟨inside, on⟩ := List.mem_filter.mp member
    obtain ⟨i, bound, rfl⟩ := List.getElem_of_mem inside
    obtain ⟨original, _, eligible, _, chars, tokens⟩ :=
      chosen i _ (List.getElem?_eq_getElem bound) on
    rw [chars, tokens]
    exact ⟨eligible.text, eligible.small⟩

/-- A candidate of chunk 7 with the source and the text given. -/
def plainCandidate (sourceGroupKey text : String) : ContextBudgetCandidate :=
  ⟨1, 7, none, none, none, none, none, some 1, none, none, some text, true, sourceGroupKey, none⟩

def smallPolicy : ContextBudgetPolicy := ⟨true, 100, 10, 3, 50, 1, true, true⟩

end Theorem

section Runs

end Runs

end RagProject.Context
