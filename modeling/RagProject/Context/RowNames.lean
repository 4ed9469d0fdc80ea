import RagProject.Context.BudgetSound
import RagProject.Context.Pack

/-! The ids of the saved rows are names: with other ids, the budget decides the same and the
evidence has the same texts. -/
namespace RagProject.Context
open Python

section Rows
variable (rename : Nat → Nat)

def ContextBudgetCandidate.withRow (c : ContextBudgetCandidate) : ContextBudgetCandidate :=
  { c with retrievalRunItemId := rename c.retrievalRunItemId }

def ContextItem.withRow (item : ContextItem) : ContextItem :=
  { item with retrievalRunItemId := rename item.retrievalRunItemId }

def ContextBudgetItemRef.withRow (ref : ContextBudgetItemRef) : ContextBudgetItemRef :=
  { ref with retrievalRunItemId := rename ref.retrievalRunItemId }

def ContextBudgetDecision.withRows (d : ContextBudgetDecision) : ContextBudgetDecision where
  selectedItemIds := d.selectedItemIds.map rename
  trace :=
    { d.trace with
      selectedItemRefs := d.trace.selectedItemRefs.map (·.withRow rename)
      droppedItemRefs := d.trace.droppedItemRefs.map (·.withRow rename) }
  items := d.items.map (·.withRow rename)

def EvidenceCandidate.withRow (c : EvidenceCandidate) : EvidenceCandidate :=
  { c with retrievalRunItemId := rename c.retrievalRunItemId }

def EvidenceItem.withRow (item : EvidenceItem) : EvidenceItem :=
  { item with retrievalRunItemId := rename item.retrievalRunItemId }

end Rows

section Selecting
variable (rename : Nat → Nat) (policy : ContextBudgetPolicy)

def entryRow (e : Entry) : Entry := (e.1, e.2.withRow rename)

theorem diverse_rows (entries : List Entry) :
    diverse (entries.map (entryRow rename)) = (diverse entries).map (entryRow rename) := by
  let rows (parts : List Entry × List Entry × List String) :
      List Entry × List Entry × List String :=
    (parts.1.map (entryRow rename), parts.2.1.map (entryRow rename), parts.2.2)
  have whole : (entries.map (entryRow rename)).foldl diverseStep (rows ([], [], [])) =
      rows (entries.foldl diverseStep ([], [], [])) := by
    rw [List.foldl_map]
    apply List.foldl_hom
    rintro ⟨first, rest, seen⟩ entry
    have key : (entryRow rename entry).2.sourceGroupKey = entry.2.sourceGroupKey := rfl
    simp only [rows, diverseStep, key]
    split
    · rw [List.map_append]
      rfl
    · rw [List.map_append]
      rfl
  have start : rows ([], [], []) = ([], [], []) := rfl
  rw [start] at whole
  rw [diverse_eq, diverse_eq, whole]
  exact (List.map_append).symm

theorem selectionOrder_rows (entries : List Entry) :
    selectionOrder policy (entries.map (entryRow rename)) =
      (selectionOrder policy entries).map (entryRow rename) := by
  have sorted : (entries.map (entryRow rename)).insertionSort
        (fun a b => scoreOrder a.2 ≤ scoreOrder b.2) =
      (entries.insertionSort fun a b => scoreOrder a.2 ≤ scoreOrder b.2).map (entryRow rename) :=
    (List.map_insertionSort (fun a b : Entry => scoreOrder a.2 ≤ scoreOrder b.2)
      (fun a b : Entry => scoreOrder a.2 ≤ scoreOrder b.2) (entryRow rename) entries
      fun _ _ _ _ => Iff.rfl).symm
  unfold selectionOrder
  simp only [sorted]
  by_cases low : policy.dropLowScoreFirst = true
  · simp only [if_pos low]
    split
    · exact diverse_rows rename _
    · rfl
  · simp only [if_neg low]
    split
    · exact diverse_rows rename _
    · rfl

theorem firstIndices_rows (entries : List Entry) :
    firstIndicesBySource (entries.map (entryRow rename)) = firstIndicesBySource entries := by
  unfold firstIndicesBySource
  rw [List.foldl_map]
  rfl

theorem orderedEntries_rows (eligible : List Entry) :
    orderedEntries policy (eligible.map (entryRow rename)) =
      (orderedEntries policy eligible).map (entryRow rename) := by
  unfold orderedEntries
  rw [List.map_append, ← selectionOrder_rows, ← selectionOrder_rows, List.filter_map,
    List.filter_map]
  rfl

def FirstPass.withRows (pass : FirstPass) : FirstPass where
  decided := pass.decided.map (·.withRow rename)
  eligible := pass.eligible.map (entryRow rename)
  seenChunks := pass.seenChunks

theorem passItem_rows (pass : FirstPass) (item : ContextItem) :
    passItem policy (pass.withRows rename) (item.withRow rename) =
      (passItem policy pass item).withRows rename := by
  have reason : firstReason policy (pass.withRows rename).seenChunks (item.withRow rename) =
      firstReason policy pass.seenChunks item := rfl
  rw [passItem_eq, passItem_eq, reason]
  generalize firstReason policy pass.seenChunks item = reason
  unfold FirstPass.withRows
  rw [FirstPass.mk.injEq]
  refine ⟨?_, ?_, rfl⟩
  · rw [List.map_append]
    rfl
  · rw [List.length_map]
    split
    · rw [List.map_append]
      rfl
    · rfl

def Selection.withRows (s : Selection) : Selection :=
  { s with decided := s.decided.map (·.withRow rename) }

theorem selectIndex_rows (first : List Nat) (s : Selection) (index : Nat) :
    selectIndex policy first (s.withRows rename) index =
      (selectIndex policy first s index).withRows rename := by
  have found : (s.withRows rename).decided[index]? = (s.decided[index]?).map (·.withRow rename) :=
    List.getElem?_map
  have write (item item' : ContextItem) (same : item' = item.withRow rename) :
      (s.decided.map (·.withRow rename)).set index item' =
        (s.decided.set index item).map (·.withRow rename) := by
    rw [same]
    exact (List.map_set).symm
  unfold selectIndex
  rw [found]
  cases s.decided[index]? with
  | none => rfl
  | some item =>
    simp only [Option.map_some, Bool.and_eq_true, decide_eq_true_eq]
    dsimp only [ContextItem.withRow, Selection.withRows]
    by_cases dropped : item.dropReason.isSome = true
    · simp only [dropped, if_true]
    by_cases full : policy.maxContextItems ≤ s.selectedCount
    · simp only [dropped, full, Bool.false_eq_true, if_true, if_false]
      exact congrArg (fun d => ({ s with decided := d } : Selection)) (write _ _ rfl)
    by_cases spare : (!item.citationCandidate) = true ∧
        policy.minCitationCandidates ≤ s.selectedCount
    · simp only [dropped, full, spare, Bool.false_eq_true, if_true, if_false]
      exact congrArg (fun d => ({ s with decided := d } : Selection)) (write _ _ rfl)
    by_cases excess : effectiveContextTokenLimit policy < s.selectedTokens + item.estimatedTokens
    · simp only [dropped, full, spare, excess, Bool.false_eq_true, if_true, if_false]
      exact congrArg (fun d => ({ s with budgetExhausted := true, decided := d } : Selection))
        (write _ _ rfl)
    · simp only [dropped, full, spare, excess, Bool.false_eq_true, if_false]
      rw [Selection.mk.injEq]
      exact ⟨write _ _ rfl, rfl, rfl, rfl⟩

def selectionRows (selected : List ContextItem × Bool) : List ContextItem × Bool :=
  (selected.1.map (·.withRow rename), selected.2)

theorem selectItems_rows (items : List ContextItem) :
    selectItems policy (items.map (·.withRow rename)) =
      selectionRows rename (selectItems policy items) := by
  have pass (start : FirstPass) : (items.map (·.withRow rename)).foldl (passItem policy)
        (start.withRows rename) = (items.foldl (passItem policy) start).withRows rename := by
    rw [List.foldl_map]
    apply List.foldl_hom
    exact passItem_rows rename policy
  have first : FirstPass.withRows rename ⟨[], [], []⟩ = ⟨[], [], []⟩ := rfl
  have all := first ▸ pass ⟨[], [], []⟩
  have turns (order first : List Nat) (s : Selection) :
      order.foldl (selectIndex policy first) (s.withRows rename) =
        (order.foldl (selectIndex policy first) s).withRows rename := by
    apply List.foldl_hom
    exact selectIndex_rows rename policy first
  have places (entries : List Entry) :
      (entries.map (entryRow rename)).map (·.1) = entries.map (·.1) := by
    rw [List.map_map]
    rfl
  unfold selectItems
  rw [all]
  dsimp only [FirstPass.withRows]
  rw [orderedEntries_rows, firstIndices_rows, places]
  exact congrArg (fun s : Selection => (s.decided, s.budgetExhausted)) (turns _ _ ⟨_, 0, 0, false⟩)

end Selecting

section Decision
variable [UnicodeTables] {rename : Nat → Nat}

omit [UnicodeTables] in
theorem picked_rows (pick : ContextItem → Bool)
    (same : ∀ item, pick (item.withRow rename) = pick item) (items : List ContextItem) :
    (items.map (·.withRow rename)).filter pick = (items.filter pick).map (·.withRow rename) := by
  rw [List.filter_map]
  have both : pick ∘ (·.withRow rename) = pick := funext same
  rw [both]

variable (rename) in
def groupRow (group : String × List ContextItem) : String × List ContextItem :=
  (group.1, group.2.map (·.withRow rename))

theorem sourceRef_rows (group : String × List ContextItem) :
    sourceRef (groupRow rename group) = sourceRef group := by
  unfold sourceRef groupRow
  rw [picked_rows _ fun _ => rfl, picked_rows _ fun _ => rfl]
  simp only [List.length_map, List.map_map, List.findSome?_map]
  cases safeOrNone 255 group.1 with
  | none => rfl
  | some key => rfl

theorem sourceSummary_rows (items : List ContextItem) :
    sourceSummary (items.map (·.withRow rename)) = sourceSummary items := by
  have key : (·.sourceGroupKey) ∘ (ContextItem.withRow rename) = (·.sourceGroupKey) := rfl
  have groups : Counter.grouped (·.sourceGroupKey) (items.map (·.withRow rename)) =
      (Counter.grouped (·.sourceGroupKey) items).map (groupRow rename) := by
    rw [Counter.grouped_map, key]
    rfl
  have sorted (groups : List (String × List ContextItem)) :
      (groups.map (groupRow rename)).insertionSort (fun a b => a.1 ≤ b.1) =
        (groups.insertionSort fun a b => a.1 ≤ b.1).map (groupRow rename) :=
    (List.map_insertionSort (fun a b => a.1 ≤ b.1) (fun a b => a.1 ≤ b.1) (groupRow rename) groups
      fun _ _ _ _ => Iff.rfl).symm
  have refs : sourceRef ∘ groupRow rename = sourceRef := by
    funext group
    rw [Function.comp_apply, sourceRef_rows]
  unfold sourceSummary
  simp only [groups, sorted, List.mapM_map, refs]

theorem decision_rows (items : List ContextItem) (policy : ContextBudgetPolicy) (tokens : Int)
    (strategy : Option ContextBudgetStrategySummary) (exhausted : Bool) :
    decision (items.map (·.withRow rename)) policy tokens strategy exhausted =
      (decision items policy tokens strategy exhausted).map (·.withRows rename) := by
  unfold decision
  rw [sourceSummary_rows, picked_rows _ fun _ => rfl, picked_rows _ fun _ => rfl,
    picked_rows _ fun _ => rfl]
  cases sourceSummary items with
  | error e => rfl
  | ok sources =>
    simp only [bind, Except.bind, Except.map, ContextBudgetDecision.withRows, List.map_map,
      List.length_map]
    rfl

variable [Rounding]

theorem contextItem_rows (candidate : ContextBudgetCandidate) :
    contextItem (candidate.withRow rename) = (contextItem candidate).map (·.withRow rename) := by
  unfold contextItem
  have key : (candidate.withRow rename).sourceGroupKey = candidate.sourceGroupKey := rfl
  rw [key]
  cases safeOrNone 255 candidate.sourceGroupKey with
  | none => rfl
  | some key => rfl

theorem contextItem_id {candidate : ContextBudgetCandidate} {item : ContextItem}
    (made : contextItem candidate = .ok item) :
    item.retrievalRunItemId = candidate.retrievalRunItemId := by
  unfold contextItem at made
  split at made
  · cases made
  · cases made
    rfl

/-- The decided item when the budget is disabled. -/
def keepAll (selected : List Nat) (item : ContextItem) : ContextItem :=
  if selected.contains item.retrievalRunItemId then
    { item with selected := true, reason := some "budget_disabled", dropReason := none }
  else { item with selected := false, reason := none, dropReason := some .notSelectedByRerank }

omit [UnicodeTables] [Rounding] in
theorem keepAll_rows {selected selected' : List Nat} {item : ContextItem}
    (same : selected'.contains (rename item.retrievalRunItemId) =
      selected.contains item.retrievalRunItemId) :
    keepAll selected' (item.withRow rename) = (keepAll selected item).withRow rename := by
  have id : (item.withRow rename).retrievalRunItemId = rename item.retrievalRunItemId := rfl
  unfold keepAll
  rw [id, same]
  split
  · rfl
  · rfl

/-- The decision speaks of the same items by other names, if the names do not clash. -/
theorem apply_rows {candidates : List ContextBudgetCandidate}
    (apart : ∀ c ∈ candidates, ∀ d ∈ candidates,
      rename c.retrievalRunItemId = rename d.retrievalRunItemId →
        c.retrievalRunItemId = d.retrievalRunItemId)
    (policy : ContextBudgetPolicy) (tokens : Int) (strategy : Option ContextBudgetStrategySummary) :
    apply (candidates.map (·.withRow rename)) policy tokens strategy =
      (apply candidates policy tokens strategy).map (·.withRows rename) := by
  have made : (candidates.map (·.withRow rename)).mapM contextItem =
      (candidates.mapM contextItem).map (List.map (·.withRow rename)) :=
    Fallible.mapM_hom contextItem_rows candidates
  unfold apply
  rw [made]
  cases listed : candidates.mapM contextItem with
  | error e => rfl
  | ok items =>
    simp only [bind, Except.bind, Except.map]
    by_cases enabled : policy.enabled = true
    · simp only [enabled, if_true]
      rw [selectItems_rows]
      exact decision_rows _ policy tokens strategy _
    · simp only [enabled, if_false, Bool.false_eq_true]
      let isChosen (item : ContextItem) : Bool := item.citationCandidate && 0 < item.charCount
      have chosen : ((items.map (·.withRow rename)).filter isChosen).map (·.retrievalRunItemId) =
          ((items.filter isChosen).map (·.retrievalRunItemId)).map rename := by
        rw [picked_rows isChosen fun _ => rfl, List.map_map, List.map_map]
        rfl
      have named : ∀ item ∈ items, ∃ c ∈ candidates,
          item.retrievalRunItemId = c.retrievalRunItemId := by
        intro item member
        obtain ⟨c, inside, made⟩ := Fallible.mapM_from listed item member
        exact ⟨c, inside, contextItem_id made⟩
      have selected : ∀ item ∈ items,
          (((items.filter isChosen).map (·.retrievalRunItemId)).map rename).contains
              (rename item.retrievalRunItemId) =
            ((items.filter isChosen).map (·.retrievalRunItemId)).contains
              item.retrievalRunItemId := by
        intro item member
        rw [Bool.eq_iff_iff, List.contains_iff_mem, List.contains_iff_mem]
        constructor
        · intro there
          obtain ⟨id, inside, same⟩ := List.mem_map.mp there
          obtain ⟨other, picked, rfl⟩ := List.mem_map.mp inside
          obtain ⟨c, candidate, first⟩ := named item member
          obtain ⟨d, candidate', second⟩ := named other (List.mem_of_mem_filter picked)
          rw [first, second] at same
          rw [first, ← apart d candidate' c candidate same, ← second]
          exact List.mem_map_of_mem picked
        · exact List.mem_map_of_mem
      have each (item : ContextItem) (member : item ∈ items) :
          keepAll (((items.filter isChosen).map (·.retrievalRunItemId)).map rename)
              (item.withRow rename) =
            (keepAll ((items.filter isChosen).map (·.retrievalRunItemId)) item).withRow rename :=
        keepAll_rows (selected item member)
      have all : (items.map (·.withRow rename)).map (keepAll
            (((items.map (·.withRow rename)).filter isChosen).map (·.retrievalRunItemId))) =
          (items.map (keepAll ((items.filter isChosen).map (·.retrievalRunItemId)))).map
            (·.withRow rename) := by
        have after (f : ContextItem → ContextItem) : (items.map f).map (·.withRow rename) =
            items.map fun item => (f item).withRow rename := List.map_map
        rw [chosen, after]
        exact List.map_map.trans (List.map_congr_left each)
      exact (congrArg (fun items => decision items policy tokens strategy false) all).trans
        (decision_rows _ policy tokens strategy false)

omit rename in
/-- What is selected was a candidate: a renaming that moves every other name moves nothing. -/
theorem selected_named {candidates : List ContextBudgetCandidate} {policy : ContextBudgetPolicy}
    {tokens : Int} {strategy : Option ContextBudgetStrategySummary} {d : ContextBudgetDecision}
    (done : apply candidates policy tokens strategy = .ok d) :
    ∀ id ∈ d.selectedItemIds, id ∈ candidates.map (·.retrievalRunItemId) := by
  let others (id : Nat) : Nat := if id ∈ candidates.map (·.retrievalRunItemId) then id else id + 1
  have still : ∀ c ∈ candidates, others c.retrievalRunItemId = c.retrievalRunItemId :=
    fun c member => if_pos (List.mem_map_of_mem member)
  have same : candidates.map (·.withRow others) = candidates := by
    conv_rhs => rw [← List.map_id candidates]
    apply List.map_congr_left
    intro c member
    unfold ContextBudgetCandidate.withRow
    rw [still c member]
    rfl
  have moved := @apply_rows _ others _ candidates
    (fun c first d second eq => by rwa [still c first, still d second] at eq) policy tokens strategy
  rw [same, done] at moved
  have ids : d.selectedItemIds = d.selectedItemIds.map others :=
    congrArg ContextBudgetDecision.selectedItemIds (Except.ok.inj moved)
  have fixed : ∀ k ∈ d.selectedItemIds, k = others k :=
    List.map_inj_left.mp ((List.map_id _).trans ids)
  intro k member
  by_contra absent
  have moves : others k = k + 1 := if_neg absent
  have still := fixed k member
  omega

end Decision

section Evidence
variable [UnicodeTables] [Rounding] {rename : Nat → Nat}

def CompressionCandidate.withRow (rename : Nat → Nat) (c : CompressionCandidate) :
    CompressionCandidate :=
  { c with candidate := c.candidate.withRow rename }

def DroppedEvidenceRef.withRow (rename : Nat → Nat) (ref : DroppedEvidenceRef) :
    DroppedEvidenceRef :=
  { ref with retrievalRunItemId := rename ref.retrievalRunItemId }

def Compression.withRows (rename : Nat → Nat) (s : Compression) : Compression :=
  { s with
    drops := s.drops.map (·.withRow rename)
    accepted := s.accepted.map (·.withRow rename) }

theorem evidenceItem_rows (number : Nat) (prepared : CompressionCandidate) (text : String)
    (method : CompressionMethod) :
    evidenceItem number (prepared.withRow rename) text method =
      (evidenceItem number prepared text method).map (·.withRow rename) := by
  have id : (prepared.withRow rename).candidate.localCitationId =
      prepared.candidate.localCitationId := rfl
  have key : (prepared.withRow rename).candidate.sourceGroupKey =
      prepared.candidate.sourceGroupKey := rfl
  unfold evidenceItem
  rw [id, key]
  split
  · rfl
  · cases safeOrNone 255 prepared.candidate.sourceGroupKey with
    | none => rfl
    | some key => rfl

variable [CaseFold] (policy : EvidencePackPolicy)

omit [UnicodeTables] in
theorem refusal_rows (s : Compression) (prepared : CompressionCandidate) :
    refusal policy (s.withRows rename) (prepared.withRow rename) = refusal policy s prepared := by
  have texts (p : String → Bool) :
      (s.withRows rename).accepted.any (fun item => p item.evidenceTextForGeneration) =
        s.accepted.any fun item => p item.evidenceTextForGeneration := List.any_map
  have tokens : (prepared.withRow rename).tokenSet = prepared.tokenSet := rfl
  have near : nearDuplicate (prepared.withRow rename) (s.withRows rename).accepted
        policy.nearDuplicateThreshold =
      nearDuplicate prepared s.accepted policy.nearDuplicateThreshold := by
    unfold nearDuplicate
    rw [tokens]
    split
    · rfl
    · exact texts fun text => similarTokens policy.nearDuplicateThreshold prepared.tokenSet
        (tokenSet (normalizeText text))
  have count : (s.withRows rename).accepted.length = s.accepted.length := List.length_map ..
  unfold refusal
  rw [near, count]
  rfl

theorem compressCandidate_rows (s : Compression) (prepared : CompressionCandidate) :
    compressCandidate policy (s.withRows rename) (prepared.withRow rename) =
      (compressCandidate policy s prepared).map (·.withRows rename) := by
  have count : (s.withRows rename).accepted.length = s.accepted.length := List.length_map ..
  have text : evidenceText policy (s.withRows rename) (prepared.withRow rename) =
      evidenceText policy s prepared := rfl
  have method (text : String) : compressionMethod policy (prepared.withRow rename) text =
      compressionMethod policy prepared text := rfl
  unfold compressCandidate
  rw [refusal_rows]
  cases refusal policy s prepared with
  | some reason =>
    unfold drop Compression.withRows
    simp only [Except.map, List.map_append]
    rfl
  | none =>
    simp only [count, text, method, evidenceItem_rows]
    cases evidenceItem (s.accepted.length + 1) prepared (evidenceText policy s prepared)
        (compressionMethod policy prepared (evidenceText policy s prepared)) with
    | error e => rfl
    | ok item =>
      simp only [bind, Except.bind, Except.map, Compression.withRows, List.map_append]
      rfl

omit [CaseFold] in
theorem passCandidate_rows (items : List EvidenceItem × Nat) (prepared : CompressionCandidate) :
    passCandidate policy (items.1.map (·.withRow rename), items.2) (prepared.withRow rename) =
      (passCandidate policy items prepared).map fun items =>
        (items.1.map (·.withRow rename), items.2) := by
  have clean : (prepared.withRow rename).cleanText = prepared.cleanText := rfl
  unfold passCandidate
  simp only [clean, List.length_map, evidenceItem_rows]
  split
  · rfl
  · split
    · rfl
    · cases evidenceItem (items.1.length + 1) prepared _ .none with
      | error e => rfl
      | ok item =>
        simp only [bind, Except.bind, Except.map, List.map_append]
        rfl

variable (rename) in
theorem buildItems_rows (candidates : List EvidenceCandidate) :
    buildItems policy (candidates.map (·.withRow rename)) =
      (buildItems policy candidates).map (List.map (·.withRow rename)) := by
  have one (c : EvidenceCandidate) :
      prepareCandidate (c.withRow rename) = (prepareCandidate c).withRow rename := by
    unfold prepareCandidate CompressionCandidate.withRow EvidenceCandidate.withRow
    dsimp only
  have prepared : (candidates.map (·.withRow rename)).map prepareCandidate =
      (candidates.map prepareCandidate).map (·.withRow rename) := by
    rw [List.map_map, List.map_map]
    exact List.map_congr_left fun c _ => one c
  unfold buildItems
  split
  · have run : ((candidates.map prepareCandidate).map (·.withRow rename)).foldlM
          (compressCandidate policy) (Compression.empty.withRows rename) =
        ((candidates.map prepareCandidate).foldlM (compressCandidate policy) .empty).map
          (·.withRows rename) :=
      Fallible.foldlM_hom (h := Compression.withRows rename) (compressCandidate_rows policy) _ _
    have start : Compression.empty.withRows rename = .empty := rfl
    rw [start] at run
    unfold compress
    rw [prepared, run]
    cases (candidates.map prepareCandidate).foldlM (compressCandidate policy) .empty with
    | error e => rfl
    | ok s => rfl
  · have run : ((candidates.map prepareCandidate).map (·.withRow rename)).foldlM
          (passCandidate policy) (([] : List EvidenceItem).map (·.withRow rename), 0) =
        ((candidates.map prepareCandidate).foldlM (passCandidate policy) ([], 0)).map
          fun items => (items.1.map (·.withRow rename), items.2) :=
      Fallible.foldlM_hom
        (h := fun items : List EvidenceItem × Nat => (items.1.map (·.withRow rename), items.2))
        (passCandidate_rows policy) _ ([], 0)
    rw [List.map_nil] at run
    unfold passthroughItems
    rw [prepared, run]
    cases (candidates.map prepareCandidate).foldlM (passCandidate policy) ([], 0) with
    | error e => rfl
    | ok items => rfl

end Evidence

end RagProject.Context
