import RagProject.Lib.Abreast
import RagProject.Tools.Compression

/-! The tool results of a turn stay within its budgets, and every candidate is accounted for. -/
namespace RagProject.Tools
open Python Markers Context

section Turn
variable [DigitTables] [Rounding] (policy : ToolResultCompressionPolicy)
variable (manager : ToolResultBudgetManager) (toolCallId toolName : String)

/-- What has become of the candidates so far. -/
structure Sorted (done : List PreparedToolResultCandidate) (s : Compressing)
    (kept : List (PreparedToolResultCandidate × ToolResultCompressionMethod))
    (dropped : List (PreparedToolResultCandidate × ToolResultDropReason)) : Prop where
  all : (kept.map (·.1) ++ dropped.map (·.1)).Perm done
  accepted : s.accepted = kept.map fun k => toolItem policy toolCallId toolName k.1 k.2
  refs : s.droppedRefs = dropped.map fun d => toolDropRef d.1 d.2
  counts : s.dropCounts = Counter.counted (dropped.map (·.2))
  reasons : ∀ d ∈ dropped, d.2 ≠ .oversizedRejected ∧ d.2 ≠ .repeatedResult
  shown : ∀ k ∈ kept, k.1.cleanText ≠ ""
  chunks : ∀ id, id ∈ s.seenChunks ↔ id ∈ s.accepted.map (·.documentChunkId)
  distinct : (s.accepted.map (·.documentChunkId)).Nodup
  tokens : s.perToolTokens = (s.accepted.map (·.estimatedTokens)).sum
  itemsOfTool : s.accepted.length ≤ policy.maxItemsPerTool
  itemsOfTurn : s.accepted.length ≤ remainingItems policy manager
  tokensOfTool : s.perToolTokens ≤ policy.maxTokensPerTool
  tokensOfTurn : s.perToolTokens ≤ remainingTokens policy manager

/-- What the tests of the loop let pass. -/
structure Admitted (s : Compressing) (prepared : PreparedToolResultCandidate) : Prop where
  text : prepared.cleanText ≠ ""
  chunk : prepared.candidate.documentChunkId ∉ s.seenChunks
  fresh : prepared.normalizedText ∉ s.seenText
  itemsOfTool : s.accepted.length < policy.maxItemsPerTool
  itemsOfTurn : s.accepted.length < remainingItems policy manager
  tokensOfTool :
    s.perToolTokens + estimateTokens (toolSnippet policy prepared) ≤ policy.maxTokensPerTool
  tokensOfTurn :
    s.perToolTokens + estimateTokens (toolSnippet policy prepared) ≤ remainingTokens policy manager

variable {policy manager toolCallId toolName} {s : Compressing}
variable {prepared : PreparedToolResultCandidate}

omit [Rounding] in
theorem toolRefusal_none : toolRefusal policy manager s prepared = none ↔
    Admitted policy manager s prepared := by
  unfold toolRefusal
  dsimp only
  constructor
  · intro none
    split at none
    · cases none
    · split at none
      · cases none
      · split at none
        · cases none
        · split at none
          · cases none
          · split at none
            · cases none
            · split at none
              · cases none
              · split at none
                · cases none
                · constructor <;> first | assumption | omega
  · rintro ⟨text, chunk, fresh, itemsOfTool, itemsOfTurn, tokensOfTool, tokensOfTurn⟩
    rw [if_neg text, if_neg chunk, if_neg fresh, if_neg (by omega), if_neg (by omega),
      if_neg (by omega), if_neg (by omega)]

omit [Rounding] in
theorem toolRefusal_reason {reason : ToolResultDropReason}
    (refused : toolRefusal policy manager s prepared = some reason) :
    reason ≠ .oversizedRejected ∧ reason ≠ .repeatedResult := by
  unfold toolRefusal at refused
  dsimp only at refused
  split_ifs at refused <;> cases refused <;> exact ⟨by decide, by decide⟩

theorem turn_sorted {done : List PreparedToolResultCandidate}
    {kept : List (PreparedToolResultCandidate × ToolResultCompressionMethod)}
    {dropped : List (PreparedToolResultCandidate × ToolResultDropReason)}
    (ok : Sorted policy manager toolCallId toolName done s kept dropped)
    (prepared : PreparedToolResultCandidate) :
    ∃ kept dropped, Sorted policy manager toolCallId toolName (done ++ [prepared])
      (compressTurn policy manager toolCallId toolName s prepared) kept dropped := by
  unfold compressTurn
  cases refused : toolRefusal policy manager s prepared with
  | some reason =>
    refine ⟨kept, dropped ++ [(prepared, reason)], ?_, ok.accepted, ?_, ?_, ?_, ok.shown, ok.chunks,
      ok.distinct, ok.tokens, ok.itemsOfTool, ok.itemsOfTurn, ok.tokensOfTool, ok.tokensOfTurn⟩
    · rw [List.map_append, ← List.append_assoc]
      exact ok.all.append_right _
    · change s.droppedRefs ++ [_] = _
      rw [ok.refs, List.map_append]
      rfl
    · change Counter.add s.dropCounts reason = _
      rw [ok.counts, List.map_append, Counter.counted, Counter.counted, List.foldl_append]
      rfl
    · intro d member
      rcases List.mem_append.mp member with before | last
      · exact ok.reasons d before
      · rw [List.mem_singleton.mp last]
        exact toolRefusal_reason refused
  | none =>
    have admitted := toolRefusal_none.mp refused
    have grown (f : ToolResultItem → Nat) (item : ToolResultItem) :
        (s.accepted ++ [item]).map f = s.accepted.map f ++ [f item] := List.map_append
    have longer (item : ToolResultItem) : (s.accepted ++ [item]).length = s.accepted.length + 1 := by
      rw [List.length_append, List.length_singleton]
    refine ⟨kept ++ [(prepared, toolMethod policy s prepared)], dropped, ?_, ?_, ok.refs, ok.counts,
      ok.reasons, ?_, ?_, ?_, ?_, ?_, ?_, admitted.tokensOfTool, admitted.tokensOfTurn⟩
    · have moved : (kept.map (·.1) ++ [prepared] ++ dropped.map (·.1)).Perm
          (kept.map (·.1) ++ dropped.map (·.1) ++ [prepared]) := by
        rw [List.append_assoc, List.append_assoc]
        exact List.perm_append_comm.append_left _
      rw [List.map_append]
      exact moved.trans (ok.all.append_right _)
    · rw [List.map_append, ok.accepted]
      rfl
    · intro k member
      rcases List.mem_append.mp member with before | last
      · exact ok.shown k before
      · rw [List.mem_singleton.mp last]
        exact admitted.text
    · intro id
      rw [grown, List.mem_append, ← ok.chunks, List.mem_cons, List.mem_singleton, or_comm]
      rfl
    · rw [grown, List.nodup_append]
      refine ⟨ok.distinct, List.nodup_singleton _, ?_⟩
      rintro id before _ last rfl
      rw [List.mem_singleton.mp last, ← ok.chunks] at before
      exact admitted.chunk before
    · rw [grown, List.sum_append, ← ok.tokens]
      rfl
    · rw [longer]
      exact admitted.itemsOfTool
    · rw [longer]
      exact admitted.itemsOfTurn

variable (policy manager toolCallId toolName) in
/-- The loop over the candidates. -/
theorem compressAll_sorted (candidates : List PreparedToolResultCandidate) :
    ∃ kept dropped, Sorted policy manager toolCallId toolName candidates
      (compressAll policy manager toolCallId toolName candidates) kept dropped := by
  induction candidates using List.reverseRecOn with
  | nil =>
    exact ⟨[], [], ⟨.refl _, rfl, rfl, rfl, by simp, by simp, by simp [compressAll, Compressing.start],
      .nil, rfl, Nat.zero_le _, Nat.zero_le _, Nat.zero_le _, Nat.zero_le _⟩⟩
  | append_singleton candidates prepared ih =>
    obtain ⟨kept, dropped, ok⟩ := ih
    unfold compressAll
    rw [List.foldl_append]
    exact turn_sorted ok prepared

end Turn

section Result
variable [DigitTables] [Rounding] {policy : ToolResultCompressionPolicy}
variable {manager : ToolResultBudgetManager} {toolCallId toolName : String}

/-- The counts of the reasons but the one that is counted besides the drops. -/
def droppedTotal (counts : List (ToolResultDropReason × Nat)) : Nat :=
  Counter.total (counts.filter (·.1 ≠ .oversizedRejected))

/-- The chunks that are delivered, and those that are dropped, are the ones found. -/
structure ResultOk (policy : ToolResultCompressionPolicy) (candidates : List ToolResultCandidate)
    (result : CompressedToolResult) : Prop where
  count : result.items.length ≤ policy.maxItemsPerTool
  distinct : (result.items.map (·.documentChunkId)).Nodup
  snippets : ∀ item ∈ result.items,
    item.snippet.length ≤ policy.maxSnippetChars ∨ item.snippet = "redacted"
  charged : ∀ item ∈ result.items, item.estimatedTokens = estimateTokens item.snippet ∧
    item.snippetHash = Sha256.hexDigest item.snippet
  tokens : (result.items.map (·.estimatedTokens)).sum = result.estimatedTokensAfter
  tokensOfTool : result.estimatedTokensAfter ≤ policy.maxTokensPerTool
  original : result.originalItemCount = candidates.length
  output : result.outputItemCount = result.items.length
  all : result.originalItemCount = result.outputItemCount + result.droppedItemCount
  reasons : droppedTotal result.dropReasons = result.droppedItemCount
  drops : ∃ refs : List DroppedToolResultRef, result.droppedItemRefs = refs.take 200 ∧
    refs.length = result.droppedItemCount ∧
    (result.items.map (fun item => some item.documentChunkId) ++
      refs.map (·.documentChunkId)).Perm (candidates.map fun c => some c.documentChunkId)
  oversized : result.status = .failed → result.errorCode = some "oversized_tool_output" →
    result.items = []

omit [Rounding] in
theorem snippet_bounded (prepared : PreparedToolResultCandidate) :
    (toolSnippet policy prepared).length ≤ policy.maxSnippetChars := by
  unfold toolSnippet safeSnippet
  rw [String.length_ofList]
  exact List.length_take_le _ _

variable (policy) in
omit [Rounding] in
theorem prepared_perm (candidates : List ToolResultCandidate) :
    (preparedCandidates policy candidates).Perm (candidates.map prepareToolCandidate) := by
  unfold preparedCandidates
  dsimp only
  split
  · exact List.perm_insertionSort _ _
  · exact .refl _

/-- What a result is made of: every candidate is delivered or has a reference. -/
structure Settled (policy : ToolResultCompressionPolicy) (manager : ToolResultBudgetManager)
    (prepared : List PreparedToolResultCandidate) (s : Compressing) : Prop where
  distinct : (s.accepted.map (·.documentChunkId)).Nodup
  items : ∀ item ∈ s.accepted, item.snippet.length ≤ policy.maxSnippetChars ∧
    item.estimatedTokens = estimateTokens item.snippet ∧
    item.snippetHash = Sha256.hexDigest item.snippet
  tokens : s.perToolTokens = (s.accepted.map (·.estimatedTokens)).sum
  itemsOfTool : s.accepted.length ≤ policy.maxItemsPerTool
  itemsOfTurn : s.accepted.length ≤ remainingItems policy manager
  tokensOfTool : s.perToolTokens ≤ policy.maxTokensPerTool
  tokensOfTurn : s.perToolTokens ≤ remainingTokens policy manager
  keys : (s.dropCounts.map (·.1)).Nodup
  plain : ∀ e ∈ s.dropCounts, e.1 ≠ .oversizedRejected
  total : Counter.total s.dropCounts = s.droppedRefs.length
  all : (s.accepted.map (fun item => some item.documentChunkId) ++
    s.droppedRefs.map (·.documentChunkId)).Perm
      (prepared.map fun p => some p.candidate.documentChunkId)

theorem Sorted.settled {done : List PreparedToolResultCandidate} {s : Compressing}
    {kept : List (PreparedToolResultCandidate × ToolResultCompressionMethod)}
    {dropped : List (PreparedToolResultCandidate × ToolResultDropReason)}
    (ok : Sorted policy manager toolCallId toolName done s kept dropped) :
    Settled policy manager done s := by
  refine ⟨ok.distinct, ?_, ok.tokens, ok.itemsOfTool, ok.itemsOfTurn, ok.tokensOfTool,
    ok.tokensOfTurn, ?_, ?_, ?_, ?_⟩
  · intro item member
    rw [ok.accepted] at member
    obtain ⟨k, _, rfl⟩ := List.mem_map.mp member
    exact ⟨snippet_bounded k.1, rfl, rfl⟩
  · rw [ok.counts]
    exact Counter.counted_keys _
  · intro e member
    rw [ok.counts] at member
    obtain ⟨d, inside, same⟩ := List.mem_map.mp (Counter.counted_key member)
    rw [← same]
    exact (ok.reasons d inside).1
  · rw [ok.counts, ok.refs, Counter.total_counted, List.length_map, List.length_map]
  · have moved := ok.all.map fun p => some p.candidate.documentChunkId
    rw [List.map_append, List.map_map, List.map_map] at moved
    rw [ok.accepted, ok.refs, List.map_map, List.map_map]
    exact moved

omit [Rounding] in
theorem Settled.emptied {prepared : List PreparedToolResultCandidate} {s : Compressing}
    (ok : Settled policy manager prepared s) :
    Settled policy manager prepared (emptyRepeated s) := by
  refine ⟨.nil, ?_, rfl, Nat.zero_le _, Nat.zero_le _, Nat.zero_le _, Nat.zero_le _,
    Counter.raise_keys ok.keys _ _, ?_, ?_, ?_⟩
  · intro item member
    cases member
  · intro e member
    rcases Counter.raise_key member with repeated | ⟨f, inside, same⟩
    · rw [repeated]
      decide
    · rw [← same]
      exact ok.plain f inside
  · unfold emptyRepeated
    rw [Counter.total_raise ok.keys, ok.total, List.length_append, List.length_map]
  · unfold emptyRepeated
    rw [List.map_nil, List.nil_append, List.map_append, List.map_map]
    exact List.perm_append_comm.trans ok.all

omit [DigitTables] [Rounding] in
theorem Settled.length {prepared : List PreparedToolResultCandidate} {s : Compressing}
    (ok : Settled policy manager prepared s) :
    s.accepted.length + s.droppedRefs.length = prepared.length := by
  have same := ok.all.length_eq
  rwa [List.length_append, List.length_map, List.length_map, List.length_map] at same

theorem Settled.result {candidates : List ToolResultCandidate} {s : Compressing}
    (ok : Settled policy manager (preparedCandidates policy candidates) s) (repeated : Bool) :
    ResultOk policy candidates (compressedResult policy toolCallId toolName
      (preparedCandidates policy candidates) s repeated) := by
  have found : (preparedCandidates policy candidates).length = candidates.length :=
    (prepared_perm policy candidates).length_eq.trans (List.length_map ..)
  have length := ok.length
  refine ⟨ok.itemsOfTool, ok.distinct, fun item member => .inl (ok.items item member).1,
    fun item member => (ok.items item member).2, ok.tokens.symm, ok.tokensOfTool, found, rfl, ?_,
    ?_, ⟨s.droppedRefs, rfl, ?_, ?_⟩, ?_⟩
  · simp only [compressedResult]
    omega
  · have plain : s.dropCounts.filter (·.1 ≠ .oversizedRejected) = s.dropCounts :=
      List.filter_eq_self.mpr fun e member => decide_eq_true (ok.plain e member)
    have total : droppedTotal s.dropCounts =
        (preparedCandidates policy candidates).length - s.accepted.length := by
      unfold droppedTotal
      rw [plain, ok.total]
      omega
    simp only [compressedResult]
    split
    · unfold droppedTotal at total ⊢
      rw [Counter.raise_others]
      exact total
    · exact total
  · simp only [compressedResult]
    omega
  · have chunks := (prepared_perm policy candidates).map fun p =>
      some p.candidate.documentChunkId
    rw [List.map_map] at chunks
    exact ok.all.trans chunks
  · intro _ code
    simp only [compressedResult] at code ⊢
    split at code
    · next rejected =>
      simp only [Bool.and_eq_true, List.isEmpty_iff] at rejected
      exact rejected.1.1.2
    · cases code

variable (policy manager toolCallId toolName) in
theorem compress_ok (candidates : List ToolResultCandidate) :
    let result := (compress policy manager toolCallId toolName candidates).1
    ResultOk policy candidates result ∧ result.items.length ≤ remainingItems policy manager ∧
      result.estimatedTokensAfter ≤ remainingTokens policy manager := by
  obtain ⟨kept, dropped, ok⟩ := compressAll_sorted policy manager toolCallId toolName
    (preparedCandidates policy candidates)
  have settled := ok.settled
  dsimp only [compress]
  split
  · exact ⟨settled.emptied.result _, settled.emptied.itemsOfTurn, settled.emptied.tokensOfTurn⟩
  · exact ⟨settled.result _, settled.itemsOfTurn, settled.tokensOfTurn⟩

end Result

section Signatures

/-- What the signature of a result tells of an item. -/
def ToolResultItem.fact (item : ToolResultItem) : Nat × String × Option Int :=
  (item.documentChunkId, item.snippet, item.rank)

def SameFacts (items items' : List ToolResultItem) : Prop :=
  ∀ fact, fact ∈ items.map (·.fact) ↔ fact ∈ items'.map (·.fact)

structure Hashed (items : List ToolResultItem) : Prop where
  distinct : (items.map (·.documentChunkId)).Nodup
  hashes : ∀ item ∈ items, item.snippetHash = Sha256.hexDigest item.snippet

def factOrder (fact : Nat × String × Option Int) : Int ×ₗ Nat :=
  toLex (orDefault fact.2.2 1000000, fact.1)

def factPart (fact : Nat × String × Option Int) : String :=
  toString fact.1 ++ ":" ++ Sha256.hexDigest fact.2.1 ++ ":" ++ toString (orDefault fact.2.2 0)

theorem signature_facts {items : List ToolResultItem} (hashed : Hashed items) :
    resultSignature items = Sha256.hexDigest ("|".intercalate
      (((items.map (·.fact)).insertionSort fun a b => factOrder a ≤ factOrder b).map factPart)) := by
  have sorted : (items.insertionSort fun a b => signatureOrder a ≤ signatureOrder b).map (·.fact) =
      (items.map (·.fact)).insertionSort fun a b => factOrder a ≤ factOrder b :=
    List.map_insertionSort _ _ _ items fun _ _ _ _ => Iff.rfl
  unfold resultSignature
  rw [← sorted, List.map_map]
  have parts : (items.insertionSort fun a b => signatureOrder a ≤ signatureOrder b).map
      signaturePart = (items.insertionSort fun a b => signatureOrder a ≤ signatureOrder b).map
        (factPart ∘ (·.fact)) := by
    apply List.map_congr_left
    intro item member
    have hash := hashed.hashes item ((List.perm_insertionSort _ _).mem_iff.mp member)
    unfold signaturePart factPart
    rw [hash]
    rfl
  dsimp only
  rw [parts]

theorem Hashed.facts {items : List ToolResultItem} (hashed : Hashed items) :
    (items.map (·.fact)).Nodup := by
  apply List.Nodup.of_map (·.1)
  rw [List.map_map]
  exact hashed.distinct

/-- The signature of a result is that of its set of facts. -/
theorem same_signature {items items' : List ToolResultItem} (hashed : Hashed items)
    (hashed' : Hashed items') (same : SameFacts items items') :
    resultSignature items = resultSignature items' := by
  have perm : (items.map (·.fact)).Perm (items'.map (·.fact)) :=
    (List.perm_ext_iff_of_nodup hashed.facts hashed'.facts).mpr same
  have chunks : ∀ a ∈ items.map (·.fact), ∀ b ∈ items.map (·.fact), a.1 = b.1 → a = b := by
    intro a first b second eq
    obtain ⟨x, inside, rfl⟩ := List.mem_map.mp first
    obtain ⟨y, there, rfl⟩ := List.mem_map.mp second
    rw [List.inj_on_of_nodup_map hashed.distinct inside there eq]
  have sorted (facts : List (Nat × String × Option Int)) :
      (facts.insertionSort fun a b => factOrder a ≤ factOrder b).Pairwise fun a b =>
        factOrder a ≤ factOrder b := List.pairwise_insertionSort _ _
  have one : (items.map (·.fact)).insertionSort (fun a b => factOrder a ≤ factOrder b) =
      (items'.map (·.fact)).insertionSort fun a b => factOrder a ≤ factOrder b := by
    apply List.Perm.eq_of_pairwise _ (sorted _) (sorted _)
    · exact (List.perm_insertionSort _ _).trans (perm.trans (List.perm_insertionSort _ _).symm)
    · intro a b first second le ge
      have inside := (List.perm_insertionSort _ _).mem_iff.mp first
      have there := perm.mem_iff.mpr ((List.perm_insertionSort _ _).mem_iff.mp second)
      have keys := le_antisymm le ge
      exact chunks a inside b there (Prod.mk.inj (toLex.injective keys)).2
  rw [signature_facts hashed, signature_facts hashed', one]

end Signatures

section Runs

/-- A call on the manager of a turn. -/
inductive ToolCall where
  | compress (toolCallId toolName : String) (candidates : List ToolResultCandidate)
  | error (toolCallId toolName errorCode : String)

variable [DigitTables] [Rounding] (policy : ToolResultCompressionPolicy)

def ToolCall.run (manager : ToolResultBudgetManager) :
    ToolCall → CompressedToolResult × ToolResultBudgetManager
  | .compress toolCallId toolName candidates =>
    Tools.compress policy manager toolCallId toolName candidates
  | .error toolCallId toolName errorCode => errorResult manager toolCallId toolName errorCode

def runToolCalls (calls : List ToolCall) : ToolResultBudgetManager :=
  calls.foldl (fun manager call => (call.run policy manager).2) .new

def CallOk : ToolCall → CompressedToolResult → Prop
  | .compress _ _ candidates, result => ResultOk policy candidates result
  | .error .., result => ResultOk policy [] result ∧ result.status = .failed

structure ManagerOk (calls : List ToolCall) (manager : ToolResultBudgetManager) : Prop where
  results : List.Forall₂ (CallOk policy) calls manager.results
  items : manager.consumedItems = (manager.results.map (·.outputItemCount)).sum
  tokens : manager.consumedTokens = (manager.results.map (·.estimatedTokensAfter)).sum
  itemsOfTurn : manager.consumedItems ≤ policy.maxTotalItemsPerTurn
  tokensOfTurn : manager.consumedTokens ≤ policy.maxTotalToolResultTokens
  seen : ∀ result ∈ manager.results, result.items ≠ [] →
    resultSignature result.items ∈ manager.seenResultSignatures
  apart : manager.results.Pairwise fun r r' => r.items ≠ [] → r'.items ≠ [] →
    ¬SameFacts r.items r'.items

variable {policy} {manager : ToolResultBudgetManager} {calls : List ToolCall}

omit [DigitTables] [Rounding] in
theorem CallOk.hashed {call : ToolCall} {result : CompressedToolResult}
    (ok : CallOk policy call result) : Hashed result.items := by
  cases call with
  | compress => exact ⟨ok.distinct, fun item member => (ok.charged item member).2⟩
  | error => exact ⟨ok.1.distinct, fun item member => (ok.1.charged item member).2⟩

/-- What is delivered was not delivered before. -/
theorem compress_fresh {toolCallId toolName : String} {candidates : List ToolResultCandidate}
    (delivered : (compress policy manager toolCallId toolName candidates).1.items ≠ []) :
    let result := (compress policy manager toolCallId toolName candidates).1
    result.repeatedResult = false ∧ resultSignature result.items ∉ manager.seenResultSignatures := by
  dsimp only [compress] at delivered ⊢
  generalize compressAll policy manager toolCallId toolName _ = s at delivered ⊢
  split at delivered
  · exact absurd rfl delivered
  · next fresh =>
    rw [if_neg fresh]
    refine ⟨by simpa [compressedResult] using fresh, ?_⟩
    intro seen
    apply fresh
    have some_item : s.accepted ≠ [] := delivered
    unfold isRepeatedResult
    rw [Bool.and_eq_true, Bool.not_eq_true', List.isEmpty_eq_false_iff, List.contains_iff_mem]
    exact ⟨some_item, seen⟩

omit [Rounding] in
theorem error_ok (manager : ToolResultBudgetManager) (toolCallId toolName errorCode : String) :
    CallOk policy (.error toolCallId toolName errorCode)
      (errorResult manager toolCallId toolName errorCode).1 := by
  refine ⟨⟨Nat.zero_le _, .nil, ?_, ?_, rfl, Nat.zero_le _, rfl, rfl, rfl, rfl,
    ⟨[], rfl, rfl, .refl _⟩, fun _ _ => rfl⟩, rfl⟩
  · intro item member
    cases member
  · intro item member
    cases member

theorem call_ok (ok : ManagerOk policy calls manager) (call : ToolCall) :
    ManagerOk policy (calls ++ [call]) (call.run policy manager).2 := by
  obtain ⟨result, recorded, okay, within, fresh⟩ :
      ∃ result, (call.run policy manager).2 = record manager result ∧ CallOk policy call result ∧
        (result.outputItemCount ≤ remainingItems policy manager ∧
          result.estimatedTokensAfter ≤ remainingTokens policy manager) ∧
        (result.items ≠ [] → result.repeatedResult = false ∧
          resultSignature result.items ∉ manager.seenResultSignatures) := by
    cases call with
    | compress toolCallId toolName candidates =>
      obtain ⟨okay, items, tokens⟩ := compress_ok policy manager toolCallId toolName candidates
      exact ⟨_, rfl, okay, ⟨okay.output ▸ items, tokens⟩, compress_fresh⟩
    | error toolCallId toolName errorCode =>
      exact ⟨_, rfl, error_ok manager toolCallId toolName errorCode, ⟨Nat.zero_le _, Nat.zero_le _⟩,
        fun some_item => absurd rfl some_item⟩
  rw [recorded]
  have one (f : CompressedToolResult → Nat) :
      ((manager.results ++ [result]).map f).sum = (manager.results.map f).sum + f result := by
    rw [List.map_append, List.sum_append, List.map_singleton, List.sum_singleton]
  have itemsLeft := ok.itemsOfTurn
  have tokensLeft := ok.tokensOfTurn
  unfold remainingItems remainingTokens at within
  refine ⟨List.rel_append ok.results (.cons okay .nil), ?_, ?_, ?_, ?_, ?_, ?_⟩
  · change manager.consumedItems + _ = _
    rw [ok.items]
    exact (one _).symm
  · change manager.consumedTokens + _ = _
    rw [ok.tokens]
    exact (one _).symm
  · change manager.consumedItems + _ ≤ _
    omega
  · change manager.consumedTokens + _ ≤ _
    omega
  · intro r member some_item
    have older : ∀ signature ∈ manager.seenResultSignatures,
        signature ∈ (record manager result).seenResultSignatures := by
      intro signature inside
      dsimp only [record]
      split
      · exact .tail _ inside
      · exact inside
    rcases List.mem_append.mp member with before | last
    · exact older _ (ok.seen r before some_item)
    · rw [List.mem_singleton.mp last] at some_item ⊢
      dsimp only [record]
      rw [if_pos (by simp [some_item, (fresh some_item).1])]
      exact .head _
  · change (manager.results ++ [result]).Pairwise _
    rw [List.pairwise_append]
    refine ⟨ok.apart, List.pairwise_singleton _ _, ?_⟩
    intro r before r' last delivered delivered' same
    rw [List.mem_singleton.mp last] at delivered' same
    obtain ⟨c, _, earlier⟩ := Abreast.partner ok.results before
    apply (fresh delivered').2
    rw [← same_signature earlier.hashed okay.hashed same]
    exact ok.seen r before delivered

theorem run_ok (calls : List ToolCall) : ManagerOk policy calls (runToolCalls policy calls) := by
  induction calls using List.reverseRecOn with
  | nil =>
    exact ⟨.nil, rfl, rfl, Nat.zero_le _, Nat.zero_le _, fun r absent => (nomatch absent), .nil⟩
  | append_singleton calls call ih =>
    unfold runToolCalls
    rw [List.foldl_append]
    exact call_ok ih call

/-- The trace of a turn reports what its calls delivered and dropped. -/
structure Reported (manager : ToolResultBudgetManager) (trace : ToolResultCompressionTrace) :
    Prop where
  calls : trace.summary.toolCallCount = manager.results.length
  items : trace.summary.outputItemCount = manager.consumedItems
  tokens : trace.summary.estimatedTokensAfter = manager.consumedTokens
  all : trace.summary.originalItemCount =
    trace.summary.outputItemCount + trace.summary.droppedItemCount
  reasons : droppedTotal trace.dropReasons = trace.summary.droppedItemCount
  refs : trace.itemRefs.length = trace.summary.outputItemCount

omit [DigitTables] [Rounding] in
theorem CallOk.balanced {call : ToolCall} {result : CompressedToolResult}
    (ok : CallOk policy call result) :
    result.originalItemCount = result.outputItemCount + result.droppedItemCount ∧
      droppedTotal result.dropReasons = result.droppedItemCount ∧
      result.outputItemCount = result.items.length := by
  cases call with
  | compress => exact ⟨ok.all, ok.reasons, ok.output⟩
  | error => exact ⟨ok.1.all, ok.1.reasons, ok.1.output⟩

omit [DigitTables] [Rounding] in
/-- Counter.update, entry by entry. -/
theorem update_total (added : List (ToolResultDropReason × Nat))
    {counts : List (ToolResultDropReason × Nat)} (distinct : (counts.map (·.1)).Nodup) :
    let updated := added.foldl (fun counts e => Counter.raise counts e.1 e.2) counts
    (updated.map (·.1)).Nodup ∧ droppedTotal updated = droppedTotal counts + droppedTotal added := by
  induction added generalizing counts with
  | nil => exact ⟨distinct, rfl⟩
  | cons e added ih =>
    obtain ⟨keys, total⟩ := ih (Counter.raise_keys distinct e.1 e.2)
    refine ⟨keys, total.trans ?_⟩
    unfold droppedTotal at total ⊢
    by_cases oversized : e.1 = .oversizedRejected
    · rw [oversized, Counter.raise_others, List.filter_cons_of_neg (by simp [oversized])]
    · rw [Counter.total_others distinct oversized, List.filter_cons_of_pos (by simp [oversized])]
      unfold Counter.total
      rw [List.map_cons, List.sum_cons]
      omega

omit [DigitTables] in
theorem trace_reported (ok : ManagerOk policy calls manager) :
    Reported manager (managerTrace policy manager) := by
  have balanced : ∀ result ∈ manager.results,
      result.originalItemCount = result.outputItemCount + result.droppedItemCount ∧
        droppedTotal result.dropReasons = result.droppedItemCount ∧
        result.outputItemCount = result.items.length := by
    intro result member
    obtain ⟨call, _, okay⟩ := Abreast.partner ok.results member
    exact okay.balanced
  refine ⟨rfl, ok.items.symm, ok.tokens.symm, ?_, ?_, ?_⟩
  · change (manager.results.map (·.originalItemCount)).sum =
      (manager.results.map (·.outputItemCount)).sum +
        (manager.results.map (·.droppedItemCount)).sum
    rw [← List.sum_map_add]
    exact congrArg List.sum (List.map_congr_left fun r member => (balanced r member).1)
  · have loop : ∀ (results : List CompressedToolResult)
        (counts : List (ToolResultDropReason × Nat)), (counts.map (·.1)).Nodup →
        droppedTotal (results.foldl (fun counts result => result.dropReasons.foldl
          (fun counts e => Counter.raise counts e.1 e.2) counts) counts) =
            droppedTotal counts + (results.map fun r => droppedTotal r.dropReasons).sum := by
      intro results
      induction results with
      | nil => exact fun _ _ => rfl
      | cons result results ih =>
        intro counts distinct
        obtain ⟨keys, total⟩ := update_total result.dropReasons distinct
        rw [List.foldl_cons, ih _ keys, total, List.map_cons, List.sum_cons, Nat.add_assoc]
    refine (loop manager.results [] .nil).trans ?_
    rw [List.map_congr_left fun r member => (balanced r member).2.1]
    exact Nat.zero_add _
  · change (manager.results.flatMap _).length = (manager.results.map (·.outputItemCount)).sum
    rw [List.length_flatMap]
    apply congrArg List.sum
    apply List.map_congr_left
    intro r member
    rw [List.length_map, (balanced r member).2.2]

variable (policy) in
/-- After every call of a turn the budgets hold, every candidate is accounted for, no delivery
is repeated, and the trace reports the counts. -/
theorem turn_accounted (calls : List ToolCall) :
    ManagerOk policy calls (runToolCalls policy calls) ∧
      Reported (runToolCalls policy calls) (managerTrace policy (runToolCalls policy calls)) :=
  ⟨run_ok calls, trace_reported (run_ok calls)⟩

end Runs

end RagProject.Tools
