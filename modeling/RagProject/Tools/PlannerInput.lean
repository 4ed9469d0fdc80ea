import RagProject.Context.RedactedAgain
import RagProject.Tools.Accounting

/-! The input of the planner (rag/llm_orchestrator.py): which items of a compressed result it shows
as they were charged to the budget. -/
namespace RagProject.Tools
open Python Markers Context Regex

section Payloads
variable [UnicodeTables]

structure LLMToolResult where
  toolCallId : String
  toolName : String
  status : String
  itemCount : Nat
  droppedItemCount : Nat
  items : List ToolResultItem
  errorCode : Option String
  traceSummary : Option Dict

structure LLMToolPlanningRequest where
  userQuery : String
  topK : Nat
  maxQueryChars : Nat
  remainingTimeoutSeconds : Rat
  remainingToolCalls : Nat
  remainingSearchCalls : Nat
  availableTools : List String
  toolResults : List LLMToolResult

/-- An optional field of a payload. -/
def orNone {A : Type} (value : A → Value) : Option A → Value
  | none => .none
  | some a => value a

/-- The fields of ToolResultItem.to_planner_payload before they are redacted. -/
def itemFields (item : ToolResultItem) : Dict := [
  ("tool_call_id", .str item.toolCallId),
  ("document_chunk_id", .int item.documentChunkId),
  ("source_label", orNone .str item.sourceLabel),
  ("section_title", orNone .str item.sectionTitle),
  ("page_from", orNone .int item.pageFrom),
  ("page_to", orNone .int item.pageTo),
  ("snippet", .str item.snippet),
  ("retrieval_score", orNone .float item.retrievalScore),
  ("rerank_score", orNone .float item.rerankScore),
  ("fusion_score", orNone .float item.fusionScore),
  ("rank", orNone .int item.rank),
  ("citation_candidate", .bool item.citationCandidate),
  ("estimated_tokens", .int item.estimatedTokens),
  ("source_group_key", .str item.sourceGroupKey)]

def ToolResultItem.toPlannerPayload (item : ToolResultItem) : Dict :=
  redactEntries [] (itemFields item)

def resultFields (result : LLMToolResult) : Dict := [
  ("tool_call_id", .str result.toolCallId),
  ("tool_name", .str result.toolName),
  ("status", .str result.status),
  ("item_count", .int result.itemCount),
  ("dropped_item_count", .int result.droppedItemCount),
  ("truncated", .bool (0 < result.droppedItemCount)),
  ("items", .list (result.items.map fun item => .dict item.toPlannerPayload)),
  ("error_code", orNone .str result.errorCode),
  ("trace_summary", orNone .dict result.traceSummary)]

def LLMToolResult.toPlannerPayload (result : LLMToolResult) : Dict :=
  redactEntries [] (resultFields result)

variable [Rounding]

def requestFields (request : LLMToolPlanningRequest) : Dict := [
  ("remaining_tool_calls", .int request.remainingToolCalls),
  ("remaining_search_calls", .int request.remainingSearchCalls),
  ("remaining_timeout_seconds",
    .float (Rounding.round 3 (max 0 request.remainingTimeoutSeconds))),
  ("available_tools",
    .list ((request.availableTools.insertionSort (· ≤ ·)).map .str)),
  ("tool_results", .list (request.toolResults.map fun result => .dict result.toPlannerPayload)),
  ("instruction", .str ("Choose one retrieval tool if more evidence is needed, otherwise call " ++
    "finalize_answer with selected_tool_call_ids."))]

def boundedExecutableQuery (value : String) (maxChars : Nat) : String :=
  String.ofList ((cleanText value).toList.take maxChars)

/-- _planner_input_payload. -/
def plannerInputPayload (request : LLMToolPlanningRequest) : Dict :=
  Dict.set (redactEntries [] (requestFields request)) "user_query"
    (.str (boundedExecutableQuery request.userQuery request.maxQueryChars))

def llmToolResultFromCompressed (result : CompressedToolResult) : LLMToolResult where
  toolCallId := result.toolCallId
  toolName := result.toolName
  status := result.status.value
  itemCount := result.outputItemCount
  droppedItemCount := result.droppedItemCount
  items := result.items
  errorCode := result.errorCode
  traceSummary := none

end Payloads

section Seen
variable [UnicodeTables]

/-- The entries that the payload shows for items. -/
def shownItems (payload : Dict) : List Dict :=
  let listed (fields : Dict) (key : String) : List Value :=
    match fields.get key with
    | some (.list values) => values
    | _ => []
  (listed payload "tool_results").flatMap fun
    | .dict fields => (listed fields "items").filterMap fun
      | .dict entry => some entry
      | _ => none
    | _ => []

/-- An entry shows an item as it was delivered. -/
structure ShowsItem (item : ToolResultItem) (entry : Dict) : Prop where
  toolCallId : entry.get "tool_call_id" = some (.str item.toolCallId)
  chunk : entry.get "document_chunk_id" = some (.int item.documentChunkId)
  retrievalScore : entry.get "retrieval_score" = some (orNone .float item.retrievalScore)
  rerankScore : entry.get "rerank_score" = some (orNone .float item.rerankScore)
  fusionScore : entry.get "fusion_score" = some (orNone .float item.fusionScore)
  rank : entry.get "rank" = some (orNone .int item.rank)
  snippet : entry.get "snippet" = some (.str item.snippet)

def Sees (payload : Dict) (item : ToolResultItem) : Prop :=
  ∃ entry ∈ shownItems payload, ShowsItem item entry

def plainKeys : List String := ["tool_call_id", "document_chunk_id", "retrieval_score",
  "rerank_score", "fusion_score", "rank", "snippet", "items", "tool_results"]

theorem plainKeys_plain : ∀ key ∈ plainKeys, isSensitiveKey key = false := by
  have ascii : ∀ key ∈ plainKeys, ∀ c ∈ key.toList, c.toNat < 128 := by decide
  have plain : ∀ key ∈ plainKeys, @isSensitiveKey asciiTables key = false := by decide +kernel
  intro key member
  rw [isSensitiveKey_ascii (ascii key member)]
  exact plain key member

/-- What the entry of an item has under a key, after three redactions. -/
def entryOf (item : ToolResultItem) : Dict :=
  redactEntries [] (redactEntries [] (redactEntries [] (itemFields item)))

omit [UnicodeTables] in
theorem itemFields_distinct (item : ToolResultItem) : ((itemFields item).map Prod.fst).Nodup := by
  have keys : (itemFields item).map Prod.fst = ["tool_call_id", "document_chunk_id",
    "source_label", "section_title", "page_from", "page_to", "snippet", "retrieval_score",
    "rerank_score", "fusion_score", "rank", "citation_candidate", "estimated_tokens",
    "source_group_key"] := rfl
  rw [keys]
  decide

theorem entryOf_get (item : ToolResultItem) {key : String} (plain : isSensitiveKey key = false) :
    (entryOf item).get key = ((itemFields item).get key).map fun v => redact (redact (redact v)) := by
  have first := redactEntries_distinct (itemFields_distinct item)
  have second := redactEntries_distinct first
  unfold entryOf
  rw [redactEntries_get second plain, redactEntries_get first plain,
    redactEntries_get (itemFields_distinct item) plain, Option.map_map, Option.map_map]
  rfl

variable [Rounding]

theorem requestFields_get (request : LLMToolPlanningRequest) :
    (plannerInputPayload request).get "tool_results" = some (.list (request.toolResults.map
      fun result => .dict (redactEntries [] result.toPlannerPayload))) := by
  have distinct : ((requestFields request).map Prod.fst).Nodup := by
    have keys : (requestFields request).map Prod.fst = ["remaining_tool_calls",
      "remaining_search_calls", "remaining_timeout_seconds", "available_tools", "tool_results",
      "instruction"] := rfl
    rw [keys]
    decide
  unfold plannerInputPayload
  rw [get_set_ne _ _ (by decide), redactEntries_get distinct (plainKeys_plain _ (by decide))]
  unfold requestFields
  simp only [get_cons, String.reduceEq, if_true, if_false, Option.map_some, redact_list,
    List.map_map]
  rfl

omit [Rounding] in
theorem resultFields_get (result : LLMToolResult) :
    (redactEntries [] result.toPlannerPayload).get "items" = some (.list (result.items.map
      fun item => .dict (entryOf item))) := by
  have distinct : ((resultFields result).map Prod.fst).Nodup := by
    have keys : (resultFields result).map Prod.fst = ["tool_call_id", "tool_name", "status",
      "item_count", "dropped_item_count", "truncated", "items", "error_code",
      "trace_summary"] := rfl
    rw [keys]
    decide
  have plain := plainKeys_plain "items" (by decide)
  unfold LLMToolResult.toPlannerPayload
  rw [redactEntries_get (redactEntries_distinct distinct) plain, redactEntries_get distinct plain]
  unfold resultFields
  simp only [get_cons, String.reduceEq, if_true, if_false, Option.map_some, redact_list,
    List.map_map]
  rfl

/-- The entries of the payload are those of the items. -/
theorem shownItems_eq (request : LLMToolPlanningRequest) :
    shownItems (plannerInputPayload request) =
      request.toolResults.flatMap fun result => result.items.map entryOf := by
  unfold shownItems
  simp only [requestFields_get, List.flatMap_map, resultFields_get]
  apply List.flatMap_congr
  intro result _
  rw [List.filterMap_map]
  exact congrFun (List.filterMap_eq_map (f := entryOf)) result.items

end Seen

section Legible
variable [DigitTables] {m : Nat}

/-- The text of a candidate reaches the planner as it was delivered. -/
structure Legible (policy : ToolResultCompressionPolicy) (toolCallId : String)
    (candidate : ToolResultCandidate) : Prop where
  id : unsafeTool (cleanText toolCallId).toList = true ∨ CutWell 255 toolCallId
  text : unsafeTool (cleanOptional candidate.text).toList = true ∨
    redacts (cleanOptional candidate.text).toList = true ∨
    min (cleanOptional candidate.text).toList.length policy.maxSnippetChars ≤ 255 ∧
      CutWell policy.maxSnippetChars (cleanOptional candidate.text)

theorem safeToolString_free {s : String} (room : 8 ≤ m)
    (free : unsafeTool (cleanText s).toList = false) :
    safeToolString m s = if cleanText s = "" then "redacted" else safeString m s := by
  have again : safeString m (cleanText s) = safeString m s := by
    rw [safeString_eq, safeString_eq, cleanText_cleanText]
  unfold safeToolString
  dsimp only
  rw [free, again]
  by_cases empty : cleanText s = ""
  · have blank : safeString m s = "" :=
      safeString_blank fun shows => cleanText_shows.mpr shows empty
    rw [if_neg Bool.false_ne_true, if_pos blank, if_pos empty]
  · have shown : safeString m s ≠ "" :=
      shows_ne_empty (safeString_shows (by omega) (cleanText_shows.mp empty))
    rw [if_neg Bool.false_ne_true, if_neg shown, if_neg empty]

theorem safeToolString_fixed (room : 8 ≤ m) (s : String) :
    safeString m (safeToolString m s) = safeToolString m s ↔
      unsafeTool (cleanText s).toList = true ∨ CutWell m s := by
  have redacted : safeString m "redacted" = "redacted" := (redacted_safe room).2
  by_cases found : unsafeTool (cleanText s).toList = true
  · have told : safeToolString m s = "redacted" := by
      unfold safeToolString
      exact if_pos found
    rw [told]
    exact ⟨fun _ => .inl found, fun _ => redacted⟩
  · rw [safeToolString_free room (by simpa using found)]
    split
    · next empty =>
      refine ⟨fun _ => .inr (.inr (.inl ?_)), fun _ => redacted⟩
      rw [empty]
      exact Nat.zero_le _
    · rw [safeString_again room]
      exact ⟨.inr, fun cut => cut.resolve_left found⟩

theorem safeSnippet_eq (room : 8 ≤ m) (s : String) : safeSnippet m s = safeToolString m s := by
  have word : "redacted".toList.length ≤ 8 := by decide
  have short : (safeToolString m s).toList.length ≤ m := by
    unfold safeToolString
    dsimp only
    split
    · exact word.trans room
    · split
      · exact word.trans room
      · rw [String.length_toList]
        exact safeString_length m _ room
  unfold safeSnippet
  rw [List.take_of_length_le short, String.ofList_toList]

/-- When a snippet passes the redactions of the planner, which keep 255 characters. -/
theorem safeSnippet_fixed (room : 8 ≤ m) {s : String} (clean : cleanText s = s) (shown : s ≠ "") :
    safeString 255 (safeSnippet m s) = safeSnippet m s ↔
      unsafeTool s.toList = true ∨ redacts s.toList = true ∨
        min s.toList.length m ≤ 255 ∧ CutWell m s := by
  have redacted : safeString 255 "redacted" = "redacted" := (redacted_safe (by decide)).2
  rw [safeSnippet_eq room]
  by_cases found : unsafeTool s.toList = true
  · have told : safeToolString m s = "redacted" := by
      unfold safeToolString
      dsimp only
      rw [clean, if_pos found]
    rw [told]
    exact ⟨fun _ => .inl found, fun _ => redacted⟩
  · have told : safeToolString m s = safeString m s := by
      rw [safeToolString_free room (by rw [clean]; simpa using found), clean, if_neg shown]
    rw [told]
    by_cases hidden : redacts s.toList = true
    · have hides : safeString m s = "redacted" := by
        rw [safeString_eq, clean, if_pos hidden]
      rw [hides]
      exact ⟨fun _ => .inr (.inl hidden), fun _ => redacted⟩
    · have length : (safeString m s).toList.length = min s.toList.length m := by
        rw [safeString_eq, clean, if_neg hidden, String.toList_ofList, List.length_take, Nat.min_comm]
      have both : safeString 255 (safeString m s) = safeString m s ↔
          safeString m (safeString m s) = safeString m s ∧ min s.toList.length m ≤ 255 := by
        rw [safeString_fixed (by decide), safeString_fixed room, length]
        have le := Nat.min_le_right s.toList.length m
        constructor
        · rintro ⟨a, b, c⟩
          exact ⟨⟨a, b, le⟩, c⟩
        · rintro ⟨⟨a, b, _⟩, c⟩
          exact ⟨a, b, c⟩
      rw [both, safeString_again room]
      constructor
      · exact fun ⟨cut, short⟩ => .inr (.inr ⟨short, cut⟩)
      · rintro (a | b | ⟨short, cut⟩)
        · exact absurd a found
        · exact absurd b hidden
        · exact ⟨cut, short⟩

variable [Rounding]

/-- The planner sees an item exactly when the redaction leaves its texts as they are. -/
theorem sees_fixed {request : LLMToolPlanningRequest} {result : LLMToolResult}
    {item : ToolResultItem} (listed : result ∈ request.toolResults) (member : item ∈ result.items) :
    Sees (plannerInputPayload request) item ↔
      safeString 255 item.toolCallId = item.toolCallId ∧
        safeString 255 item.snippet = item.snippet := by
  have strings (item : ToolResultItem) :
      (entryOf item).get "tool_call_id" = some (.str (safeString 255 (safeString 255
          (safeString 255 item.toolCallId)))) ∧
        (entryOf item).get "snippet" = some (.str (safeString 255 (safeString 255
          (safeString 255 item.snippet)))) := by
    rw [entryOf_get item (plainKeys_plain _ (by decide)),
      entryOf_get item (plainKeys_plain _ (by decide))]
    unfold itemFields
    simp only [get_cons, String.reduceEq, if_true, if_false, Option.map_some, redact,
      defaultLength, and_self]
  have settled (s : String) : safeString 255 (safeString 255 (safeString 255 (safeString 255 s))) =
      safeString 255 (safeString 255 (safeString 255 s)) := by
    rw [safeString_third (by decide), safeString_third (by decide)]
  constructor
  · rintro ⟨entry, shown, sees⟩
    rw [shownItems_eq] at shown
    obtain ⟨_, _, inside⟩ := List.mem_flatMap.mp shown
    obtain ⟨other, _, rfl⟩ := List.mem_map.mp inside
    have id := sees.toolCallId
    have snippet := sees.snippet
    rw [(strings other).1, Option.some.injEq, Value.str.injEq] at id
    rw [(strings other).2, Option.some.injEq, Value.str.injEq] at snippet
    rw [← id, ← snippet]
    exact ⟨settled _, settled _⟩
  · rintro ⟨id, snippet⟩
    refine ⟨entryOf item, ?_, ?_⟩
    · rw [shownItems_eq]
      exact List.mem_flatMap.mpr ⟨result, listed, List.mem_map_of_mem member⟩
    · have numbers (value : Option Rat) : redact (redact (redact (orNone .float value))) =
          orNone .float value := by
        cases value <;> simp only [orNone, redact]
      have ranks (value : Option Int) : redact (redact (redact (orNone .int value))) =
          orNone .int value := by
        cases value <;> simp only [orNone, redact]
      have number (key : String) (plain : key ∈ plainKeys) :=
        entryOf_get item (plainKeys_plain key plain)
      constructor
      · rw [(strings item).1, id, id, id]
      · rw [number _ (by decide)]
        unfold itemFields
        simp only [get_cons, String.reduceEq, if_true, if_false, Option.map_some, redact]
      · rw [number _ (by decide)]
        unfold itemFields
        simp only [get_cons, String.reduceEq, if_true, if_false, Option.map_some, numbers]
      · rw [number _ (by decide)]
        unfold itemFields
        simp only [get_cons, String.reduceEq, if_true, if_false, Option.map_some, numbers]
      · rw [number _ (by decide)]
        unfold itemFields
        simp only [get_cons, String.reduceEq, if_true, if_false, Option.map_some, numbers]
      · rw [number _ (by decide)]
        unfold itemFields
        simp only [get_cons, String.reduceEq, if_true, if_false, Option.map_some, ranks]
      · rw [(strings item).2, snippet, snippet, snippet]

/-- What is delivered of a candidate. -/
def Delivers (policy : ToolResultCompressionPolicy) (toolCallId toolName : String)
    (candidate : ToolResultCandidate) (item : ToolResultItem) : Prop :=
  ∃ method, item = toolItem policy toolCallId toolName (prepareToolCandidate candidate) method

theorem delivered {policy : ToolResultCompressionPolicy} {manager : ToolResultBudgetManager}
    {toolCallId toolName : String} {candidates : List ToolResultCandidate} {item : ToolResultItem}
    (member : item ∈ (compress policy manager toolCallId toolName candidates).1.items) :
    ∃ candidate ∈ candidates, cleanOptional candidate.text ≠ "" ∧
      Delivers policy toolCallId toolName candidate item := by
  obtain ⟨kept, dropped, ok⟩ := compressAll_sorted policy manager toolCallId toolName
    (preparedCandidates policy candidates)
  have accepted : item ∈ (compressAll policy manager toolCallId toolName
      (preparedCandidates policy candidates)).accepted := by
    dsimp only [compress] at member
    split at member
    · cases member
    · exact member
  rw [ok.accepted] at accepted
  obtain ⟨k, inside, rfl⟩ := List.mem_map.mp accepted
  have listed : k.1 ∈ candidates.map prepareToolCandidate := by
    rw [← (prepared_perm policy candidates).mem_iff, ← ok.all.mem_iff]
    exact List.mem_append_left _ (List.mem_map_of_mem inside)
  obtain ⟨candidate, found, same⟩ := List.mem_map.mp listed
  have shown := ok.shown k inside
  rw [← same] at shown
  refine ⟨candidate, found, shown, k.2, ?_⟩
  rw [same]

/-- An item that is delivered is shown as it was charged if and only if its texts are not cut
again behind 255 characters, at a blank or behind an address. -/
theorem planner_sees {policy : ToolResultCompressionPolicy} (valid : policy.Valid)
    (manager : ToolResultBudgetManager) (toolCallId toolName : String)
    (candidates : List ToolResultCandidate) {request : LLMToolPlanningRequest}
    (listed : llmToolResultFromCompressed
      (compress policy manager toolCallId toolName candidates).1 ∈ request.toolResults) :
    ∀ item ∈ (compress policy manager toolCallId toolName candidates).1.items,
      ∃ candidate ∈ candidates, Delivers policy toolCallId toolName candidate item ∧
        (Sees (plannerInputPayload request) item ↔ Legible policy toolCallId candidate) := by
  intro item member
  obtain ⟨candidate, found, shown, method, rfl⟩ := delivered member
  refine ⟨candidate, found, ⟨method, rfl⟩, ?_⟩
  have room : 8 ≤ policy.maxSnippetChars := Nat.le_trans (by decide) valid.snippetChars.1
  have clean : cleanText (cleanOptional candidate.text) = cleanOptional candidate.text :=
    cleanText_cleanText _
  have texts : (toolItem policy toolCallId toolName (prepareToolCandidate candidate)
        method).toolCallId = safeToolString 255 toolCallId ∧
      (toolItem policy toolCallId toolName (prepareToolCandidate candidate) method).snippet =
        safeSnippet policy.maxSnippetChars (cleanOptional candidate.text) := by
    dsimp only [toolItem, toolSnippet, prepareToolCandidate]
    exact ⟨rfl, rfl⟩
  rw [sees_fixed listed member, texts.1, texts.2]
  have id := safeToolString_fixed (m := 255) (by decide) toolCallId
  have text := safeSnippet_fixed room clean shown
  constructor
  · exact fun ⟨first, second⟩ => ⟨id.mp first, text.mp second⟩
  · exact fun legible => ⟨id.mpr legible.id, text.mpr legible.text⟩

end Legible

section Example

/-- The default settings. -/
def defaultToolPolicy : ToolResultCompressionPolicy := ⟨true, 8, 20, 500, 1200, 3000, true, true, true⟩

theorem defaultToolPolicy_valid : defaultToolPolicy.Valid := by
  constructor <;> decide

def plainToolCandidate (documentChunkId : Nat) (text : String) : ToolResultCandidate where
  toolCallId := "tc_1"
  toolName := "dense_search"
  documentChunkId := documentChunkId
  text := some text
  sourceLabel := some "guide.md"
  sectionTitle := none
  pageFrom := none
  pageTo := none
  rank := some documentChunkId
  retrievalScore := some (1 / 2)
  rerankScore := none
  fusionScore := none
  citationCandidate := true
  sourceGroupKey := some "logical_document:1"

def planningRequest (toolResults : List LLMToolResult) : LLMToolPlanningRequest :=
  ⟨"how are chunks retrieved", 5, 500, 8, 3, 2, ["dense_search", "finalize_answer"], toolResults⟩

def shortTool : List ToolResultCandidate := [plainToolCandidate 1 "Chunks are retrieved by score."]

/-- 299 characters. -/
def longLetters : List Char := join [' '] (List.replicate 100 ['o', 'f'])

def longTool : List ToolResultCandidate := [plainToolCandidate 1 (String.ofList longLetters)]

def toolResultOf [DigitTables] [Rounding] (candidates : List ToolResultCandidate) :
    CompressedToolResult :=
  (compress defaultToolPolicy .new "tc_1" "dense_search" candidates).1

theorem planner_sees_one : let _ : DigitTables := asciiDigits
    let _ : Rounding := exactRounding
    (toolResultOf shortTool).items.length = 1 ∧ ∀ item ∈ (toolResultOf shortTool).items,
      ∃ candidate ∈ shortTool, Delivers defaultToolPolicy "tc_1" "dense_search" candidate item ∧
        (Sees (plannerInputPayload (planningRequest
            [llmToolResultFromCompressed (toolResultOf shortTool)])) item ↔
          Legible defaultToolPolicy "tc_1" candidate) := by
  intro _ _
  have one : (toolResultOf shortTool).items.length = 1 := by decide +kernel
  exact ⟨one, planner_sees defaultToolPolicy_valid .new "tc_1" "dense_search" shortTool
    (List.mem_singleton_self _)⟩

theorem compress_single [DigitTables] [Rounding] {policy : ToolResultCompressionPolicy}
    {toolCallId toolName : String} {candidate : ToolResultCandidate}
    (admitted : Admitted policy .new .start (prepareToolCandidate candidate)) :
    ∃ item, (compress policy .new toolCallId toolName [candidate]).1.items = [item] ∧
      item.snippet = toolSnippet policy (prepareToolCandidate candidate) := by
  have prepared : preparedCandidates policy [candidate] = [prepareToolCandidate candidate] := by
    unfold preparedCandidates
    dsimp only
    split <;> rfl
  have all : (compressAll policy .new toolCallId toolName
      [prepareToolCandidate candidate]).accepted =
        [toolItem policy toolCallId toolName (prepareToolCandidate candidate)
          (toolMethod policy .start (prepareToolCandidate candidate))] := by
    unfold compressAll
    rw [List.foldl_cons, List.foldl_nil, compressTurn, toolRefusal_none.mpr admitted]
    rfl
  have fresh (items : List ToolResultItem) : isRepeatedResult .new items = false := by
    unfold isRepeatedResult ToolResultBudgetManager.new
    rw [List.contains_nil, Bool.and_false]
  refine ⟨toolItem policy toolCallId toolName (prepareToolCandidate candidate)
    (toolMethod policy .start (prepareToolCandidate candidate)), ?_, rfl⟩
  dsimp only [compress]
  rw [prepared, fresh, if_neg Bool.false_ne_true]
  exact all

theorem estimateTokens_ofList (cs : List Char) : estimateTokens (String.ofList cs) =
    ((cs.filter fun c => c.toNat < 128).length + 3) / 4 +
      (cs.length - (cs.filter fun c => c.toNat < 128).length) := by
  unfold estimateTokens
  rw [String.toList_ofList, String.length_ofList]

theorem prepared_text [DigitTables] (documentChunkId : Nat) (text : String) :
    (prepareToolCandidate (plainToolCandidate documentChunkId text)).cleanText = cleanText text :=
  rfl

theorem longLetters_clean : cleanText (String.ofList longLetters) = String.ofList longLetters := by
  apply cleanText_join
  · intro w member
    rw [List.eq_of_mem_replicate member]
    exact ⟨by decide, by decide⟩
  · have solid : ∀ c ∈ longLetters, c ≠ '\x00' := by decide +kernel
    exact solid

theorem longLetters_plain : @unsafeTool asciiDigits longLetters = false ∧
    @redacts asciiTables longLetters = false ∧ longLetters.length = 299 ∧
    (longLetters.filter fun c => c.toNat < 128).length = 299 := by
  decide +kernel

section Long

variable [Rounding]

omit [Rounding] in
theorem longLetters_snippet : let _ : DigitTables := asciiDigits
    safeSnippet 500 (String.ofList longLetters) = String.ofList longLetters ∧
      String.ofList longLetters ≠ "" := by
  intro _
  obtain ⟨free, plain, length, _⟩ := longLetters_plain
  have shown : String.ofList longLetters ≠ "" := by
    intro empty
    have none := congrArg (·.toList.length) empty
    simp only [String.toList_ofList, length, String.toList_empty, List.length_nil] at none
    cases none
  refine ⟨?_, shown⟩
  rw [safeSnippet_eq (by decide), safeToolString_free (by decide), longLetters_clean,
    if_neg shown, safeString_eq, longLetters_clean, String.toList_ofList, if_neg (by simp [plain]),
    List.take_of_length_le (by rw [length]; decide)]
  rw [longLetters_clean, String.toList_ofList]
  exact free

theorem longTool_delivered : let _ : DigitTables := asciiDigits
    ∃ item, (toolResultOf longTool).items = [item] ∧
      item.snippet = String.ofList longLetters := by
  intro _
  obtain ⟨snippet, shown⟩ := longLetters_snippet
  obtain ⟨_, _, length, ascii⟩ := longLetters_plain
  have text : (prepareToolCandidate (plainToolCandidate 1 (String.ofList longLetters))).cleanText =
      String.ofList longLetters := by
    rw [prepared_text, longLetters_clean]
  have told : toolSnippet defaultToolPolicy
      (prepareToolCandidate (plainToolCandidate 1 (String.ofList longLetters))) =
        String.ofList longLetters := by
    unfold toolSnippet
    rw [text]
    exact snippet
  have tokens : estimateTokens (String.ofList longLetters) = 75 := by
    rw [estimateTokens_ofList, length, ascii]
  have admitted : Admitted defaultToolPolicy .new .start
      (prepareToolCandidate (plainToolCandidate 1 (String.ofList longLetters))) := by
    constructor
    · rw [text]
      exact shown
    · exact List.not_mem_nil
    · exact List.not_mem_nil
    · decide
    · decide
    · rw [told, tokens]
      decide
    · rw [told, tokens]
      decide
  obtain ⟨item, only, snippet⟩ := compress_single admitted
  exact ⟨item, only, snippet.trans told⟩

omit [Rounding] in
/-- Of a snippet of 299 characters, the planner sees 255. -/
theorem long_snippet_cut : let _ : DigitTables := asciiDigits
    let _ : Rounding := exactRounding
    defaultToolPolicy.Valid ∧ defaultToolPolicy.enabled = true ∧
      ∃ item ∈ (toolResultOf longTool).items, ¬Sees (plannerInputPayload (planningRequest
        [llmToolResultFromCompressed (toolResultOf longTool)])) item := by
  intro _ _
  obtain ⟨item, only, whole⟩ := longTool_delivered
  have member : item ∈ (toolResultOf longTool).items := by
    rw [only]
    exact List.mem_singleton_self item
  refine ⟨defaultToolPolicy_valid, rfl, item, member, ?_⟩
  intro sees
  have same (result : CompressedToolResult) :
      (llmToolResultFromCompressed result).items = result.items := rfl
  rw [← same] at member
  have listed : llmToolResultFromCompressed (toolResultOf longTool) ∈
      (planningRequest [llmToolResultFromCompressed (toolResultOf longTool)]).toolResults :=
    List.mem_singleton_self _
  have fixed := (sees_fixed listed member).mp sees
  rw [whole] at fixed
  have short := ((safeString_fixed (by decide)).mp fixed.2).2.2
  rw [String.toList_ofList, longLetters_plain.2.2.1] at short
  omega

end Long

end Example

end RagProject.Tools
