import RagProject.Context.RedactedAgain
import RagProject.Retrieval.CachedPayload

/-! What the JSON of a cached retrieval gives back: the redaction leaves the summary and the items
as they are, but for the breakdown of the scores. -/
namespace RagProject.Retrieval
open Python Documents Generation Context

section Plain
variable [UnicodeTables]

/-- A value that the redaction leaves as it is. -/
def Plain (v : Value) : Prop := redact v = v

structure PlainDict (d : Dict) : Prop extends Kept d where
  each : ∀ e ∈ d, Plain e.2

theorem safeDict_plain {d : Dict} (plain : PlainDict d) : safeDict d = d := by
  have nothing : Kept ([] : Dict) := ⟨List.nodup_nil, by simp⟩
  have whole : keptEntries [] d = d := by
    rw [keptEntries_id d [] plain.toKept, List.nil_append]
  have redacted := redactEntries_eq [] d
  rw [List.map_nil, whole] at redacted
  unfold safeDict
  rw [redacted]
  conv_rhs => rw [← List.map_id d]
  apply List.map_congr_left
  intro e member
  have same : redact e.2 = e.2 := plain.each e member
  rw [same]
  rfl

theorem plain_none : Plain .none := by simp only [Plain, redact]

theorem plain_int (n : Int) : Plain (.int n) := by simp only [Plain, redact]

theorem plain_number (n : Number) : Plain (numberValue n) := by
  cases n with
  | finite q => simp only [Plain, numberValue, redact]
  | nonFinite => exact plain_none

theorem plain_optional {A : Type} {value : A → Value} (each : ∀ a, Plain (value a))
    (a : Option A) : Plain (optionalValue value a) := by
  cases a with
  | none => exact plain_none
  | some a => exact each a

theorem method_safe (method : FusionMethod) :
    safeString defaultLength method.value = method.value := by
  cases method with
  | rrf =>
    rw [safeString_ascii (by decide)]
    decide +kernel
  | weighted =>
    rw [safeString_ascii (by decide)]
    decide +kernel

theorem source_safe (source : RetrievalSource) : safeString 50 source.value = source.value := by
  cases source <;> rw [safeString_ascii (by decide)] <;> decide +kernel

theorem strategy_safe {strategy : RetrievalStrategy}
    (cacheable : isCacheableRetrievalStrategy strategy = true) :
    safeString 50 strategy.value = strategy.value := by
  cases strategy
  case dense | sparse | hybrid | graph =>
    rw [safeString_ascii (by decide)]
    decide +kernel
  all_goals cases cacheable

end Plain

section Summary

/-- What a path adds to the declared fields of a summary. -/
def pathExtra : Option (Nat × FusionMethod) → Dict
  | none => []
  | some (n, method) =>
    [("hybrid_candidate_count", .int n), ("fusion_method", .str method.value)]

/-- The summary of a path, with finite scores. -/
structure PathSummary (summary : RetrievalScoreSummary) : Prop where
  extra : ∃ hybrid, summary.extra = pathExtra hybrid
  top1 : ∀ n ∈ summary.top1RetrievalScore, n ≠ .nonFinite
  top3 : ∀ n ∈ summary.top3AvgRetrievalScore, n ≠ .nonFinite
  rerank : ∀ n ∈ summary.top1RerankScore, n ≠ .nonFinite

def hybridFields : List String := ["hybrid_candidate_count", "fusion_method"]

theorem modelDump_keys (summary : RetrievalScoreSummary) :
    summary.modelDump.map Prod.fst = summaryFields ++ summary.extra.map Prod.fst := by
  rw [RetrievalScoreSummary.modelDump, List.map_append]
  rfl

theorem pathExtra_keys (hybrid : Option (Nat × FusionMethod)) :
    (pathExtra hybrid).map Prod.fst = [] ∨ (pathExtra hybrid).map Prod.fst = hybridFields := by
  cases hybrid with
  | none => exact .inl rfl
  | some entry => exact .inr rfl

variable [UnicodeTables]

theorem fields_plain : ∀ key ∈ summaryFields ++ hybridFields, isSensitiveKey key = false := by
  intro key member
  have ascii : ∀ key ∈ summaryFields ++ hybridFields, ∀ c ∈ key.toList, c.toNat < 128 := by decide
  have plain : ∀ key ∈ summaryFields ++ hybridFields, @isSensitiveKey asciiTables key = false := by
    decide +kernel
  rw [isSensitiveKey_ascii (ascii key member)]
  exact plain key member

theorem pathExtra_plain (hybrid : Option (Nat × FusionMethod)) :
    ∀ e ∈ pathExtra hybrid, Plain e.2 := by
  cases hybrid with
  | none => exact fun _ member => (List.not_mem_nil member).elim
  | some entry =>
    intro e member
    rcases List.mem_cons.mp member with rfl | member
    · exact plain_int _
    · cases List.mem_singleton.mp member
      simp only [Plain, redact, method_safe]

theorem modelDump_plain {summary : RetrievalScoreSummary} (path : PathSummary summary) :
    PlainDict summary.modelDump := by
  obtain ⟨hybrid, extra⟩ := path.extra
  have keys := modelDump_keys summary
  rw [extra] at keys
  have listed : (summary.modelDump.map Prod.fst).Sublist (summaryFields ++ hybridFields) := by
    rw [keys]
    apply List.Sublist.append (List.Sublist.refl _)
    rcases pathExtra_keys hybrid with none | both
    · rw [none]
      exact List.nil_sublist _
    · rw [both]
  refine ⟨⟨?_, fun e member => ?_⟩, fun e member => ?_⟩
  · exact List.Nodup.sublist listed (by decide)
  · exact fields_plain _ (listed.subset (List.mem_map_of_mem member))
  · rw [RetrievalScoreSummary.modelDump, extra, List.mem_append] at member
    rcases member with declared | added
    · simp only [List.mem_cons, List.not_mem_nil, or_false] at declared
      rcases declared with rfl | rfl | rfl | rfl | rfl | rfl | rfl | rfl | rfl
      · exact plain_int _
      · exact plain_int _
      · exact plain_optional plain_int _
      · exact plain_int _
      · exact plain_int _
      · exact plain_int _
      · exact plain_optional plain_number _
      · exact plain_optional plain_number _
      · exact plain_optional plain_number _
    · exact pathExtra_plain hybrid e added

omit [UnicodeTables] in
theorem optionalField_int (n : Option Int) :
    optionalField intField (some (optionalValue .int n)) = some n := by
  cases n <;> rfl

omit [UnicodeTables] in
theorem optionalField_number {n : Option Number} (finite : ∀ x ∈ n, x ≠ .nonFinite) :
    optionalField floatField (some (optionalValue numberValue n)) = some n := by
  cases n with
  | none => rfl
  | some x =>
    cases x with
    | finite q => rfl
    | nonFinite => exact absurd rfl (finite _ rfl)

omit [UnicodeTables] in
theorem ofFields_modelDump {summary : RetrievalScoreSummary} (path : PathSummary summary) :
    RetrievalScoreSummary.ofFields summary.modelDump = some summary := by
  obtain ⟨hybrid, extra⟩ := path.extra
  have others : summary.modelDump.filter (fun e => !summaryFields.contains e.1) = summary.extra := by
    rw [RetrievalScoreSummary.modelDump, List.filter_append, extra]
    cases hybrid <;> rfl
  unfold RetrievalScoreSummary.ofFields
  simp only [others]
  simp [RetrievalScoreSummary.modelDump, Dict.get, List.lookup_cons, List.lookup_nil, intField, optionalField_int,
    optionalField_number path.top1, optionalField_number path.top3, optionalField_number path.rerank]

end Summary

section Hash
variable [UnicodeTables]

omit [UnicodeTables] in
theorem hexDigest_hex (text : String) : (Sha256.hexDigest text).toList.length = 64 ∧
    ∀ c ∈ (Sha256.hexDigest text).toList, c ∈ "0123456789abcdef".toList :=
  Sha256.hex_chars _

theorem safeHash_hexDigest (text : String) :
    safeHash (.str (Sha256.hexDigest text)) = some (Sha256.hexDigest text) := by
  obtain ⟨length, hex⟩ := hexDigest_hex text
  generalize Sha256.hexDigest text = digest at length hex
  have graphic : ∀ c ∈ "0123456789abcdef".toList, isSpace c = false := by decide
  have small : ∀ c ∈ "0123456789abcdef".toList, c.toNat < 128 ∧ c.toLower = c := by decide
  have stripped : strip digest.toList = digest.toList := by
    have solid : ∀ c ∈ digest.toList, isSpace c = false := fun c member => graphic c (hex c member)
    have front (s : List Char) (each : ∀ c ∈ s, isSpace c = false) : s.dropWhile isSpace = s := by
      cases s with
      | nil => rfl
      | cons c rest => exact List.dropWhile_cons_of_neg (by simp [each c (.head _)])
    unfold strip
    rw [front _ solid, front _ fun c member => solid c (List.mem_reverse.mp member),
      List.reverse_reverse]
  have lowered : lower digest.toList = digest.toList := by
    unfold lower
    conv_rhs => rw [← List.flatMap_singleton' digest.toList]
    apply List.flatMap_congr
    intro c member
    rw [if_pos (small c (hex c member)).1, (small c (hex c member)).2]
  simp only [safeHash, stripped, lowered, length, String.ofList_toList]
  rw [if_pos]
  simpa using hex

end Hash

section Items
variable [UnicodeTables] [Rounding]

omit [UnicodeTables] in
/-- A finite score with six decimals at most: rounding to six does not change it. -/
def SixDecimals (score : Number) : Prop := ∃ q, score = .finite q ∧ Rounding.round 6 q = q

omit [UnicodeTables] in
theorem SixDecimals.round {score : Number} (six : SixDecimals score) : roundScore score = score := by
  obtain ⟨q, rfl, same⟩ := six
  simp only [roundScore, same]

structure GoodItem (item : CachedRetrievalItem) : Prop where
  chunk : 0 < item.documentChunkId
  rank : 0 < item.rankOrder
  rerankOrder : ∀ n ∈ item.rerankOrder, 0 < n
  score : SixDecimals item.retrievalScore
  rerankScore : ∀ s ∈ item.rerankScore, SixDecimals s
  source : ∃ source : RetrievalSource, item.retrievalSource = source.value

/-- What is read back of an item. -/
def reread (item : CachedRetrievalItem) : CachedRetrievalItem :=
  { item with
    scoreBreakdownJson := item.scoreBreakdownJson.map fun breakdown =>
      safeDict (safeDict breakdown) }

omit [UnicodeTables] in
theorem safeScore_round {score : Number} (six : SixDecimals score) :
    safeScore (numberValue (roundScore score)) = some score := by
  rw [six.round]
  obtain ⟨q, rfl, same⟩ := six
  simp only [numberValue, safeScore, roundScore, same]

theorem cachedItem_itemJson {item : CachedRetrievalItem} (good : GoodItem item) :
    cachedItemFromJson (.dict (itemJson item)) = some (reread item) := by
  obtain ⟨source, named⟩ := good.source
  have shown : source.value ≠ "" := by cases source <;> decide
  have rerankScore : safeScore (optionalValue numberValue (item.rerankScore.map roundScore)) =
      item.rerankScore := by
    cases score : item.rerankScore with
    | none => rfl
    | some s => exact safeScore_round (good.rerankScore s score)
  have rerankOrder : Value.positiveInt (optionalValue (fun n => .int (n : Nat)) item.rerankOrder) =
      item.rerankOrder := by
    cases order : item.rerankOrder with
    | none => rfl
    | some n => exact positiveInt_cast (good.rerankOrder n order)
  have breakdown : safeDictField (optionalValue (fun b => .dict (safeDict b))
      item.scoreBreakdownJson) = (reread item).scoreBreakdownJson := by
    unfold reread
    cases item.scoreBreakdownJson <;> rfl
  have sourceField : safeStringField 50 (.str (safeString 50 item.retrievalSource)) =
      some item.retrievalSource := by
    rw [named, source_safe, safeStringField, source_safe, if_neg shown]
  have flag : (some (Value.bool item.selectedFlag)).any Value.truthy = item.selectedFlag := rfl
  simp only [cachedItemFromJson, itemJson, get_cons, String.reduceEq, if_true, if_false,
    Option.bind_eq_bind, Option.bind_some, positiveInt_cast good.chunk, safeScore_round good.score,
    positiveInt_cast good.rank, rerankScore, rerankOrder, sourceField, breakdown, flag, reread]

/-- The payload of a path comes back from its JSON, the breakdowns redacted once more. -/
theorem fromJson_toJson {summary : RetrievalScoreSummary} (path : PathSummary summary)
    {strategy : RetrievalStrategy} (cacheable : isCacheableRetrievalStrategy strategy = true)
    {rows : List RetrievalRunItem} (good : ∀ row ∈ rows, GoodItem (cacheItemFromRunItem row))
    {hash : String} (digest : safeHash (.str hash) = some hash) (noContext : Bool) :
    CachedRetrievalPayload.fromJson
        (payloadFromRunItems hash strategy.value summary.modelDump rows noContext).toJson =
      some ⟨retrievalCacheSchemaVersion, hash, strategy.value, summary.modelDump,
        rows.map fun row => reread (cacheItemFromRunItem row), noContext⟩ := by
  have dumped : safeDict summary.modelDump = summary.modelDump :=
    safeDict_plain (modelDump_plain path)
  have items : (rows.map fun row => Value.dict (itemJson (cacheItemFromRunItem row))).mapM
      cachedItemFromJson = some (rows.map fun row => reread (cacheItemFromRunItem row)) := by
    rw [List.mapM_map]
    exact Fallible.mapM_some fun row member => cachedItem_itemJson (good row member)
  have shown : strategy.value ≠ "" := by cases strategy <;> decide
  have named : safeStringField 50 (.str strategy.value) = some strategy.value := by
    rw [safeStringField, strategy_safe cacheable, if_neg shown]
  have flag : (some (Value.bool noContext)).any Value.truthy = noContext := rfl
  simp only [CachedRetrievalPayload.fromJson, CachedRetrievalPayload.toJson, payloadFromRunItems,
    get_cons, String.reduceEq, if_true, if_false, ne_eq, not_true_eq_false, Option.bind_eq_bind,
    Option.bind_some, digest, named, safeDictField, dumped, List.map_map, Function.comp_def, items,
    flag]

end Items

end RagProject.Retrieval
