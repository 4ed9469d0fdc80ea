import RagProject.Jobs.Repository

/-! What a job carries from the code that enqueues it to the handler that reads it.
The payload is filtered once when the job is created and again on every retry. -/
namespace RagProject.Jobs
open Python

section Producers
variable [UnicodeTables]

inductive ExtractorType where
  | llm | ruleBased
  deriving DecidableEq

def ExtractorType.value : ExtractorType → String
  | .llm => "llm"
  | .ruleBased => "rule_based"

/-- graph_extractor_type_override of the stored setting. -/
def graphExtractorTypeOverride : Option Value → Option ExtractorType
  | some (.str value) =>
    let normalized := lower (strip value.toList)
    if normalized = "llm".toList then some .llm
    else if normalized = "rule_based".toList then some .ruleBased
    else none
  | _ => none

/-- build_graph_index_job_payload as its callers use it; absent fields are not dumped. -/
def buildGraphIndexJobPayload (documentVersionId : Nat) (extractorType : Option ExtractorType) :
    Except String Dict :=
  if documentVersionId = 0 then .error "ValidationError"
  else .ok ([("job_type", .str "graph_index_build"),
      ("document_version_id", .int documentVersionId)] ++
    (extractorType.map fun extractor => ("extractor_type", Value.str extractor.value)).toList ++
    [("reindex_policy", .str "replace_existing")])

/-- One call that enqueues a job, with what the payload is built from. -/
inductive Enqueue where
  | documentIngest (logicalDocumentId documentVersionId userId : Nat) (activateAfterIngest : Bool)
      (evaluationDatasetId : Option Int)
  | approveVersion (logicalDocumentId documentVersionId userId : Nat)
  | archiveDocument (logicalDocumentId userId : Nat)
  | graphIndexBuild (documentVersionId : Nat) (setting : Option Value)
  | consistencySweep (batchSize maxPoints : Option Int)

def Enqueue.jobType : Enqueue → String
  | .documentIngest .. => "document_ingest"
  | .approveVersion .. | .archiveDocument .. => "qdrant_mirror_update"
  | .graphIndexBuild .. => "graph_index_build"
  | .consistencySweep .. => "qdrant_consistency_sweep"

def Enqueue.payload : Enqueue → Except String Dict
  | .documentIngest logicalDocumentId documentVersionId userId activateAfterIngest dataset =>
    let payload : Dict := [("logical_document_id", .int logicalDocumentId),
      ("document_version_id", .int documentVersionId), ("requested_by_user_id", .int userId)]
    if activateAfterIngest then
      match dataset with
      | some id =>
        if id < 1 then .error "ValueError"
        else .ok (payload ++ [("evaluation_corpus_activate", .bool true),
          ("evaluation_dataset_id", .int id)])
      | none => .error "ValueError"
    else .ok payload
  | .approveVersion logicalDocumentId documentVersionId userId =>
    .ok [("logical_document_id", .int logicalDocumentId),
      ("document_version_id", .int documentVersionId), ("mirror_action", .str "sync_payload"),
      ("requested_by_user_id", .int userId)]
  | .archiveDocument logicalDocumentId userId =>
    .ok [("logical_document_id", .int logicalDocumentId), ("mirror_action", .str "mark_inactive"),
      ("requested_by_user_id", .int userId)]
  | .graphIndexBuild documentVersionId setting =>
    buildGraphIndexJobPayload documentVersionId (graphExtractorTypeOverride setting)
  | .consistencySweep batchSize maxPoints =>
    .ok ((batchSize.map fun n => ("batch_size", Value.int n)).toList ++
      (maxPoints.map fun n => ("max_points", Value.int n)).toList)

/-- One retry: who asked, and what the database supplies. -/
structure RetryRequest where
  jobId : Nat
  requestedByUserId : Option Nat
  retryCount : Nat
  createdAt : Time

/-- The job created from a payload, retried any number of times. -/
def retried (job : Job) (retries : List RetryRequest) : Job :=
  retries.foldl (fun source r =>
    newRetryJob r.jobId source r.requestedByUserId r.retryCount r.createdAt) job

end Producers

section Handlers

def isPositiveInt (value : Option Value) : Bool := (value.bind Value.positiveInt).isSome

/-- _evaluation_activation_requested of the ingest handler. -/
def evaluationActivationRequested (payload : Dict) : Bool :=
  Dict.get payload "evaluation_corpus_activate" == some (.bool true) &&
    isPositiveInt (Dict.get payload "evaluation_dataset_id")

/-- _bounded_int of the sweep handler. -/
def boundedInt (value : Option Value) (default maximum : Nat) : Option Nat :=
  match value with
  | none | some .none => some default
  | some v => v.positiveInt.map fun n => min n maximum

/-- The batch size and the point limit of a sweep. -/
def sweepBounds (payload : Dict) : Option (Nat × Nat) := do
  let batchSize ← boundedInt (Dict.get payload "batch_size") 200 1000
  let maxPoints ← boundedInt (Dict.get payload "max_points") 5000 100000
  return (batchSize, maxPoints)

/-- The payload fields that the handlers read. -/
def handlerFields : List String :=
  ["document_version_id", "logical_document_id", "evaluation_corpus_activate",
   "evaluation_dataset_id", "mirror_action", "extractor_type", "extractor_version",
   "graph_index_run_id", "reindex_policy", "batch_size", "max_points"]

/-- The fields among them that the allow-list of sanitize_job_payload leaves out. -/
def droppedFields : List String := ["evaluation_corpus_activate", "batch_size", "max_points"]

end Handlers

section Filter
variable [UnicodeTables]

/-- What sanitize_job_payload makes of one entry. -/
def sanitizeEntry (key : String) (value : Value) : Option Value :=
  let kept := if isSensitiveKey key then redacted else redactValue value
  if kept == redacted || isSafePayloadKey key kept then some kept else none

theorem sanitize_cons (key : String) (value : Value) (payload : Dict) :
    sanitizeJobPayload ((key, value) :: payload) =
      ((sanitizeEntry key value).map fun kept => (key, kept)).toList ++
        sanitizeJobPayload payload := by
  simp only [sanitizeJobPayload, redactEntries, List.filter_cons, sanitizeEntry]
  generalize (if isSensitiveKey key = true then redacted else redactValue value) = kept
  split <;> rfl

theorem sanitize_keys (payload : Dict) :
    ((sanitizeJobPayload payload).map Prod.fst).Sublist (payload.map Prod.fst) := by
  induction payload with
  | nil => exact .slnil
  | cons entry payload ih =>
    obtain ⟨key, value⟩ := entry
    rw [sanitize_cons]
    cases sanitizeEntry key value with
    | none => exact ih.cons _
    | some kept => exact ih.cons_cons _

/-- The filter works entry by entry. -/
theorem get_sanitize {payload : Dict} (distinct : (payload.map Prod.fst).Nodup) (field : String) :
    Dict.get (sanitizeJobPayload payload) field =
      (Dict.get payload field).bind (sanitizeEntry field) := by
  induction payload with
  | nil => rfl
  | cons entry payload ih =>
    obtain ⟨key, value⟩ := entry
    obtain ⟨fresh, rest⟩ := List.nodup_cons.mp distinct
    rw [sanitize_cons, get_cons]
    by_cases same : field = key
    · subst same
      cases kept : sanitizeEntry field value with
      | some v => simp [get_cons, kept]
      | none =>
        have absent : Dict.get payload field = none := by
          cases found : Dict.get payload field with
          | none => rfl
          | some v => exact absurd (List.mem_map_of_mem (get_mem found)) fresh
        simp [kept, ih rest, absent]
    · simp only [same, if_false]
      cases sanitizeEntry key value with
      | some v => simpa [get_cons, same] using ih rest
      | none => exact ih rest

/-- A stored payload: its keys are distinct, and a field of the built one is there if the
filter keeps it and gone if the filter drops it. -/
structure Carries (built stored : Dict) : Prop where
  distinct : (stored.map Prod.fst).Nodup
  absent : ∀ field ∈ handlerFields, Dict.get built field = none → Dict.get stored field = none
  kept : ∀ field ∈ handlerFields, ∀ value, Dict.get built field = some value →
    sanitizeEntry field value = some value → Dict.get stored field = some value
  dropped : ∀ field ∈ handlerFields, ∀ value, Dict.get built field = some value →
    sanitizeEntry field value = none → Dict.get stored field = none

theorem carries_sanitize {built stored : Dict} (carries : Carries built stored) :
    Carries built (sanitizeJobPayload stored) := by
  refine ⟨carries.distinct.sublist (sanitize_keys stored), ?_, ?_, ?_⟩
  · intro field member none
    rw [get_sanitize carries.distinct, carries.absent field member none, Option.bind_none]
  · intro field member value found fixed
    rw [get_sanitize carries.distinct, carries.kept field member value found fixed,
      Option.bind_some, fixed]
  · intro field member value found gone
    rw [get_sanitize carries.distinct, carries.dropped field member value found gone,
      Option.bind_none]

theorem carries_set_user {built stored : Dict} (carries : Carries built stored) (user : Nat) :
    Carries built (Dict.set stored "requested_by_user_id" (.int user)) := by
  have other : ∀ field ∈ handlerFields,
      Dict.get (Dict.set stored "requested_by_user_id" (.int user)) field =
        Dict.get stored field := by
    intro field member
    refine get_set_ne stored _ ?_
    rintro rfl
    revert member
    decide
  refine ⟨set_distinct carries.distinct _ _, ?_, ?_, ?_⟩
  · intro field member none
    exact (other field member).trans (carries.absent field member none)
  · intro field member value found fixed
    exact (other field member).trans (carries.kept field member value found fixed)
  · intro field member value found gone
    exact (other field member).trans (carries.dropped field member value found gone)

/-- The three kinds of entries that the producers write. -/
def idFields : List String :=
  ["logical_document_id", "document_version_id", "requested_by_user_id", "evaluation_dataset_id"]

def textEntries : List (String × String) :=
  [("job_type", "graph_index_build"), ("reindex_policy", "replace_existing"),
   ("mirror_action", "sync_payload"), ("mirror_action", "mark_inactive"),
   ("extractor_type", "llm"), ("extractor_type", "rule_based")]

inductive BuiltEntry : String × Value → Prop where
  | id (field : String) (n : Int) : field ∈ idFields → BuiltEntry (field, .int n)
  | text (entry : String × String) : entry ∈ textEntries → BuiltEntry (entry.1, .str entry.2)
  | flag : BuiltEntry ("evaluation_corpus_activate", .bool true)
  | bound (field : String) (n : Int) : field ∈ ["batch_size", "max_points"] →
      BuiltEntry (field, .int n)

omit [UnicodeTables] in
theorem extractor_entry (extractorType : Option ExtractorType) :
    ∀ entry ∈ (extractorType.map fun extractor => ("extractor_type", Value.str extractor.value)).toList,
      BuiltEntry entry := by
  intro entry member
  cases extractorType with
  | none => cases member
  | some extractor =>
    cases List.mem_singleton.mp member
    cases extractor with
    | llm => exact .text ("extractor_type", "llm") (by decide)
    | ruleBased => exact .text ("extractor_type", "rule_based") (by decide)

theorem payload_entries {source : Enqueue} {payload : Dict} (built : source.payload = .ok payload) :
    (payload.map Prod.fst).Nodup ∧ ∀ entry ∈ payload, BuiltEntry entry := by
  cases source with
  | documentIngest document version user activate dataset =>
    have ids : ∀ entry ∈ ([("logical_document_id", .int document),
        ("document_version_id", .int version), ("requested_by_user_id", .int user)] : Dict),
        BuiltEntry entry := by
      simp only [List.forall_mem_cons, List.not_mem_nil, false_imp_iff, implies_true, and_true]
      exact ⟨.id _ _ (by decide), .id _ _ (by decide), .id _ _ (by decide)⟩
    simp only [Enqueue.payload] at built
    split at built
    · split at built
      · split at built
        · cases built
        · cases built
          refine ⟨by simp, fun entry member => ?_⟩
          rcases List.mem_append.mp member with h | h
          · exact ids entry h
          · rcases List.mem_cons.mp h with rfl | h
            · exact .flag
            · cases List.mem_singleton.mp h
              exact .id _ _ (by decide)
      · cases built
    · cases built
      exact ⟨by simp, ids⟩
  | approveVersion document version user =>
    cases built
    refine ⟨by simp, ?_⟩
    simp only [List.forall_mem_cons, List.not_mem_nil, false_imp_iff, implies_true, and_true]
    exact ⟨.id _ _ (by decide), .id _ _ (by decide),
      .text ("mirror_action", "sync_payload") (by decide), .id _ _ (by decide)⟩
  | archiveDocument document user =>
    cases built
    refine ⟨by simp, ?_⟩
    simp only [List.forall_mem_cons, List.not_mem_nil, false_imp_iff, implies_true, and_true]
    exact ⟨.id _ _ (by decide), .text ("mirror_action", "mark_inactive") (by decide),
      .id _ _ (by decide)⟩
  | graphIndexBuild version setting =>
    simp only [Enqueue.payload, buildGraphIndexJobPayload] at built
    split at built
    · cases built
    · cases built
      constructor
      · cases graphExtractorTypeOverride setting <;> simp
      · intro entry member
        rcases List.mem_append.mp member with h | h
        · rcases List.mem_append.mp h with h | h
          · rcases List.mem_cons.mp h with rfl | h
            · exact .text ("job_type", "graph_index_build") (by decide)
            · cases List.mem_singleton.mp h
              exact .id _ _ (by decide)
          · exact extractor_entry _ entry h
        · cases List.mem_singleton.mp h
          exact .text ("reindex_policy", "replace_existing") (by decide)
  | consistencySweep batchSize maxPoints =>
    cases built
    constructor
    · cases batchSize <;> cases maxPoints <;> simp
    · intro entry member
      rcases List.mem_append.mp member with h | h
      · cases batchSize with
        | none => cases h
        | some n =>
          cases List.mem_singleton.mp h
          exact .bound _ _ (by decide)
      · cases maxPoints with
        | none => cases h
        | some n =>
          cases List.mem_singleton.mp h
          exact .bound _ _ (by decide)

/-- Keys and texts in ASCII, with what the filter makes of them under any tables. -/
def PlainKey (key : String) : Bool :=
  key.toList.all (·.toNat < 128) && !@isSensitiveKey asciiTables key

theorem not_sensitive {key : String} (plain : PlainKey key = true) : isSensitiveKey key = false := by
  simp only [PlainKey, Bool.and_eq_true, List.all_eq_true, decide_eq_true_eq, Bool.not_eq_true']
    at plain
  rw [isSensitiveKey_ascii _ asciiTables plain.1, plain.2]

omit [UnicodeTables] in
theorem id_fields_plain : ∀ field ∈ idFields, PlainKey field ∧ endsWith field "_id" = true := by
  decide +kernel

omit [UnicodeTables] in
theorem text_entries_plain : ∀ entry ∈ textEntries,
    PlainKey entry.1 ∧ isSafePayloadKey entry.1 (.str entry.2) = true ∧
      entry.2.toList.all (·.toNat < 128) = true ∧
      @redactText asciiTables entry.2 = .str entry.2 := by
  decide +kernel

omit [UnicodeTables] in
theorem dropped_fields_plain : ∀ field ∈ droppedFields, PlainKey field ∧
    (endsWith field "_id" || endsWith field "_ids" || endsWith field "_count") = false ∧
      field ∉ safePayloadKeys := by
  decide +kernel

theorem sanitize_dropped {field : String} {value : Value} (member : field ∈ droppedFields)
    (scalar : redactValue value = value) (other : value ≠ redacted) :
    sanitizeEntry field value = none := by
  obtain ⟨plain, suffix, unlisted⟩ := dropped_fields_plain field member
  simp only [Bool.or_eq_false_iff] at suffix
  simp [sanitizeEntry, not_sensitive plain, scalar, other, isSafePayloadKey, suffix.1.1,
    suffix.1.2, suffix.2, unlisted]

/-- The filter keeps what a producer writes, but for the fields that it does not list. -/
theorem sanitize_built {field : String} {value : Value} (entry : BuiltEntry (field, value)) :
    sanitizeEntry field value = if field ∈ droppedFields then none else some value := by
  cases entry with
  | id _ n member =>
    obtain ⟨plain, suffix⟩ := id_fields_plain field member
    have apart : ∀ field ∈ idFields, field ∉ droppedFields := by decide
    have listed := apart field member
    simp [sanitizeEntry, not_sensitive plain, redactValue, isSafePayloadKey, suffix, Value.isInt,
      listed]
  | text entry member =>
    obtain ⟨plain, safe, ascii, same⟩ := text_entries_plain entry member
    have apart : ∀ entry ∈ textEntries, entry.1 ∉ droppedFields := by decide
    have listed := apart entry member
    have unchanged : redactText entry.2 = .str entry.2 := by
      rw [redactText_ascii _ asciiTables (by simpa using ascii), same]
    simp [sanitizeEntry, not_sensitive plain, redactValue, unchanged, safe, listed]
  | flag => exact sanitize_dropped (by decide) rfl (by decide)
  | bound _ n member =>
    have inside : ∀ field ∈ ["batch_size", "max_points"], field ∈ droppedFields := by decide
    have dropped := inside field member
    rw [if_pos dropped]
    exact sanitize_dropped dropped rfl (by simp [redacted])

/-- A field that the allow-list has is stored as it was built. -/
theorem stored_field {source : Enqueue} {payload : Dict} (built : source.payload = .ok payload)
    {field : String} (listed : field ∉ droppedFields) :
    Dict.get (sanitizeJobPayload payload) field = Dict.get payload field := by
  obtain ⟨distinct, entries⟩ := payload_entries built
  rw [get_sanitize distinct]
  cases found : Dict.get payload field with
  | none => rfl
  | some value =>
    rw [Option.bind_some, sanitize_built (entries _ (get_mem found)), if_neg listed]

/-- The filter is the only thing that happens to a field, however often it is applied. -/
theorem carries_created {source : Enqueue} {payload : Dict} (built : source.payload = .ok payload) :
    Carries payload (sanitizeJobPayload payload) := by
  obtain ⟨distinct, _⟩ := payload_entries built
  refine ⟨distinct.sublist (sanitize_keys payload), ?_, ?_, ?_⟩
  · intro field _ none
    rw [get_sanitize distinct, none, Option.bind_none]
  · intro field _ value found fixed
    rw [get_sanitize distinct, found, Option.bind_some, fixed]
  · intro field _ value found gone
    rw [get_sanitize distinct, found, Option.bind_some, gone]

theorem carries_retried {payload : Dict} (retries : List RetryRequest) (job : Job) {stored : Dict}
    (has : job.payloadJson = some stored) (carries : Carries payload stored) :
    ∃ final, (retried job retries).payloadJson = some final ∧ Carries payload final := by
  induction retries generalizing job stored with
  | nil => exact ⟨stored, has, carries⟩
  | cons r retries ih =>
    have filtered := carries_sanitize carries
    cases user : r.requestedByUserId with
    | none =>
      exact ih (newRetryJob r.jobId job r.requestedByUserId r.retryCount r.createdAt)
        (by simp [newRetryJob, has, user]) filtered
    | some id =>
      exact ih (newRetryJob r.jobId job r.requestedByUserId r.retryCount r.createdAt)
        (by simp [newRetryJob, has, user]) (carries_set_user filtered id)

/-- The job that an enqueuing call creates. -/
def createdJob (source : Enqueue) (payload : Dict) (jobId : Nat) (targetType : Option String)
    (targetId createdBy : Option Nat) (priority : Int) (createdAt : Time) : Job :=
  newJob jobId source.jobType targetType targetId (some payload) createdBy priority createdAt

end Filter

end RagProject.Jobs
