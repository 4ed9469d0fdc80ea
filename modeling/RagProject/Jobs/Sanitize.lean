import RagProject.Lib.Regex

/-! The filters that a payload, a result and an error message pass before they are
written to a job row (core/job_utils.py). -/
namespace RagProject.Jobs
open Python

def redacted : Value := .str "[REDACTED]"

def sensitiveKeyParts : List String :=
  ["password", "secret", "token", "credential", "cookie", "csrf", "prompt", "raw", "content",
   "text", "message", "chunk", "chunks", "query", "file", "path", "storage_key", "url", "dsn"]

def secretKeyParts : List String :=
  ["password", "secret", "token", "credential", "cookie", "csrf"]

def safeResultKeys : List String :=
  ["status", "result_code", "handler_status", "handled", "document_version_id",
   "logical_document_id", "chunk_count", "indexed_count", "page_count", "evaluation_run_id",
   "message_id", "mirror_action", "cleaned_count", "neo4j_projection_result_code",
   "result_redacted", "extractor_type", "extractor_version", "graph_extraction_result_code",
   "graph_extraction_fallback_reason", "graph_extraction_provider", "graph_extraction_model",
   "graph_extraction_estimated_cost_usd", "graph_extraction_latency_ms"]

def safePayloadKeys : List String :=
  ["logical_document_id", "document_version_id", "graph_index_run_id", "requested_by_user_id",
   "evaluation_run_id", "chat_session_id", "chat_message_id", "message_id", "mirror_action",
   "cleanup_scope", "extractor_type", "extractor_version", "job_type", "reindex_policy",
   "result_code", "status"]

section Patterns
open Regex

def letter (c : Char) : Bool := ('a' ≤ c && c ≤ 'z') || ('A' ≤ c && c ≤ 'Z')
def letterOrDigit (c : Char) : Bool := letter c || ('0' ≤ c && c ≤ '9')
def keyChar (c : Char) : Bool := letterOrDigit c || c == '_' || c == '-'
def upperOrDigit (c : Char) : Bool := ('A' ≤ c && c ≤ 'Z') || ('0' ≤ c && c ≤ '9')
def spaces : Pattern := .star (.char isSpace)

def windowsAbsolutePathRe : Pattern :=
  sequence [.char letter, exactly ':', exactly '\\']

def unixAbsolutePathRe : Pattern :=
  sequence [.alt .textStart (.char fun c => isSpace c || c == '\'' || c == '"'), exactly '/',
    oneOf (["app", "data", "etc", "home", "mnt", "opt", "root", "srv", "tmp", "Users", "var",
      "workspace"].map literal), exactly '/']

def apiKeyRe : Pattern :=
  sequence [.wordEdge,
    oneOf [
      sequence [oneOf (["sk", "pk"].map literal), exactly '-', atLeast (.char keyChar) 12],
      sequence [oneOf (["sk", "pk", "ghp", "gho", "ghu", "github_pat"].map literal), exactly '_',
        atLeast (.char keyChar) 12],
      sequence [oneOf (["AKIA", "ASIA"].map literal), times (.char upperOrDigit) 16],
      sequence [literal "xox", .char fun c => c ∈ ['b', 'a', 'p', 'r', 's'], exactly '-',
        atLeast (.char fun c => letterOrDigit c || c == '-') 10]],
    .wordEdge]

def bearerTokenRe : Pattern :=
  sequence [.wordEdge, literalIgnoreCase "bearer", plus (.char isSpace),
    atLeast (.char (ignoreCase fun c => keyChar c || c == '.')) 12, .wordEdge]

def keyValueSecretRe : Pattern :=
  sequence [.wordEdge,
    .alt (sequence [literalIgnoreCase "api", optional (.char fun c => c == '_' || c == '-'),
        literalIgnoreCase "key"])
      (oneOf (["secret", "token", "password", "credential"].map literalIgnoreCase)),
    spaces, .char (fun c => c == ':' || c == '='), spaces,
    plus (.char fun c => !(c == ',' || isSpace c || c == ';'))]

def credentialUrlRe : Pattern :=
  sequence [literal "://", plus (.char fun c => !(c == '/' || isSpace c || c == ':' || c == '@')),
    exactly ':', plus (.char fun c => !(c == '/' || isSpace c || c == '@')), exactly '@']

def jwtRe : Pattern :=
  sequence [.wordEdge, literal "eyJ", plus (.char keyChar), exactly '.', plus (.char keyChar),
    exactly '.', plus (.char keyChar), .wordEdge]

end Patterns

variable [UnicodeTables]

def looksLikeAbsolutePath (value : List Char) : Bool :=
  Regex.search windowsAbsolutePathRe value || Regex.search unixAbsolutePathRe value

def looksLikeSecret (value : List Char) : Bool :=
  Regex.search apiKeyRe value || Regex.search bearerTokenRe value ||
    Regex.search keyValueSecretRe value || Regex.search credentialUrlRe value ||
    Regex.search jwtRe value

def isSensitiveKey (key : String) : Bool :=
  let lowered := lower key.toList
  let ends (suffix : String) : Bool := suffix.toList.isSuffixOf lowered
  let has (parts : List String) : Bool := parts.any fun part => contains lowered part.toList
  if ends "_token_count" then false
  else if (ends "_id" || ends "_ids" || ends "_count") && !has secretKeyParts then false
  else has sensitiveKeyParts

/-- A text of a value: dropped when it looks unsafe, cut when it is too long. -/
def redactText (value : String) : Value :=
  if looksLikeAbsolutePath value.toList || looksLikeSecret value.toList then redacted
  else if value.length ≤ 1000 then .str value
  else .str (String.ofList (value.toList.take 997) ++ "...")

mutual
/-- The recursive case of _redact_value, once the key has been looked at. -/
def redactValue : Value → Value
  | .dict entries => .dict (redactEntries entries)
  | .str value => redactText value
  | .list items => .list (redactItems items)
  | value => value
def redactItems : List Value → List Value
  | [] => []
  | item :: items => redactValue item :: redactItems items
def redactEntries : Dict → Dict
  | [] => []
  | (key, value) :: entries =>
    (key, if isSensitiveKey key then redacted else redactValue value) :: redactEntries entries
end

def isSafeScalar : Value → Bool
  | .str _ | .int _ | .float _ | .bool _ | .none => true
  | _ => false

def isSafePayloadKey (key : String) (value : Value) : Bool :=
  if endsWith key "_id" then value.isInt
  else if endsWith key "_ids" then
    match value with
    | .list items => items.all Value.isInt
    | _ => false
  else if endsWith key "_count" then value.isInt
  else if key ∈ safePayloadKeys then isSafeScalar value
  else false

def isSafeResultKey (key : String) (value : Value) : Bool :=
  if endsWith key "_id" then value.isInt
  else if endsWith key "_count" then value.isInt
  else if key ∈ safeResultKeys then isSafeScalar value
  else false

def sanitizeJobPayload (value : Dict) : Dict :=
  (redactEntries value).filter fun entry =>
    entry.2 == redacted || isSafePayloadKey entry.1 entry.2

def sanitizeResultJson (value : Option Dict) : Dict :=
  match value.getD [] with
  | [] => []
  | entry :: entries =>
    match (redactEntries (entry :: entries)).filter (fun e => isSafeResultKey e.1 e.2) with
    | [] => [("result_redacted", .bool true)]
    | safe => safe

def redactErrorMessage (message : Option String) : String :=
  match message.getD "" with
  | "" => "Job failed."
  | text =>
    let stripped := join [' '] (splitWords text.toList)
    let lowered := lower stripped
    if sensitiveKeyParts.any (fun part => contains lowered part.toList) ||
        looksLikeAbsolutePath stripped || looksLikeSecret stripped then
      "Job failed with a redacted error."
    else if 500 < stripped.length then String.ofList (stripped.take 497) ++ "..."
    else String.ofList stripped

omit [UnicodeTables] in
theorem isSensitiveKey_ascii (s t : UnicodeTables) {key : String}
    (ascii : ∀ x ∈ key.toList, x.toNat < 128) :
    @isSensitiveKey s key = @isSensitiveKey t key := by
  simp only [isSensitiveKey, lower_ascii s t ascii]

omit [UnicodeTables] in
theorem redactText_ascii (s t : UnicodeTables) {value : String}
    (ascii : ∀ x ∈ value.toList, x.toNat < 128) :
    @redactText s value = @redactText t value := by
  have path : @looksLikeAbsolutePath s value.toList = @looksLikeAbsolutePath t value.toList := by
    simp only [looksLikeAbsolutePath, Regex.search_ascii s t _ ascii]
  have secret : @looksLikeSecret s value.toList = @looksLikeSecret t value.toList := by
    simp only [looksLikeSecret, Regex.search_ascii s t _ ascii]
  simp only [redactText, path, secret]

end RagProject.Jobs
