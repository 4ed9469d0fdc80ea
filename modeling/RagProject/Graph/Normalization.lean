import RagProject.Graph.Store
import RagProject.Lib.Regex
import RagProject.Lib.Spelling

/-! GraphEntityNormalizer (graph/normalization.py). -/
namespace RagProject.Graph
open Python Regex

/-- What unicodedata.normalize("NFKC", _) and str.isupper say. -/
class LabelText extends GraphText where
  nfkc : List Char → List Char
  isUpper : List Char → Bool

structure NormalizedGraphEntity where
  canonicalName : String
  entityType : String
  aliases : List String
  deriving DecidableEq, Repr

def surroundingPunctuation : List Char :=
  ['\x22', '\x27', '\x60', '.', ',', ';', ':', '(', ')', '[', ']', '\x7b', '\x7d', '<', '>']

def technologyTerms : List String :=
  ["api", "aws", "buildkit", "ci", "docker", "fastapi", "graph", "langchain", "langgraph", "llm",
   "mcp", "ocr", "oidc", "openai", "postgresql", "qdrant", "rag", "react", "s3", "typescript", "ui"]

def technicalSuffixes : List String :=
  ["adapter", "chunk", "citation", "document", "entity", "evaluation", "extractor", "graph",
   "handler", "index", "job", "mention", "payload", "pipeline", "relation", "repository",
   "retrieval", "retriever", "router", "schema", "service", "worker"]

def llmAllowedEntityTypes : List String :=
  ["acronym", "artifact", "concept", "dataset", "document", "method", "organization", "paper",
   "system", "technology"]

/-- From str.replace on: what the normalization makes of a label without its punctuation. -/
def spaced (s : List Char) : List Char :=
  strip (collapse (replaceChar '-' ' ' (replaceChar '_' ' ' s)))

def isUpperAscii (c : Char) : Bool := 'A' ≤ c && c ≤ 'Z'
def isLowerAscii (c : Char) : Bool := 'a' ≤ c && c ≤ 'z'
def isLetterAscii (c : Char) : Bool := isUpperAscii c || isLowerAscii c

/-- [A-Za-z_][A-Za-z0-9_]*(?:\.[A-Za-z_][A-Za-z0-9_]*)? -/
def artifactRe : Pattern :=
  let name := Regex.sequence [.char fun c => isLetterAscii c || c == '_',
    .star (.char fun c => isLetterAscii c || c.isDigit || c == '_')]
  .seq name (optional (.seq (exactly '.') name))

/-- [A-Z][A-Za-z0-9]+(?:[A-Z][A-Za-z0-9]+)+ -/
def camelCaseRe : Pattern :=
  let hump := .seq (.char isUpperAscii) (plus (.char fun c => isLetterAscii c || c.isDigit))
  .seq hump (plus hump)

/-- [a-z]+(?:_[a-z0-9]+)+ -/
def snakeCaseRe : Pattern :=
  .seq (plus (.char isLowerAscii))
    (plus (.seq (exactly '_') (plus (.char fun c => isLowerAscii c || c.isDigit))))

/-- [A-Z][a-z]{1,40} as a whole. -/
def isCapitalized : List Char → Bool
  | c :: cs => isUpperAscii c && cs.all isLowerAscii && (1 ≤ cs.length && cs.length ≤ 40)
  | [] => false

/-- [token for token in re.split(r"[^a-z0-9]+", lowered) if token]. -/
def asciiTokens (lowered : List Char) : List (List Char) :=
  (lowered.splitOnP fun c => !(isLowerAscii c || c.isDigit)).filter (!·.isEmpty)

def hasTechnicalSuffix (token : List Char) : Bool :=
  technicalSuffixes.any fun suffix => suffix.toList.isSuffixOf token

def mentionsTechnology (lowered : List Char) : Bool :=
  technologyTerms.any fun term => contains lowered term.toList

section Normalizer
variable [LabelText]

def normalizeLabel (value : String) : Option (List Char) :=
  let normalized := spaced (stripChars surroundingPunctuation (LabelText.nfkc value.toList))
  if normalized.length < 2 || 255 < normalized.length then none else some normalized

def looksLikePersonName (value : List Char) : Bool :=
  let tokens := splitWords value
  if tokens.length < 2 || 4 < tokens.length then false
  else if mentionsTechnology (lower value) then false
  else if tokens.any (fun token => hasTechnicalSuffix (lower token)) then false
  else tokens.all isCapitalized

def looksLikeGraphEntity (value : List Char) : Bool :=
  let lowered := lower value
  let tokens := asciiTokens lowered
  if tokens.isEmpty then false
  else if technologyTerms.contains (String.ofList lowered) then true
  else if tokens.any (fun token => technologyTerms.contains (String.ofList token)) then true
  else if tokens.any hasTechnicalSuffix then true
  else if fullMatch camelCaseRe value then true
  else fullMatch snakeCaseRe value

def isAllowedTypedEntity (value : String) : Bool :=
  match normalizeLabel value with
  | none => false
  | some normalized => llmAllowedEntityTypes.contains (String.ofList (lower normalized))

def inferEntityType (value : List Char) : String :=
  let normalized := strip value
  if LabelText.isUpper normalized && (2 ≤ normalized.length && normalized.length ≤ 12) then
    "acronym"
  else
    let lowered := lower normalized
    if technologyTerms.contains (String.ofList lowered) || mentionsTechnology lowered then
      "technology"
    else if fullMatch artifactRe normalized then "artifact"
    else "concept"

def isSafeRawLabel (maxLength : Nat) (value : String) : Bool :=
  (validateSafeGraphLabel maxLength value).toOption.isSome

/-- One turn of the loop over the aliases: those kept and the names seen so far. -/
def keepAlias (acc : List String × List String) (label : String) : List String × List String :=
  if !isSafeRawLabel 120 label then acc
  else match normalizeLabel label with
    | none => acc
    | some normalized =>
      match validateSafeGraphLabel 120 (String.ofList normalized) with
      | .error _ => acc
      | .ok safeAlias =>
        if acc.2.contains (lowerText safeAlias) then acc
        else (acc.1 ++ [safeAlias], lowerText safeAlias :: acc.2)

def normalize (value : String) (entityType : Option String) (aliases : List String) :
    Option NormalizedGraphEntity := do
  guard (isSafeRawLabel 255 value)
  let canonical ← normalizeLabel value
  guard (!looksLikePersonName canonical)
  guard (looksLikeGraphEntity canonical)
  guard (entityType.all isAllowedTypedEntity)
  let normalizedType := (entityType.filter (· ≠ "")).getD (inferEntityType canonical)
  let safeName ← (validateSafeGraphLabel 255 (String.ofList canonical)).toOption
  let safeType ← (validateSafeGraphLabel 80 normalizedType).toOption
  let kept := (aliases.foldl keepAlias ([], [lowerText safeName])).1
  return ⟨safeName, safeType, kept.take 32⟩

/-- The key of an entity in the graph. -/
def NormalizedGraphEntity.key (e : NormalizedGraphEntity) : EntityKey :=
  (lowerText e.canonicalName, e.entityType)

end Normalizer

end RagProject.Graph
