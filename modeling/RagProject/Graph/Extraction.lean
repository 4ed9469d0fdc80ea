import Mathlib.Data.List.Dedup
import RagProject.Lib.KeepFirst
import RagProject.Lib.Python

/-! What a graph extractor hands over (graph/extraction.py), the removal of duplicates in it
(services/graph_index_service.py) and the checks on labels (schemas/graph.py). The metadata of
single candidates is left out: it is only checked and stored. -/
namespace RagProject.Graph
open Python KeepFirst

/-- The text services around the code: str.lower beyond ASCII, lower() of the database, and
whether one of the patterns of unsafe text occurs. -/
class GraphText extends UnicodeTables where
  dbLower : String → String
  containsUnsafe : String → Bool

/-- Names that stay in ASCII, and nothing unsafe in them. -/
@[reducible] def asciiGraphText : GraphText where
  toUnicodeTables := asciiTables
  dbLower name := String.ofList (@lower asciiTables name.toList)
  containsUnsafe _ := false

def stripText (s : String) : String := String.ofList (strip s.toList)

section
variable [UnicodeTables]

def lowerText (s : String) : String := String.ofList (lower s.toList)

end

/-- (canonical_name.lower(), entity_type). -/
abbrev EntityKey := String × String

structure EntityMentionCandidate where
  canonicalName : String
  entityType : String
  aliases : List String
  documentChunkId : Nat
  documentVersionId : Nat
  mentionTextHash : String
  mentionOffsetStart : Int
  mentionOffsetEnd : Int
  confidence : Rat
  deriving DecidableEq, Repr

def EntityMentionCandidate.entityKey [UnicodeTables] (m : EntityMentionCandidate) : EntityKey :=
  (lowerText m.canonicalName, m.entityType)

structure RelationCandidate where
  sourceKey : EntityKey
  targetKey : EntityKey
  relationType : String
  relationLabel : String
  confidence : Rat
  sourceDocumentChunkId : Nat
  evidenceTextHash : String
  deriving DecidableEq, Repr

structure GraphExtractionResult where
  entityMentions : List EntityMentionCandidate
  relations : List RelationCandidate
  metadataJson : Dict
  deriving DecidableEq, Repr

section Dedupe
variable [UnicodeTables]

def mentionKey (m : EntityMentionCandidate) : EntityKey × Nat × String × Int × Int :=
  (m.entityKey, m.documentChunkId, m.mentionTextHash, m.mentionOffsetStart, m.mentionOffsetEnd)

def relationKey (r : RelationCandidate) : EntityKey × EntityKey × String × Nat :=
  (r.sourceKey, r.targetKey, r.relationType, r.sourceDocumentChunkId)

def dedupeMentions (mentions : List EntityMentionCandidate) : List EntityMentionCandidate :=
  keepFirst mentionKey [] mentions

def dedupeRelations (relations : List RelationCandidate) : List RelationCandidate :=
  keepFirst relationKey [] relations

def dedupeResult (result : GraphExtractionResult) : GraphExtractionResult :=
  { result with
    entityMentions := dedupeMentions result.entityMentions
    relations := dedupeRelations result.relations }

def extractorResultCode (result : GraphExtractionResult) : Option String :=
  match Dict.get result.metadataJson "extractor_result_code" with
  | some (.str code) => some code
  | _ => none

end Dedupe

section Checks

/-- The exceptions that the job handler tells apart. -/
inductive GraphError where
  | value
  | resourceNotFound
  | leaseLost
  | other
  deriving DecidableEq, Repr

def validateSafeGraphLabel [GraphText] (maxLength : Nat) (value : String) :
    Except GraphError String :=
  let normalized := strip value.toList
  if normalized.isEmpty || normalized.any (fun c => c == '\n' || c == '\r' || c == '\t') ||
      maxLength < normalized.length || GraphText.containsUnsafe (String.ofList normalized) then
    .error .value
  else .ok (String.ofList normalized)

/-- A label field of a schema: the length of the given text is bounded first. -/
def labelField [GraphText] (maxLength : Nat) (value : String) : Except GraphError String :=
  if value.length = 0 ∨ maxLength < value.length then .error .value
  else validateSafeGraphLabel maxLength value

def isSha256 (value : String) : Bool :=
  value.length == 64 && value.toList.all fun c => ('0' ≤ c && c ≤ '9') || ('a' ≤ c && c ≤ 'f')

def checkThat (condition : Bool) (error : GraphError) : Except GraphError Unit :=
  if condition then .ok () else .error error

def checkHash (value : String) : Except GraphError Unit := checkThat (isSha256 value) .value

def checkConfidence (confidence : Rat) : Except GraphError Unit :=
  checkThat (0 ≤ confidence && confidence ≤ 1) .value

end Checks

end RagProject.Graph
