import Mathlib.Data.List.Sort
import RagProject.Documents.Store

/-! The comparison of the chunks of two versions (services/document_service.py): three stages of
matching, each on what the one before has left. -/
namespace RagProject.Documents
open Python

section Keys

/-- The text services around the code: the redaction of labels and addresses of a source, and the
text of a number that is no integer. -/
class SourceText where
  safeOptionalLabel : String → Option String
  safeUrl : String → Option String
  floatText : Rat → String

def allowedMetadataKeys : List String :=
  ["parent_child_schema_version", "structure_type", "chunk_level", "parent_chunk_key",
   "child_chunk_key", "parent_title", "sheet_name", "row_from", "row_to", "column_from",
   "column_to", "table_index", "slide_number", "slide_title", "shape_count", "table_count",
   "html_title", "heading_path", "element_type", "element_index", "xml_root", "xml_path",
   "element_name", "source_type", "source_url"]

variable [SourceText]

def safeMetadataEntry (entry : String × Value) : Option (String × Value) :=
  if entry.1 ∈ allowedMetadataKeys then
    match entry.2 with
    | .str text =>
      let safe := if entry.1 = "source_url" then SourceText.safeUrl text
        else SourceText.safeOptionalLabel text
      (safe.filter (· ≠ "")).map fun text => (entry.1, .str text)
    | .bool b => some (entry.1, .bool b)
    | .int n => some (entry.1, .int n)
    | .float q => some (entry.1, .float q)
    | _ => none
  else none

def safeChunkMetadata (metadata : Option Dict) : Dict := (metadata.getD []).filterMap safeMetadataEntry

/-- str(value). -/
def valueText : Option Value → String
  | some (.str text) => text
  | some (.int n) => toString n
  | some (.bool b) => if b then "True" else "False"
  | some (.float q) => SourceText.floatText q
  | _ => "None"

def stringField (metadata : Dict) (key : String) : Option String :=
  match Dict.get metadata key with
  | some (.str text) => some text
  | _ => none

def sectionKey (chunk : DocumentChunk) : Option String :=
  (chunk.sectionTitle.filter (· ≠ "")).map fun title =>
    "section:" ++ title ++ ":chunk:" ++ toString chunk.chunkIndex

/-- A place in a structured document: the path, the element and the chunk. -/
def elementKey (kind : String) (path : Option String) (metadata : Dict) (chunk : DocumentChunk) :
    Option String :=
  match path with
  | some path => some (kind ++ ":" ++ path ++ ":element:" ++
      valueText (Dict.get metadata "element_index") ++ ":chunk:" ++ toString chunk.chunkIndex)
  | none => sectionKey chunk

def slideKey (metadata : Dict) (chunk : DocumentChunk) : Option String :=
  match Dict.get metadata "slide_number" with
  | some value =>
    if value.isInt then
      some ("pptx:slide:" ++ valueText (some value) ++ ":chunk:" ++ toString chunk.chunkIndex)
    else sectionKey chunk
  | none => sectionKey chunk

def structuralKey (chunk : DocumentChunk) : Option String :=
  let metadata := safeChunkMetadata chunk.metadataJson
  match (stringField metadata "child_chunk_key").filter (· ≠ ""),
      (stringField metadata "parent_chunk_key").filter (· ≠ "") with
  | some key, _ => some ("child_chunk_key:" ++ key)
  | none, some key => some ("parent_chunk_key:" ++ key)
  | none, none =>
    match stringField metadata "structure_type" with
    | some "excel_sheet" =>
      some (String.intercalate ":" ("excel" :: (["sheet_name", "table_index", "row_from",
        "row_to"].filterMap (Dict.get metadata)).map fun part => valueText (some part)))
    | some "powerpoint_slide" => slideKey metadata chunk
    | some "html_section" => elementKey "html" (stringField metadata "heading_path") metadata chunk
    | some "xml_element" => elementKey "xml" (stringField metadata "xml_path") metadata chunk
    | _ => sectionKey chunk

def indexKey (chunk : DocumentChunk) : Option String :=
  some ("chunk_index:" ++ toString chunk.chunkIndex)

end Keys

section Matching

inductive MatchReason where
  | chunkHash | structuralKey | chunkIndexSimilarity | unmatched
  deriving DecidableEq, Repr

structure ChunkMatch where
  base : Option DocumentChunk
  target : Option DocumentChunk
  reason : MatchReason
  deriving DecidableEq, Repr

/-- The two dictionaries of chunks without a partner, and the matches so far. -/
structure Matching where
  unmatchedBase : List DocumentChunk
  unmatchedTarget : List DocumentChunk
  pairs : List ChunkMatch
  deriving DecidableEq, Repr

/-- The candidates of each key, as queues. -/
abbrev Queues := String → List DocumentChunk

/-- Candidates leave the queue up to the first one that is accepted. -/
def takeCandidate (accepts : DocumentChunk → Bool) :
    List DocumentChunk → Option DocumentChunk × List DocumentChunk
  | [] => (none, [])
  | candidate :: rest =>
    if accepts candidate then (some candidate, rest) else takeCandidate accepts rest

def removeChunk (chunk : DocumentChunk) (chunks : List DocumentChunk) : List DocumentChunk :=
  chunks.filter fun c => c.documentChunkId != chunk.documentChunkId

def holdsChunk (chunks : List DocumentChunk) (chunk : DocumentChunk) : Bool :=
  chunks.any fun c => c.documentChunkId == chunk.documentChunkId

/-- One turn of a matching loop. -/
def matchChunk (key : DocumentChunk → Option String) (reason : MatchReason)
    (similar : DocumentChunk → DocumentChunk → Bool) (state : Queues × Matching)
    (base : DocumentChunk) : Queues × Matching :=
  match key base with
  | none => state
  | some k =>
    let (queues, matching) := state
    let (found, rest) := takeCandidate
      (fun target => holdsChunk matching.unmatchedTarget target && similar base target) (queues k)
    let queues := Function.update queues k rest
    match found with
    | none => (queues, matching)
    | some target =>
      (queues,
        { unmatchedBase := removeChunk base matching.unmatchedBase
          unmatchedTarget := removeChunk target matching.unmatchedTarget
          pairs := matching.pairs ++ [⟨some base, some target, reason⟩] })

def queuesOf (key : DocumentChunk → Option String) (chunks : List DocumentChunk) : Queues :=
  fun k => chunks.filter fun chunk => key chunk = some k

def byIndex (chunks : List DocumentChunk) : List DocumentChunk :=
  chunks.insertionSort fun a b => a.chunkIndex ≤ b.chunkIndex

def matchByHash (base target : List DocumentChunk) (matching : Matching) : Matching :=
  let key (chunk : DocumentChunk) := some chunk.chunkHash
  (base.foldl (matchChunk key .chunkHash fun _ _ => true) (queuesOf key target, matching)).2

def matchByKey (key : DocumentChunk → Option String) (reason : MatchReason)
    (similar : DocumentChunk → DocumentChunk → Bool) (matching : Matching) : Matching :=
  let key (chunk : DocumentChunk) := (key chunk).filter (· ≠ "")
  ((byIndex matching.unmatchedBase).foldl (matchChunk key reason similar)
    (queuesOf key (byIndex matching.unmatchedTarget), matching)).2

/-- {chunk.document_chunk_id: chunk for chunk in chunks}. -/
def chunksById (chunks : List DocumentChunk) : List DocumentChunk :=
  Table.mergeRows DocumentChunk.documentChunkId [] chunks

variable [SourceText] {S : Type} [LinearOrder S] (similarity : DocumentChunk → DocumentChunk → S)
  (threshold : S)

def matchStages (base target : List DocumentChunk) : Matching :=
  let matching := matchByHash base target ⟨chunksById base, chunksById target, []⟩
  let matching := matchByKey structuralKey .structuralKey (fun _ _ => true) matching
  matchByKey indexKey .chunkIndexSimilarity (fun b t => !(similarity b t < threshold)) matching

def chunkMatches (base target : List DocumentChunk) : List ChunkMatch :=
  let matching := matchStages similarity threshold base target
  matching.pairs ++ (byIndex matching.unmatchedBase).map (fun b => ⟨some b, none, .unmatched⟩) ++
    (byIndex matching.unmatchedTarget).map fun t => ⟨none, some t, .unmatched⟩

def ChunkMatch.sortKey (m : ChunkMatch) : Int × Int :=
  match m.base, m.target with
  | none, none => (0, 0)
  | some b, none => (b.chunkIndex, b.chunkIndex)
  | none, some t => (t.chunkIndex, -1)
  | some b, some t => (t.chunkIndex, b.chunkIndex)

def sortedMatches (found : List ChunkMatch) : List ChunkMatch :=
  found.insertionSort fun a b => a.sortKey.1 < b.sortKey.1 ∨
    (a.sortKey.1 = b.sortKey.1 ∧ a.sortKey.2 ≤ b.sortKey.2)

inductive DiffType where
  | added | removed | changed | unchanged
  deriving DecidableEq, Repr

def ChunkMatch.diffType (m : ChunkMatch) : DiffType :=
  match m.base, m.target with
  | none, _ => .added
  | some _, none => .removed
  | some b, some t => if b.chunkHash = t.chunkHash then .unchanged else .changed

structure DocumentChunkDiffItem (S : Type) where
  diffType : DiffType
  baseChunk : Option DocumentChunk
  targetChunk : Option DocumentChunk
  similarityScore : Option S
  matchReason : MatchReason
  deriving DecidableEq, Repr

structure DiffCounts where
  added : Nat
  removed : Nat
  changed : Nat
  unchanged : Nat
  deriving DecidableEq, Repr

/-- The similarity of identical texts, and of others rounded to four places. -/
structure Scores (S : Type) where
  one : S
  round : S → S

def diffItem (scores : Scores S) (m : ChunkMatch) : DocumentChunkDiffItem S where
  diffType := m.diffType
  baseChunk := m.base
  targetChunk := m.target
  similarityScore :=
    match m.base, m.target with
    | some b, some t =>
      some (if b.chunkHash = t.chunkHash then scores.one else scores.round (similarity b t))
    | _, _ => none
  matchReason := m.reason

def countOf (type : DiffType) (found : List ChunkMatch) : Nat :=
  (found.filter fun m => m.diffType = type).length

/-- _chunk_diff: the items, the counts, and whether items were left out. -/
def chunkDiff (scores : Scores S) (maxItems : Nat) (base target : List DocumentChunk) :
    List (DocumentChunkDiffItem S) × DiffCounts × Bool :=
  let found := chunkMatches similarity threshold base target
  let ordered := sortedMatches found
  ((ordered.take maxItems).map (diffItem similarity scores),
    ⟨countOf .added ordered, countOf .removed ordered, countOf .changed ordered,
      countOf .unchanged ordered⟩,
    decide (maxItems < found.length))

end Matching

end RagProject.Documents
