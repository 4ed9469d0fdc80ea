import RagProject.Lib.Sha256
import RagProject.Lib.Words

/-! FixedTokenChunker (ingest/chunking.py): the chunks of a document version. -/
namespace RagProject.Ingest
open Python

structure Chunk where
  documentVersionId : Nat
  chunkIndex : Nat
  chunkHash : String
  contentText : String
  tokenCount : Nat
  charCount : Nat
  pageFrom : Option Int
  pageTo : Option Int
  sectionTitle : Option String
  modality : String
  metadataJson : Option Dict
  deriving DecidableEq, Repr

structure ChunkingConfig where
  chunkSizeTokens : Nat
  chunkOverlapTokens : Nat
  smaller : chunkOverlapTokens < chunkSizeTokens

def ChunkingConfig.step (config : ChunkingConfig) : Nat :=
  config.chunkSizeTokens - config.chunkOverlapTokens

theorem ChunkingConfig.step_pos (config : ChunkingConfig) : 0 < config.step :=
  Nat.sub_pos_of_lt config.smaller

structure ExtractedPage where
  text : String
  pageNumber : Option Int
  sectionTitle : Option String
  metadata : Dict
  deriving DecidableEq, Repr

structure Token where
  value : String
  pageNumber : Option Int
  sectionTitle : Option String
  metadata : Dict
  deriving DecidableEq, Repr

inductive ChunkingError where
  | noChunksCreated
  deriving DecidableEq, Repr

section Hashing

def normalizeChunkText (value : String) : String :=
  String.ofList (strip (join [' '] (splitWords value.toList)))

def chunkHash (normalizedChunkText : String) (documentVersionId chunkIndex : Nat) : String :=
  Sha256.hexDigest (normalizedChunkText ++ toString documentVersionId ++ toString chunkIndex)

end Hashing

section Tokens

def normalizePageText (text : String) : List Char :=
  strip (join ['\n'] ((splitLines text.toList).map strip))

/-- The matches of \S+ are the words of the text. -/
def documentTokens (pages : List ExtractedPage) : List Token :=
  pages.flatMap fun page => (splitWords (normalizePageText page.text)).map fun word =>
    ⟨String.ofList word, page.pageNumber, page.sectionTitle, page.metadata⟩

def estimateTokenCount (text : String) : Nat := (splitWords text.toList).length

structure BoundaryKey where
  structureKey : String
  parentKey : String
  tableIndex : Option (Option Int)
  deriving DecidableEq, Repr

def intOnly : Option Value → Option Int
  | some (.int n) => some n
  | _ => none

def metadataBoundaryKey (metadata : Dict) : Option BoundaryKey :=
  match Dict.get metadata "parent_chunk_key" with
  | some (.str parentKey) =>
    if parentKey = "" then none
    else
      let structureKey := match Dict.get metadata "structure_type" with
        | some (.str structureType) => structureType
        | _ => "structured"
      if structureKey = "excel_sheet" then
        some ⟨structureKey, parentKey, some (intOnly (Dict.get metadata "table_index"))⟩
      else some ⟨structureKey, parentKey, none⟩
  | _ => none

def Token.key (token : Token) : Option BoundaryKey := metadataBoundaryKey token.metadata

/-- One turn of the loop of _token_segments: the segments behind it, the one that is open and the
key of its last token. -/
def segmentToken (state : List (List Token) × List Token × Option BoundaryKey) (token : Token) :
    List (List Token) × List Token × Option BoundaryKey :=
  let (segments, current, currentKey) := state
  if current ≠ [] ∧ token.key ≠ currentKey then (segments ++ [current], [token], token.key)
  else (segments, current ++ [token], token.key)

def tokenSegments (tokens : List Token) : List (List Token) :=
  let (segments, current, _) := tokens.foldl segmentToken ([], [], none)
  if current = [] then segments else segments ++ [current]

def firstSectionTitle (tokens : List Token) : Option String :=
  tokens.findSome? fun token => token.sectionTitle.filter (· ≠ "")

end Tokens

section Metadata

mutual
def isSafeMetadataValue : Value → Bool
  | .none => false
  | .str s => !(strip s.toList).isEmpty && s.length ≤ 255
  | .bool _ | .int _ | .float _ => true
  | .list items => areSafeMetadataValues 20 items
  | .dict _ => false
def areSafeMetadataValues : Nat → List Value → Bool
  | more + 1, item :: items => isSafeMetadataValue item && areSafeMetadataValues more items
  | _, _ => true
end

def mergeIntRange (items : List Dict) (key : String) (reducer : Int → Int → Int) (target : Dict) :
    Dict :=
  match items.filterMap fun item => intOnly (Dict.get item key) with
  | [] => target
  | value :: values => Dict.set target key (.int (values.foldl reducer value))

def chunkMetadata (tokens : List Token) (chunkIndex : Nat) : Option Dict :=
  match (tokens.map (·.metadata)).filter (!·.isEmpty) with
  | [] => none
  | base :: rest =>
    let items := base :: rest
    let safe := base.filter fun entry => isSafeMetadataValue entry.2
    if safe.isEmpty then none
    else
      let safe := Dict.set safe "chunk_level" (.str "child")
      let safe := Dict.set safe "chunk_index" (.int chunkIndex)
      let safe := match Dict.get safe "parent_chunk_key" with
        | some (.str parentKey) =>
          if parentKey = "" then safe
          else Dict.set safe "child_chunk_key"
            (.str (parentKey ++ ":chunk:" ++ toString chunkIndex))
        | _ => safe
      some (mergeIntRange items "slide_number" min (mergeIntRange items "column_to" max
        (mergeIntRange items "column_from" min (mergeIntRange items "row_to" max
          (mergeIntRange items "row_from" min safe)))))

end Metadata

section Chunks
variable (config : ChunkingConfig) (documentVersionId : Nat)

def contentText (window : List Token) : String :=
  String.ofList (strip (join [' '] (window.map (·.value.toList))))

def pageNumbers (window : List Token) : List Int := window.filterMap (·.pageNumber)

def windowChunk (chunkIndex : Nat) (window : List Token) : Chunk :=
  let content := contentText window
  { documentVersionId := documentVersionId
    chunkIndex := chunkIndex
    chunkHash := chunkHash (normalizeChunkText content) documentVersionId chunkIndex
    contentText := content
    tokenCount := estimateTokenCount content
    charCount := content.length
    pageFrom := (pageNumbers window).min?
    pageTo := (pageNumbers window).max?
    sectionTitle := firstSectionTitle window
    modality := "text"
    metadataJson := chunkMetadata window chunkIndex }

/-- A window with a text becomes the next chunk. -/
def appendChunk (chunks : List Chunk) (window : List Token) : List Chunk :=
  if normalizeChunkText (contentText window) = "" then chunks
  else chunks ++ [windowChunk documentVersionId chunks.length window]

/-- The loop over one segment. -/
def chunkSegment (segment : List Token) (start : Nat) (chunks : List Chunk) : List Chunk :=
  if start < segment.length then
    let window := (segment.drop start).take config.chunkSizeTokens
    chunkSegment segment (start + config.step) (appendChunk documentVersionId chunks window)
  else chunks
termination_by segment.length - start
decreasing_by
  have := config.step_pos
  omega

def chunk (pages : List ExtractedPage) : Except ChunkingError (List Chunk) :=
  let tokens := documentTokens pages
  if tokens = [] then .error .noChunksCreated
  else
    let chunks := (tokenSegments tokens).foldl
      (fun chunks segment => chunkSegment config documentVersionId segment 0 chunks) []
    if chunks = [] then .error .noChunksCreated else .ok chunks

end Chunks

end RagProject.Ingest
