import RagProject.Lib.KeepFirst
import RagProject.Lib.Markers

/-! Citation markers of a generated answer (rag/citations.py). -/
namespace RagProject.Generation
open Python Markers

/-- What a run of ask ends with when its answer cannot be used. -/
inductive AnswerError where
  | citationBuild (detailCode : String)
  | insufficientEvidence
  deriving DecidableEq, Repr

structure CitationSource where
  localCitationId : Int
  retrievalRunItemId : Nat
  documentChunkId : Nat
  sourceLabel : String
  snippet : String
  pageFrom : Option Int
  pageTo : Option Int
  sectionTitle : Option String
  sourceType : String
  sourceUrl : Option String
  deriving DecidableEq, Repr

structure CitationMarker where
  localCitationId : Nat
  start : Nat
  stop : Nat
  deriving DecidableEq, Repr

structure ParsedGenerationOutput where
  answerText : String
  markers : List CitationMarker
  uniqueMarkerIds : List Nat
  deriving DecidableEq, Repr

/-- text.replace("\x00", " "). -/
def withoutNul (s : List Char) : List Char := s.map fun c => if c = '\x00' then ' ' else c

def normalizeAnswerText (content : String) : String :=
  let lines := (splitLines (withoutNul content.toList)).map fun line => join [' '] (splitWords line)
  String.ofList (join ['\n'] (lines.filter (· ≠ [])))

section
variable [DigitTables]

/-- MARKER_RE takes any number of digits. -/
def anyDigits (_ : List Char) : Bool := true

def maxMarkerDigits : Nat := 6

/-- CITATION_MARKER_RE takes one to six digits. -/
def fewDigits (digits : List Char) : Bool := digits.length ≤ maxMarkerDigits

def Piece.isMarker : Piece → Bool
  | .plain _ => false
  | .marker _ => true

/-- MARKER_RE.finditer over the pieces of a text. -/
def markersFrom (start : Nat) : List Piece → List CitationMarker
  | [] => []
  | .plain _ :: ps => markersFrom (start + 1) ps
  | .marker digits :: ps =>
    let stop := start + (digits.length + 2)
    ⟨intOf digits, start, stop⟩ :: markersFrom stop ps

/-- pattern.sub("", text). -/
def withoutMarkers (fits : List Char → Bool) (text : List Char) : List Char :=
  textOf ((pieces fits text).filter (!Piece.isMarker ·))

def tooLong : Piece → Bool
  | .plain _ => false
  | .marker digits => maxMarkerDigits < digits.length

def uniqueInOrder (values : List Nat) : List Nat := KeepFirst.keepFirst id [] values

def parseGenerationOutput (content : String) : Except AnswerError ParsedGenerationOutput :=
  let answerText := normalizeAnswerText content
  let found := pieces anyDigits answerText.toList
  if found.any tooLong then .error (.citationBuild "citation_parse_invalid")
  else
    let markers := markersFrom 0 found
    .ok ⟨answerText, markers, uniqueInOrder (markers.map (·.localCitationId))⟩

/-- One turn of the loop that maps the sources by their numbers. -/
def mapSource (sourceByLocalId : List CitationSource) (source : CitationSource) :
    Except AnswerError (List CitationSource) :=
  if source.localCitationId < 1 then .error (.citationBuild "citation_source_unmapped")
  else if sourceByLocalId.any (·.localCitationId = source.localCitationId) then
    .error (.citationBuild "citation_source_unmapped")
  else .ok (sourceByLocalId ++ [source])

def validateGenerationCitations (parsed : ParsedGenerationOutput)
    (sourceMap : List CitationSource) : Except AnswerError (List CitationSource) := do
  if parsed.markers = [] then .error (.citationBuild "citation_marker_missing")
  else if strip (withoutMarkers anyDigits parsed.answerText.toList) = [] then
    .error (.citationBuild "citation_parse_invalid")
  else if parsed.uniqueMarkerIds.any (· < 1) then
    .error (.citationBuild "citation_index_out_of_range")
  else
    let sourceByLocalId ← sourceMap.foldlM mapSource []
    match (sourceByLocalId.map CitationSource.localCitationId).max? with
    | none => .error (.citationBuild "citation_source_missing")
    | some maxLocalId =>
      if parsed.uniqueMarkerIds.any fun (localId : Nat) => maxLocalId < localId then
        .error (.citationBuild "citation_index_out_of_range")
      else
        match parsed.uniqueMarkerIds.mapM fun (localId : Nat) =>
            sourceByLocalId.find? fun source => source.localCitationId = (localId : Int) with
        | none => .error (.citationBuild "citation_source_unmapped")
        | some cited => .ok cited

end

end RagProject.Generation
