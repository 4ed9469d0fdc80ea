import RagProject.Context.Texts
import RagProject.Generation.Insufficient

/-! From the output of a model to the answer that ask stores (services/rag_service.py): the safety
check, the citations, their repair and the fallback. -/
namespace RagProject.Generation
open Python Regex Markers Context

structure GenerationContextItem where
  documentChunkId : Nat
  sourceLabel : String
  text : String
  localCitationId : Option Int
  pageFrom : Option Int
  pageTo : Option Int
  deriving DecidableEq, Repr

section Safety
variable [UnicodeTables]

/-- The first alternative of SENSITIVE_OUTPUT_RE up to the value. -/
def assignmentRe : Pattern :=
  sequence [.wordEdge, oneOf (apiKeyWord :: ["secret", "password", "token"].map literalIgnoreCase),
    .wordEdge, .star (.char isSpace), .char (fun c => c == ':' || c == '='), .star (.char isSpace)]

def sensitiveOutputRe : Pattern :=
  .alt (.seq assignmentRe (atLeast (.char fun c => !isSpace c) 8)) emailAddress

def verbatimChars : Nat := 80

def quotesContext (answerText : String) (item : GenerationContextItem) : Bool :=
  let contextText := cleanText item.text
  verbatimChars ≤ contextText.length && contains (cleanText answerText).toList contextText.toList

def validateGenerationOutputSafety (answerText : String) (contextItems : List GenerationContextItem) :
    Except AnswerError Unit :=
  if search sensitiveOutputRe answerText.toList then .error (.citationBuild "citation_build_failed")
  else if contextItems.any (quotesContext answerText) then
    .error (.citationBuild "citation_build_failed")
  else .ok ()

end Safety

section Fallback
variable [DigitTables]

def fallbackText (localCitationId : Int) : String :=
  "検索された文書には、この質問に直接答えるための十分な根拠がありません [" ++
    toString localCitationId ++ "]。"

def insufficientCitationFallback (promptCitationSources : List CitationSource) :
    Except AnswerError (ParsedGenerationOutput × List CitationSource) :=
  match promptCitationSources with
  | [] => .error (.citationBuild "citation_build_failed")
  | firstSource :: _ => do
    let parsed ← parseGenerationOutput (fallbackText firstSource.localCitationId)
    let cited ← validateGenerationCitations parsed promptCitationSources
    .ok (parsed, cited)

/-- The digits that a marker gets: its own when they name a source. -/
def repairedDigits (promptCitationSources : List CitationSource) (firstSource : CitationSource)
    (digits : List Char) : List Char :=
  if promptCitationSources.any fun source => source.localCitationId = (intOf digits : Int) then digits
  else (toString firstSource.localCitationId).toList

def repairedText (parsed : ParsedGenerationOutput) (promptCitationSources : List CitationSource)
    (firstSource : CitationSource) : String :=
  if parsed.markers = [] then
    parsed.answerText ++ " " ++ "[" ++ toString firstSource.localCitationId ++ "]"
  else String.ofList
    (rewrite fewDigits (repairedDigits promptCitationSources firstSource) parsed.answerText.toList)

def repairGenerationCitations (parsed : ParsedGenerationOutput)
    (promptCitationSources : List CitationSource) :
    Except AnswerError (ParsedGenerationOutput × List CitationSource) :=
  match promptCitationSources with
  | [] => .error (.citationBuild "citation_build_failed")
  | firstSource :: _ =>
    let answerWithoutMarkers := strip (withoutMarkers fewDigits parsed.answerText.toList)
    if answerWithoutMarkers = [] then insufficientCitationFallback promptCitationSources
    else do
      let repaired ← parseGenerationOutput (repairedText parsed promptCitationSources firstSource)
      let cited ← validateGenerationCitations repaired promptCitationSources
      .ok (repaired, cited)

def validationErrorFallback (promptCitationSources : List CitationSource) :
    Except AnswerError (ParsedGenerationOutput × List CitationSource × Bool) := do
  let (fallback, cited) ← insufficientCitationFallback promptCitationSources
  .ok (fallback, cited, true)

def validatedGenerationOrFallback (content : String) (contextItems : List GenerationContextItem)
    (promptCitationSources : List CitationSource)
    (allowInsufficientEvidenceFallback allowValidationErrorFallback : Bool) :
    Except AnswerError (ParsedGenerationOutput × List CitationSource × Bool) :=
  match parseGenerationOutput content with
  | .error e =>
    if allowValidationErrorFallback then validationErrorFallback promptCitationSources else .error e
  | .ok parsed =>
    if isInsufficientEvidenceAnswer parsed.answerText then
      if allowInsufficientEvidenceFallback then do
        let (fallback, cited) ← insufficientCitationFallback promptCitationSources
        .ok (fallback, cited, true)
      else .error .insufficientEvidence
    else
      match validateGenerationOutputSafety parsed.answerText contextItems with
      | .error e =>
        if allowValidationErrorFallback then validationErrorFallback promptCitationSources
        else .error e
      | .ok () =>
        match validateGenerationCitations parsed promptCitationSources with
        | .error _ =>
          if allowValidationErrorFallback then validationErrorFallback promptCitationSources
          else do
            let (repaired, cited) ← repairGenerationCitations parsed promptCitationSources
            .ok (repaired, cited, false)
        | .ok cited => .ok (parsed, cited, false)

end Fallback

end RagProject.Generation
