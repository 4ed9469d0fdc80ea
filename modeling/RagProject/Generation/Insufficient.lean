import RagProject.Generation.Citations
import RagProject.Lib.Regex

/-! Answers that only say that the evidence is insufficient (rag/insufficient.py). -/
namespace RagProject.Generation
open Python Regex Markers

section Patterns

def spaces : Pattern := .star (.char isSpace)

def someSpaces : Pattern := plus (.char isSpace)

/-- Words with a run of blanks between them. -/
def phrase : List String → Pattern
  | [] => .empty
  | [word] => literalIgnoreCase word
  | word :: words => .seq (literalIgnoreCase word) (.seq someSpaces (phrase words))

def anyOf (words : List String) : Pattern := oneOf (words.map literalIgnoreCase)

/-- At most `n` times. -/
def upTo (p : Pattern) : Nat → Pattern
  | 0 => .empty
  | n + 1 => .alt (.seq p (upTo p n)) .empty

def answerPrefixRe : Pattern :=
  sequence [.textStart, spaces,
    oneOf [phrase ["final", "answer"], literalIgnoreCase "answer",
      phrase ["drafting", "the", "answer"],
      .seq (phrase ["drafting", "the", "response"])
        (optional (.seq someSpaces (phrase ["in", "japanese"]))),
      literalIgnoreCase "draft", literalIgnoreCase "response", literal "最終回答", literal "回答"],
    spaces, .char (fun c => c == ':' || c == '：'), spaces]

def edgeNoiseChars : List Char := " \t\r\n。、．.，,！？!?:：;；\"'「」『』（）()【】[]".toList

def englishScopeStop : List String :=
  ["however", "but", "and", "or", "although", "though", "whereas", "while", "is", "are", "was",
    "were", "be", "been", "being", "do", "does", "did", "has", "have", "had", "can", "could",
    "will", "would", "should", "must", "may", "might", "shall", "because", "therefore", "thus",
    "require", "requires", "use", "uses", "contain", "contains", "provide", "provides", "include",
    "includes", "state", "states", "say", "says", "show", "shows", "indicate", "indicates",
    "report", "reports", "return", "returns"]

def scopeLetter (more : List Char) : Pattern :=
  .char (ignoreCase fun c => ('a' ≤ c && c ≤ 'z') || ('0' ≤ c && c ≤ '9') || more.contains c)

def englishScopeWord : Pattern :=
  sequence [.notAhead (.seq (anyOf englishScopeStop) .wordEdge), scopeLetter [],
    .star (scopeLetter ['\'', '_', '-'])]

def englishScopePhrase : Pattern :=
  .seq englishScopeWord (upTo (.seq someSpaces englishScopeWord) 7)

def englishTrailingScope : Pattern :=
  optional (.seq someSpaces (.alt
    (sequence [literalIgnoreCase "to", someSpaces, .alt
      (.seq (.alt (literalIgnoreCase "answer") (phrase ["respond", "to"]))
        (optional (sequence [someSpaces, anyOf ["the", "this"], someSpaces,
          literalIgnoreCase "question"])))
      englishScopePhrase])
    (sequence [anyOf ["for", "about", "regarding", "concerning", "on", "in", "within"], someSpaces,
      englishScopePhrase])))

def standaloneEnglishInsufficientRe : Pattern :=
  .alt
    (sequence [
      optional (.alt (.seq (phrase ["there", "is"]) someSpaces)
        (.seq (literalIgnoreCase "there's") someSpaces)),
      oneOf [literalIgnoreCase "insufficient", phrase ["not", "enough"],
        phrase ["no", "sufficient"], phrase ["no", "usable"]],
      someSpaces, anyOf ["evidence", "context"],
      optional (sequence [someSpaces, anyOf ["in", "from", "within"], someSpaces,
        optional (.seq (literalIgnoreCase "the") someSpaces),
        optional (.seq (literalIgnoreCase "retrieved") someSpaces),
        oneOf [.seq (literalIgnoreCase "document") (optional (literalIgnoreCase "s")),
          literalIgnoreCase "context",
          .seq (literalIgnoreCase "citation") (optional (literalIgnoreCase "s"))]]),
      englishTrailingScope])
    (sequence [optional (.seq (literalIgnoreCase "the") someSpaces),
      optional (.seq (literalIgnoreCase "retrieved") someSpaces),
      oneOf [.seq (literalIgnoreCase "document") (optional (literalIgnoreCase "s")),
        literalIgnoreCase "context",
        .seq (literalIgnoreCase "citation") (optional (literalIgnoreCase "s"))],
      someSpaces, anyOf ["do", "does"], someSpaces, literalIgnoreCase "not", someSpaces,
      anyOf ["contain", "provide", "include"], someSpaces,
      anyOf ["enough", "sufficient", "usable"], someSpaces, anyOf ["evidence", "context"],
      englishTrailingScope])

def japaneseScopeStops : List Char := "。、．.，,！？!?:：;；\"'「」『』（）()【】[]".toList

def japaneseScopeChar : Pattern :=
  .seq (.notAhead (oneOf (["しかし", "ただし", "一方"].map literal)))
    (.char fun c => !(japaneseScopeStops.contains c || isSpace c))

def japaneseScope : Pattern :=
  optional (sequence [japaneseScopeChar, upTo japaneseScopeChar 39,
    oneOf (["について", "に関して", "に対して", "のための"].map literal),
    optional (.char fun c => c == '、' || c == ','), spaces])

def japaneseSource : Pattern :=
  optional (sequence [literal "検索された", oneOf (["文書", "引用"].map literal),
    oneOf (["には", "では"].map literal), optional (.char fun c => c == '、' || c == ','), spaces])

def standaloneJapaneseInsufficientRe : Pattern :=
  oneOf [
    sequence [japaneseSource, japaneseScope,
      optional (sequence [.alt
        (sequence [literal "この質問に", optional (literal "直接"),
          oneOf (["答える", "回答する"].map literal)])
        (literal "この質問への回答をする"), literal "ための", spaces]),
      literal "十分な", oneOf (["情報", "根拠", "エビデンス"].map literal), literal "が",
      oneOf (["ない", "ありません", "存在しません"].map literal)],
    sequence [japaneseSource, japaneseScope, oneOf (["情報", "根拠", "エビデンス"].map literal),
      literal "が不足", optional (oneOf (["している", "しています"].map literal))],
    sequence [japaneseSource, japaneseScope, optional (literal "この質問への"),
      literal "回答を確定できません"]]

end Patterns

def insufficientEvidenceAnswerTemplates : List String :=
  ["insufficient evidence", "insufficient context", "not enough evidence", "not enough context",
    "no sufficient evidence", "no usable context"]

section
variable [DigitTables]

/-- pattern.sub("", text, count=1) for a pattern that is bound to the start of the text. Its
matches differ only in how many blanks they take at their end, and the longest one takes all. -/
def removeStart (p : Pattern) (text : List Char) : List Char :=
  ((p.ends ⟨none, text⟩).map (·.rest)).foldl
    (fun shortest rest => if rest.length < shortest.length then rest else shortest) text

/-- The loop that removes the prefixes of an answer; each turn takes something away. -/
def removePrefixes : Nat → List Char → List Char
  | 0, text => text
  | turns + 1, text =>
    let stripped := removeStart answerPrefixRe text
    if stripped = text then text else removePrefixes turns stripped

/-- text.strip(chars). -/
def stripChars (chars : List Char) (s : List Char) : List Char :=
  ((s.dropWhile (chars.contains ·)).reverse.dropWhile (chars.contains ·)).reverse

def standaloneInsufficientEvidenceCandidate (value : List Char) : List Char :=
  let text := withoutNul (lower value)
  let stripped := removePrefixes text.length text
  stripChars edgeNoiseChars (join [' '] (splitWords (withoutMarkers fewDigits stripped)))

def compactNoise : List Char := "。、．.，,！？!?:：;；「」『』（）()【】".toList

def compactInsufficientEvidenceText (value : List Char) : List Char :=
  (standaloneInsufficientEvidenceCandidate value).filter fun c =>
    !(isSpace c || compactNoise.contains c)

def isInsufficientEvidenceAnswer (answerText : String) : Bool :=
  let candidate := standaloneInsufficientEvidenceCandidate answerText.toList
  if candidate = [] then false
  else
    let compactAnswer := compactInsufficientEvidenceText candidate
    fullMatch standaloneJapaneseInsufficientRe candidate ||
      (insufficientEvidenceAnswerTemplates.any fun template =>
        compactAnswer == compactInsufficientEvidenceText template.toList) ||
      fullMatch standaloneEnglishInsufficientRe candidate

end

end RagProject.Generation
