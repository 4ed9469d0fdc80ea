import RagProject.Context.TextWords
import RagProject.Ingest.Chunking

/-! The texts of an HTML page (ingest/extractors/web.py): the parser that takes the start tags, end
tags and texts of a page one after another, its blocks, and the pages made of them. -/
namespace RagProject.Ingest
open Python Context

abbrev Attrs := List (String × Option String)

/-- What HTMLParser calls its handlers with. -/
inductive HtmlEvent where
  | starttag (tag : String) (attrs : Attrs)
  | endtag (tag : String)
  | data (text : String)
  | comment (text : String)
  deriving DecidableEq, Repr

structure HtmlBlock where
  text : String
  headingPath : List String
  elementType : String
  elementIndex : Nat
  parentIndex : Nat
  deriving DecidableEq, Repr

structure ExtractionInputMetadata where
  fileName : String
  sourceType : Option String
  sourceUrl : Option String
  deriving DecidableEq, Repr

structure ExtractionError where
  errorCode : String
  safeMessage : String
  deriving DecidableEq, Repr

/-- safe_extraction_failure. -/
def safeExtractionFailure : ExtractionError := ⟨"text_extraction_failed", "Text extraction failed."⟩

section Tags

def blockedHtmlTags : List String :=
  ["script", "style", "noscript", "iframe", "object", "embed", "template"]

def blockTags : List String :=
  ["p", "div", "section", "article", "li", "tr", "br", "table", "ul", "ol"]

def headingTags : List String := ["h1", "h2", "h3", "h4", "h5", "h6"]

def tableCellTags : List String := ["td", "th"]

def voidHtmlTags : List String :=
  ["area", "base", "br", "col", "embed", "hr", "img", "input", "link", "meta", "param", "source",
    "track", "wbr"]

/-- int(tag[1]). -/
def headingLevel (tag : String) : Nat := headingTags.idxOf tag + 1

variable [UnicodeTables]

def lowerText (text : String) : String := String.ofList (lower text.toList)

/-- str.strip().lower(). -/
def strippedLower (text : List Char) : String := String.ofList (lower (strip text))

/-- One declaration of a style. -/
def declarationHides (declaration : List Char) : Bool :=
  if ':' ∈ declaration then
    let propertyName := strippedLower (declaration.takeWhile (· ≠ ':'))
    let rawValue := (declaration.dropWhile (· ≠ ':')).drop 1
    let value := strippedLower (rawValue.takeWhile (· ≠ '!'))
    (propertyName == "display" && value == "none") ||
      (propertyName == "visibility" && (value == "hidden" || value == "collapse"))
  else false

def styleHidesElement (style : String) : Bool := (style.toList.splitOn ';').any declarationHides

def isHiddenHtmlElement (attrs : Attrs) : Bool :=
  attrs.any fun (name, value) =>
    let attrName := lowerText name
    attrName == "hidden" ||
      (attrName == "aria-hidden" && strippedLower (value.getD "").toList == "true") ||
      (attrName == "style" && value.any fun style => style != "" && styleHidesElement style)

/-- _safe_metadata_text. -/
def safeMetadataText (value : String) : String :=
  let text := String.ofList ((cleanText value).toList.take 120)
  if text = "" then ""
  else if Regex.search secretAssignmentRe text.toList || Regex.search urlRe text.toList ||
      Regex.search emailRe text.toList then "redacted"
  else text

/-- _safe_source_url_text. -/
def safeSourceUrlText (value : Option String) : String :=
  let text := String.ofList ((cleanText (value.getD "")).toList.take 200)
  if text = "" then ""
  else if Regex.search secretAssignmentRe text.toList || Regex.search emailRe text.toList then
    "redacted"
  else text

/-- A short text without secrets, URLs and e-mail addresses. -/
def Plain (text : String) : Prop :=
  text ≠ "" ∧ text.length ≤ 120 ∧ Regex.search secretAssignmentRe text.toList = false ∧
    Regex.search urlRe text.toList = false ∧ Regex.search emailRe text.toList = false

instance (text : String) : Decidable (Plain text) := inferInstanceAs (Decidable (_ ∧ _ ∧ _ ∧ _ ∧ _))

theorem safeMetadataText_plain {value : String} (plain : Plain (cleanText value)) :
    safeMetadataText value = cleanText value := by
  obtain ⟨shows, short, secret, url, email⟩ := plain
  have whole : String.ofList ((cleanText value).toList.take 120) = cleanText value := by
    rw [List.take_of_length_le short, String.ofList_toList]
  unfold safeMetadataText
  simp only [whole, shows, secret, url, email, if_false, Bool.or_self, Bool.false_eq_true]

end Tags

/-- The state of _SafeHtmlTextParser; the tags of the suppressed elements are kept innermost
first. -/
structure SafeHtmlTextParser where
  elementCount : Nat
  title : Option String
  blocks : List HtmlBlock
  suppressedTags : List String
  currentText : List String
  currentType : String
  currentHeadingLevel : Option Nat
  headings : List String
  currentParentIndex : Option Nat
  inTitle : Bool
  titleText : List String
  tableRowCells : Option (List String)
  tableCellText : Option (List String)
  deriving DecidableEq, Repr

namespace SafeHtmlTextParser

def init : SafeHtmlTextParser where
  elementCount := 0
  title := none
  blocks := []
  suppressedTags := []
  currentText := []
  currentType := "body"
  currentHeadingLevel := none
  headings := []
  currentParentIndex := none
  inTitle := false
  titleText := []
  tableRowCells := none
  tableCellText := none

def appendText (p : SafeHtmlTextParser) (data : String) : SafeHtmlTextParser :=
  let text := cleanText data
  if text = "" then p else { p with currentText := p.currentText ++ [text] }

def flushCurrent (p : SafeHtmlTextParser) (elementType : Option String) : SafeHtmlTextParser :=
  let text := cleanText (joinTexts " " p.currentText)
  let elementIndex := p.blocks.length + 1
  let blocks :=
    if text = "" then p.blocks
    else p.blocks ++
      [{ text := text
         headingPath := p.headings
         elementType := elementType.getD p.currentType
         elementIndex := elementIndex
         parentIndex :=
          if p.headings = [] then elementIndex else p.currentParentIndex.getD elementIndex }]
  { p with blocks := blocks, currentText := [], currentType := "body" }

variable [UnicodeTables]

/-- handle_starttag outside suppressed elements. -/
def openTag (p : SafeHtmlTextParser) (tag : String) (attrs : Attrs) : SafeHtmlTextParser :=
  if tag ∈ blockedHtmlTags ∨ isHiddenHtmlElement attrs then
    if tag ∈ voidHtmlTags then p else { p with suppressedTags := [tag] }
  else if tag = "title" then { p with inTitle := true, titleText := [] }
  else if tag ∈ headingTags then
    { p.flushCurrent none with currentType := tag, currentHeadingLevel := some (headingLevel tag) }
  else if tag ∈ tableCellTags then { p with tableCellText := some [] }
  else if tag = "tr" then { p with tableRowCells := some [] }
  else if tag ∈ blockTags then { p.flushCurrent none with currentType := tag }
  else p

def handleStarttag (maxElements : Nat) (p : SafeHtmlTextParser) (rawTag : String) (attrs : Attrs) :
    Except ExtractionError SafeHtmlTextParser :=
  let tag := lowerText rawTag
  let p := { p with elementCount := p.elementCount + 1 }
  if maxElements < p.elementCount then .error safeExtractionFailure
  else if p.suppressedTags ≠ [] then
    .ok (if tag ∈ voidHtmlTags then p else { p with suppressedTags := tag :: p.suppressedTags })
  else .ok (p.openTag tag attrs)

/-- The end of a heading. -/
def closeHeading (p : SafeHtmlTextParser) (tag : String) : SafeHtmlTextParser :=
  let heading := safeMetadataText (joinTexts " " p.currentText)
  let p :=
    if heading = "" then p
    else
      -- The list is cut by the level, and not by the levels of the headings in it.
      let headings := p.headings.take (p.currentHeadingLevel.getD 1 - 1) ++ [heading]
      let elementIndex := p.blocks.length + 1
      { p with
        headings := headings
        currentParentIndex := some elementIndex
        blocks := p.blocks ++ [⟨heading, headings, tag, elementIndex, elementIndex⟩] }
  { p with currentText := [], currentHeadingLevel := none, currentType := "body" }

/-- The end of a table cell. -/
def closeCell (p : SafeHtmlTextParser) (texts : List String) : SafeHtmlTextParser :=
  let cellText := cleanText (joinTexts " " texts)
  { p with
    tableRowCells := p.tableRowCells.map fun cells =>
      if cellText = "" then cells else cells ++ [cellText]
    tableCellText := none }

/-- The end of a table row. -/
def closeRow (p : SafeHtmlTextParser) (cells : List String) : SafeHtmlTextParser :=
  let p :=
    if cells = [] then p else (p.appendText (joinTexts " | " cells)).flushCurrent (some "table_row")
  { p with tableRowCells := none }

/-- handle_endtag outside suppressed elements. -/
def closeTag (p : SafeHtmlTextParser) (tag : String) : SafeHtmlTextParser :=
  if tag = "title" then
    { p with
      inTitle := false
      title := some (safeMetadataText (joinTexts " " p.titleText))
      titleText := [] }
  else
    match if tag ∈ tableCellTags then p.tableCellText else none with
    | some texts => p.closeCell texts
    | none =>
      match if tag = "tr" then p.tableRowCells else none with
      | some cells => p.closeRow cells
      | none =>
        if tag ∈ headingTags then p.closeHeading tag
        else if tag ∈ blockTags then p.flushCurrent none
        else p

def handleEndtag (p : SafeHtmlTextParser) (rawTag : String) : SafeHtmlTextParser :=
  let tag := lowerText rawTag
  if p.suppressedTags ≠ [] then
    if tag ∈ p.suppressedTags then
      { p with suppressedTags := (p.suppressedTags.dropWhile (· ≠ tag)).drop 1 }
    else p
  else p.closeTag tag

omit [UnicodeTables] in
/-- A text outside suppressed elements. -/
def addText (p : SafeHtmlTextParser) (data : String) : SafeHtmlTextParser :=
  if p.inTitle then { p with titleText := p.titleText ++ [data] }
  else match p.tableCellText with
    | some texts => { p with tableCellText := some (texts ++ [data]) }
    | none => p.appendText data

omit [UnicodeTables] in
def handleData (p : SafeHtmlTextParser) (data : String) : SafeHtmlTextParser :=
  if p.suppressedTags ≠ [] then p else p.addText data

def handle (maxElements : Nat) (p : SafeHtmlTextParser) :
    HtmlEvent → Except ExtractionError SafeHtmlTextParser
  | .starttag tag attrs => p.handleStarttag maxElements tag attrs
  | .endtag tag => .ok (p.handleEndtag tag)
  | .data text => .ok (p.handleData text)
  | .comment _ => .ok p

/-- feed. -/
def feed (maxElements : Nat) (p : SafeHtmlTextParser) :
    List HtmlEvent → Except ExtractionError SafeHtmlTextParser
  | [] => .ok p
  | event :: events => do (← p.handle maxElements event).feed maxElements events

theorem feed_append (maxElements : Nat) (p : SafeHtmlTextParser) (events more : List HtmlEvent) :
    p.feed maxElements (events ++ more) =
      (p.feed maxElements events).bind fun q => q.feed maxElements more := by
  induction events generalizing p with
  | nil => rfl
  | cons event events ih =>
    rw [List.cons_append, feed, feed]
    cases p.handle maxElements event with
    | error failure => rfl
    | ok q => exact ih q

end SafeHtmlTextParser

section Pages
variable [UnicodeTables]

/-- The parser after feed and close. -/
def parseHtml (maxElements : Nat) (events : List HtmlEvent) :
    Except ExtractionError SafeHtmlTextParser := do
  let p ← SafeHtmlTextParser.init.feed maxElements events
  return p.flushCurrent none

omit [UnicodeTables] in
/-- The text that is hashed for the key of a section. -/
def sectionText (headingPath : List String) (elementIndex : Nat) : String :=
  joinTexts "\x00" (toString elementIndex :: headingPath)

omit [UnicodeTables] in
def shortDigest (text : String) : String := String.ofList ((Sha256.hexDigest text).toList.take 12)

omit [UnicodeTables] in
/-- _parent_key. -/
def parentKey (keyKind : String) (headingPath : List String) (elementIndex : Nat) : String :=
  if headingPath ≠ [] then
    keyKind ++ ":section:" ++ shortDigest (sectionText headingPath elementIndex)
  else keyKind ++ ":element:" ++ toString elementIndex

omit [UnicodeTables] in
/-- left or right, of texts. -/
def orText (left right : String) : String := if left = "" then right else left

def htmlPage (metadata : ExtractionInputMetadata) (safeHtmlTitle : String) (block : HtmlBlock) :
    ExtractedPage :=
  let headingPath := joinTexts " / " block.headingPath
  let sourceUrl := safeSourceUrlText metadata.sourceUrl
  { text := cleanText block.text
    pageNumber := none
    sectionTitle := some (orText headingPath block.elementType)
    metadata :=
      [("parent_child_schema_version", .str "phase2.web_ingest.v1"),
        ("structure_type", .str "html_section"),
        ("chunk_level", .str "child"),
        ("parent_chunk_key", .str (parentKey "html" block.headingPath block.parentIndex)),
        ("parent_title", .str (orText headingPath (safeMetadataText metadata.fileName))),
        ("html_title", .str safeHtmlTitle),
        ("heading_path", .str headingPath),
        ("element_type", .str block.elementType),
        ("element_index", .int block.elementIndex),
        ("source_type", .str (orText (metadata.sourceType.getD "") "file"))] ++
      (if sourceUrl = "" then [] else [("source_url", .str sourceUrl)]) }

/-- _html_blocks_to_pages. -/
def htmlBlocksToPages (blocks : List HtmlBlock) (metadata : ExtractionInputMetadata)
    (htmlTitle : Option String) : List ExtractedPage :=
  let safeHtmlTitle := safeMetadataText (orText (htmlTitle.getD "") metadata.fileName)
  (blocks.filter fun block => cleanText block.text != "").map (htmlPage metadata safeHtmlTitle)

/-- HtmlExtractor.extract, the pages. -/
def extractHtml (maxElements : Nat) (events : List HtmlEvent) (metadata : ExtractionInputMetadata) :
    Except ExtractionError (List ExtractedPage) := do
  let p ← parseHtml maxElements events
  let pages := htmlBlocksToPages p.blocks metadata p.title
  if pages.any fun page => strip page.text.toList != [] then return pages
  else throw ⟨"empty_extracted_text", "Extracted text is empty."⟩

end Pages
end RagProject.Ingest
