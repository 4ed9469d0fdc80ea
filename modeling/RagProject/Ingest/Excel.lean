import RagProject.Ingest.Html
import RagProject.Lib.Batches
import RagProject.Lib.Markers

/-! The cells of an Excel workbook (ingest/extractors/office.py): rows and cells are read from the
sheets within the limits, cut into tables at missing rows, and the tables into pages. -/
namespace RagProject.Ingest
open Python Context Batches

/-- An element c, with the texts of its elements v and f and of the elements t under it. -/
structure CellElement where
  r : Option String
  t : Option String
  v : Option (Option String)
  f : Option (Option String)
  texts : List (Option String)
  deriving DecidableEq, Repr

structure RowElement where
  r : Option String
  cells : List CellElement
  deriving DecidableEq, Repr

/-- An element sheet, with the rows of the part that its relationship names, if it names one. -/
structure SheetElement where
  name : Option String
  state : Option String
  rows : Option (List RowElement)
  deriving DecidableEq, Repr

/-- The sheets, and the texts of the elements t of each shared string. -/
structure Workbook where
  sheets : List SheetElement
  sharedStrings : List (List (Option String))
  deriving DecidableEq, Repr

structure OfficeLimits where
  maxPages : Nat
  maxRowsPerSheet : Nat
  maxCells : Nat
  rowsPerChunk : Nat
  some_page : 1 ≤ maxPages
  some_row : 1 ≤ maxRowsPerSheet
  some_cell : 1 ≤ maxCells
  some_chunk : 1 ≤ rowsPerChunk

structure SheetRef where
  name : String
  rows : List RowElement
  state : Option String
  deriving DecidableEq, Repr

structure Cell where
  row : Nat
  column : Nat
  value : String
  deriving DecidableEq, Repr

/-- The rows that a page is made of. -/
structure SheetWindow where
  sheetName : String
  sheetIndex : Nat
  tableIndex : Nat
  rows : List (Nat × List Cell)
  deriving DecidableEq, Repr

section Values

/-- The texts that are not None and not empty. -/
def textRuns (texts : List (Option String)) : List String := (texts.filterMap id).filter (· ≠ "")

def textNodes (texts : List (Option String)) : String := joinTexts " " (textRuns texts)

def safeText (value : String) : String := String.ofList ((cleanText value).toList.take 500)

/-- value or None. -/
def shownText (value : String) : Option String := if value = "" then none else some value

def sharedStringValues (workbook : Workbook) : List String :=
  workbook.sharedStrings.map fun item => safeText (textNodes item)

/-- index or default. -/
def indexOr (index : Option Nat) (default : Nat) : Nat :=
  match index with
  | some (n + 1) => n + 1
  | _ => default

def columnIndexFromCellRef (cellRef : String) : Option Nat :=
  let letters := cellRef.toList.takeWhile Char.isUpper
  let rest := cellRef.toList.drop letters.length
  let digits := rest.takeWhile Char.isDigit
  let ending := rest.drop digits.length
  -- The $ of the pattern leaves out a line break at the end.
  if letters ≠ [] ∧ digits ≠ [] ∧ (ending = [] ∨ ending = ['\n']) then
    some (letters.foldl (fun column char => column * 26 + char.toNat - 'A'.toNat + 1) 0)
  else none

/-- The loop of _column_label, of at most as many rounds as the first argument says. -/
def columnLetters : Nat → Nat → List Char → List Char
  | 0, _, label => label
  | rounds + 1, current, label =>
    if current = 0 then label
    else
      columnLetters rounds ((current - 1) / 26)
        (Char.ofNat ('A'.toNat + (current - 1) % 26) :: label)

def columnLabel (index : Nat) : String :=
  if index < 1 then "?" else String.ofList (columnLetters index index [])

variable [DigitTables]

/-- The digits that int takes: one underscore may stand between two of them. -/
def intDigits (text : List Char) : Option Nat :=
  let parts := text.splitOn '_'
  if parts.all fun part => part != [] && part.all isDecimal then some (intOf parts.flatten) else none

def safeInt (value : String) : Option Nat :=
  match strip value.toList with
  | '+' :: digits => intDigits digits
  | '-' :: digits => (intDigits digits).filter (· = 0)
  | digits => intDigits digits

def cellValue (sharedStrings : List String) (cellElement : CellElement) : Option String :=
  if cellElement.t = some "inlineStr" then
    shownText (safeText (safeText (textNodes cellElement.texts)))
  else
    match cellElement.v.join with
    | none => cellElement.f.join.bind fun formula => shownText (safeText formula)
    | some value =>
      let value :=
        if cellElement.t = some "s" then ((safeInt value).bind (sharedStrings[·]?)).getD ""
        else if cellElement.t = some "b" then if value = "1" then "TRUE" else "FALSE"
        else value
      shownText (safeText value)

end Values

section Rows
variable [DigitTables] (sharedStrings : List String)

/-- The cells of a row. -/
def readCells (maxCells rowNumber : Nat) : List CellElement → List Cell → Nat → List Cell × Nat
  | [], cells, totalCells => (cells, totalCells)
  | cellElement :: rest, cells, totalCells =>
    if maxCells ≤ totalCells then (cells, totalCells)
    else
      match cellValue sharedStrings cellElement with
      | none => readCells maxCells rowNumber rest cells totalCells
      | some value =>
        -- Without a reference the cells kept so far are counted, and not the cells of the row.
        let columnIndex :=
          indexOr (columnIndexFromCellRef (cellElement.r.getD "")) (cells.length + 1)
        readCells maxCells rowNumber rest (cells ++ [⟨rowNumber, columnIndex, value⟩])
          (totalCells + 1)

/-- The rows of a sheet. -/
def readRows (maxRows maxCells : Nat) :
    List RowElement → List (Nat × List Cell) → Nat → List (Nat × List Cell) × Nat
  | [], rows, totalCells => (rows, totalCells)
  | rowElement :: rest, rows, totalCells =>
    if maxRows ≤ rows.length ∨ maxCells ≤ totalCells then (rows, totalCells)
    else
      let rowNumber := indexOr (rowElement.r.bind safeInt) (rows.length + 1)
      let (cells, totalCells) :=
        readCells sharedStrings maxCells rowNumber rowElement.cells [] totalCells
      readRows maxRows maxCells rest (if cells = [] then rows else rows ++ [(rowNumber, cells)])
        totalCells

omit [DigitTables]

/-- The windows that _row_group_pages makes pages of. -/
def rowGroupWindows (sheet : SheetRef) (sheetIndex rowsPerChunk tableIndex : Nat)
    (rows : List (Nat × List Cell)) : List SheetWindow :=
  (batches rowsPerChunk rows).map fun window => ⟨sheet.name, sheetIndex, tableIndex, window⟩

/-- The loop of _sheet_rows_to_pages, with what a group of rows becomes. -/
def groupRows (pagesOf : Nat → List (Nat × List Cell) → List SheetWindow) :
    List (Nat × List Cell) → Nat → List (Nat × List Cell) → Option Nat → List SheetWindow
  | [], tableIndex, currentGroup, _ => pagesOf tableIndex currentGroup
  | row :: rest, tableIndex, currentGroup, previousRow =>
    if previousRow.any fun previous => previous + 1 < row.1 then
      pagesOf tableIndex currentGroup ++ groupRows pagesOf rest (tableIndex + 1) [row] (some row.1)
    else groupRows pagesOf rest tableIndex (currentGroup ++ [row]) (some row.1)

def sheetRowsToWindows (sheet : SheetRef) (sheetIndex rowsPerChunk : Nat)
    (rows : List (Nat × List Cell)) : List SheetWindow :=
  groupRows (rowGroupWindows sheet sheetIndex rowsPerChunk) rows 1 [] none

end Rows

namespace SheetWindow

def cells (window : SheetWindow) : List Cell := window.rows.flatMap Prod.snd

def rowNumbers (window : SheetWindow) : List Nat := window.rows.map Prod.fst

def columnNumbers (window : SheetWindow) : List Nat := window.cells.map Cell.column

/-- min(numbers) and max(numbers), of some numbers. -/
def least (numbers : List Nat) : Nat := numbers.min?.getD 0

def greatest (numbers : List Nat) : Nat := numbers.max?.getD 0

def rowLine (row : Nat × List Cell) : String :=
  "R" ++ toString row.1 ++ ": " ++
    joinTexts " | " (row.2.map fun cell => columnLabel cell.column ++ "=" ++ cell.value)

def lines (window : SheetWindow) : List String :=
  ["Sheet: " ++ window.sheetName,
    "Rows: " ++ toString (least window.rowNumbers) ++ "-" ++
      toString (greatest window.rowNumbers)] ++
    window.rows.map rowLine

/-- The page of a window. -/
def page (window : SheetWindow) : ExtractedPage where
  text := joinTexts "\n" window.lines
  pageNumber := none
  sectionTitle := some ("Sheet: " ++ window.sheetName)
  metadata :=
    [("parent_child_schema_version", .str "phase2.parent_child.v1"),
      ("structure_type", .str "excel_sheet"),
      ("chunk_level", .str "child"),
      ("parent_chunk_key", .str ("xlsx:sheet:" ++ toString window.sheetIndex)),
      ("parent_title", .str window.sheetName),
      ("sheet_name", .str window.sheetName),
      ("row_from", .int (least window.rowNumbers)),
      ("row_to", .int (greatest window.rowNumbers)),
      ("column_from", .int (least window.columnNumbers)),
      ("column_to", .int (greatest window.columnNumbers)),
      ("table_index", .int window.tableIndex)]

end SheetWindow

section Sheets
variable [DigitTables] (limits : OfficeLimits) (workbook : Workbook)

/-- The name that a sheet is listed under; without one it is left out. -/
def sheetName (sheet : SheetElement) : String := safeMetadataText (orText (sheet.name.getD "") "Sheet")

def workbookSheets : List SheetRef :=
  workbook.sheets.filterMap fun sheet => do
    let rows ← sheet.rows
    if sheetName sheet = "" then none else some ⟨sheetName sheet, rows, sheet.state⟩

/-- state in {None, "visible"}. -/
def visibleState (state : Option String) : Bool := state.all (· == "visible")

/-- _extract_sheet_pages: the windows of a sheet, and how many cells it gave. -/
def extractSheetPages (sharedStrings : List String) (sheet : SheetRef)
    (sheetIndex maxCells : Nat) : List SheetWindow × Nat :=
  if maxCells < 1 then ([], 0)
  else
    let (rows, totalCells) :=
      readRows sharedStrings limits.maxRowsPerSheet maxCells sheet.rows [] 0
    (sheetRowsToWindows sheet sheetIndex limits.rowsPerChunk rows, totalCells)

/-- The loop over the sheets. -/
def extractSheets (sharedStrings : List String) :
    List (SheetRef × Nat) → List SheetWindow → Nat → List SheetWindow
  | [], pages, _ => pages
  | (sheet, sheetIndex) :: rest, pages, totalCells =>
    if visibleState sheet.state then
      let (sheetPages, cellCount) :=
        extractSheetPages limits sharedStrings sheet sheetIndex (limits.maxCells - totalCells)
      let pages := pages ++ sheetPages
      let totalCells := totalCells + cellCount
      -- The cells are used up before the pages are counted.
      if limits.maxCells ≤ totalCells then pages
      else if limits.maxPages ≤ pages.length then pages.take limits.maxPages
      else extractSheets sharedStrings rest pages totalCells
    else extractSheets sharedStrings rest pages totalCells

def workbookWindows : List SheetWindow :=
  extractSheets limits (sharedStringValues workbook) ((workbookSheets workbook).zipIdx 1) [] 0

/-- ExcelExtractor.extract, the pages. -/
def extractExcel : Except ExtractionError (List ExtractedPage) :=
  let pages := (workbookWindows limits workbook).map SheetWindow.page
  if pages.any fun page => strip page.text.toList != [] then .ok pages
  else .error ⟨"empty_extracted_text", "Extracted text is empty."⟩

end Sheets
end RagProject.Ingest
