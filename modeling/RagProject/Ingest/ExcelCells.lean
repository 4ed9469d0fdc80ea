import Mathlib.Algebra.GroupWithZero.Nat
import Mathlib.Order.Bounds.Defs
import RagProject.Context.RedactedAgain
import RagProject.Ingest.Excel
import RagProject.Lib.Seams

/-! The cells that a workbook has before the limits, and where its pages show them. -/
namespace RagProject.Ingest
open Python Context Batches

/-- A cell with a text: its own column, and the number of such cells before it in its row. -/
structure CellMark where
  given : Bool
  column : Nat
  before : Nat
  element : CellElement
  deriving DecidableEq, Repr

/-- A row with such cells: its own number, and the number of such rows before it in its sheet. -/
structure RowMark where
  given : Bool
  row : Nat
  before : Nat
  cells : List CellMark
  deriving DecidableEq, Repr

/-- A visible sheet, and its place among the listed sheets. -/
structure SheetMark where
  index : Option Nat
  sheet : SheetRef
  rows : List RowMark
  deriving DecidableEq, Repr

section Survey
variable [DigitTables] (workbook : Workbook)

/-- The runs of the text of a cell. -/
def cellRuns (cellElement : CellElement) : List String :=
  if cellElement.t = some "inlineStr" then textRuns cellElement.texts
  else
    match cellElement.v.join with
    | none => cellElement.f.join.toList
    | some value =>
      if cellElement.t = some "s" then
        ((safeInt value).bind (workbook.sharedStrings[·]?)).elim [] textRuns
      else if cellElement.t = some "b" then [if value = "1" then "TRUE" else "FALSE"]
      else [value]

omit [DigitTables] in
def columnAfter (previous : Nat) : Option String → Nat
  | some cellRef => (columnIndexFromCellRef cellRef).getD 0
  | none => previous + 1

def rowAfter (previous : Nat) : Option String → Nat
  | some rowRef => (safeInt rowRef).getD 0
  | none => previous + 1

/-- The cells of a row with a text, after some such cells and a last column. -/
def surveyCells : Nat → Nat → List CellElement → List CellMark
  | _, _, [] => []
  | before, previous, cellElement :: rest =>
    let column := columnAfter previous cellElement.r
    if (cellRuns workbook cellElement).flatMap textWords = [] then surveyCells before column rest
    else ⟨cellElement.r.isSome, column, before, cellElement⟩ :: surveyCells (before + 1) column rest

/-- The rows of a sheet with such cells, after some such rows and a last row. -/
def surveyRows : Nat → Nat → List RowElement → List RowMark
  | _, _, [] => []
  | before, previous, rowElement :: rest =>
    let row := rowAfter previous rowElement.r
    let cells := surveyCells workbook 0 0 rowElement.cells
    if cells = [] then surveyRows before row rest
    else ⟨rowElement.r.isSome, row, before, cells⟩ :: surveyRows (before + 1) row rest

/-- The visible sheets of a workbook, after some listed sheets. A sheet with a blank name is not
listed. -/
def surveySheets : Nat → List SheetElement → List SheetMark
  | _, [] => []
  | listed, sheet :: rest =>
    match sheet.rows with
    | none => surveySheets listed rest
    | some rows =>
      let next := if sheetName sheet = "" then listed else listed + 1
      let index := if sheetName sheet = "" then none else some (listed + 1)
      (if visibleState sheet.state then
        [⟨index, ⟨sheetName sheet, rows, sheet.state⟩, surveyRows workbook 0 0 rows⟩] else []) ++
        surveySheets next rest

omit [DigitTables] in
/-- The first cells of some rows. -/
def cutRows : Nat → List RowMark → List RowMark
  | _, [] => []
  | cells, row :: rows =>
    if cells = 0 then []
    else { row with cells := row.cells.take cells } :: cutRows (cells - row.cells.length) rows

omit [DigitTables] in
def cellCount (rows : List RowMark) : Nat := (rows.map fun row => row.cells.length).sum

omit [DigitTables] in
/-- The first rows of each sheet, and the first cells of these. -/
def cutSheets (maxRows : Nat) : Nat → List SheetMark → List SheetMark
  | _, [] => []
  | cells, sheet :: sheets =>
    let rows := cutRows cells (sheet.rows.take maxRows)
    { sheet with rows := rows } :: cutSheets maxRows (cells - cellCount rows) sheets

/-- What precedes the limits. -/
def shownSheets (limits : OfficeLimits) : List SheetMark :=
  cutSheets limits.maxRowsPerSheet limits.maxCells (surveySheets workbook 0 workbook.sheets)

/-- Columns increase in a row, and references are well formed. -/
def CellsInOrder : Nat → List CellElement → Prop
  | _, [] => True
  | previous, cellElement :: rest =>
    previous < columnAfter previous cellElement.r ∧
      CellsInOrder (columnAfter previous cellElement.r) rest

/-- Rows increase in a sheet, and references are well formed. -/
def RowsInOrder : Nat → List RowElement → Prop
  | _, [] => True
  | previous, rowElement :: rest =>
    previous < rowAfter previous rowElement.r ∧ CellsInOrder 0 rowElement.cells ∧
      RowsInOrder (rowAfter previous rowElement.r) rest

def Workbook.InOrder : Prop :=
  ∀ sheet ∈ workbook.sheets, ∀ rows ∈ sheet.rows, RowsInOrder 0 rows

omit [DigitTables] in
instance decideCells : ∀ previous elements, Decidable (CellsInOrder previous elements)
  | _, [] => .isTrue trivial
  | previous, element :: rest =>
    haveI := decideCells (columnAfter previous element.r) rest
    inferInstanceAs (Decidable (_ ∧ _))

instance decideRows : ∀ previous elements, Decidable (RowsInOrder previous elements)
  | _, [] => .isTrue trivial
  | previous, element :: rest =>
    haveI := decideRows (rowAfter previous element.r) rest
    inferInstanceAs (Decidable (_ ∧ _ ∧ _))

instance : Decidable workbook.InOrder :=
  inferInstanceAs (Decidable (∀ _ ∈ _, ∀ _ ∈ _, _))

end Survey

section Specification

/-- A cell as a page shows it, or as it should. -/
structure PlacedCell where
  sheetIndex : Option Nat
  row : Nat
  column : String
  words : List (List Char)
  deriving DecidableEq, Repr

/-- A cell that precedes the limits, with its row. -/
structure Mark where
  index : Option Nat
  row : RowMark
  cell : CellMark
  deriving DecidableEq, Repr

variable [DigitTables] (limits : OfficeLimits) (workbook : Workbook)

omit [DigitTables] in
def marksOf (sheets : List SheetMark) : List Mark :=
  sheets.flatMap fun sheet => sheet.rows.flatMap fun row => row.cells.map fun cell =>
    ⟨sheet.index, row, cell⟩

def shownMarks : List Mark := marksOf (shownSheets workbook limits)

omit [DigitTables] in
/-- The characters of a run; a NUL counts as a blank. -/
def runChars (run : String) : List Char := run.toList.map fun c => if c = '\x00' then ' ' else c

omit [DigitTables] in
/-- The concatenation of runs. -/
def concatRuns (runs : List String) : String := String.ofList (runs.map String.toList).flatten

/-- A cell at its own place with its own words. -/
def Mark.expected (mark : Mark) : PlacedCell :=
  ⟨mark.index, mark.row.row, columnLabel mark.cell.column,
    textWords (safeText (concatRuns (cellRuns workbook mark.cell.element)))⟩

omit [DigitTables] in
/-- The cells of a window as its page shows them. -/
def SheetWindow.placed (window : SheetWindow) : List PlacedCell :=
  window.rows.flatMap fun row => row.2.map fun cell =>
    ⟨some window.sheetIndex, row.1, columnLabel cell.column, textWords cell.value⟩

omit [DigitTables] in
/-- The exact bounds of the cells of a page. -/
structure SheetWindow.Bounded (window : SheetWindow) : Prop where
  rowFrom : ∃ n : Nat, Dict.get window.page.metadata "row_from" = some (.int n) ∧
    IsLeast {row | ∃ cell ∈ window.cells, cell.row = row} n
  rowTo : ∃ n : Nat, Dict.get window.page.metadata "row_to" = some (.int n) ∧
    IsGreatest {row | ∃ cell ∈ window.cells, cell.row = row} n
  columnFrom : ∃ n : Nat, Dict.get window.page.metadata "column_from" = some (.int n) ∧
    IsLeast {column | ∃ cell ∈ window.cells, cell.column = column} n
  columnTo : ∃ n : Nat, Dict.get window.page.metadata "column_to" = some (.int n) ∧
    IsGreatest {column | ∃ cell ∈ window.cells, cell.column = column} n

omit [DigitTables] in
/-- No row is missing between two windows. -/
def Adjacent (window next : SheetWindow) : Prop :=
  ∀ last ∈ window.rowNumbers.getLast?, ∀ first ∈ next.rowNumbers.head?, first = last + 1

omit [DigitTables] in
/-- The number of the table goes up by one at a gap, and stays otherwise. -/
def TableStep (window next : SheetWindow) : Prop :=
  window.sheetIndex = next.sheetIndex →
    (Adjacent window next ∧ next.tableIndex = window.tableIndex) ∨
      (¬ Adjacent window next ∧ next.tableIndex = window.tableIndex + 1)

/-- Every cell before the limits is in one place of one page, which is its own, and the pages are
what they say. -/
structure Extracted : Prop where
  placed : (workbookWindows limits workbook).flatMap SheetWindow.placed =
    (shownMarks limits workbook).map (Mark.expected workbook)
  pages : extractExcel limits workbook =
    if shownMarks limits workbook = [] then .error ⟨"empty_extracted_text", "Extracted text is empty."⟩
    else .ok ((workbookWindows limits workbook).map SheetWindow.page)
  rows : ∀ window ∈ workbookWindows limits workbook,
    window.rows.length ≤ limits.rowsPerChunk ∧ window.rowNumbers.IsChain fun a b => b = a + 1
  bounded : ∀ window ∈ workbookWindows limits workbook, window.Bounded
  tables : (workbookWindows limits workbook).IsChain TableStep
  fewPages : (workbookWindows limits workbook).length ≤ limits.maxPages
  fewCells : ((workbookWindows limits workbook).flatMap SheetWindow.cells).length ≤ limits.maxCells
  columns : ∀ column, 1 ≤ column → ∀ digits : String, digits ≠ "" →
    (∀ c ∈ digits.toList, c.isDigit) → columnIndexFromCellRef (columnLabel column ++ digits) = some column

omit [DigitTables] in
/-- The pages for rows with these numbers: tables end where a row is missing. -/
def pagesOfRows (rows : List Nat) : Nat :=
  ((rows.splitBy fun a b => b ≤ a + 1).map fun table =>
    (table.length + limits.rowsPerChunk - 1) / limits.rowsPerChunk).sum

def pagesNeeded : Nat :=
  ((shownSheets workbook limits).map fun sheet =>
    pagesOfRows limits (sheet.rows.map RowMark.row)).sum

/-- What the cells before the limits must be like. -/
structure Extractable : Prop where
  named : ∀ mark ∈ shownMarks limits workbook, mark.index ≠ none
  rows : ∀ mark ∈ shownMarks limits workbook,
    mark.row.given ∨ mark.row.row = mark.row.before + 1
  cells : ∀ mark ∈ shownMarks limits workbook,
    mark.cell.given ∨ mark.cell.column = mark.cell.before + 1
  runs : ∀ mark ∈ shownMarks limits workbook,
    Undivided 500 ((cellRuns workbook mark.cell.element).map runChars)
  pages : pagesNeeded limits workbook ≤ limits.maxPages

end Specification

section Reading

theorem safeText_words (value : String) :
    textWords (safeText value) = splitWords ((squeeze (runChars value)).take 500) := by
  have solid : ∀ c ∈ (squeeze (runChars value)).take 500, c ≠ '\x00' := by
    intro c member
    rcases join_chars (List.mem_of_mem_take member) with blank | ⟨w, inside, there⟩
    · rw [List.mem_singleton.mp blank]
      decide
    · exact textWords_solid inside c there
  have kept : ((squeeze (runChars value)).take 500).map (fun c => if c = '\x00' then ' ' else c) =
      (squeeze (runChars value)).take 500 := by
    rw [List.map_congr_left fun c member => if_neg (solid c member), List.map_id']
  have shape : (safeText value).toList = (squeeze (runChars value)).take 500 := by
    unfold safeText
    rw [String.toList_ofList, cleanText_eq, String.toList_ofList]
    rfl
  unfold textWords
  rw [shape, kept]

theorem textWords_chars (value : String) : textWords value = splitWords (runChars value) := rfl

theorem safeText_blank {value : String} : textWords (safeText value) = [] ↔ textWords value = [] := by
  rw [safeText_words, textWords_chars]
  constructor
  · intro none
    by_contra shows
    obtain ⟨c, member, solid⟩ : ∃ c ∈ runChars value, isSpace c = false := by
      by_contra all
      refine shows (splitWords_eq_nil.mpr fun c member => ?_)
      by_contra solid
      exact all ⟨c, member, by simpa using solid⟩
    obtain ⟨⟨d, first, graphic⟩, _⟩ := squeeze_ends solid member
    have kept : d ∈ (squeeze (runChars value)).take 500 := by
      obtain ⟨rest, shape⟩ := List.head?_eq_some_iff.mp first
      rw [shape]
      exact List.mem_cons_self
    exact splitWords_solid graphic kept none
  · intro none
    unfold squeeze
    rw [none]
    rfl

theorem safeText_again (value : String) :
    textWords (safeText (safeText value)) = textWords (safeText value) := by
  have short : (squeeze (runChars (safeText value))).length ≤ 500 := by
    refine Nat.le_trans (join_split_length _).1 ?_
    unfold runChars safeText
    rw [List.length_map, String.toList_ofList, List.length_take]
    exact Nat.min_le_left _ _
  rw [safeText_words (safeText value), List.take_of_length_le short, textWords_chars]
  exact splitWords_join fun w member => word_of_split member

theorem safeText_empty {value : String} : safeText value = "" ↔ textWords value = [] := by
  rw [← safeText_blank]
  constructor
  · intro none
    rw [none]
    rfl
  · intro none
    rw [safeText_blank, ← cleanText_empty] at none
    unfold safeText
    rw [none]
    rfl

/-- A value that is read from runs: none without a word. -/
structure ReadFrom (runs : List String) (value : Option String) : Prop where
  blank : runs.flatMap textWords = [] → value = none
  shows : runs.flatMap textWords ≠ [] →
    ∃ text ∈ value, textWords text = textWords (safeText (joinTexts " " runs))

theorem readFrom_once (runs : List String) : ReadFrom runs (shownText (safeText (joinTexts " " runs))) := by
  constructor
  · intro none
    rw [← textWords_blanks] at none
    exact if_pos (safeText_empty.mpr none)
  · intro shows
    rw [← textWords_blanks] at shows
    exact ⟨_, if_neg fun empty => shows (safeText_empty.mp empty), rfl⟩

theorem readFrom_twice (runs : List String) :
    ReadFrom runs (shownText (safeText (safeText (joinTexts " " runs)))) := by
  constructor
  · intro none
    rw [← textWords_blanks] at none
    exact if_pos (safeText_empty.mpr (safeText_blank.mpr none))
  · intro shows
    rw [← textWords_blanks] at shows
    exact ⟨_, if_neg fun empty => shows (safeText_blank.mp (safeText_empty.mp empty)),
      safeText_again _⟩

theorem joinTexts_single (separator text : String) : joinTexts separator [text] = text := by
  unfold joinTexts
  rw [List.map_singleton, join, String.ofList_toList]

theorem cellValue_runs [DigitTables] (workbook : Workbook) (cellElement : CellElement) :
    ReadFrom (cellRuns workbook cellElement)
      (cellValue (sharedStringValues workbook) cellElement) := by
  have single (text : String) : ReadFrom [text] (shownText (safeText text)) := by
    have known := readFrom_once [text]
    rwa [joinTexts_single] at known
  unfold cellRuns cellValue
  by_cases inlined : cellElement.t = some "inlineStr"
  · rw [if_pos inlined, if_pos inlined]
    exact readFrom_twice _
  · rw [if_neg inlined, if_neg inlined]
    cases cellElement.v.join with
    | none =>
      cases cellElement.f.join with
      | none => exact ⟨fun _ => rfl, fun shows => absurd rfl shows⟩
      | some formula =>
        rw [Option.toList_some, Option.bind_some]
        exact single formula
    | some value =>
      simp only
      by_cases shared : cellElement.t = some "s"
      · rw [if_pos shared, if_pos shared]
        cases found : (safeInt value).bind (workbook.sharedStrings[·]?) with
        | none =>
          have missing : (safeInt value).bind ((sharedStringValues workbook)[·]?) = none := by
            cases index : safeInt value with
            | none => rfl
            | some n =>
              rw [index, Option.bind_some] at found
              rw [Option.bind_some, sharedStringValues, List.getElem?_map, found]
              rfl
          rw [missing]
          exact ⟨fun _ => rfl, fun shows => absurd rfl shows⟩
        | some item =>
          have there : (safeInt value).bind ((sharedStringValues workbook)[·]?) =
              some (safeText (textNodes item)) := by
            cases index : safeInt value with
            | none =>
              rw [index] at found
              cases found
            | some n =>
              rw [index, Option.bind_some] at found
              rw [Option.bind_some, sharedStringValues, List.getElem?_map, found]
              rfl
          rw [there]
          exact readFrom_twice _
      · rw [if_neg shared, if_neg shared]
        by_cases boolean : cellElement.t = some "b"
        · rw [if_pos boolean, if_pos boolean]
          exact single _
        · rw [if_neg boolean, if_neg boolean]
          exact single value

end Reading
section Loops
variable [DigitTables] (workbook : Workbook)

omit [DigitTables] in
/-- The column that a cell is given. -/
def CellMark.number (mark : CellMark) : Nat := if mark.given then mark.column else mark.before + 1

def CellMark.cell (row : Nat) (mark : CellMark) : Cell :=
  ⟨row, mark.number, (cellValue (sharedStringValues workbook) mark.element).getD ""⟩

omit [DigitTables] in
/-- The number that a row is given. -/
def RowMark.number (mark : RowMark) : Nat := if mark.given then mark.row else mark.before + 1

def RowMark.read (mark : RowMark) : Nat × List Cell :=
  (mark.number, mark.cells.map (CellMark.cell workbook mark.number))

omit [DigitTables] in
theorem indexOr_positive {index : Option Nat} {default : Nat} (positive : 0 < index.getD 0) :
    indexOr index default = index.getD 0 := by
  cases index with
  | none => cases positive
  | some n =>
    cases n with
    | zero => cases positive
    | succ n => rfl

omit [DigitTables] in
theorem column_number {previous before : Nat} {cellElement : CellElement}
    (inOrder : previous < columnAfter previous cellElement.r) :
    indexOr (columnIndexFromCellRef (cellElement.r.getD "")) (before + 1) =
      (CellMark.mk cellElement.r.isSome (columnAfter previous cellElement.r) before
        cellElement).number := by
  unfold CellMark.number
  cases given : cellElement.r with
  | none => rfl
  | some cellRef =>
    rw [given] at inOrder
    exact indexOr_positive (Nat.zero_lt_of_lt inOrder)

theorem row_number {previous before : Nat} {rowElement : RowElement} (cells : List CellMark)
    (inOrder : previous < rowAfter previous rowElement.r) :
    indexOr (rowElement.r.bind safeInt) (before + 1) =
      (RowMark.mk rowElement.r.isSome (rowAfter previous rowElement.r) before cells).number := by
  unfold RowMark.number
  cases given : rowElement.r with
  | none => rfl
  | some rowRef =>
    rw [given] at inOrder
    exact indexOr_positive (Nat.zero_lt_of_lt inOrder)

theorem readCells_survey (maxCells row : Nat) (elements : List CellElement) (previous : Nat)
    (cells : List Cell) (total : Nat) (inOrder : CellsInOrder previous elements) :
    readCells (sharedStringValues workbook) maxCells row elements cells total =
      (cells ++ ((surveyCells workbook cells.length previous elements).take (maxCells - total)).map
          (CellMark.cell workbook row),
        total + ((surveyCells workbook cells.length previous elements).take
          (maxCells - total)).length) := by
  induction elements generalizing previous cells total with
  | nil => simp [readCells, surveyCells]
  | cons element elements ih =>
    obtain ⟨later, inOrder⟩ := inOrder
    rw [readCells, surveyCells]
    by_cases used : maxCells ≤ total
    · rw [if_pos used, Nat.sub_eq_zero_of_le used]
      simp
    · rw [if_neg used]
      obtain ⟨blank, shows⟩ := cellValue_runs workbook element
      by_cases none : (cellRuns workbook element).flatMap textWords = []
      · rw [blank none, if_pos none]
        exact ih _ _ _ inOrder
      · obtain ⟨text, known, _⟩ := shows none
        obtain ⟨room, left⟩ : ∃ room, maxCells - total = room + 1 := ⟨maxCells - total - 1, by omega⟩
        have rest : maxCells - (total + 1) = room := by omega
        rw [known, if_neg none, left, List.take_succ_cons]
        simp only
        rw [ih (columnAfter previous element.r) _ _ inOrder, List.length_append,
          List.length_singleton, rest, column_number later]
        have first : CellMark.cell workbook row
            ⟨element.r.isSome, columnAfter previous element.r, cells.length, element⟩ =
            ⟨row, (CellMark.mk element.r.isSome (columnAfter previous element.r) cells.length
              element).number, text⟩ := by
          unfold CellMark.cell
          rw [known]
          rfl
        rw [List.map_cons, first, List.length_cons, List.append_assoc, List.singleton_append]
        congr 1
        omega

theorem surveyRows_shows {before previous : Nat} {elements : List RowElement} {row : RowMark}
    (member : row ∈ surveyRows workbook before previous elements) : row.cells ≠ [] := by
  induction elements generalizing before previous with
  | nil => cases member
  | cons element elements ih =>
    rw [surveyRows] at member
    by_cases none : surveyCells workbook 0 0 element.cells = []
    · rw [if_pos none] at member
      exact ih member
    · rw [if_neg none] at member
      rcases List.mem_cons.mp member with rfl | later
      · exact none
      · exact ih later

theorem readRows_survey (maxRows maxCells : Nat) (elements : List RowElement) (previous : Nat)
    (rows : List (Nat × List Cell)) (total : Nat) (inOrder : RowsInOrder previous elements) :
    readRows (sharedStringValues workbook) maxRows maxCells elements rows total =
      (rows ++ (cutRows (maxCells - total)
          ((surveyRows workbook rows.length previous elements).take (maxRows - rows.length))).map
          (RowMark.read workbook),
        total + cellCount (cutRows (maxCells - total)
          ((surveyRows workbook rows.length previous elements).take (maxRows - rows.length)))) := by
  induction elements generalizing previous rows total with
  | nil => simp [readRows, surveyRows, cutRows, cellCount]
  | cons element elements ih =>
    obtain ⟨later, inside, inOrder⟩ := inOrder
    rw [readRows, surveyRows]
    by_cases stop : maxRows ≤ rows.length ∨ maxCells ≤ total
    · have nothing (survey : List RowMark) :
          cutRows (maxCells - total) (survey.take (maxRows - rows.length)) = [] := by
        rcases stop with full | used
        · rw [Nat.sub_eq_zero_of_le full, List.take_zero, cutRows]
        · rw [Nat.sub_eq_zero_of_le used]
          cases survey.take (maxRows - rows.length) <;> rfl
      rw [if_pos stop, nothing]
      simp [cellCount]
    · rw [if_neg stop]
      dsimp only
      rw [readCells_survey workbook _ _ _ 0 [] total inside,
        row_number (surveyCells workbook 0 0 element.cells) later]
      simp only [List.nil_append, List.length_nil]
      generalize surveyCells workbook 0 0 element.cells = survey
      obtain ⟨room, left⟩ : ∃ room, maxRows - rows.length = room + 1 :=
        ⟨maxRows - rows.length - 1, by omega⟩
      obtain ⟨budget, cells⟩ : ∃ budget, maxCells - total = budget + 1 :=
        ⟨maxCells - total - 1, by omega⟩
      by_cases none : survey = []
      · simp only [none, List.take_nil, List.map_nil, if_true, List.length_nil, Nat.add_zero]
        exact ih _ _ _ inOrder
      · have some_cell : (survey.take (maxCells - total)).map (CellMark.cell workbook
            (RowMark.mk element.r.isSome (rowAfter previous element.r) rows.length survey).number) ≠
            [] := by
          obtain ⟨mark, rest, rfl⟩ := List.exists_cons_of_ne_nil none
          simp [cells]
        have fewer : maxCells - (total + (survey.take (maxCells - total)).length) =
            maxCells - total - survey.length := by
          rw [List.length_take]
          omega
        have others : maxRows - (rows.length + 1) = room := by omega
        rw [if_neg some_cell, if_neg none, ih (rowAfter previous element.r) _ _ inOrder,
          List.length_append, List.length_singleton, fewer, others, left, List.take_succ_cons,
          cutRows, if_neg (by omega)]
        simp [cellCount, RowMark.read, RowMark.number, Nat.add_assoc]

end Loops
end RagProject.Ingest
