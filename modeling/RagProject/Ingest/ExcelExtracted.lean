import RagProject.Ingest.ExcelPages

/-! Every cell before the limits is on one page at its own place exactly when no position was
counted over a gap, no run ends within a word and the pages are enough. -/
namespace RagProject.Ingest
open Python Context Batches

section Marks
variable [DigitTables] {limits : OfficeLimits} {workbook : Workbook}

theorem surveyCells_mark {before previous : Nat} {elements : List CellElement} {mark : CellMark}
    (inOrder : CellsInOrder previous elements)
    (member : mark ∈ surveyCells workbook before previous elements) :
    1 ≤ mark.column ∧ (cellRuns workbook mark.element).flatMap textWords ≠ [] := by
  induction elements generalizing before previous with
  | nil => cases member
  | cons element elements ih =>
    obtain ⟨later, inOrder⟩ := inOrder
    rw [surveyCells] at member
    by_cases none : (cellRuns workbook element).flatMap textWords = []
    · rw [if_pos none] at member
      exact ih inOrder member
    · rw [if_neg none] at member
      rcases List.mem_cons.mp member with rfl | rest
      · exact ⟨Nat.zero_lt_of_lt later, none⟩
      · exact ih inOrder rest

theorem surveyRows_mark {before previous : Nat} {elements : List RowElement} {row : RowMark}
    (inOrder : RowsInOrder previous elements)
    (member : row ∈ surveyRows workbook before previous elements) :
    previous < row.row ∧ ∀ mark ∈ row.cells,
      1 ≤ mark.column ∧ (cellRuns workbook mark.element).flatMap textWords ≠ [] := by
  induction elements generalizing before previous with
  | nil => cases member
  | cons element elements ih =>
    obtain ⟨later, inside, inOrder⟩ := inOrder
    rw [surveyRows] at member
    by_cases none : surveyCells workbook 0 0 element.cells = []
    · rw [if_pos none] at member
      obtain ⟨above, cells⟩ := ih inOrder member
      exact ⟨Nat.lt_trans later above, cells⟩
    · rw [if_neg none] at member
      rcases List.mem_cons.mp member with rfl | rest
      · exact ⟨later, fun mark there => surveyCells_mark inside there⟩
      · obtain ⟨above, cells⟩ := ih inOrder rest
        exact ⟨Nat.lt_trans later above, cells⟩

theorem surveyRows_increasing {before previous : Nat} {elements : List RowElement}
    (inOrder : RowsInOrder previous elements) :
    ((surveyRows workbook before previous elements).map RowMark.row).Pairwise (· < ·) := by
  induction elements generalizing before previous with
  | nil => exact .nil
  | cons element elements ih =>
    obtain ⟨_, _, inOrder⟩ := inOrder
    rw [surveyRows]
    by_cases none : surveyCells workbook 0 0 element.cells = []
    · rw [if_pos none]
      exact ih inOrder
    · rw [if_neg none, List.map_cons, List.pairwise_cons]
      refine ⟨fun row member => ?_, ih inOrder⟩
      obtain ⟨mark, inside, rfl⟩ := List.mem_map.mp member
      exact (surveyRows_mark inOrder inside).1

omit [DigitTables] in
theorem cutRows_front (cells : Nat) (rows : List RowMark) :
    (cutRows cells rows).map RowMark.row <+: rows.map RowMark.row := by
  induction rows generalizing cells with
  | nil => exact List.nil_prefix
  | cons row rows ih =>
    rw [cutRows]
    split
    · exact List.nil_prefix
    · exact (List.prefix_cons_inj _).mpr (ih _)

omit [DigitTables] in
theorem cutRows_row {cells : Nat} {rows : List RowMark} {row : RowMark}
    (member : row ∈ cutRows cells rows) :
    ∃ whole ∈ rows, ∃ n, row = { whole with cells := whole.cells.take (n + 1) } := by
  induction rows generalizing cells with
  | nil => cases member
  | cons first rows ih =>
    rw [cutRows] at member
    split at member
    · cases member
    · rcases List.mem_cons.mp member with rfl | later
      · exact ⟨first, List.mem_cons_self, cells - 1, by rw [Nat.sub_add_cancel (by omega)]⟩
      · obtain ⟨whole, inside, shape⟩ := ih later
        exact ⟨whole, List.mem_cons_of_mem _ inside, shape⟩

omit [DigitTables] in
theorem cutRows_count (cells : Nat) (rows : List RowMark) : cellCount (cutRows cells rows) ≤ cells := by
  induction rows generalizing cells with
  | nil => exact Nat.zero_le _
  | cons row rows ih =>
    rw [cutRows]
    split
    · exact Nat.zero_le _
    · have rest := ih (cells - row.cells.length)
      simp only [cellCount, List.map_cons, List.sum_cons, List.length_take] at rest ⊢
      omega

omit [DigitTables] in
theorem cutSheets_sheet {maxRows cells : Nat} {sheets : List SheetMark} {sheet : SheetMark}
    (member : sheet ∈ cutSheets maxRows cells sheets) :
    ∃ whole ∈ sheets, ∃ n, sheet = { whole with rows := cutRows n (whole.rows.take maxRows) } := by
  induction sheets generalizing cells with
  | nil => cases member
  | cons first sheets ih =>
    rw [cutSheets] at member
    rcases List.mem_cons.mp member with rfl | later
    · exact ⟨first, List.mem_cons_self, cells, rfl⟩
    · obtain ⟨whole, inside, shape⟩ := ih later
      exact ⟨whole, List.mem_cons_of_mem _ inside, shape⟩

omit [DigitTables] in
theorem cutSheets_count (maxRows cells : Nat) (sheets : List SheetMark) :
    (marksOf (cutSheets maxRows cells sheets)).length ≤ cells := by
  induction sheets generalizing cells with
  | nil => exact Nat.zero_le _
  | cons sheet sheets ih =>
    rw [cutSheets]
    have rest := ih (cells - cellCount (cutRows cells (sheet.rows.take maxRows)))
    have first := cutRows_count cells (sheet.rows.take maxRows)
    have count (rows : List RowMark) : (rows.flatMap fun row => row.cells.map fun cell =>
        Mark.mk sheet.index row cell).length = cellCount rows := by
      simp [cellCount, List.length_flatMap]
    unfold marksOf at rest ⊢
    rw [List.flatMap_cons, List.length_append, count]
    dsimp only
    omega

omit [DigitTables] in
theorem cutSheets_index (maxRows cells : Nat) (sheets : List SheetMark) :
    (cutSheets maxRows cells sheets).map SheetMark.index = sheets.map SheetMark.index := by
  induction sheets generalizing cells with
  | nil => rfl
  | cons sheet sheets ih => rw [cutSheets, List.map_cons, List.map_cons, ih]

theorem surveySheets_sheet {listed : Nat} {sheets : List SheetElement} {mark : SheetMark}
    (member : mark ∈ surveySheets workbook listed sheets) :
    ∃ sheet ∈ sheets, ∃ rows ∈ sheet.rows, mark.rows = surveyRows workbook 0 0 rows := by
  induction sheets generalizing listed with
  | nil => cases member
  | cons sheet sheets ih =>
    have later {listed : Nat} (member : mark ∈ surveySheets workbook listed sheets) :
        ∃ other ∈ sheet :: sheets, ∃ rows ∈ other.rows, mark.rows = surveyRows workbook 0 0 rows := by
      obtain ⟨other, inside, shape⟩ := ih member
      exact ⟨other, List.mem_cons_of_mem _ inside, shape⟩
    rw [surveySheets] at member
    cases part : sheet.rows with
    | none =>
      rw [part] at member
      exact later member
    | some rows =>
      rw [part] at member
      rcases List.mem_append.mp member with here | there
      · split at here
        · exact ⟨sheet, List.mem_cons_self, rows, part, by rw [List.mem_singleton.mp here]⟩
        · cases here
      · exact later there

/-- What the rows of a sheet are like as far as the limits. -/
structure GoodRows (workbook : Workbook) (rows : List RowMark) : Prop where
  increasing : (rows.map RowMark.row).Pairwise (· < ·)
  shows : ∀ row ∈ rows, row.cells ≠ []
  cells : ∀ row ∈ rows, ∀ mark ∈ row.cells,
    1 ≤ mark.column ∧ (cellRuns workbook mark.element).flatMap textWords ≠ []

theorem cutSheets_rows (inOrder : workbook.InOrder) {maxRows cells : Nat} {sheets : List SheetMark}
    (surveyed : ∀ sheet ∈ sheets, sheet ∈ surveySheets workbook 0 workbook.sheets)
    {sheet : SheetMark} (member : sheet ∈ cutSheets maxRows cells sheets) :
    GoodRows workbook sheet.rows := by
  obtain ⟨whole, inside, n, rfl⟩ := cutSheets_sheet member
  obtain ⟨element, there, elements, part, shape⟩ := surveySheets_sheet (surveyed _ inside)
  have order := inOrder element there elements part
  have origin {row : RowMark} (found : row ∈ cutRows n (whole.rows.take maxRows)) :
      ∃ first ∈ surveyRows workbook 0 0 elements, ∃ m,
        row = { first with cells := first.cells.take (m + 1) } := by
    obtain ⟨first, early, cut⟩ := cutRows_row found
    rw [shape] at early
    exact ⟨first, List.mem_of_mem_take early, cut⟩
  constructor
  · have front := (cutRows_front n (whole.rows.take maxRows)).sublist
    rw [List.map_take] at front
    refine List.Pairwise.sublist (front.trans (List.take_sublist _ _)) ?_
    rw [shape]
    exact surveyRows_increasing order
  · intro row found
    obtain ⟨first, early, m, rfl⟩ := origin found
    obtain ⟨cell, rest, some_cell⟩ := List.exists_cons_of_ne_nil (surveyRows_shows workbook early)
    rw [some_cell]
    exact List.cons_ne_nil _ _
  · intro row found mark there
    obtain ⟨first, early, m, rfl⟩ := origin found
    exact (surveyRows_mark order early).2 mark (List.mem_of_mem_take there)

end Marks

section Words
variable [DigitTables] {limits : OfficeLimits} {workbook : Workbook}

omit [DigitTables] in
theorem runs_undivided (runs : List String) :
    textWords (safeText (joinTexts " " runs)) = textWords (safeText (concatRuns runs)) ↔
      Undivided 500 (runs.map runChars) := by
  have joined : squeeze (runChars (joinTexts " " runs)) =
      join [' '] ((runs.map runChars).flatMap splitWords) := by
    have words := textWords_blanks runs
    rw [textWords_chars] at words
    unfold squeeze
    rw [words, List.flatMap_map]
    rfl
  have whole : runChars (concatRuns runs) = (runs.map runChars).flatten := by
    unfold runChars concatRuns
    rw [String.toList_ofList, List.map_flatten, List.map_map]
    rfl
  rw [safeText_words, safeText_words, joined, whole]
  exact undivided_iff 500 (runs.map runChars)

/-- A cell is shown as expected when its numbers are its own and no run divides a word. -/
theorem shown_expected {mark : Mark} (column : 1 ≤ mark.cell.column)
    (words : (cellRuns workbook mark.cell.element).flatMap textWords ≠ []) :
    mark.shown workbook = mark.expected workbook ↔
      (mark.row.given ∨ mark.row.row = mark.row.before + 1) ∧
        (mark.cell.given ∨ mark.cell.column = mark.cell.before + 1) ∧
        Undivided 500 ((cellRuns workbook mark.cell.element).map runChars) := by
  obtain ⟨text, known, same⟩ := (cellValue_runs workbook mark.cell.element).shows words
  have value : textWords ((cellValue (sharedStringValues workbook) mark.cell.element).getD "") =
      textWords (safeText (joinTexts " " (cellRuns workbook mark.cell.element))) := by
    rw [known]
    exact same
  have row : mark.row.number = mark.row.row ↔ mark.row.given ∨ mark.row.row = mark.row.before + 1 := by
    unfold RowMark.number
    by_cases given : mark.row.given = true
    · simp [given]
    · simp [given, eq_comm]
  have cell : columnLabel mark.cell.number = columnLabel mark.cell.column ↔
      mark.cell.given ∨ mark.cell.column = mark.cell.before + 1 := by
    unfold CellMark.number
    by_cases given : mark.cell.given = true
    · simp [given]
    · rw [if_neg given]
      constructor
      · intro label
        exact .inr (columnLabel_injective (Nat.succ_pos _) column label).symm
      · rintro (present | equal)
        · exact absurd present given
        · rw [equal]
  unfold Mark.shown Mark.expected
  rw [PlacedCell.mk.injEq, value, runs_undivided, row, cell]
  simp

end Words

section Outcome
variable [DigitTables] {limits : OfficeLimits} {workbook : Workbook}

/-- The listed sheets as far as the limits, as the loop cuts them. -/
def listedSheets (limits : OfficeLimits) (workbook : Workbook) : List SheetMark :=
  cutSheets limits.maxRowsPerSheet limits.maxCells
    ((surveySheets workbook 0 workbook.sheets).filter isListed)

/-- All pages that these would need. -/
def allWindows (limits : OfficeLimits) (workbook : Workbook) : List SheetWindow :=
  (listedSheets limits workbook).flatMap (SheetMark.windows limits workbook)

theorem workbookSheets_inOrder (inOrder : workbook.InOrder) {ref : SheetRef × Nat}
    (member : ref ∈ (workbookSheets workbook).zipIdx 1) : RowsInOrder 0 ref.1.rows := by
  have inside := List.fst_mem_of_mem_zipIdx member
  unfold workbookSheets at inside
  obtain ⟨sheet, there, found⟩ := List.mem_filterMap.mp inside
  cases part : sheet.rows with
  | none =>
    rw [part] at found
    cases found
  | some rows =>
    rw [part] at found
    simp only [Option.bind_eq_bind, Option.bind_some] at found
    split at found
    · cases found
    · rw [← Option.some.inj found]
      exact inOrder sheet there rows part

theorem workbookWindows_all (limits : OfficeLimits) (inOrder : workbook.InOrder) :
    workbookWindows limits workbook = allWindows limits workbook ∨
      limits.maxPages ≤ (allWindows limits workbook).length ∧
        workbookWindows limits workbook = (allWindows limits workbook).take limits.maxPages := by
  refine extractSheets_survey limits workbook _ [] 0
    (fun ref member => workbookSheets_inOrder inOrder member) ?_
  unfold allWindows listedSheets
  rw [listed_survey]
  rfl

theorem listed_rows (inOrder : workbook.InOrder) {sheet : SheetMark}
    (member : sheet ∈ listedSheets limits workbook) :
    isListed sheet = true ∧ GoodRows workbook sheet.rows := by
  constructor
  · obtain ⟨whole, inside, n, rfl⟩ := cutSheets_sheet member
    exact (List.mem_filter.mp inside).2
  · exact cutSheets_rows inOrder (fun sheet inside => List.mem_of_mem_filter inside) member

/-- A window shows rows of a sheet. -/
theorem window_rows (inOrder : workbook.InOrder) {window : SheetWindow}
    (member : window ∈ allWindows limits workbook) :
    window.rows ≠ [] ∧ ∀ row ∈ window.rows, row.2 ≠ [] ∧ ∀ cell ∈ row.2, cell.row = row.1 := by
  obtain ⟨sheet, inside, there⟩ := List.mem_flatMap.mp member
  obtain ⟨_, good⟩ := listed_rows inOrder inside
  obtain ⟨table, split, batch, _⟩ := sheetWindow_batch limits.some_chunk there
  refine ⟨(batch_shows limits.some_chunk batch).1, fun row found => ?_⟩
  have whole : row ∈ sheet.rows.map (RowMark.read workbook) := by
    rw [← List.flatten_splitBy near (sheet.rows.map (RowMark.read workbook))]
    refine List.mem_flatten.mpr ⟨table, split, ?_⟩
    rw [← batches_flatten limits.some_chunk table]
    exact List.mem_flatten.mpr ⟨window.rows, batch, found⟩
  obtain ⟨mark, marked, rfl⟩ := List.mem_map.mp whole
  constructor
  · exact fun none => good.shows mark marked (List.map_eq_nil_iff.mp none)
  · intro cell here
    obtain ⟨origin, _, rfl⟩ := List.mem_map.mp here
    rfl

theorem window_shows (inOrder : workbook.InOrder) {window : SheetWindow}
    (member : window ∈ allWindows limits workbook) : window.placed ≠ [] := by
  obtain ⟨some_row, rows⟩ := window_rows inOrder member
  obtain ⟨row, rest, shape⟩ := List.exists_cons_of_ne_nil some_row
  obtain ⟨some_cell, _⟩ := rows row (by rw [shape]; exact List.mem_cons_self)
  unfold SheetWindow.placed
  rw [shape, List.flatMap_cons]
  intro none
  exact some_cell (List.map_eq_nil_iff.mp (List.append_eq_nil_iff.mp none).1)

theorem listed_apart : (listedSheets limits workbook).Pairwise fun sheet other =>
    sheet.index.getD 0 ≠ other.index.getD 0 := by
  have numbers : (listedSheets limits workbook).map SheetMark.index =
      (((workbookSheets workbook).zipIdx 1).filter isShown).map fun ref => some ref.2 := by
    unfold listedSheets
    rw [cutSheets_index, listed_survey, List.map_map]
    rfl
  have places : (listedSheets limits workbook).map (fun sheet => sheet.index.getD 0) =
      (((workbookSheets workbook).zipIdx 1).filter isShown).map Prod.snd := by
    have known := congrArg (List.map fun index => index.getD 0) numbers
    rw [List.map_map, List.map_map] at known
    exact known
  have distinct : ((((workbookSheets workbook).zipIdx 1).filter isShown).map Prod.snd).Nodup := by
    refine List.Nodup.sublist (List.filter_sublist.map Prod.snd) ?_
    rw [List.zipIdx_map_snd]
    exact List.nodup_range'
  rw [← places] at distinct
  exact List.pairwise_map.mp distinct

/-- Every row before the limits has its own number. -/
def RowsNumbered (sheets : List SheetMark) : Prop :=
  ∀ sheet ∈ sheets, ∀ row ∈ sheet.rows, row.number = row.row

theorem read_numbers (workbook : Workbook) {sheet : SheetMark}
    (numbered : ∀ row ∈ sheet.rows, row.number = row.row) :
    (sheet.rows.map (RowMark.read workbook)).map Prod.fst = sheet.rows.map RowMark.row := by
  rw [List.map_map]
  exact List.map_congr_left numbered

theorem read_increasing {sheet : SheetMark} (good : GoodRows workbook sheet.rows)
    (numbered : ∀ row ∈ sheet.rows, row.number = row.row) :
    (sheet.rows.map (RowMark.read workbook)).IsChain fun a b => a.1 < b.1 := by
  have chain := good.increasing.isChain
  rw [← read_numbers workbook numbered, List.isChain_map] at chain
  exact chain

theorem windows_chained (inOrder : workbook.InOrder) (numbered : RowsNumbered (listedSheets limits workbook)) :
    (allWindows limits workbook).IsChain TableStep ∧ ∀ window ∈ allWindows limits workbook,
      window.rows.length ≤ limits.rowsPerChunk ∧ window.rowNumbers.IsChain fun a b => b = a + 1 := by
  have increasing {sheet : SheetMark} (member : sheet ∈ listedSheets limits workbook) :=
    read_increasing (listed_rows inOrder member).2 (numbered sheet member)
  constructor
  · refine chain_flatMap (fun sheet member =>
      sheetWindows_steps limits.some_chunk (increasing member)) ?_
    refine listed_apart.imp fun apart window first next later same => ?_
    obtain ⟨_, _, _, left⟩ := sheetWindow_batch limits.some_chunk first
    obtain ⟨_, _, _, right⟩ := sheetWindow_batch limits.some_chunk later
    rw [left, right] at same
    exact absurd same apart
  · intro window member
    obtain ⟨sheet, inside, there⟩ := List.mem_flatMap.mp member
    exact sheetWindow_rows limits.some_chunk (increasing inside) there

/-- No sheet without a name has a cell before the limits. -/
def SheetsNamed (limits : OfficeLimits) (workbook : Workbook) : Prop :=
  ∀ sheet ∈ shownSheets workbook limits, sheet.index = none → sheet.rows = []

theorem listed_shown (named : SheetsNamed limits workbook) :
    listedSheets limits workbook = (shownSheets workbook limits).filter isListed :=
  cutSheets_listed _ _ _ named

theorem all_placed (named : SheetsNamed limits workbook) (inOrder : workbook.InOrder) :
    (allWindows limits workbook).flatMap SheetWindow.placed =
      (shownMarks limits workbook).map (Mark.shown workbook) := by
  unfold allWindows
  rw [sheets_placed limits workbook _ fun sheet member => (listed_rows inOrder member).1,
    listed_shown named, marksOf_listed _ named]
  rfl

theorem pages_count (named : SheetsNamed limits workbook) (numbered : RowsNumbered (shownSheets workbook limits)) :
    (allWindows limits workbook).length = pagesNeeded limits workbook := by
  have whole : allWindows limits workbook =
      (shownSheets workbook limits).flatMap (SheetMark.windows limits workbook) := by
    unfold allWindows
    rw [listed_shown named]
    unfold SheetsNamed at named
    generalize shownSheets workbook limits = sheets at named
    induction sheets with
    | nil => rfl
    | cons sheet sheets ih =>
      have rest := ih fun other member => named other (List.mem_cons_of_mem _ member)
      rw [List.flatMap_cons, ← rest]
      by_cases listed : isListed sheet = true
      · rw [List.filter_cons_of_pos listed, List.flatMap_cons]
      · have empty := named sheet List.mem_cons_self (Option.not_isSome_iff_eq_none.mp listed)
        rw [List.filter_cons_of_neg listed, windows_nil limits workbook empty, List.nil_append]
  rw [whole, List.length_flatMap]
  unfold pagesNeeded
  congr 1
  refine List.map_congr_left fun sheet member => ?_
  have split := splitBy_map (fun a b : Nat => b ≤ a + 1) Prod.fst
    (sheet.rows.map (RowMark.read workbook))
  unfold SheetMark.windows pagesOfRows
  rw [sheetWindows_length _ _ _ limits.some_chunk, ← read_numbers workbook (numbered sheet member),
    split, List.map_map]
  simp only [Function.comp_def, List.length_map]
  rfl

omit [DigitTables] in
theorem page_shows (window : SheetWindow) : strip window.page.text.toList ≠ [] := by
  have front : ∃ rest, window.page.text.toList = 'S' :: rest := by
    have text : window.page.text = joinTexts "\n" window.lines := rfl
    rw [text]
    unfold SheetWindow.lines joinTexts
    rw [String.toList_ofList, List.cons_append, List.cons_append, List.map_cons, List.map_cons, join,
      String.toList_append]
    exact ⟨_, rfl⟩
  obtain ⟨rest, shape⟩ := front
  rw [shape]
  intro none
  have blank := strip_eq_nil.mp none 'S' List.mem_cons_self
  cases blank

theorem extractExcel_windows (limits : OfficeLimits) (workbook : Workbook) :
    extractExcel limits workbook =
      if workbookWindows limits workbook = [] then
        .error ⟨"empty_extracted_text", "Extracted text is empty."⟩
      else .ok ((workbookWindows limits workbook).map SheetWindow.page) := by
  unfold extractExcel
  generalize workbookWindows limits workbook = windows
  cases windows with
  | nil => rfl
  | cons window windows =>
    have first : (strip window.page.text.toList != []) = true := by simpa using page_shows window
    rw [if_neg (List.cons_ne_nil _ _)]
    simp only [List.map_cons, List.any_cons, first, Bool.true_or, if_true]

omit [DigitTables] in
theorem mem_marks {sheets : List SheetMark} {mark : Mark} : mark ∈ marksOf sheets ↔
    ∃ sheet ∈ sheets, ∃ row ∈ sheet.rows, ∃ cell ∈ row.cells, ⟨sheet.index, row, cell⟩ = mark := by
  simp only [marksOf, List.mem_flatMap, List.mem_map]

theorem shown_rows (inOrder : workbook.InOrder) {sheet : SheetMark}
    (member : sheet ∈ shownSheets workbook limits) : GoodRows workbook sheet.rows :=
  cutSheets_rows inOrder (fun _ inside => inside) member

/-- Every row before the limits has a cell there. -/
theorem row_marked (inOrder : workbook.InOrder) {sheet : SheetMark}
    (member : sheet ∈ shownSheets workbook limits) {row : RowMark} (inside : row ∈ sheet.rows) :
    ∃ cell, ⟨sheet.index, row, cell⟩ ∈ shownMarks limits workbook := by
  obtain ⟨cell, rest, shape⟩ := List.exists_cons_of_ne_nil
    ((shown_rows inOrder member).shows row inside)
  refine ⟨cell, mem_marks.mpr ⟨sheet, member, row, inside, cell, ?_, rfl⟩⟩
  rw [shape]
  exact List.mem_cons_self

theorem named_of_marks (inOrder : workbook.InOrder)
    (named : ∀ mark ∈ shownMarks limits workbook, mark.index ≠ none) : SheetsNamed limits workbook := by
  intro sheet member unnamed
  by_contra some_row
  obtain ⟨row, inside⟩ := List.exists_mem_of_ne_nil _ some_row
  obtain ⟨cell, marked⟩ := row_marked inOrder member inside
  exact named _ marked unnamed

theorem numbered_of_marks (inOrder : workbook.InOrder) (rows : ∀ mark ∈ shownMarks limits workbook,
    mark.row.given ∨ mark.row.row = mark.row.before + 1) :
    RowsNumbered (shownSheets workbook limits) := by
  intro sheet member row inside
  obtain ⟨cell, marked⟩ := row_marked inOrder member inside
  unfold RowMark.number
  rcases rows _ marked with given | counted
  · exact if_pos given
  · split
    · rfl
    · exact counted.symm

theorem mark_expected (inOrder : workbook.InOrder) {mark : Mark}
    (member : mark ∈ shownMarks limits workbook) :
    mark.shown workbook = mark.expected workbook ↔
      (mark.row.given ∨ mark.row.row = mark.row.before + 1) ∧
        (mark.cell.given ∨ mark.cell.column = mark.cell.before + 1) ∧
        Undivided 500 ((cellRuns workbook mark.cell.element).map runChars) := by
  obtain ⟨sheet, there, row, inside, cell, found, rfl⟩ := mem_marks.mp member
  obtain ⟨column, words⟩ := (shown_rows inOrder there).cells row inside cell found
  exact shown_expected column words

/-- Pages that show as many cells as all windows do are all of them. -/
theorem windows_whole (inOrder : workbook.InOrder)
    (same : ((workbookWindows limits workbook).flatMap SheetWindow.placed).length =
      ((allWindows limits workbook).flatMap SheetWindow.placed).length) :
    workbookWindows limits workbook = allWindows limits workbook := by
  rcases workbookWindows_all limits inOrder with all | ⟨_, cut⟩
  · exact all
  · have whole := List.take_append_drop limits.maxPages (allWindows limits workbook)
    by_cases none : (allWindows limits workbook).drop limits.maxPages = []
    · rw [cut]
      rwa [none, List.append_nil] at whole
    · obtain ⟨window, rest, shape⟩ := List.exists_cons_of_ne_nil none
      have member : window ∈ allWindows limits workbook := by
        apply List.mem_of_mem_drop (i := limits.maxPages)
        rw [shape]
        exact List.mem_cons_self
      have shows := List.length_pos_iff.mpr (window_shows inOrder member)
      rw [← whole, shape, List.flatMap_append, List.flatMap_cons, List.length_append,
        List.length_append, ← cut] at same
      omega

theorem Extracted.extractable (inOrder : workbook.InOrder) (extracted : Extracted limits workbook) :
    Extractable limits workbook := by
  have listed : ∀ mark ∈ shownMarks limits workbook, mark.index ≠ none := by
    intro mark member unnamed
    have placed : mark.expected workbook ∈
        (workbookWindows limits workbook).flatMap SheetWindow.placed := by
      rw [extracted.placed]
      exact List.mem_map_of_mem member
    obtain ⟨window, _, there⟩ := List.mem_flatMap.mp placed
    obtain ⟨row, _, inside⟩ := List.mem_flatMap.mp there
    obtain ⟨cell, _, same⟩ := List.mem_map.mp inside
    have index := congrArg PlacedCell.sheetIndex same
    rw [Mark.expected, unnamed] at index
    cases index
  have named := named_of_marks inOrder listed
  have whole : workbookWindows limits workbook = allWindows limits workbook := by
    apply windows_whole inOrder
    rw [extracted.placed, all_placed named inOrder, List.length_map, List.length_map]
  have shown := all_placed named inOrder
  rw [← whole, extracted.placed] at shown
  have marks (mark : Mark) (member : mark ∈ shownMarks limits workbook) :=
    (mark_expected inOrder member).mp (List.map_inj_left.mp shown mark member).symm
  have rows := fun mark member => (marks mark member).1
  refine ⟨listed, rows, fun mark member => (marks mark member).2.1,
    fun mark member => (marks mark member).2.2, ?_⟩
  rw [← pages_count named (numbered_of_marks inOrder rows), ← whole]
  exact extracted.fewPages

theorem Extractable.extracted (inOrder : workbook.InOrder)
    (extractable : Extractable limits workbook) : Extracted limits workbook := by
  have named := named_of_marks inOrder extractable.named
  have numbered := numbered_of_marks inOrder extractable.rows
  have count := pages_count named numbered
  have few : (allWindows limits workbook).length ≤ limits.maxPages := by
    rw [count]
    exact extractable.pages
  have whole : workbookWindows limits workbook = allWindows limits workbook := by
    rcases workbookWindows_all limits inOrder with all | ⟨_, cut⟩
    · exact all
    · rw [cut, List.take_of_length_le few]
  have placed : (allWindows limits workbook).flatMap SheetWindow.placed =
      (shownMarks limits workbook).map (Mark.expected workbook) := by
    rw [all_placed named inOrder]
    refine List.map_congr_left fun mark member => (mark_expected inOrder member).mpr ?_
    exact ⟨extractable.rows mark member, extractable.cells mark member,
      extractable.runs mark member⟩
  obtain ⟨steps, rows⟩ := windows_chained inOrder fun sheet (member : sheet ∈ listedSheets limits
    workbook) => numbered sheet (List.mem_of_mem_filter (listed_shown named ▸ member))
  have cells : ((allWindows limits workbook).flatMap SheetWindow.cells).length =
      (shownMarks limits workbook).length := by
    have counts := congrArg List.length placed
    rw [List.length_map, List.length_flatMap] at counts
    rw [← counts, List.length_flatMap]
    congr 1
    refine List.map_congr_left fun window _ => ?_
    simp [SheetWindow.cells, SheetWindow.placed, List.length_flatMap]
  constructor
  · rw [whole]
    exact placed
  · rw [extractExcel_windows, whole]
    by_cases none : shownMarks limits workbook = []
    · have nothing : allWindows limits workbook = [] := by
        by_contra some_window
        obtain ⟨window, member⟩ := List.exists_mem_of_ne_nil _ some_window
        rw [none, List.map_nil, List.flatMap_eq_nil_iff] at placed
        exact window_shows inOrder member (placed window member)
      rw [if_pos none, if_pos nothing]
    · have some_window : allWindows limits workbook ≠ [] := by
        intro nothing
        rw [nothing] at placed
        exact none (List.map_eq_nil_iff.mp placed.symm)
      rw [if_neg none, if_neg some_window]
  · rw [whole]
    exact rows
  · rw [whole]
    intro window member
    obtain ⟨some_row, inside⟩ := window_rows inOrder member
    exact window_bounded some_row inside
  · rw [whole]
    exact steps
  · rw [whole]
    exact few
  · rw [whole, cells]
    exact cutSheets_count _ _ _
  · exact fun column positive digits shows digit => column_of_label positive shows digit

/-- A workbook with positions in order is extracted faithfully when every row and cell before the
limits that has no reference follows directly on one with a text, runs divide no word, the sheets
have names and the pages are enough, and only then. -/
theorem workbook_extracted (limits : OfficeLimits) (workbook : Workbook)
    (inOrder : workbook.InOrder) : Extracted limits workbook ↔ Extractable limits workbook :=
  ⟨fun extracted => extracted.extractable inOrder, fun extractable => extractable.extracted inOrder⟩

end Outcome

section Workbooks

local instance cellTables : DigitTables := asciiDigits

def smallLimits : OfficeLimits :=
  ⟨10, 100, 100, 2, by decide, by decide, by decide, by decide⟩

/-- A cell with a value. -/
def valueCell (r t : Option String) (value : String) : CellElement := ⟨r, t, some (some value), none, []⟩

/-- A hidden sheet, and a sheet with a shared string of two runs and a row left out. -/
def salesBook : Workbook where
  sheets :=
    [⟨some "Notes", some "hidden", some [⟨none, [valueCell none none "1"]⟩]⟩,
      ⟨some "Sales", none, some
        [⟨none, [valueCell none (some "s") "0", valueCell (some "AB1") none "5"]⟩,
          ⟨none, [valueCell none (some "b") "1", ⟨none, none, none, some (some "A1+1"), []⟩]⟩,
          ⟨some "5", [⟨none, some "inlineStr", none, none, [some "Net", some " sum"]⟩]⟩]⟩]
  sharedStrings := [[some "Net ", some "sales"]]

theorem salesBook_extracted : Extracted smallLimits salesBook :=
  (workbook_extracted smallLimits salesBook (by decide +kernel)).mpr
    ⟨by decide +kernel, by decide +kernel, by decide +kernel, by decide +kernel, by decide +kernel⟩

/-- A row of an empty cell and a number, without references. -/
def gapBook : Workbook :=
  ⟨[⟨some "Data", none, some [⟨none, [⟨none, none, none, none, []⟩, valueCell none none "7"]⟩]⟩], []⟩

/-- The cell B1 is shown as A1. -/
theorem empty_cell_shifted : ¬ Extracted smallLimits gapBook := by
  intro extracted
  have shown : ((workbookWindows smallLimits gapBook).flatMap SheetWindow.placed).map
      PlacedCell.column = ["A"] := by decide +kernel
  have own : ((shownMarks smallLimits gapBook).map (Mark.expected gapBook)).map
      PlacedCell.column = ["B"] := by decide +kernel
  rw [extracted.placed, own] at shown
  revert shown
  decide

end Workbooks
end RagProject.Ingest
