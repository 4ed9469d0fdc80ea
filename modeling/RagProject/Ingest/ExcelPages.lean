import RagProject.Ingest.ExcelCells

/-! The pages of a workbook: the windows of a sheet, their bounds and tables, and the loop over the
sheets. -/
namespace RagProject.Ingest
open Python Context Batches

section Columns

theorem letter (r : Fin 26) : (Char.ofNat ('A'.toNat + r)).isUpper ∧
    (Char.ofNat ('A'.toNat + r)).toNat = 'A'.toNat + r := by
  revert r
  decide

theorem columnLetters_value (rounds current : Nat) (enough : current ≤ rounds) (label : List Char) :
    ∃ letters, columnLetters rounds current label = letters ++ label ∧
      (∀ c ∈ letters, c.isUpper) ∧ (0 < current → letters ≠ []) ∧
      letters.foldl (fun column char => column * 26 + char.toNat - 'A'.toNat + 1) 0 = current := by
  induction rounds generalizing current label with
  | zero =>
    obtain rfl := Nat.le_zero.mp enough
    exact ⟨[], rfl, (fun _ member => nomatch member), (fun positive => nomatch positive), rfl⟩
  | succ rounds ih =>
    rw [columnLetters]
    by_cases zero : current = 0
    · rw [if_pos zero]
      exact ⟨[], rfl, (fun _ member => nomatch member), fun positive => by omega, zero.symm⟩
    · rw [if_neg zero]
      have fewer : (current - 1) / 26 ≤ rounds := by omega
      obtain ⟨upper, number⟩ := letter ⟨(current - 1) % 26, Nat.mod_lt _ (by decide)⟩
      generalize Char.ofNat ('A'.toNat + (current - 1) % 26) = char at upper number ⊢
      obtain ⟨letters, shape, uppers, _, value⟩ := ih _ fewer (char :: label)
      refine ⟨letters ++ [char], by rw [shape]; simp, fun c member => ?_, fun _ => by simp, ?_⟩
      · rcases List.mem_append.mp member with front | last
        · exact uppers c front
        · rw [List.mem_singleton.mp last]
          exact upper
      · rw [List.foldl_append, value, List.foldl_cons, List.foldl_nil, number]
        have division := Nat.div_add_mod (current - 1) 26
        have base : 'A'.toNat = 65 := rfl
        simp only [base]
        omega

/-- _column_index_from_cell_ref undoes _column_label. -/
theorem column_of_label {column : Nat} (positive : 1 ≤ column) {digits : String} (shows : digits ≠ "")
    (digit : ∀ c ∈ digits.toList, c.isDigit) :
    columnIndexFromCellRef (columnLabel column ++ digits) = some column := by
  obtain ⟨letters, shape, uppers, some_letter, value⟩ :=
    columnLetters_value column column (Nat.le_refl _) []
  rw [List.append_nil] at shape
  have text : (columnLabel column ++ digits).toList = letters ++ digits.toList := by
    rw [String.toList_append, columnLabel, if_neg (by omega), String.toList_ofList, shape]
  have other : ∀ c ∈ digits.toList, c.isUpper = false := by
    intro c member
    have known := digit c member
    have capital : c.isUpper = decide (c.val ≥ 'A'.val ∧ c.val ≤ 'Z'.val) := rfl
    simp only [Char.isDigit, capital, Bool.and_eq_true, decide_eq_true_eq,
      decide_eq_false_iff_not] at known ⊢
    rintro ⟨upper, _⟩
    exact absurd (Nat.le_trans (UInt32.le_iff_toNat_le.mp upper) (UInt32.le_iff_toNat_le.mp known.2))
      (by decide)
  have some_digit : digits.toList ≠ [] := by
    intro none
    exact shows (String.toList_eq_nil_iff.mp none)
  have front : (letters ++ digits.toList).takeWhile Char.isUpper = letters := by
    obtain ⟨d, rest, list⟩ := List.exists_cons_of_ne_nil some_digit
    rw [List.takeWhile_append_of_pos (by simpa using uppers), list,
      List.takeWhile_cons_of_neg (by simp [other d (by simp [list])]), List.append_nil]
  unfold columnIndexFromCellRef
  simp only [text, front, List.drop_left]
  have all : digits.toList.takeWhile Char.isDigit = digits.toList :=
    List.takeWhile_eq_self_iff.mpr digit
  rw [all, List.drop_length, if_pos ⟨some_letter positive, some_digit, .inl rfl⟩, value]

theorem columnLabel_injective {a b : Nat} (first : 1 ≤ a) (second : 1 ≤ b)
    (same : columnLabel a = columnLabel b) : a = b := by
  have digit : ∀ c ∈ "1".toList, c.isDigit := by decide
  have left := column_of_label first (by decide) digit
  rw [same, column_of_label second (by decide) digit] at left
  exact (Option.some.inj left).symm

end Columns

section Windows

/-- No row is missing between two rows. -/
def near (row next : Nat × List Cell) : Bool := next.1 ≤ row.1 + 1

/-- The rows before a gap are a group, and so on. -/
theorem groupRows_split (pagesOf : Nat → List (Nat × List Cell) → List SheetWindow)
    (rows : List (Nat × List Cell)) (tableIndex : Nat) (group : List (Nat × List Cell))
    (last : Nat × List Cell) (chain : (group ++ [last]).IsChain fun a b => near a b) :
    groupRows pagesOf rows tableIndex (group ++ [last]) (some last.1) =
      (((group ++ [last] ++ rows).splitBy near).zipIdx tableIndex).flatMap
        fun table => pagesOf table.2 table.1 := by
  induction rows generalizing tableIndex group last with
  | nil =>
    rw [groupRows, List.append_nil, List.splitBy_of_isChain (by simp) chain]
    simp
  | cons row rows ih =>
    rw [groupRows, Option.any_some]
    by_cases gap : last.1 + 1 < row.1
    · have apart : near last row = false := by simpa [near] using gap
      have border : ∀ x ∈ (group ++ [last]).getLast?, ∀ y ∈ (row :: rows).head?, near x y = false := by
        simpa using apart
      have rest := ih (tableIndex + 1) [] row (List.isChain_singleton row)
      rw [if_pos (by simpa using gap), List.splitBy_append border,
        List.splitBy_of_isChain (by simp) chain, List.singleton_append, List.zipIdx_cons,
        List.flatMap_cons]
      rw [List.nil_append, List.singleton_append] at rest
      rw [rest]
    · have next : near last row = true := by simpa [near] using gap
      have longer : (group ++ [last] ++ [row]).IsChain fun a b => near a b := by
        rw [List.isChain_append]
        refine ⟨chain, List.isChain_singleton row, ?_⟩
        simpa using next
      rw [if_neg (by simpa using gap), ih tableIndex (group ++ [last]) row longer,
        List.append_assoc _ [row], List.singleton_append]

variable (sheet : SheetRef) (sheetIndex rowsPerChunk : Nat)

theorem sheetWindows_split (positive : 0 < rowsPerChunk) (rows : List (Nat × List Cell)) :
    sheetRowsToWindows sheet sheetIndex rowsPerChunk rows =
      ((rows.splitBy near).zipIdx 1).flatMap fun table =>
        rowGroupWindows sheet sheetIndex rowsPerChunk table.2 table.1 := by
  unfold sheetRowsToWindows
  cases rows with
  | nil =>
    rw [groupRows, rowGroupWindows, batches_nil positive]
    rfl
  | cons row rows =>
    rw [groupRows, Option.any_none, if_neg Bool.false_ne_true]
    exact groupRows_split _ rows 1 [] row (List.isChain_singleton row)

theorem sheetWindows_rows (positive : 0 < rowsPerChunk) (rows : List (Nat × List Cell)) :
    (sheetRowsToWindows sheet sheetIndex rowsPerChunk rows).flatMap SheetWindow.rows = rows := by
  have group (table : List (Nat × List Cell) × Nat) :
      (rowGroupWindows sheet sheetIndex rowsPerChunk table.2 table.1).flatMap SheetWindow.rows =
        table.1 := by
    unfold rowGroupWindows
    rw [List.flatMap_map]
    simpa [List.flatMap_id'] using batches_flatten positive table.1
  rw [sheetWindows_split sheet sheetIndex rowsPerChunk positive, List.flatMap_assoc]
  simp only [group]
  rw [flatMap_zipIdx (fun table => table), List.flatMap_id', List.flatten_splitBy]

theorem sheetWindows_length (positive : 0 < rowsPerChunk) (rows : List (Nat × List Cell)) :
    (sheetRowsToWindows sheet sheetIndex rowsPerChunk rows).length =
      ((rows.splitBy near).map fun table =>
        (table.length + rowsPerChunk - 1) / rowsPerChunk).sum := by
  rw [sheetWindows_split sheet sheetIndex rowsPerChunk positive, List.length_flatMap]
  have group (table : List (Nat × List Cell) × Nat) :
      (rowGroupWindows sheet sheetIndex rowsPerChunk table.2 table.1).length =
        (table.1.length + rowsPerChunk - 1) / rowsPerChunk := by
    unfold rowGroupWindows
    rw [List.length_map, batches_length]
  have numbered := List.zipIdx_map_fst 1 (rows.splitBy near)
  simp only [group]
  nth_rewrite 2 [← numbered]
  rw [List.map_map]
  rfl

variable {sheet sheetIndex rowsPerChunk}

theorem sheetWindow_batch (positive : 0 < rowsPerChunk) {rows : List (Nat × List Cell)}
    {window : SheetWindow} (member : window ∈ sheetRowsToWindows sheet sheetIndex rowsPerChunk rows) :
    ∃ table ∈ rows.splitBy near, window.rows ∈ batches rowsPerChunk table ∧
      window.sheetIndex = sheetIndex := by
  rw [sheetWindows_split sheet sheetIndex rowsPerChunk positive] at member
  obtain ⟨⟨table, number⟩, inside, there⟩ := List.mem_flatMap.mp member
  obtain ⟨batch, found, rfl⟩ := List.mem_map.mp there
  exact ⟨table, List.fst_mem_of_mem_zipIdx inside, found, rfl⟩

/-- Rows that increase without a gap. -/
theorem near_rows {rows : List (Nat × List Cell)} (increasing : rows.IsChain fun a b => a.1 < b.1)
    {table : List (Nat × List Cell)} (member : table ∈ rows.splitBy near) :
    table.IsChain fun a b => b.1 = a.1 + 1 := by
  have inner : table <:+: rows := by
    rw [← List.flatten_splitBy near rows]
    exact List.infix_of_mem_flatten member
  have later := List.IsChain.infix increasing inner
  refine (chain_and later (List.isChain_of_mem_splitBy member)).imp ?_
  rintro a b ⟨later, close⟩
  simp only [near, decide_eq_true_eq] at close
  omega

theorem sheetWindow_rows (positive : 0 < rowsPerChunk) {rows : List (Nat × List Cell)}
    (increasing : rows.IsChain fun a b => a.1 < b.1) {window : SheetWindow}
    (member : window ∈ sheetRowsToWindows sheet sheetIndex rowsPerChunk rows) :
    window.rows.length ≤ rowsPerChunk ∧ window.rowNumbers.IsChain fun a b => b = a + 1 := by
  obtain ⟨table, inside, found, _⟩ := sheetWindow_batch positive member
  refine ⟨(batch_shows positive found).2, ?_⟩
  unfold SheetWindow.rowNumbers
  rw [List.isChain_map]
  exact (batches_chain positive (near_rows increasing inside)).1 _ found

/-- Within a table the windows are adjacent. -/
theorem groupWindows_steps (positive : 0 < rowsPerChunk) {table : List (Nat × List Cell)}
    (chain : table.IsChain fun a b => b.1 = a.1 + 1) (number : Nat) :
    (rowGroupWindows sheet sheetIndex rowsPerChunk number table).IsChain TableStep := by
  unfold rowGroupWindows
  rw [List.isChain_map]
  refine (batches_chain positive chain).2.imp fun batch next follows _ => .inl ⟨?_, rfl⟩
  intro last lasts first firsts
  simp only [SheetWindow.rowNumbers, List.getLast?_map, List.head?_map, Option.mem_def,
    Option.map_eq_some_iff] at lasts firsts
  obtain ⟨row, ending, rfl⟩ := lasts
  obtain ⟨later, beginning, rfl⟩ := firsts
  exact follows row ending later beginning

theorem sheetWindows_steps (positive : 0 < rowsPerChunk) {rows : List (Nat × List Cell)}
    (increasing : rows.IsChain fun a b => a.1 < b.1) :
    (sheetRowsToWindows sheet sheetIndex rowsPerChunk rows).IsChain TableStep := by
  have shown (table : List (Nat × List Cell)) (member : table ∈ rows.splitBy near) : table ≠ [] :=
    List.ne_nil_of_mem_splitBy member
  have nonempty : [] ∉ ((rows.splitBy near).zipIdx 1).map fun table =>
      rowGroupWindows sheet sheetIndex rowsPerChunk table.2 table.1 := by
    intro member
    obtain ⟨⟨table, number⟩, inside, none⟩ := List.mem_map.mp member
    have some_batch : batches rowsPerChunk table = [] := List.map_eq_nil_iff.mp none
    have whole := batches_flatten positive table
    rw [some_batch] at whole
    exact shown table (List.fst_mem_of_mem_zipIdx inside) whole.symm
  rw [sheetWindows_split sheet sheetIndex rowsPerChunk positive, List.flatMap_def,
    List.isChain_flatten nonempty]
  constructor
  · intro windows member
    obtain ⟨⟨table, number⟩, inside, rfl⟩ := List.mem_map.mp member
    exact groupWindows_steps positive
      (near_rows increasing (List.fst_mem_of_mem_zipIdx inside)) number
  · rw [List.isChain_map]
    refine (chain_zipIdx (List.isChain_getLast_head_splitBy near rows) 1).imp ?_
    rintro ⟨table, number⟩ ⟨next, following⟩ ⟨⟨some_row, other_row, apart⟩, rfl⟩ window last later first _
    simp only [rowGroupWindows, List.getLast?_map, List.head?_map, Option.mem_def,
      Option.map_eq_some_iff] at last first
    obtain ⟨batch, ending, rfl⟩ := last
    obtain ⟨front, beginning, rfl⟩ := first
    refine .inr ⟨fun adjacent => ?_, rfl⟩
    have lastRow : batch.getLast? = some (table.getLast some_row) := by
      rw [batches_last positive ending, List.getLast?_eq_some_getLast some_row]
    have firstRow : front.head? = some (next.head other_row) := by
      rw [batches_head positive beginning, List.head?_eq_some_head other_row]
    have step := adjacent (table.getLast some_row).1
      (by simp [SheetWindow.rowNumbers, lastRow]) (next.head other_row).1
      (by simp [SheetWindow.rowNumbers, firstRow])
    simp only [near, decide_eq_false_iff_not] at apart
    omega

end Windows

section Bounds

theorem least_least {numbers : List Nat} (some_number : numbers ≠ []) :
    IsLeast {n | n ∈ numbers} (SheetWindow.least numbers) := by
  obtain ⟨n, found⟩ := Option.isSome_iff_exists.mp (List.isSome_min?_of_ne_nil some_number)
  obtain ⟨member, below⟩ := List.min?_eq_some_iff.mp found
  unfold SheetWindow.least
  rw [found]
  exact ⟨member, fun m other => below m other⟩

theorem greatest_greatest {numbers : List Nat} (some_number : numbers ≠ []) :
    IsGreatest {n | n ∈ numbers} (SheetWindow.greatest numbers) := by
  obtain ⟨n, found⟩ := Option.isSome_iff_exists.mp (List.isSome_max?_of_ne_nil some_number)
  obtain ⟨member, above⟩ := List.max?_eq_some_iff.mp found
  unfold SheetWindow.greatest
  rw [found]
  exact ⟨member, fun m other => above m other⟩

/-- The bounds in the metadata are those of the cells, where every row has a cell. -/
theorem window_bounded {window : SheetWindow} (shows : window.rows ≠ [])
    (rows : ∀ row ∈ window.rows, row.2 ≠ [] ∧ ∀ cell ∈ row.2, cell.row = row.1) :
    window.Bounded := by
  have rowSet : {row | ∃ cell ∈ window.cells, cell.row = row} = {n | n ∈ window.rowNumbers} := by
    ext n
    constructor
    · rintro ⟨cell, member, rfl⟩
      obtain ⟨row, inside, there⟩ := List.mem_flatMap.mp member
      exact List.mem_map.mpr ⟨row, inside, ((rows row inside).2 cell there).symm⟩
    · intro member
      obtain ⟨row, inside, rfl⟩ := List.mem_map.mp member
      obtain ⟨some_cell, same⟩ := rows row inside
      obtain ⟨cell, there⟩ := List.exists_mem_of_ne_nil _ some_cell
      exact ⟨cell, List.mem_flatMap.mpr ⟨row, inside, there⟩, same cell there⟩
  have columnSet : {column | ∃ cell ∈ window.cells, cell.column = column} =
      {n | n ∈ window.columnNumbers} := by
    ext n
    exact List.mem_map.symm
  have some_row : window.rowNumbers ≠ [] := by simpa [SheetWindow.rowNumbers] using shows
  have some_column : window.columnNumbers ≠ [] := by
    obtain ⟨row, inside⟩ := List.exists_mem_of_ne_nil _ shows
    obtain ⟨cell, there⟩ := List.exists_mem_of_ne_nil _ (rows row inside).1
    exact List.ne_nil_of_mem
      (List.mem_map_of_mem (f := Cell.column) (List.mem_flatMap.mpr ⟨row, inside, there⟩))
  constructor
  · exact ⟨_, rfl, rowSet ▸ least_least some_row⟩
  · exact ⟨_, rfl, rowSet ▸ greatest_greatest some_row⟩
  · exact ⟨_, rfl, columnSet ▸ least_least some_column⟩
  · exact ⟨_, rfl, columnSet ▸ greatest_greatest some_column⟩

end Bounds

section Sheets
variable [DigitTables] (limits : OfficeLimits) (workbook : Workbook)

/-- The windows of a listed sheet for the rows that precede the limits. -/
def SheetMark.windows (mark : SheetMark) : List SheetWindow :=
  sheetRowsToWindows mark.sheet (mark.index.getD 0) limits.rowsPerChunk
    (mark.rows.map (RowMark.read workbook))

omit [DigitTables] in
def isShown (ref : SheetRef × Nat) : Bool := visibleState ref.1.state

def markOf (ref : SheetRef × Nat) : SheetMark :=
  ⟨some ref.2, ref.1, surveyRows workbook 0 0 ref.1.rows⟩

omit [DigitTables] in
theorem cutRows_zero (rows : List RowMark) : cutRows 0 rows = [] := by
  cases rows <;> rfl

theorem windows_nil {mark : SheetMark} (none : mark.rows = []) :
    mark.windows limits workbook = [] := by
  unfold SheetMark.windows
  rw [none, List.map_nil, sheetWindows_split _ _ _ limits.some_chunk]
  rfl

theorem cutSheets_zero (maxRows : Nat) (sheets : List SheetMark) :
    (cutSheets maxRows 0 sheets).flatMap (SheetMark.windows limits workbook) = [] := by
  induction sheets with
  | nil => rfl
  | cons sheet sheets ih =>
    rw [cutSheets, List.flatMap_cons, windows_nil limits workbook (cutRows_zero _), Nat.zero_sub]
    exact ih

theorem extractSheetPages_survey (sheet : SheetRef) (sheetIndex maxCells : Nat)
    (inOrder : RowsInOrder 0 sheet.rows) :
    extractSheetPages limits (sharedStringValues workbook) sheet sheetIndex maxCells =
      let rows :=
        cutRows maxCells ((surveyRows workbook 0 0 sheet.rows).take limits.maxRowsPerSheet)
      (sheetRowsToWindows sheet sheetIndex limits.rowsPerChunk (rows.map (RowMark.read workbook)),
        cellCount rows) := by
  unfold extractSheetPages
  by_cases none : maxCells < 1
  · obtain rfl : maxCells = 0 := by omega
    simp only [if_pos none, cutRows_zero]
    rw [List.map_nil, sheetWindows_split _ _ _ limits.some_chunk]
    rfl
  · rw [if_neg none, readRows_survey workbook _ _ _ 0 [] 0 inOrder]
    simp

/-- The loop over the sheets stops early only where nothing is left or the pages are enough. -/
theorem extractSheets_survey (refs : List (SheetRef × Nat)) (pages : List SheetWindow) (total : Nat)
    (inOrder : ∀ ref ∈ refs, RowsInOrder 0 ref.1.rows) {all : List SheetWindow}
    (whole : all = pages ++ (cutSheets limits.maxRowsPerSheet (limits.maxCells - total)
      ((refs.filter isShown).map (markOf workbook))).flatMap
        (SheetMark.windows limits workbook)) :
    extractSheets limits (sharedStringValues workbook) refs pages total = all ∨
      limits.maxPages ≤ all.length ∧
        extractSheets limits (sharedStringValues workbook) refs pages total =
          all.take limits.maxPages := by
  induction refs generalizing pages total with
  | nil =>
    left
    rw [whole]
    simp [extractSheets, cutSheets]
  | cons ref refs ih =>
    obtain ⟨sheet, sheetIndex⟩ := ref
    have first := inOrder _ List.mem_cons_self
    have others := fun ref member => inOrder ref (List.mem_cons_of_mem _ member)
    rw [extractSheets]
    by_cases visible : isShown (sheet, sheetIndex) = true
    · have state : visibleState sheet.state = true := visible
      rw [List.filter_cons_of_pos visible, List.map_cons, cutSheets, List.flatMap_cons,
        ← List.append_assoc] at whole
      rw [if_pos state, extractSheetPages_survey limits workbook _ _ _ first]
      dsimp only
      generalize shape : cutRows (limits.maxCells - total)
        ((surveyRows workbook 0 0 sheet.rows).take limits.maxRowsPerSheet) = rows
      have here : cutRows (limits.maxCells - total)
          ((markOf workbook (sheet, sheetIndex)).rows.take limits.maxRowsPerSheet) = rows := shape
      rw [here] at whole
      have same : SheetMark.windows limits workbook
          { markOf workbook (sheet, sheetIndex) with rows := rows } =
          sheetRowsToWindows sheet sheetIndex limits.rowsPerChunk
            (rows.map (RowMark.read workbook)) := rfl
      rw [same, Nat.sub_sub] at whole
      by_cases used : limits.maxCells ≤ total + cellCount rows
      · rw [if_pos used]
        rw [Nat.sub_eq_zero_of_le used, cutSheets_zero, List.append_nil] at whole
        exact .inl whole.symm
      · rw [if_neg used]
        by_cases enough : limits.maxPages ≤ (pages ++ sheetRowsToWindows sheet sheetIndex
            limits.rowsPerChunk (rows.map (RowMark.read workbook))).length
        · rw [if_pos enough, whole, List.take_append_of_le_length enough, List.length_append]
          exact .inr ⟨Nat.le_add_right_of_le enough, rfl⟩
        · rw [if_neg enough]
          exact ih _ _ others whole
    · have state : ¬ visibleState sheet.state = true := visible
      rw [List.filter_cons_of_neg visible] at whole
      rw [if_neg state]
      exact ih _ _ others whole

omit [DigitTables] in
def isListed (mark : SheetMark) : Bool := mark.index.isSome

/-- The sheets of the loop are the listed ones. -/
theorem listed_survey (sheets : List SheetElement) (listed : Nat) :
    (surveySheets workbook listed sheets).filter isListed =
      (((workbookSheets ⟨sheets, workbook.sharedStrings⟩).zipIdx (listed + 1)).filter isShown).map
        (markOf workbook) := by
  unfold workbookSheets
  induction sheets generalizing listed with
  | nil => rfl
  | cons sheet sheets ih =>
    rw [surveySheets]
    dsimp only at ih ⊢
    cases part : sheet.rows with
    | none =>
      rw [List.filterMap_cons_none (by rw [part]; rfl)]
      exact ih listed
    | some rows =>
      by_cases blank : sheetName sheet = ""
      · rw [List.filterMap_cons_none (by rw [part]; simp [blank])]
        simp only [if_pos blank, List.filter_append, ih]
        split <;> rfl
      · rw [List.filterMap_cons_some (b := ⟨sheetName sheet, rows, sheet.state⟩)
          (by rw [part]; simp [blank]), List.zipIdx_cons]
        simp only [if_neg blank, List.filter_append, ih]
        by_cases visible :
            isShown (⟨sheetName sheet, rows, sheet.state⟩, listed + 1) = true
        · have state : visibleState sheet.state = true := visible
          rw [if_pos state, List.filter_cons_of_pos rfl, List.filter_cons_of_pos visible]
          rfl
        · have state : ¬ visibleState sheet.state = true := visible
          rw [if_neg state, List.filter_cons_of_neg visible]
          rfl

omit [DigitTables] in
/-- Sheets that give no cells before the limits may be left out. -/
theorem cutSheets_listed (maxRows cells : Nat) (sheets : List SheetMark)
    (named : ∀ sheet ∈ cutSheets maxRows cells sheets, sheet.index = none → sheet.rows = []) :
    cutSheets maxRows cells (sheets.filter isListed) =
      (cutSheets maxRows cells sheets).filter isListed := by
  induction sheets generalizing cells with
  | nil => rfl
  | cons sheet sheets ih =>
    rw [cutSheets] at named ⊢
    have rest := ih _ fun other member => named other (List.mem_cons_of_mem _ member)
    by_cases listed : isListed sheet = true
    · have cut : isListed { sheet with rows := cutRows cells (sheet.rows.take maxRows) } = true :=
        listed
      rw [List.filter_cons_of_pos listed, cutSheets, List.filter_cons_of_pos cut, rest]
    · have cut : ¬ isListed { sheet with rows := cutRows cells (sheet.rows.take maxRows) } = true :=
        listed
      have empty := named _ List.mem_cons_self (Option.not_isSome_iff_eq_none.mp listed)
      dsimp only at empty
      rw [List.filter_cons_of_neg listed, List.filter_cons_of_neg cut, ← rest, empty]
      rfl

omit [DigitTables] in
theorem marksOf_listed (sheets : List SheetMark)
    (named : ∀ sheet ∈ sheets, sheet.index = none → sheet.rows = []) :
    marksOf (sheets.filter isListed) = marksOf sheets := by
  induction sheets with
  | nil => rfl
  | cons sheet sheets ih =>
    have rest := ih fun other member => named other (List.mem_cons_of_mem _ member)
    unfold marksOf at rest ⊢
    rw [List.flatMap_cons, ← rest]
    by_cases listed : isListed sheet = true
    · rw [List.filter_cons_of_pos listed, List.flatMap_cons]
    · have empty := named sheet List.mem_cons_self (Option.not_isSome_iff_eq_none.mp listed)
      rw [List.filter_cons_of_neg listed, empty]
      rfl

/-- A cell as the page of its row shows it. -/
def Mark.shown (mark : Mark) : PlacedCell :=
  ⟨mark.index, mark.row.number, columnLabel mark.cell.number,
    textWords ((cellValue (sharedStringValues workbook) mark.cell.element).getD "")⟩

theorem windows_placed {mark : SheetMark} {index : Nat} (known : mark.index = some index) :
    (mark.windows limits workbook).flatMap SheetWindow.placed =
      (marksOf [mark]).map (Mark.shown workbook) := by
  have rows := sheetWindows_rows mark.sheet index limits.rowsPerChunk limits.some_chunk
    (mark.rows.map (RowMark.read workbook))
  have placed (window : SheetWindow) (member : window ∈ mark.windows limits workbook) :
      window.placed = window.rows.flatMap fun row => row.2.map fun cell =>
        ⟨some index, row.1, columnLabel cell.column, textWords cell.value⟩ := by
    obtain ⟨_, _, _, same⟩ := sheetWindow_batch limits.some_chunk member
    unfold SheetWindow.placed
    rw [same, known]
    rfl
  rw [List.flatMap_congr placed, ← List.flatMap_assoc]
  unfold SheetMark.windows
  rw [known, Option.getD_some, rows]
  simp only [marksOf, List.flatMap_map, List.flatMap_singleton, List.map_flatMap, known]
  refine List.flatMap_congr fun row _ => ?_
  rw [RowMark.read, List.map_map, List.map_map]
  rfl

theorem sheets_placed (sheets : List SheetMark) (listed : ∀ sheet ∈ sheets, isListed sheet) :
    (sheets.flatMap (SheetMark.windows limits workbook)).flatMap SheetWindow.placed =
      (marksOf sheets).map (Mark.shown workbook) := by
  induction sheets with
  | nil => rfl
  | cons sheet sheets ih =>
    obtain ⟨index, known⟩ := Option.isSome_iff_exists.mp (listed sheet List.mem_cons_self)
    have rest := ih fun other member => listed other (List.mem_cons_of_mem _ member)
    have shape : marksOf (sheet :: sheets) = marksOf [sheet] ++ marksOf sheets := by
      simp [marksOf]
    rw [List.flatMap_cons, List.flatMap_append, rest, windows_placed limits workbook known, shape,
      List.map_append]

end Sheets

end RagProject.Ingest
