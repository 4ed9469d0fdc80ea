import Mathlib.Algebra.Order.Group.Multiset
import Mathlib.Tactic.Abel
import RagProject.Ingest.HtmlTree

/-! The words of a page that get into its blocks: all the visible ones, but for the cells of tables
that are nested or have no row. -/
namespace RagProject.Ingest
open Python Context

abbrev Words := Multiset (List Char)

section Fate
variable [UnicodeTables]

/-- The next tag tr is an end tag. -/
def rowCloses : List HtmlEvent → Bool
  | [] => false
  | .starttag tag _ :: rest => if lowerText tag = "tr" then false else rowCloses rest
  | .endtag tag :: rest => if lowerText tag = "tr" then true else rowCloses rest
  | _ :: rest => rowCloses rest

/-- The next tag of a cell is an end tag, in a row, and the row is closed after it. A row is open if
the latest tag tr is a start tag. -/
def cellKept (rowOpen : Bool) : List HtmlEvent → Bool
  | [] => false
  | .starttag tag _ :: rest =>
    if lowerText tag ∈ tableCellTags then false
    else cellKept (if lowerText tag = "tr" then true else rowOpen) rest
  | .endtag tag :: rest =>
    if lowerText tag ∈ tableCellTags then rowOpen && rowCloses rest
    else cellKept (if lowerText tag = "tr" then false else rowOpen) rest
  | _ :: rest => cellKept rowOpen rest

/-- The latest tag of a kind is a start tag. -/
def opened (kind : String → Bool) (isOpen : Bool) : HtmlEvent → Bool
  | .starttag tag _ => if kind (lowerText tag) then true else isOpen
  | .endtag tag => if kind (lowerText tag) then false else isOpen
  | _ => isOpen

end Fate

/-- What the handlers do to the words: those written to blocks or waiting for the next one, and
those of the open row and of the open cell. -/
structure WordView where
  written : Words
  row : Option Words
  cell : Option Words
  inTitle : Bool

namespace WordView
variable [UnicodeTables]

def start (v : WordView) (tag : String) : WordView :=
  if tag = "title" then { v with inTitle := true }
  else if tag ∈ tableCellTags then { v with cell := some 0 }
  else if tag = "tr" then { v with row := some 0 }
  else v

def finish (v : WordView) (bars : Nat) (tag : String) : WordView :=
  if tag = "title" then { v with inTitle := false }
  else if tag ∈ tableCellTags then
    match v.cell with
    | some words => { v with row := v.row.map (· + words), cell := none }
    | none => v
  else if tag = "tr" then
    { v with written := v.written + v.row.getD 0 + Multiset.replicate bars ['|'], row := none }
  else v

def add (v : WordView) (words : Words) : WordView :=
  if v.inTitle then v
  else match v.cell with
    | some before => { v with cell := some (before + words) }
    | none => { v with written := v.written + words }

def step (v : WordView) (bars : Nat) : HtmlEvent → WordView
  | .starttag tag _ => v.start (lowerText tag)
  | .endtag tag => v.finish bars (lowerText tag)
  | .data text => v.add (textWords text)
  | .comment _ => v

end WordView

namespace SafeHtmlTextParser

def written (p : SafeHtmlTextParser) : Words :=
  (p.blocks.flatMap fun block => textWords block.text : List (List Char)) +
    (p.currentText.flatMap textWords : List (List Char))

def view (p : SafeHtmlTextParser) : WordView where
  written := p.written
  row := p.tableRowCells.map fun cells => (cells.flatMap textWords : List (List Char))
  cell := p.tableCellText.map fun texts => (texts.flatMap textWords : List (List Char))
  inTitle := p.inTitle

theorem appendText_view (p : SafeHtmlTextParser) (data : String) :
    (p.appendText data).view = { p.view with written := p.view.written + textWords data } := by
  by_cases blank : cleanText data = ""
  · simp only [appendText, blank, if_true, cleanText_empty.mp blank, Multiset.coe_nil, add_zero]
  · simp only [appendText, blank, if_false, view, written, List.flatMap_append,
      List.flatMap_singleton, textWords_clean]
    rw [← Multiset.coe_add, ← add_assoc]

theorem flushCurrent_view (p : SafeHtmlTextParser) (elementType : Option String) :
    (p.flushCurrent elementType).view = p.view := by
  by_cases blank : cleanText (joinTexts " " p.currentText) = ""
  · have none : p.currentText.flatMap textWords = [] := by
      rw [← textWords_blanks]
      exact cleanText_empty.mp blank
    simp only [flushCurrent, blank, if_true, view, written, none, List.flatMap_nil]
  · simp only [flushCurrent, blank, if_false, view, written, List.flatMap_append, List.flatMap_singleton,
      textWords_clean, textWords_blanks, List.flatMap_nil]
    simp

/-- The words of cells that are joined with bars. -/
theorem textWords_bars (cells : List String) :
    (textWords (joinTexts " | " cells) : Words) =
      (cells.flatMap textWords : List (List Char)) + Multiset.replicate (cells.length - 1) ['|'] := by
  have blanks : " | ".toList = [' ', '|', ' '] := rfl
  have bar : Word ['|'] := ⟨by simp, by decide⟩
  unfold joinTexts
  rw [blanks]
  induction cells with
  | nil => rfl
  | cons cell cells ih =>
    cases cells with
    | nil =>
      unfold textWords
      simp [join]
    | cons next cells =>
      have shape : join [' ', '|', ' '] ((cell :: next :: cells).map String.toList) =
          cell.toList ++ ' ' :: ('|' :: ' ' :: join [' ', '|', ' '] ((next :: cells).map String.toList)) := by
        simp [join]
      have words : textWords (String.ofList (join [' ', '|', ' ']
          ((cell :: next :: cells).map String.toList))) = textWords cell ++ (['|'] ::
            textWords (String.ofList (join [' ', '|', ' '] ((next :: cells).map String.toList)))) := by
        unfold textWords
        rw [shape, String.toList_ofList, String.toList_ofList, List.map_append, List.map_cons,
          List.map_cons, List.map_cons]
        exact (splitWords_cut rfl _ _).trans (congrArg _ (splitWords_append bar rfl _))
      have whole : (cell :: next :: cells).flatMap textWords =
          textWords cell ++ (next :: cells).flatMap textWords := List.flatMap_cons
      have more : (cell :: next :: cells).length - 1 = (next :: cells).length - 1 + 1 := rfl
      rw [words, ← Multiset.coe_add, ← Multiset.cons_coe, ih, whole, ← Multiset.coe_add, more,
        Multiset.replicate_succ, ← Multiset.singleton_add, ← Multiset.singleton_add]
      abel

theorem closeCell_view (p : SafeHtmlTextParser) (texts : List String) :
    (p.closeCell texts).view = { p.view with
      row := p.view.row.map (· + (texts.flatMap textWords : List (List Char)))
      cell := none } := by
  have words : textWords (cleanText (joinTexts " " texts)) = texts.flatMap textWords := by
    rw [textWords_clean, textWords_blanks]
  cases row : p.tableRowCells with
  | none => simp only [closeCell, view, row, Option.map_none, written]
  | some cells =>
    by_cases blank : cleanText (joinTexts " " texts) = ""
    · rw [cleanText_empty.mp (by rw [blank]; rfl)] at words
      simp only [closeCell, view, row, blank, if_true, Option.map_some, written, ← words]
      simp
    · simp only [closeCell, view, row, blank, if_false, Option.map_some, written, ← words]
      simp

theorem closeRow_view (p : SafeHtmlTextParser) (cells : List String) :
    (p.closeRow cells).view = { p.view with
      written := p.view.written + (cells.flatMap textWords : List (List Char)) +
        Multiset.replicate (cells.length - 1) ['|']
      row := none } := by
  have added := flushCurrent_view (p.appendText (joinTexts " | " cells)) (some "table_row")
  rw [appendText_view, textWords_bars, ← add_assoc] at added
  by_cases none : cells = []
  · simp only [closeRow, none, if_true, view, written]
    simp
  · simp only [closeRow, none, if_false]
    generalize (p.appendText (joinTexts " | " cells)).flushCurrent (some "table_row") = q at added
    simp only [view, written] at added ⊢
    simp only [WordView.mk.injEq] at added ⊢
    exact ⟨added.1, rfl, added.2.2⟩

variable [UnicodeTables]

theorem closeHeading_view {p : SafeHtmlTextParser} (tag : String)
    (plain : cleanText (joinTexts " " p.currentText) = "" ∨
      Plain (cleanText (joinTexts " " p.currentText))) : (p.closeHeading tag).view = p.view := by
  have words : textWords (cleanText (joinTexts " " p.currentText)) =
      p.currentText.flatMap textWords := by
    rw [textWords_clean, textWords_blanks]
  rcases plain with blank | plain
  · have heading : safeMetadataText (joinTexts " " p.currentText) = "" := by
      simp only [safeMetadataText, blank]
      rfl
    rw [blank] at words
    simp only [closeHeading, heading, if_true, view, written, ← words]
    rfl
  · have heading := safeMetadataText_plain plain
    have shows := plain.1
    rw [← heading] at shows words
    simp only [closeHeading, shows, if_false, view, written, ← words]
    simp

omit [UnicodeTables] in
/-- The tags of tables and of the title are no void tags and no headings. -/
theorem other_tags {tag : String} (other : tag ∈ voidHtmlTags ∨ tag ∈ headingTags) :
    tag ≠ "title" ∧ tag ∉ tableCellTags ∧ tag ≠ "tr" := by
  have all : ∀ t ∈ voidHtmlTags ++ headingTags, t ≠ "title" ∧ t ∉ tableCellTags ∧ t ≠ "tr" := by
    decide
  exact all tag (List.mem_append.mpr other)

theorem openTag_view {p : SafeHtmlTextParser} {tag : String} {attrs : Attrs}
    (seen : ¬HtmlNodes.Hides tag attrs ∨ lowerText tag ∈ voidHtmlTags) :
    (p.openTag (lowerText tag) attrs).view = p.view.start (lowerText tag) := by
  have flushed := flushCurrent_view p none
  unfold openTag WordView.start
  generalize p.flushCurrent none = q at flushed
  by_cases hides : lowerText tag ∈ blockedHtmlTags ∨ isHiddenHtmlElement attrs = true
  · have isVoid := seen.resolve_left fun shows => shows hides
    obtain ⟨title, cell, row⟩ := other_tags (.inl isVoid)
    rw [if_pos hides, if_pos isVoid, if_neg title, if_neg cell, if_neg row]
  · rw [if_neg hides]
    by_cases title : lowerText tag = "title"
    · rw [if_pos title, if_pos title]
      rfl
    rw [if_neg title, if_neg title]
    by_cases heading : lowerText tag ∈ headingTags
    · obtain ⟨_, cell, row⟩ := other_tags (.inr heading)
      rw [if_pos heading, if_neg cell, if_neg row]
      exact flushed
    rw [if_neg heading]
    by_cases cell : lowerText tag ∈ tableCellTags
    · rw [if_pos cell, if_pos cell]
      rfl
    rw [if_neg cell, if_neg cell]
    by_cases row : lowerText tag = "tr"
    · rw [if_pos row, if_pos row]
      rfl
    rw [if_neg row, if_neg row]
    by_cases block : lowerText tag ∈ blockTags
    · rw [if_pos block]
      exact flushed
    · rw [if_neg block]

/-- The bars that the end of a row puts between its cells. -/
def barsAt (p : SafeHtmlTextParser) : HtmlEvent → Nat
  | .endtag tag => if lowerText tag = "tr" then (p.tableRowCells.getD []).length - 1 else 0
  | _ => 0

theorem closeTag_view {p : SafeHtmlTextParser} {tag : String}
    (plain : lowerText tag ∈ headingTags → cleanText (joinTexts " " p.currentText) = "" ∨
      Plain (cleanText (joinTexts " " p.currentText))) :
    (p.closeTag (lowerText tag)).view =
      p.view.finish (p.barsAt (.endtag tag)) (lowerText tag) := by
  unfold closeTag WordView.finish barsAt
  by_cases title : lowerText tag = "title"
  · rw [if_pos title, if_pos title]
    rfl
  rw [if_neg title, if_neg title]
  have others : (if lowerText tag ∈ headingTags then p.closeHeading (lowerText tag)
      else if lowerText tag ∈ blockTags then p.flushCurrent none else p).view = p.view := by
    by_cases heading : lowerText tag ∈ headingTags
    · rw [if_pos heading]
      exact closeHeading_view _ (plain heading)
    rw [if_neg heading]
    by_cases block : lowerText tag ∈ blockTags
    · rw [if_pos block]
      exact flushCurrent_view p none
    · rw [if_neg block]
  generalize (if lowerText tag ∈ headingTags then p.closeHeading (lowerText tag)
    else if lowerText tag ∈ blockTags then p.flushCurrent none else p) = q at others
  by_cases cell : lowerText tag ∈ tableCellTags
  · have row : lowerText tag ≠ "tr" := by
      intro same
      rw [same] at cell
      exact absurd cell (by decide)
    rw [if_pos cell, if_pos cell, if_neg row]
    cases open_cell : p.tableCellText with
    | some texts =>
      have shape : p.view.cell = some ((texts.flatMap textWords : List (List Char)) : Words) := by
        simp only [view, open_cell, Option.map_some]
      rw [shape]
      exact closeCell_view p texts
    | none =>
      have shape : p.view.cell = none := by
        simp only [view, open_cell, Option.map_none]
      rw [shape]
      exact others
  · rw [if_neg cell, if_neg cell]
    by_cases row : lowerText tag = "tr"
    · rw [if_pos row, if_pos row]
      dsimp only
      rw [if_pos row]
      cases open_row : p.tableRowCells with
      | some cells =>
        have shape : p.view.row = some ((cells.flatMap textWords : List (List Char)) : Words) := by
          simp only [view, open_row, Option.map_some]
        rw [shape]
        exact closeRow_view p cells
      | none =>
        have shape : p.view.row = none := by
          simp only [view, open_row, Option.map_none]
        have same : ({ p.view with row := none } : WordView) = p.view := by rw [← shape]
        simpa [others, shape] using same.symm
    · rw [if_neg row, if_neg row]
      exact others

/-- At the end tag of a heading its text is plain, or blank. -/
def HeadingPlain (p : SafeHtmlTextParser) : HtmlEvent → Prop
  | .endtag tag => lowerText tag ∈ headingTags →
    cleanText (joinTexts " " p.currentText) = "" ∨ Plain (cleanText (joinTexts " " p.currentText))
  | _ => True

instance (p : SafeHtmlTextParser) : (event : HtmlEvent) → Decidable (p.HeadingPlain event)
  | .endtag tag => inferInstanceAs (Decidable (lowerText tag ∈ headingTags →
    cleanText (joinTexts " " p.currentText) = "" ∨ Plain (cleanText (joinTexts " " p.currentText))))
  | .starttag _ _ | .data _ | .comment _ => isTrue trivial

/-- A handler does to the words what its view does. -/
theorem take_view {p : SafeHtmlTextParser} {event : HtmlEvent}
    (seen : ∀ tag attrs, event = .starttag tag attrs →
      ¬HtmlNodes.Hides tag attrs ∨ lowerText tag ∈ voidHtmlTags)
    (plain : p.HeadingPlain event) : (p.take event).view = p.view.step (p.barsAt event) event := by
  cases event with
  | starttag tag attrs => exact openTag_view (seen tag attrs rfl)
  | endtag tag => exact closeTag_view plain
  | data text =>
    have title : p.view.inTitle = p.inTitle := rfl
    simp only [take, addText, WordView.step, WordView.add, title]
    split
    · rfl
    · cases open_cell : p.tableCellText with
      | none =>
        have shape : p.view.cell = none := by
          simp only [view, open_cell, Option.map_none]
        rw [shape]
        exact (appendText_view p text).trans (by simp [shape, title])
      | some texts =>
        have shape : p.view.cell = some ((texts.flatMap textWords : List (List Char)) : Words) := by
          simp only [view, open_cell, Option.map_some]
        rw [shape]
        simp [view, written]
  | comment text => rfl

end SafeHtmlTextParser

namespace WordView
variable [UnicodeTables]

/-- The words of texts that are written to blocks, from a state of the handlers on. -/
def reached (inTitle cellOpen rowOpen : Bool) : List HtmlEvent → Words
  | [] => 0
  | event :: rest =>
    (match event with
      | .data text =>
        if inTitle || (cellOpen && !cellKept rowOpen rest) then 0 else (textWords text : Words)
      | _ => 0) +
    reached (opened (· == "title") inTitle event)
      (opened (tableCellTags.contains ·) cellOpen event) (opened (· == "tr") rowOpen event) rest

/-- All that will be written to blocks. -/
def outcome (v : WordView) (events : List HtmlEvent) : Words :=
  v.written + (if rowCloses events then v.row.getD 0 else 0) +
    (if cellKept v.row.isSome events then v.cell.getD 0 else 0) +
    reached v.inTitle v.cell.isSome v.row.isSome events

omit [UnicodeTables] in
theorem not_cells : "title" ∉ tableCellTags ∧ "tr" ∉ tableCellTags := by decide

theorem start_outcome (v : WordView) (tag : String) (attrs : Attrs) (rest : List HtmlEvent) :
    (v.start (lowerText tag)).outcome rest = v.outcome (.starttag tag attrs :: rest) := by
  unfold start
  by_cases title : lowerText tag = "title"
  · simp [outcome, rowCloses, cellKept, reached, opened, title, not_cells.1]
  by_cases cell : lowerText tag ∈ tableCellTags
  · have row : lowerText tag ≠ "tr" := fun same => not_cells.2 (same ▸ cell)
    simp [outcome, rowCloses, cellKept, reached, opened, title, cell, row]
  by_cases row : lowerText tag = "tr"
  · simp [outcome, rowCloses, cellKept, reached, opened, row, not_cells.2]
  · simp [outcome, rowCloses, cellKept, reached, opened, title, cell, row]

theorem finish_outcome (v : WordView) (bars : Nat) (tag : String) (rest : List HtmlEvent) :
    (v.finish bars (lowerText tag)).outcome rest = v.outcome (.endtag tag :: rest) +
      if lowerText tag = "tr" then Multiset.replicate bars ['|'] else 0 := by
  unfold finish
  by_cases title : lowerText tag = "title"
  · simp [outcome, rowCloses, cellKept, reached, opened, title, not_cells.1]
  by_cases cell : lowerText tag ∈ tableCellTags
  · have row : lowerText tag ≠ "tr" := fun same => not_cells.2 (same ▸ cell)
    cases open_cell : v.cell with
    | none => simp [outcome, rowCloses, cellKept, reached, opened, title, cell, row, open_cell]
    | some words =>
      cases open_row : v.row with
      | none => simp [outcome, rowCloses, cellKept, reached, opened, title, cell, row, open_row]
      | some before =>
        by_cases closes : rowCloses rest = true
        · simp [outcome, rowCloses, cellKept, reached, opened, title, cell, row, open_cell,
            open_row, closes]
          abel
        · simp [outcome, rowCloses, cellKept, reached, opened, title, cell, row, open_row, closes]
  by_cases row : lowerText tag = "tr"
  · simp only [outcome, rowCloses, cellKept, reached, opened, row, not_cells.2]
    simp
    abel
  · simp [outcome, rowCloses, cellKept, reached, opened, title, cell, row]

theorem add_outcome (v : WordView) (text : String) (rest : List HtmlEvent) :
    (v.add (textWords text)).outcome rest = v.outcome (.data text :: rest) := by
  have shape : v.outcome (.data text :: rest) =
      v.written + (if rowCloses rest then v.row.getD 0 else 0) +
        (if cellKept v.row.isSome rest then v.cell.getD 0 else 0) +
        ((if v.inTitle || (v.cell.isSome && !cellKept v.row.isSome rest) then 0
          else (textWords text : Words)) + reached v.inTitle v.cell.isSome v.row.isSome rest) := rfl
  rw [shape, add]
  by_cases title : v.inTitle = true
  · simp [outcome, title]
  · cases open_cell : v.cell with
    | none =>
      simp only [outcome, title]
      simp
      abel
    | some words =>
      by_cases kept : cellKept v.row.isSome rest = true
      · simp [outcome, title, kept]
        abel
      · simp [outcome, title, kept]

/-- The bars that are written at the end of a row. -/
def barsOf (bars : Nat) : HtmlEvent → Words
  | .endtag tag => if lowerText tag = "tr" then Multiset.replicate bars ['|'] else 0
  | _ => 0

/-- A handler writes what was to be written. -/
theorem step_outcome (v : WordView) (bars : Nat) (event : HtmlEvent) (rest : List HtmlEvent) :
    (v.step bars event).outcome rest = v.outcome (event :: rest) + barsOf bars event := by
  cases event with
  | starttag tag attrs => exact (start_outcome v tag attrs rest).trans (add_zero _).symm
  | endtag tag => exact finish_outcome v bars tag rest
  | data text => exact (add_outcome v text rest).trans (add_zero _).symm
  | comment text =>
    have shape : v.outcome (.comment text :: rest) =
        v.written + (if rowCloses rest then v.row.getD 0 else 0) +
          (if cellKept v.row.isSome rest then v.cell.getD 0 else 0) +
          (0 + reached v.inTitle v.cell.isSome v.row.isSome rest) := rfl
    rw [shape, zero_add]
    exact (add_zero _).symm

end WordView

namespace SafeHtmlTextParser
variable [UnicodeTables]

/-- The bars that are put between cells. -/
def barsFrom (p : SafeHtmlTextParser) : List HtmlEvent → Nat
  | [] => 0
  | event :: rest => p.barsAt event + (p.take event).barsFrom rest

/-- Start tags that do not open a suppressed element. -/
def Seen (events : List HtmlEvent) : Prop :=
  ∀ tag attrs, .starttag tag attrs ∈ events →
    ¬HtmlNodes.Hides tag attrs ∨ lowerText tag ∈ voidHtmlTags

def HeadingsPlain (p : SafeHtmlTextParser) : List HtmlEvent → Prop
  | [] => True
  | event :: rest => p.HeadingPlain event ∧ (p.take event).HeadingsPlain rest

instance headingsPlainDecidable :
    (p : SafeHtmlTextParser) → (events : List HtmlEvent) → Decidable (p.HeadingsPlain events)
  | _, [] => isTrue trivial
  | p, event :: rest =>
    have : Decidable ((p.take event).HeadingsPlain rest) := headingsPlainDecidable _ rest
    inferInstanceAs (Decidable (p.HeadingPlain event ∧ (p.take event).HeadingsPlain rest))

/-- The words written after all the events are those that were to be written. -/
theorem takeAll_outcome (events : List HtmlEvent) (seen : Seen events) (p : SafeHtmlTextParser)
    (plain : p.HeadingsPlain events) :
    (p.takeAll events).written =
      p.view.outcome events + Multiset.replicate (p.barsFrom events) ['|'] := by
  induction events generalizing p with
  | nil =>
    have shape : p.view.outcome [] = p.written + 0 + 0 + 0 := rfl
    rw [shape, add_zero, add_zero, add_zero]
    exact (add_zero _).symm
  | cons event rest ih =>
    obtain ⟨here, plain⟩ := plain
    have step := take_view (p := p) (fun tag attrs same => seen tag attrs (same ▸ List.mem_cons_self)) here
    have later := ih (fun tag attrs member => seen tag attrs (List.mem_cons_of_mem _ member))
      (p.take event) plain
    have bars : WordView.barsOf (p.barsAt event) event =
        Multiset.replicate (p.barsAt event) ['|'] := by
      cases event with
      | endtag tag =>
        by_cases row : lowerText tag = "tr"
        · exact if_pos row
        · have none : p.barsAt (.endtag tag) = 0 := if_neg row
          rw [none]
          exact if_neg row
      | starttag tag attrs => rfl
      | data text => rfl
      | comment text => rfl
    rw [step, WordView.step_outcome, bars] at later
    have shape : p.takeAll (event :: rest) = (p.take event).takeAll rest := rfl
    rw [shape, later, barsFrom, Multiset.replicate_add, add_assoc]

end SafeHtmlTextParser
section Account
variable [UnicodeTables]

namespace HtmlNodes

/-- The events of what is shown, each with whether it lies in a title. -/
def marks (inside : Bool) : HtmlNodes → List (Bool × HtmlEvent)
  | .nil => []
  | .text data rest => (inside, .data data) :: rest.marks inside
  | .void tag attrs slash rest =>
    (inside, .starttag tag attrs) ::
      ((if slash then [(inside, .endtag tag)] else []) ++ rest.marks inside)
  | .element tag attrs children rest =>
    if Hides tag attrs then rest.marks inside
    else (inside, .starttag tag attrs) ::
      (children.marks (inside || lowerText tag == "title") ++
        (inside, .endtag tag) :: rest.marks inside)

/-- The words of the texts outside titles and outside suppressed elements. -/
def visibleWords : HtmlNodes → Words
  | .nil => 0
  | .text data rest => (textWords data : Words) + rest.visibleWords
  | .void _ _ _ rest => rest.visibleWords
  | .element tag attrs children rest =>
    (if Hides tag attrs ∨ lowerText tag = "title" then 0 else children.visibleWords) +
      rest.visibleWords

end HtmlNodes

/-- The words of cells that get into no block. -/
def lostFrom (cellOpen rowOpen : Bool) : List (Bool × HtmlEvent) → Words
  | [] => 0
  | (inside, event) :: rest =>
    (match event with
      | .data text =>
        if !inside && (cellOpen && !cellKept rowOpen (rest.map Prod.snd)) then
          (textWords text : Words)
        else 0
      | _ => 0) +
    lostFrom (opened (tableCellTags.contains ·) cellOpen event) (opened (· == "tr") rowOpen event) rest

/-- The words of a title that get into a block. -/
def leakedFrom (inTitle cellOpen rowOpen : Bool) : List (Bool × HtmlEvent) → Words
  | [] => 0
  | (inside, event) :: rest =>
    (match event with
      | .data text =>
        if inside && !inTitle && !(cellOpen && !cellKept rowOpen (rest.map Prod.snd)) then
          (textWords text : Words)
        else 0
      | _ => 0) +
    leakedFrom (opened (· == "title") inTitle event)
      (opened (tableCellTags.contains ·) cellOpen event) (opened (· == "tr") rowOpen event) rest

/-- The words outside titles. -/
def outsideFrom : List (Bool × HtmlEvent) → Words
  | [] => 0
  | (inside, .data text) :: rest => (if inside then 0 else (textWords text : Words)) + outsideFrom rest
  | _ :: rest => outsideFrom rest

/-- No text outside a title comes after the start tag of a title. -/
def TitlesClosed (inTitle : Bool) : List (Bool × HtmlEvent) → Prop
  | [] => True
  | (inside, event) :: rest =>
    (∀ text, event = .data text → inside = false → inTitle = false) ∧
      TitlesClosed (opened (· == "title") inTitle event) rest

/-- What reaches a block is what lies outside titles, without what is lost, and what leaks. -/
theorem account (ms : List (Bool × HtmlEvent)) (inTitle cellOpen rowOpen : Bool)
    (closed : TitlesClosed inTitle ms) :
    WordView.reached inTitle cellOpen rowOpen (ms.map Prod.snd) + lostFrom cellOpen rowOpen ms =
      outsideFrom ms + leakedFrom inTitle cellOpen rowOpen ms := by
  induction ms generalizing inTitle cellOpen rowOpen with
  | nil => rfl
  | cons mark rest ih =>
    obtain ⟨inside, event⟩ := mark
    obtain ⟨here, later⟩ := closed
    have next := ih _ (opened (tableCellTags.contains ·) cellOpen event)
      (opened (· == "tr") rowOpen event) later
    cases event with
    | starttag tag attrs => simpa [WordView.reached, lostFrom, leakedFrom, outsideFrom] using next
    | endtag tag => simpa [WordView.reached, lostFrom, leakedFrom, outsideFrom] using next
    | comment text => simpa [WordView.reached, lostFrom, leakedFrom, outsideFrom] using next
    | data text =>
      simp only [opened] at next
      simp only [List.map_cons, WordView.reached, lostFrom, leakedFrom, outsideFrom, opened]
      cases inside with
      | false =>
        rw [here text rfl rfl] at next ⊢
        cases cellOpen && !cellKept rowOpen (rest.map Prod.snd) with
        | false =>
          simp only [Bool.or_false, Bool.not_false, Bool.and_false, Bool.false_and, if_false,
            Bool.false_eq_true, zero_add]
          rw [add_assoc, next, add_assoc]
        | true =>
          simp only [Bool.or_true, Bool.not_false, Bool.and_true, Bool.false_and, if_true, if_false,
            Bool.false_eq_true, zero_add]
          rw [add_left_comm, next, add_assoc]
      | true =>
        cases inTitle with
        | false =>
          cases cellOpen && !cellKept rowOpen (rest.map Prod.snd) with
          | false =>
            simp only [Bool.or_false, Bool.not_true, Bool.not_false, Bool.and_true, Bool.false_and,
              if_true, if_false, Bool.false_eq_true, zero_add]
            rw [add_assoc, next, add_left_comm]
          | true =>
            simp only [Bool.or_true, Bool.not_true, Bool.and_false, Bool.false_and, if_true,
              if_false, Bool.false_eq_true, zero_add]
            exact next
        | true =>
          simp only [Bool.true_or, Bool.not_true, Bool.and_false, Bool.false_and, if_true, if_false,
            Bool.false_eq_true, zero_add]
          exact next

namespace HtmlNodes

theorem marks_events (nodes : HtmlNodes) (inside : Bool) :
    (nodes.marks inside).map Prod.snd = nodes.shown.events := by
  induction nodes generalizing inside with
  | nil => rfl
  | text data rest ih => simp [marks, shown, events, ih]
  | void tag attrs slash rest ih =>
    cases slash with
    | false => simp [marks, shown, events, ih]
    | true => simp [marks, shown, events, ih]
  | element tag attrs children rest inner later =>
    by_cases hides : Hides tag attrs
    · simp [marks, shown, hides, later]
    · simp [marks, shown, events, hides, inner, later]

theorem marks_closed {nodes : HtmlNodes} (nested : nodes.Nested) (inside inTitle : Bool)
    (more : List (Bool × HtmlEvent)) (here : inside = false → inTitle = false)
    (after : ∀ t, (inside = false → t = false) → TitlesClosed t more) :
    TitlesClosed inTitle (nodes.marks inside ++ more) := by
  induction nodes generalizing inside inTitle more with
  | nil => exact after inTitle here
  | text data rest ih => exact ⟨fun _ _ => here, ih nested inside inTitle more here after⟩
  | void tag attrs slash rest ih =>
    obtain ⟨isVoid, nested⟩ := nested
    have other : (lowerText tag == "title") = false := by
      simpa using (SafeHtmlTextParser.other_tags (.inl isVoid)).1
    have rest_closed := ih nested inside inTitle more here after
    cases slash with
    | false =>
      refine ⟨fun _ same => (nomatch same), ?_⟩
      simpa [opened, other] using rest_closed
    | true =>
      refine ⟨fun _ same => (nomatch same), fun _ same => (nomatch same), ?_⟩
      simpa [opened, other] using rest_closed
  | element tag attrs children rest inner later =>
    obtain ⟨_, nested, nested'⟩ := nested
    rw [marks]
    by_cases hides : Hides tag attrs
    · rw [if_pos hides]
      exact later nested' inside inTitle more here after
    · rw [if_neg hides, List.cons_append, List.append_assoc]
      refine ⟨fun _ same => (nomatch same), ?_⟩
      apply inner nested
      · intro outside
        obtain ⟨outer, other⟩ := Bool.or_eq_false_iff.mp outside
        simp only [opened, other, Bool.false_eq_true, if_false]
        exact here outer
      · intro t closed
        refine ⟨fun _ same => (nomatch same), ?_⟩
        apply later nested' _ _ _ _ after
        intro outer
        by_cases title : (lowerText tag == "title") = true
        · simp only [opened, title, if_true]
        · simp only [opened, title]
          apply closed
          simpa [outer] using title

theorem marks_outside (nodes : HtmlNodes) (inside : Bool) (more : List (Bool × HtmlEvent)) :
    outsideFrom (nodes.marks inside ++ more) =
      (if inside then 0 else nodes.visibleWords) + outsideFrom more := by
  induction nodes generalizing inside more with
  | nil => cases inside <;> simp [marks, visibleWords]
  | text data rest ih => 
    cases inside with
    | false => simp [marks, visibleWords, outsideFrom, ih, add_assoc]
    | true => simp [marks, outsideFrom, ih]
  | void tag attrs slash rest ih =>
    cases slash with
    | false => simpa [marks, visibleWords, outsideFrom] using ih inside more
    | true => simpa [marks, visibleWords, outsideFrom] using ih inside more
  | element tag attrs children rest inner later =>
    rw [marks, visibleWords]
    by_cases hides : Hides tag attrs
    · simpa [hides] using later inside more
    · have starts (ms : List (Bool × HtmlEvent)) :
          outsideFrom ((inside, .starttag tag attrs) :: ms) = outsideFrom ms := rfl
      have ends (ms : List (Bool × HtmlEvent)) :
          outsideFrom ((inside, .endtag tag) :: ms) = outsideFrom ms := rfl
      rw [if_neg hides, List.cons_append, List.append_assoc, starts, inner, List.cons_append, ends,
        later]
      cases inside with
      | true => simp
      | false =>
        by_cases title : lowerText tag = "title"
        · simp [title]
        · simp [title, hides, add_assoc]

theorem shown_seen {nodes : HtmlNodes} (nested : nodes.Nested) :
    SafeHtmlTextParser.Seen nodes.shown.events := by
  induction nodes with
  | nil => exact fun _ _ none => (nomatch none)
  | text data rest ih =>
    intro tag attrs member
    exact ih nested tag attrs (by simpa [shown, events] using member)
  | void name more slash rest ih =>
    obtain ⟨isVoid, nested⟩ := nested
    intro tag attrs member
    simp only [shown, events, List.mem_cons, List.mem_append, HtmlEvent.starttag.injEq] at member
    rcases member with ⟨rfl, _⟩ | closing | later
    · exact .inr isVoid
    · split at closing
      · exact absurd closing (by simp)
      · cases closing
    · exact ih nested tag attrs later
  | element name more children rest inner later =>
    obtain ⟨_, nested, nested'⟩ := nested
    intro tag attrs member
    rw [shown] at member
    by_cases hides : Hides name more
    · rw [if_pos hides] at member
      exact later nested' tag attrs member
    · rw [if_neg hides] at member
      simp only [events, List.mem_cons, List.mem_append, HtmlEvent.starttag.injEq, reduceCtorEq,
        false_or] at member
      rcases member with ⟨rfl, rfl⟩ | inside | after
      · exact .inl hides
      · exact inner nested tag attrs inside
      · exact later nested' tag attrs after

end HtmlNodes
section Claim
open SafeHtmlTextParser
variable (nodes : HtmlNodes)

/-- The words over the texts of all blocks. -/
def blockWords (p : SafeHtmlTextParser) : Words :=
  (p.blocks.flatMap fun block => textWords block.text : List (List Char))

/-- The words lost in cells: those of a text after whose cell begins another cell, of a cell outside
a row, or of a cell whose row is followed by another row before it ends. -/
def HtmlNodes.lostWords : Words := lostFrom false false (nodes.marks false)

/-- The words of a title that stand after the end of a title in it. -/
def HtmlNodes.leakedWords : Words := leakedFrom false false false (nodes.marks false)

/-- The blocks hold the visible words, the bars between cells and nothing else, and they are those of
the page without its suppressed elements. -/
structure TextKept (maxElements : Nat) (p : SafeHtmlTextParser) : Prop where
  words : blockWords p = nodes.visibleWords +
    Multiset.replicate (init.barsFrom nodes.shown.events) ['|']
  suppressed : ∃ q, parseHtml maxElements nodes.shown.events = .ok q ∧ q.blocks = p.blocks

variable {nodes}

theorem shown_count (nodes : HtmlNodes) : nodes.shown.elementCount ≤ nodes.elementCount := by
  induction nodes with
  | nil => exact Nat.le_refl 0
  | text data rest ih => exact ih
  | void tag attrs slash rest ih => exact Nat.add_le_add_left ih 1
  | element tag attrs children rest inner later =>
    rw [HtmlNodes.shown, HtmlNodes.elementCount]
    split
    · omega
    · rw [HtmlNodes.elementCount]
      omega

theorem shown_nested (nested : nodes.Nested) : nodes.shown.Nested := by
  induction nodes with
  | nil => trivial
  | text data rest ih => exact ih nested
  | void tag attrs slash rest ih => exact ⟨nested.1, ih nested.2⟩
  | element tag attrs children rest inner later =>
    obtain ⟨solid, nested, nested'⟩ := nested
    rw [HtmlNodes.shown]
    split
    · exact later nested'
    · exact ⟨solid, inner nested, later nested'⟩

theorem shown_shown (nodes : HtmlNodes) : nodes.shown.shown = nodes.shown := by
  induction nodes with
  | nil => rfl
  | text data rest ih => simp [HtmlNodes.shown, ih]
  | void tag attrs slash rest ih => simp [HtmlNodes.shown, ih]
  | element tag attrs children rest inner later =>
    by_cases hides : HtmlNodes.Hides tag attrs
    · simp [HtmlNodes.shown, hides, later]
    · simp [HtmlNodes.shown, hides, inner, later]

/-- What the parser makes of nodes. -/
theorem parse_shown {maxElements : Nat} (nested : nodes.Nested)
    (room : nodes.elementCount ≤ maxElements) :
    parseHtml maxElements nodes.events = .ok
      (((init.takeAll nodes.shown.events).flushCurrent none).counted nodes.elementCount) := by
  have enough : init.elementCount + nodes.elementCount ≤ maxElements := by
    rw [show init.elementCount = 0 from rfl]
    omega
  have fed := (feed_shown nested [] rfl enough).1
  rw [List.append_nil] at fed
  rw [parseHtml, fed, ← flushCurrent_counted]
  rfl

omit [UnicodeTables] in
theorem blockWords_flush (p : SafeHtmlTextParser) : blockWords (p.flushCurrent none) = p.written := by
  have kept : (p.flushCurrent none).view.written = p.written :=
    congrArg WordView.written (flushCurrent_view p none)
  have waiting : (p.flushCurrent none).currentText = [] := rfl
  have shape : (p.flushCurrent none).view.written = blockWords (p.flushCurrent none) +
      ((p.flushCurrent none).currentText.flatMap textWords : List (List Char)) := rfl
  rw [shape, waiting] at kept
  simpa using kept

/-- No visible text is lost and no other text is taken, exactly where the words lost in cells are
those leaked from titles. -/
theorem html_text_kept {maxElements : Nat} (nested : nodes.Nested)
    (room : nodes.elementCount ≤ maxElements) (plain : init.HeadingsPlain nodes.shown.events) :
    ∃ p, parseHtml maxElements nodes.events = .ok p ∧
      (TextKept nodes maxElements p ↔ nodes.lostWords = nodes.leakedWords) := by
  refine ⟨_, parse_shown nested room, ?_⟩
  have outcome := takeAll_outcome _ (HtmlNodes.shown_seen nested) init plain
  have start : init.view.outcome nodes.shown.events =
      WordView.reached false false false nodes.shown.events := by
    simp [WordView.outcome, view, written, init]
  have closed := HtmlNodes.marks_closed nested false false [] (fun _ => rfl) fun _ _ => trivial
  have outside := HtmlNodes.marks_outside nodes false []
  rw [List.append_nil] at closed outside
  have sum := account _ false false false closed
  rw [HtmlNodes.marks_events, outside] at sum
  have words : blockWords (((init.takeAll nodes.shown.events).flushCurrent none).counted
      nodes.elementCount) = WordView.reached false false false nodes.shown.events +
        Multiset.replicate (init.barsFrom nodes.shown.events) ['|'] := by
    have count (q : SafeHtmlTextParser) (n : Nat) : blockWords (q.counted n) = blockWords q := rfl
    rw [count, blockWords_flush, outcome, start]
  have same : WordView.reached false false false nodes.shown.events + nodes.lostWords =
      nodes.visibleWords + nodes.leakedWords := by
    unfold HtmlNodes.lostWords HtmlNodes.leakedWords
    simpa [outsideFrom] using sum
  constructor
  · intro kept
    have reached := add_right_cancel (words.symm.trans kept.words)
    rw [reached] at same
    exact add_left_cancel same
  · intro none
    rw [none] at same
    refine ⟨?_, _, parse_shown (shown_nested nested) ((shown_count nodes).trans room), ?_⟩
    · rw [words, add_right_cancel same]
    · have blocks (q : SafeHtmlTextParser) (m n : Nat) : (q.counted m).blocks = (q.counted n).blocks :=
        rfl
      rw [shown_shown]
      exact blocks _ _ _

end Claim

end Account

section Pages
open SafeHtmlTextParser

local instance pageTables : UnicodeTables := asciiTables

/-- An element with nothing after it. -/
def single (tag : String) (children : HtmlNodes) : HtmlNodes := .element tag [] children .nil

/-- A heading, a hidden remark and a table with a row of two cells. -/
def pricePage : HtmlNodes :=
  .element "h1" [] (.text "Prices " (.element "b" [] (.text "2024" .nil) .nil))
    (.element "p" [("style", some "display: none")] (.text "draft" .nil)
      (single "table" (single "tr" (.element "td" [] (.text "Tea" .nil) (single "td" (.text "3" .nil))))))

theorem price_words : ∃ p, parseHtml 20000 pricePage.events = .ok p ∧
    (TextKept pricePage 20000 p ↔ pricePage.lostWords = pricePage.leakedWords) :=
  html_text_kept (by decide +kernel) (by decide) (by decide +kernel)

/-- A table in the second cell of a row, with a cell after it. -/
def layoutPage : HtmlNodes :=
  single "table" (single "tr" (.element "td" []
    (.text "menu" (single "table" (single "tr" (single "td" (.text "links" .nil)))))
    (single "td" (.text "news" .nil))))

/-- The words menu and news get into no block. -/
theorem nested_table_lost :
    ¬∀ nodes : HtmlNodes, nodes.Nested → nodes.elementCount ≤ 20000 →
      init.HeadingsPlain nodes.shown.events →
        ∃ p, parseHtml 20000 nodes.events = .ok p ∧ TextKept nodes 20000 p := by
  intro all
  obtain ⟨p, parsed, kept⟩ := all layoutPage (by decide +kernel) (by decide) (by decide +kernel)
  have outcome : (parseHtml 20000 layoutPage.events).map (·.blocks) =
      .ok [⟨"links", [], "table_row", 1, 1⟩] := by decide +kernel
  rw [parsed] at outcome
  have blocks : p.blocks = [⟨"links", [], "table_row", 1, 1⟩] := Except.ok.inj outcome
  have words := kept.words
  unfold blockWords at words
  rw [blocks] at words
  exact absurd words (by decide +kernel)

end Pages
end RagProject.Ingest
