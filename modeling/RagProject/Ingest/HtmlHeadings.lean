import RagProject.Ingest.Html
import RagProject.Lib.Abreast
import RagProject.Lib.Outline

/-! Headings and paragraphs: the heading path of a block is the chain of open headings, as long as
no heading of a smaller level closes a section below a skipped one. -/
namespace RagProject.Ingest
open Python Context Outline

inductive HtmlItem where
  | heading (rank : Fin 6) (attrs : Attrs) (texts : List String)
  | paragraph (attrs : Attrs) (texts : List String)
  deriving DecidableEq, Repr

/-- A heading with its level and its text. -/
structure HtmlSection where
  level : Nat
  text : String
  deriving DecidableEq, Repr

namespace HtmlItem

def attrs : HtmlItem → Attrs
  | .heading _ attrs _ | .paragraph attrs _ => attrs

def texts : HtmlItem → List String
  | .heading _ _ texts | .paragraph _ texts => texts

def tag : HtmlItem → String
  | .heading rank _ _ => headingTags[rank]
  | .paragraph _ _ => "p"

def text (item : HtmlItem) : String := cleanText (joinTexts " " item.texts)

def events (item : HtmlItem) : List HtmlEvent :=
  .starttag item.tag item.attrs :: (item.texts.map .data ++ [.endtag item.tag])

/-- The heading that an item is. -/
def sections : HtmlItem → List HtmlSection
  | .heading rank attrs texts => [⟨rank + 1, (heading rank attrs texts).text⟩]
  | .paragraph _ _ => []

variable [UnicodeTables]

/-- Visible, and a heading has a plain text. -/
def Ok (item : HtmlItem) : Prop :=
  isHiddenHtmlElement item.attrs = false ∧ ∀ s ∈ item.sections, Plain s.text

instance (item : HtmlItem) : Decidable item.Ok := inferInstanceAs (Decidable (_ ∧ _))

end HtmlItem

section Places

/-- The headings of a part of a page. -/
def sectionsOf (items : List HtmlItem) : List HtmlSection := items.flatMap HtmlItem.sections

/-- The parts of a page that end at an item with a text. -/
def placesFrom (before : List HtmlItem) : List HtmlItem → List (List HtmlItem)
  | [] => []
  | item :: rest =>
    (if item.text = "" then [] else [before ++ [item]]) ++ placesFrom (before ++ [item]) rest

def places (items : List HtmlItem) : List (List HtmlItem) := placesFrom [] items

/-- An item counted: the blocks so far, and the number of the block of the latest heading. -/
def countItem (counts : Nat × Nat) (item : HtmlItem) : Nat × Nat :=
  if item.text = "" then counts
  else (counts.1 + 1, if item.sections = [] then counts.2 else counts.1 + 1)

def sectionIndex (items : List HtmlItem) : Nat × Nat := items.foldl countItem (0, 0)

theorem placesFrom_append (before items more : List HtmlItem) :
    placesFrom before (items ++ more) =
      placesFrom before items ++ placesFrom (before ++ items) more := by
  induction items generalizing before with
  | nil => simp [placesFrom]
  | cons item items ih =>
    rw [List.cons_append, placesFrom, placesFrom, ih, List.append_assoc, List.append_assoc]
    rfl

theorem places_concat (items : List HtmlItem) (item : HtmlItem) :
    places (items ++ [item]) =
      places items ++ if item.text = "" then [] else [items ++ [item]] := by
  unfold places
  rw [placesFrom_append, List.nil_append, placesFrom, placesFrom, List.append_nil]

theorem sectionsOf_concat (items : List HtmlItem) (item : HtmlItem) :
    sectionsOf (items ++ [item]) = sectionsOf items ++ item.sections := by
  unfold sectionsOf
  rw [List.flatMap_append, List.flatMap_singleton]

theorem sectionIndex_concat (items : List HtmlItem) (item : HtmlItem) :
    sectionIndex (items ++ [item]) =
      if item.text = "" then sectionIndex items
      else ((sectionIndex items).1 + 1,
        if item.sections = [] then (sectionIndex items).2 else (sectionIndex items).1 + 1) := by
  unfold sectionIndex
  rw [List.foldl_append, List.foldl_cons, List.foldl_nil, countItem]

theorem sectionIndex_count (items : List HtmlItem) :
    (sectionIndex items).1 = (places items).length ∧
      (sectionIndex items).2 ≤ (sectionIndex items).1 := by
  induction items using List.reverseRecOn with
  | nil => exact ⟨rfl, Nat.le_refl 0⟩
  | append_singleton items item ih =>
    rw [sectionIndex_concat, places_concat]
    by_cases blank : item.text = ""
    · simpa [blank] using ih
    · simp only [blank, if_false, List.length_append, List.length_singleton, ih.1, true_and]
      split <;> omega

end Places

namespace SafeHtmlTextParser
variable [UnicodeTables] (maxElements : Nat)

/-- Between two elements of a page without tables. -/
structure Idle (p : SafeHtmlTextParser) : Prop where
  suppressedTags : p.suppressedTags = []
  currentText : p.currentText = []
  inTitle : p.inTitle = false
  tableRowCells : p.tableRowCells = none
  tableCellText : p.tableCellText = none

theorem feed_texts (texts : List String) (p : SafeHtmlTextParser)
    (suppressed : p.suppressedTags = []) (title : p.inTitle = false) (cell : p.tableCellText = none) :
    p.feed maxElements (texts.map .data) = .ok { p with
      currentText := p.currentText ++ (texts.map cleanText).filter (· ≠ "") } := by
  induction texts generalizing p with
  | nil => simp [feed]
  | cons text texts ih =>
    have step : p.handleData text = p.appendText text := by
      simp [handleData, addText, suppressed, title, cell]
    rw [List.map_cons, feed]
    simp only [handle, step]
    change (p.appendText text).feed maxElements (texts.map .data) = _
    unfold appendText
    by_cases blank : cleanText text = ""
    · rw [if_pos blank, ih p suppressed title cell, List.map_cons,
        List.filter_cons_of_neg (by simp [blank])]
    · have rest := ih { p with currentText := p.currentText ++ [cleanText text] } suppressed title cell
      rw [if_neg blank, rest, List.map_cons, List.filter_cons_of_pos (by simpa using blank)]
      simp

omit [UnicodeTables] in
theorem kept_text (texts : List String) :
    cleanText (joinTexts " " ((texts.map cleanText).filter (· ≠ ""))) =
      cleanText (joinTexts " " texts) := by
  apply cleanText_congr
  rw [textWords_blanks, textWords_blanks]
  induction texts with
  | nil => rfl
  | cons text texts ih =>
    rw [List.map_cons, List.flatMap_cons, ← ih]
    by_cases blank : cleanText text = ""
    · rw [List.filter_cons_of_neg (by simp [blank]), cleanText_empty.mp blank, List.nil_append]
    · rw [List.filter_cons_of_pos (by simpa using blank), List.flatMap_cons, textWords_clean]

omit [UnicodeTables] in
theorem flushCurrent_idle {p : SafeHtmlTextParser} (idle : p.Idle) :
    p.flushCurrent none = { p with currentType := "body" } := by
  have nothing : cleanText (joinTexts " " []) = "" := rfl
  simp [flushCurrent, idle.currentText, nothing]

/-- What an item adds. -/
def after (p : SafeHtmlTextParser) (item : HtmlItem) : SafeHtmlTextParser :=
  let elementIndex := p.blocks.length + 1
  match item.sections with
  | [] => { p with
      elementCount := p.elementCount + 1
      currentType := "body"
      blocks := p.blocks ++
        if item.text = "" then []
        else [⟨item.text, p.headings, item.tag, elementIndex,
          if p.headings = [] then elementIndex else p.currentParentIndex.getD elementIndex⟩] }
  | s :: _ => { p with
      elementCount := p.elementCount + 1
      currentType := "body"
      currentHeadingLevel := none
      headings := p.headings.take (s.level - 1) ++ [s.text]
      currentParentIndex := some elementIndex
      blocks := p.blocks ++
        [⟨s.text, p.headings.take (s.level - 1) ++ [s.text], item.tag, elementIndex, elementIndex⟩] }

theorem lowerText_small {text : String}
    (small : ∀ c ∈ text.toList, c.toNat < 128 ∧ c.toLower = c) : lowerText text = text := by
  have kept : lower text.toList = text.toList := by
    unfold lower
    rw [List.flatMap_congr (g := fun c => [c]), List.flatMap_singleton']
    intro c member
    rw [if_pos (small c member).1, (small c member).2]
  unfold lowerText
  rw [kept, String.ofList_toList]

/-- What the tag of an item is to the parser. -/
structure ItemTag (tag : String) (isHeading : Prop) : Prop where
  small : lowerText tag = tag
  blocked : tag ∉ blockedHtmlTags
  title : tag ≠ "title"
  cell : tag ∉ tableCellTags
  row : tag ≠ "tr"
  heading : tag ∈ headingTags ↔ isHeading
  block : ¬isHeading → tag ∈ blockTags

theorem item_tag (item : HtmlItem) : ItemTag item.tag (item.sections ≠ []) ∧ 
    ∀ s ∈ item.sections, headingLevel item.tag = s.level := by
  cases item with
  | paragraph attrs texts =>
    change ItemTag "p" ([] ≠ []) ∧ ∀ s ∈ [], _
    exact ⟨⟨lowerText_small (by decide), by decide, by decide, by decide, by decide, by decide, by decide⟩, fun s none => nomatch none⟩
  | heading rank attrs texts =>
    have all : ∀ r : Fin 6, (∀ c ∈ headingTags[r].toList, c.toNat < 128 ∧ c.toLower = c) ∧
      headingTags[r] ∉ blockedHtmlTags ∧ headingTags[r] ≠ "title" ∧ headingTags[r] ∉ tableCellTags ∧ headingTags[r] ≠ "tr" ∧
       headingTags[r] ∈ headingTags ∧ headingLevel headingTags[r] = r + 1 := by
      decide
    obtain ⟨small, blocked, title, cell, row, among, level⟩ := all rank
    refine ⟨⟨lowerText_small small, blocked, title, cell, row, ⟨fun _ => by simp [HtmlItem.sections], fun _ => among⟩, fun none => absurd (by simp [HtmlItem.sections]) none⟩, ?_⟩
    intro s member
    rw [List.mem_singleton.mp member]
    exact level

theorem feed_events (p : SafeHtmlTextParser) (item : HtmlItem) :
    p.feed maxElements item.events =
      (p.handleStarttag maxElements item.tag item.attrs).bind fun q =>
        (q.feed maxElements (item.texts.map .data)).bind fun r => .ok (r.handleEndtag item.tag) := by
  unfold HtmlItem.events
  rw [feed]
  simp only [handle]
  cases p.handleStarttag maxElements item.tag item.attrs with
  | error failure => rfl
  | ok q => exact feed_append maxElements q _ _

variable {maxElements}

omit [UnicodeTables] in
theorem section_text {item : HtmlItem} {s : HtmlSection} (member : s ∈ item.sections) :
    s.text = item.text := by
  cases item with
  | paragraph attrs texts => cases member
  | heading rank attrs texts => rw [List.mem_singleton.mp member]

theorem start_item {p : SafeHtmlTextParser} (idle : p.Idle) {item : HtmlItem} (ok : item.Ok)
    (room : p.elementCount < maxElements) :
    p.handleStarttag maxElements item.tag item.attrs = .ok { p with
      elementCount := p.elementCount + 1
      currentType := item.tag
      currentHeadingLevel := (item.sections.head?.map (·.level)).or p.currentHeadingLevel } := by
  obtain ⟨tag, level⟩ := item_tag item
  have few : ¬maxElements < p.elementCount + 1 := by omega
  have nothing : cleanText (joinTexts " " []) = "" := rfl
  simp only [handleStarttag, tag.small, few, idle.suppressedTags, ne_eq, not_true_eq_false, if_false,
    Except.ok.injEq, openTag, tag.blocked, ok.1, tag.title, tag.cell, tag.row, tag.heading,
    Bool.false_eq_true, or_self, flushCurrent, idle.currentText, nothing, if_true]
  cases shape : item.sections with
  | nil => simp [tag.block, shape]
  | cons s rest => simp [level s (by simp [shape])]

theorem end_item {p : SafeHtmlTextParser} (idle : p.Idle) {item : HtmlItem} (ok : item.Ok) :
    handleEndtag { p with
      elementCount := p.elementCount + 1
      currentType := item.tag
      currentHeadingLevel := (item.sections.head?.map (·.level)).or p.currentHeadingLevel
      currentText := (item.texts.map cleanText).filter (· ≠ "") } item.tag = p.after item := by
  obtain ⟨tag, level⟩ := item_tag item
  simp only [handleEndtag, closeTag, tag.small, tag.title, tag.cell, tag.row, tag.heading,
    idle.suppressedTags, ne_eq, not_true_eq_false, if_false, after]
  cases shape : item.sections with
  | nil =>
    have block := tag.block (by simp [shape])
    have text : cleanText (joinTexts " " ((item.texts.map cleanText).filter (· ≠ ""))) = item.text :=
      kept_text item.texts
    simp only [block, flushCurrent, text, not_true_eq_false, if_false, if_true]
    by_cases blank : item.text = ""
    · simp [blank, idle.currentText]
    · simp [blank, idle.currentText]
  | cons s rest =>
    have there : s ∈ item.sections := shape ▸ List.mem_cons_self
    have text : cleanText (joinTexts " " ((item.texts.map cleanText).filter (· ≠ ""))) = s.text :=
      (kept_text item.texts).trans (section_text there).symm
    have heading : safeMetadataText (joinTexts " " ((item.texts.map cleanText).filter (· ≠ ""))) =
        s.text := by
      rw [safeMetadataText_plain (text ▸ ok.2 s there), text]
    simp only [closeHeading, heading, (ok.2 s there).1, if_false, List.head?_cons, Option.map_some,
      Option.some_or, Option.getD_some, idle.currentText, reduceCtorEq, not_false_eq_true, if_true]

theorem feed_item {p : SafeHtmlTextParser} (idle : p.Idle) {item : HtmlItem} (ok : item.Ok)
    (room : p.elementCount < maxElements) :
    p.feed maxElements item.events = .ok (p.after item) ∧ (p.after item).Idle := by
  have texts := feed_texts maxElements item.texts { p with
      elementCount := p.elementCount + 1
      currentType := item.tag
      currentHeadingLevel := (item.sections.head?.map (·.level)).or p.currentHeadingLevel }
    idle.suppressedTags idle.inTitle idle.tableCellText
  constructor
  · rw [feed_events, start_item idle ok room]
    change Except.bind (feed _ _ _) _ = _
    rw [texts]
    have same := end_item idle ok
    rw [idle.currentText]
    exact congrArg Except.ok same
  · unfold after
    cases item.sections with
    | nil => exact ⟨idle.suppressedTags, idle.currentText, idle.inTitle, idle.tableRowCells, idle.tableCellText⟩
    | cons s rest => exact ⟨idle.suppressedTags, idle.currentText, idle.inTitle, idle.tableRowCells, idle.tableCellText⟩

/-- The block of an item, at the part of the page that ends with it. -/
structure BlockAt (block : HtmlBlock) (place : List HtmlItem) : Prop where
  shows : cleanText block.text = block.text ∧ block.text ≠ ""
  headingPath : block.headingPath =
    ((sectionsOf place).foldl (cutPath HtmlSection.level) []).map HtmlSection.text
  elementIndex : block.elementIndex = (places place).length
  parentIndex : block.parentIndex =
    if sectionsOf place = [] then block.elementIndex else (sectionIndex place).2

/-- The state after a part of the page. -/
structure Running (done : List HtmlItem) (p : SafeHtmlTextParser) : Prop where
  idle : p.Idle
  count : p.elementCount = done.length
  headings : p.headings =
    ((sectionsOf done).foldl (cutPath HtmlSection.level) []).map HtmlSection.text
  blocks : List.Forall₂ BlockAt p.blocks (places done)
  latest : sectionsOf done ≠ [] → p.currentParentIndex = some (sectionIndex done).2

omit [UnicodeTables] in
theorem path_shows {sections : List HtmlSection} (some_heading : sections ≠ []) :
    (sections.foldl (cutPath HtmlSection.level) []).map HtmlSection.text ≠ [] := by
  obtain ⟨before, s, rfl⟩ := List.eq_nil_or_concat sections |>.resolve_left some_heading
  rw [List.concat_eq_append, List.foldl_append]
  simp [cutPath]

theorem running_item {done : List HtmlItem} {p : SafeHtmlTextParser} (running : Running done p)
    {item : HtmlItem} (ok : item.Ok) (idle : (p.after item).Idle) :
    Running (done ++ [item]) (p.after item) := by
  have number : p.blocks.length = (places done).length := running.blocks.length_eq
  cases shape : item.sections with
  | nil =>
    have same : sectionsOf (done ++ [item]) = sectionsOf done := by
      rw [sectionsOf_concat, shape, List.append_nil]
    have kept : (sectionIndex (done ++ [item])).2 = (sectionIndex done).2 := by
      rw [sectionIndex_concat]
      split
      · rfl
      · simp
    refine ⟨idle, ?_, ?_, ?_, ?_⟩
    · simp [after, shape, running.count]
    · simpa [after, shape, same] using running.headings
    · simp only [after, shape, places_concat]
      by_cases blank : item.text = ""
      · simpa [blank] using running.blocks
      · simp only [blank, if_false]
        apply List.rel_append running.blocks
        refine .cons ⟨⟨cleanText_cleanText _, blank⟩, ?_, ?_, ?_⟩ .nil
        · rw [same]
          exact running.headings
        · simp [places_concat, blank, number]
        · rw [same, kept]
          by_cases first : sectionsOf done = []
          · have none : p.headings = [] := by simp [running.headings, first]
            rw [if_pos first, if_pos none]
          · have path : p.headings ≠ [] := by
              rw [running.headings]
              exact path_shows first
            rw [if_neg first, if_neg path, running.latest first, Option.getD_some]
    · rw [same, kept]
      simpa [after, shape] using running.latest
  | cons s rest =>
    have only : item.sections = [s] := by
      cases item with
      | paragraph attrs texts => cases shape
      | heading rank attrs texts =>
        cases shape
        rfl
    have more : sectionsOf (done ++ [item]) = sectionsOf done ++ [s] := by
      rw [sectionsOf_concat, only]
    have there : s ∈ item.sections := shape ▸ List.mem_cons_self
    have shows : item.text ≠ "" := section_text there ▸ (ok.2 s there).1
    have index : (sectionIndex (done ++ [item])).2 = p.blocks.length + 1 := by
      simp [sectionIndex_concat, shows, shape, number, (sectionIndex_count done).1]
    have path : p.headings.take (s.level - 1) ++ [s.text] =
        ((sectionsOf (done ++ [item])).foldl (cutPath HtmlSection.level) []).map
          HtmlSection.text := by
      rw [more, List.foldl_append, List.foldl_cons, List.foldl_nil, cutPath, List.map_append,
        List.map_take, running.headings]
      rfl
    refine ⟨idle, ?_, ?_, ?_, ?_⟩
    · simp [after, shape, running.count]
    · simpa only [after, shape] using path
    · simp only [after, shape, places_concat, shows, if_false]
      apply List.rel_append running.blocks
      refine .cons ⟨?_, path, ?_, ?_⟩ .nil
      · exact ⟨section_text there ▸ cleanText_cleanText _, (ok.2 s there).1⟩
      · simp [places_concat, shows, number]
      · rw [more, if_neg (by simp), index]
    · intro _
      simp only [after, shape, index]

theorem feed_page (items : List HtmlItem) (ok : ∀ item ∈ items, item.Ok)
    (room : items.length ≤ maxElements) :
    ∃ p, init.feed maxElements (items.flatMap HtmlItem.events) = .ok p ∧ Running items p := by
  induction items using List.reverseRecOn with
  | nil =>
    exact ⟨init, rfl, ⟨rfl, rfl, rfl, rfl, rfl⟩, rfl, rfl, .nil, fun none => absurd rfl none⟩
  | append_singleton items item ih =>
    rw [List.length_append, List.length_singleton] at room
    obtain ⟨p, fed, running⟩ := ih (fun i member => ok i (List.mem_append_left _ member)) (by omega)
    have this := ok item (by simp)
    have few : p.elementCount < maxElements := by
      rw [running.count]
      omega
    obtain ⟨step, idle⟩ := feed_item running.idle this few
    refine ⟨p.after item, ?_, ?_⟩
    · rw [List.flatMap_append, feed_append, fed, List.flatMap_singleton]
      exact step
    · exact running_item running this idle

end SafeHtmlTextParser
section Places

theorem place_front {items place : List HtmlItem} (member : place ∈ places items) :
    place <+: items := by
  induction items using List.reverseRecOn with
  | nil => cases member
  | append_singleton items item ih =>
    rw [places_concat] at member
    rcases List.mem_append.mp member with before | last
    · exact (ih before).trans (List.prefix_append _ _)
    · split at last
      · cases last
      · rw [List.mem_singleton.mp last]

/-- The place of the first block, of the second block, and so on. -/
theorem place_index {items place : List HtmlItem} {i : Nat} (found : (places items)[i]? = some place) :
    (places place).length = i + 1 := by
  induction items using List.reverseRecOn with
  | nil => simp [places, placesFrom] at found
  | append_singleton items item ih =>
    rw [places_concat] at found
    rw [List.getElem?_append] at found
    split at found
    · exact ih found
    · rename_i last
      by_cases blank : item.text = ""
      · simp [blank] at found
      · rw [if_neg blank] at found
        obtain ⟨inside, same⟩ := List.getElem?_eq_some_iff.mp found
        rw [List.length_singleton] at inside
        rw [List.getElem_singleton] at same
        rw [← same, places_concat, if_neg blank, List.length_append, List.length_singleton]
        omega

theorem sections_front {a b : List HtmlItem} (front : a <+: b) : sectionsOf a <+: sectionsOf b := by
  obtain ⟨rest, rfl⟩ := front
  unfold sectionsOf
  rw [List.flatMap_append]
  exact List.prefix_append _ _

variable [UnicodeTables]

/-- Every heading has a place. -/
theorem place_of_sections {items : List HtmlItem} (ok : ∀ item ∈ items, item.Ok)
    {part : List HtmlSection} (front : part <+: sectionsOf items) :
    part = [] ∨ ∃ place ∈ places items, sectionsOf place = part := by
  induction items using List.reverseRecOn with
  | nil => exact .inl (List.prefix_nil.mp front)
  | append_singleton items item ih =>
    have earlier (inside : part <+: sectionsOf items) :
        part = [] ∨ ∃ place ∈ places (items ++ [item]), sectionsOf place = part := by
      rcases ih (fun i member => ok i (List.mem_append_left _ member)) inside with none | some_place
      · exact .inl none
      · obtain ⟨place, member, same⟩ := some_place
        refine .inr ⟨place, ?_, same⟩
        rw [places_concat]
        exact List.mem_append_left _ member
    rw [sectionsOf_concat] at front
    cases item with
    | paragraph attrs texts =>
      apply earlier
      simpa [HtmlItem.sections] using front
    | heading rank attrs texts =>
      rcases List.prefix_concat_iff.mp front with whole | inside
      · right
        refine ⟨items ++ [.heading rank attrs texts], ?_, ?_⟩
        · have shows : (HtmlItem.heading rank attrs texts).text ≠ "" :=
            ((ok (.heading rank attrs texts) (by simp)).2 _ List.mem_cons_self).1
          rw [places_concat, if_neg shows]
          simp
        · rw [sectionsOf_concat, whole]
          rfl
      · exact earlier inside

/-- The number of the block of the latest heading grows with each heading, and only then. -/
theorem sectionIndex_append (items mid : List HtmlItem) (ok : ∀ item ∈ mid, item.Ok) :
    (sectionsOf mid = [] → (sectionIndex (items ++ mid)).2 = (sectionIndex items).2) ∧
      (sectionsOf mid ≠ [] → (sectionIndex items).1 < (sectionIndex (items ++ mid)).2) ∧
      (sectionIndex items).1 ≤ (sectionIndex (items ++ mid)).1 := by
  induction mid using List.reverseRecOn with
  | nil => exact ⟨fun _ => by rw [List.append_nil], fun some_heading => absurd rfl some_heading, by simp⟩
  | append_singleton mid item ih =>
    obtain ⟨same, later, count⟩ := ih fun i member => ok i (List.mem_append_left _ member)
    rw [← List.append_assoc, sectionIndex_concat, sectionsOf_concat]
    cases item with
    | paragraph attrs texts =>
      have none : (HtmlItem.paragraph attrs texts).sections = [] := rfl
      rw [none, List.append_nil]
      by_cases blank : (HtmlItem.paragraph attrs texts).text = ""
      · rw [if_pos blank]
        exact ⟨same, later, count⟩
      · rw [if_neg blank, if_pos rfl]
        exact ⟨same, later, Nat.le_succ_of_le count⟩
    | heading rank attrs texts =>
      have shows : (HtmlItem.heading rank attrs texts).text ≠ "" :=
        ((ok (.heading rank attrs texts) (by simp)).2 _ List.mem_cons_self).1
      have some_heading : (HtmlItem.heading rank attrs texts).sections ≠ [] := List.cons_ne_nil _ _
      rw [if_neg shows, if_neg some_heading]
      refine ⟨fun none => ?_, fun _ => Nat.lt_succ_of_le count, Nat.le_succ_of_le count⟩
      exact absurd (List.append_eq_nil_iff.mp none).2 some_heading

end Places

section Keys

theorem before_nul {a b c d : List Char} (first : '\x00' ∉ a) (second : '\x00' ∉ b)
    (same : a ++ '\x00' :: c = b ++ '\x00' :: d) : a = b := by
  have front {x y : List Char} (free : '\x00' ∉ x) :
      (x ++ '\x00' :: y).takeWhile (· ≠ '\x00') = x := by
    rw [List.takeWhile_append_of_pos]
    · simp
    · intro c member
      simp only [decide_eq_true_eq]
      rintro rfl
      exact free member
  rw [← front (y := c) first, same, front second]

/-- The hashed text tells the numbers apart. -/
theorem sectionText_index {path path' : List String} {n m : Nat} (first : path ≠ [])
    (second : path' ≠ []) (same : sectionText path n = sectionText path' m) : n = m := by
  have shape {path : List String} (some_heading : path ≠ []) (n : Nat) :
      (sectionText path n).toList =
        (toString n).toList ++ '\x00' :: join ['\x00'] (path.map String.toList) := by
    obtain ⟨name, rest, rfl⟩ := List.exists_cons_of_ne_nil some_heading
    have nul : "\x00".toList = ['\x00'] := rfl
    simp [sectionText, joinTexts, nul, join]
  have digits (n : Nat) : '\x00' ∉ (toString n).toList := by
    have digits : (toString n).toList = Nat.toDigits 10 n := Nat.toList_repr
    rw [digits]
    intro member
    exact absurd (Nat.isDigit_of_mem_toDigits (by decide) (by decide) member) (by decide)
  have texts := congrArg String.toList same
  rw [shape first, shape second] at texts
  exact toString_injective (String.toList_injective (before_nul (digits n) (digits m) texts))

end Keys
section Claim
variable [UnicodeTables]

/-- The heading path of a block is the chain of the headings that are open where it stands. -/
structure PathAt (block : HtmlBlock) (place : List HtmlItem) : Prop where
  path : block.headingPath =
    (openSections HtmlSection.level (sectionsOf place)).map HtmlSection.text
  increasing : (openSections HtmlSection.level (sectionsOf place)).Pairwise (·.level < ·.level)
  latest : (openSections HtmlSection.level (sectionsOf place)).getLast? =
    (sectionsOf place).getLast?

/-- Both places are below a heading, and no heading lies between them. -/
def SameSection (place other : List HtmlItem) : Prop :=
  sectionsOf place ≠ [] ∧ (sectionsOf place).length = (sectionsOf other).length

omit [UnicodeTables] in
theorem same_section {place other : List HtmlItem} :
    SameSection other place ↔ SameSection place other := by
  unfold SameSection
  rw [← List.length_pos_iff, ← List.length_pos_iff]
  omega

def parentChunkKey (page : ExtractedPage) : Option Value := Dict.get page.metadata "parent_chunk_key"

/-- The blocks and pages of headings and paragraphs keep the outline. -/
structure OutlineKept (items : List HtmlItem) (blocks : List HtmlBlock)
    (pages : List ExtractedPage) : Prop where
  paths : List.Forall₂ PathAt blocks (places items)
  onePage : pages.length = blocks.length
  keys : ∀ (i j : Nat) page other place place', pages[i]? = some page → pages[j]? = some other →
    (places items)[i]? = some place → (places items)[j]? = some place' →
      (parentChunkKey page = parentChunkKey other ↔ i = j ∨ SameSection place place')

/-- Different texts hashed for the blocks have different short digests. -/
def DigestsApart (blocks : List HtmlBlock) : Prop :=
  ∀ b ∈ blocks, ∀ c ∈ blocks,
    shortDigest (sectionText b.headingPath b.parentIndex) =
      shortDigest (sectionText c.headingPath c.parentIndex) →
        sectionText b.headingPath b.parentIndex = sectionText c.headingPath c.parentIndex

open SafeHtmlTextParser

theorem page_of_block {blocks : List HtmlBlock}
    (shows : ∀ b ∈ blocks, cleanText b.text = b.text ∧ b.text ≠ "")
    (metadata : ExtractionInputMetadata) (title : Option String) :
    ∃ name, htmlBlocksToPages blocks metadata title = blocks.map (htmlPage metadata name) := by
  refine ⟨_, congrArg (List.map _) (List.filter_eq_self.mpr ?_)⟩
  intro b member
  obtain ⟨clean, text⟩ := shows b member
  rw [clean]
  simpa using text

omit [UnicodeTables] in
theorem parentKey_element {n m : Nat} :
    parentKey "html" [] n = parentKey "html" [] m ↔ n = m := by
  constructor
  · intro same
    exact toString_injective (String.append_right_inj _ |>.mp same)
  · exact congrArg _

omit [UnicodeTables] in
theorem parentKey_section {path path' : List String} {n m : Nat} (first : path ≠ [])
    (second : path' ≠ []) : parentKey "html" path n = parentKey "html" path' m ↔
      shortDigest (sectionText path n) = shortDigest (sectionText path' m) := by
  unfold parentKey
  rw [if_pos first, if_pos second]
  exact String.append_right_inj _

omit [UnicodeTables] in
theorem parentKey_kind {path : List String} {n m : Nat} (some_heading : path ≠ []) :
    parentKey "html" path n ≠ parentKey "html" [] m := by
  intro same
  unfold parentKey at same
  rw [if_pos some_heading, if_neg (by simp)] at same
  have sixth := congrArg (fun key => key.toList[5]?) same
  simp [String.toList_append] at sixth

/-- Blocks have the same key below the same heading, and otherwise only a block with itself. -/
theorem keys_of_blocks {items : List HtmlItem} (ok : ∀ item ∈ items, item.Ok)
    {b c : HtmlBlock} {place place' : List HtmlItem} (first : BlockAt b place)
    (second : BlockAt c place') (before : place <+: place') (whole : place' <+: items)
    (apart : shortDigest (sectionText b.headingPath b.parentIndex) =
      shortDigest (sectionText c.headingPath c.parentIndex) →
        sectionText b.headingPath b.parentIndex = sectionText c.headingPath c.parentIndex) :
    parentKey "html" b.headingPath b.parentIndex = parentKey "html" c.headingPath c.parentIndex ↔
      (places place).length = (places place').length ∨ SameSection place place' := by
  obtain ⟨mid, rfl⟩ := before
  have sections : sectionsOf (place ++ mid) = sectionsOf place ++ sectionsOf mid := by
    unfold sectionsOf
    exact List.flatMap_append
  obtain ⟨same, later, _⟩ := sectionIndex_append place mid fun item member =>
    ok item (whole.subset (List.mem_append_right _ member))
  obtain ⟨count, latest⟩ := sectionIndex_count place
  obtain ⟨count', latest'⟩ := sectionIndex_count (place ++ mid)
  have path (block : HtmlBlock) (at_place : List HtmlItem) (there : BlockAt block at_place)
      (headings : sectionsOf at_place = []) : block.headingPath = [] ∧
        block.parentIndex = (places at_place).length := by
    rw [there.headingPath, there.parentIndex, if_pos headings, headings]
    exact ⟨rfl, there.elementIndex⟩
  have below (block : HtmlBlock) (at_place : List HtmlItem) (there : BlockAt block at_place)
      (headings : sectionsOf at_place ≠ []) : block.headingPath ≠ [] ∧
        block.parentIndex = (sectionIndex at_place).2 := by
    rw [there.headingPath, there.parentIndex, if_neg headings]
    exact ⟨path_shows headings, rfl⟩
  by_cases headings : sectionsOf place = []
  · obtain ⟨none, index⟩ := path b place first headings
    have outside : ¬SameSection place (place ++ mid) := fun inside => inside.1 headings
    rw [none, index, or_iff_left outside]
    by_cases more : sectionsOf mid = []
    · obtain ⟨none', index'⟩ := path c _ second (by rw [sections, headings, more]; rfl)
      rw [none', index']
      exact parentKey_element
    · obtain ⟨some_heading, _⟩ := below c _ second (by simp [sections, more])
      apply iff_of_false (parentKey_kind some_heading).symm
      have grows := later more
      omega
  · obtain ⟨path, index⟩ := below b place first headings
    obtain ⟨path', index'⟩ := below c _ second (by simp [sections, headings])
    rw [parentKey_section path path']
    by_cases more : sectionsOf mid = []
    · apply iff_of_true
      · rw [index, index', same more, first.headingPath, second.headingPath, sections, more,
          List.append_nil]
      · exact .inr ⟨headings, by rw [sections, more, List.append_nil]⟩
    · have grows := later more
      apply iff_of_false
      · intro digests
        have equal := sectionText_index path path' (apart digests)
        omega
      · rintro (equal | ⟨_, equal⟩)
        · omega
        · rw [sections, List.length_append] at equal
          have some_heading := List.length_pos_iff.mpr more
          omega

/-- The heading paths follow the outline exactly where no heading closes a section below a skipped
level. -/
theorem heading_paths (maxElements : Nat) (metadata : ExtractionInputMetadata)
    (items : List HtmlItem) (ok : ∀ item ∈ items, item.Ok) (room : items.length ≤ maxElements) :
    ∃ p, parseHtml maxElements (items.flatMap HtmlItem.events) = .ok p ∧
      (DigestsApart p.blocks →
        (OutlineKept items p.blocks (htmlBlocksToPages p.blocks metadata p.title) ↔
          Steady HtmlSection.level (sectionsOf items))) := by
  obtain ⟨p, fed, running⟩ := feed_page items ok room
  have flushed := flushCurrent_idle running.idle
  refine ⟨{ p with currentType := "body" }, ?_, ?_⟩
  · rw [parseHtml, fed, ← flushed]
    rfl
  intro apart
  dsimp only at apart ⊢
  have positive : ∀ s ∈ sectionsOf items, 0 < s.level := by
    intro s member
    obtain ⟨item, _, inside⟩ := List.mem_flatMap.mp member
    cases item with
    | paragraph attrs texts => cases inside
    | heading rank attrs texts =>
      rw [List.mem_singleton.mp inside]
      exact Nat.succ_pos _
  have place_of (b : HtmlBlock) (member : b ∈ p.blocks) : ∃ place ∈ places items, BlockAt b place := by
    obtain ⟨i, there⟩ := List.mem_iff_getElem?.mp member
    obtain ⟨place, found, block⟩ := Abreast.at_place running.blocks there
    exact ⟨place, List.mem_of_getElem? found, block⟩
  obtain ⟨name, pages⟩ := page_of_block (fun b member => (place_of b member).elim fun _ found =>
    found.2.shows) metadata p.title
  rw [← cut_follows HtmlSection.text _ positive, pages]
  constructor
  · intro kept part front
    rcases place_of_sections ok front with rfl | ⟨place, member, rfl⟩
    · rfl
    · obtain ⟨i, found⟩ := List.mem_iff_getElem?.mp member
      obtain ⟨b, there, block⟩ := Abreast.partner_at running.blocks found
      obtain ⟨place', found', follows⟩ := Abreast.at_place kept.paths there
      cases found.symm.trans found'
      exact block.headingPath.symm.trans follows.path
  · intro follows
    refine ⟨?_, List.length_map _, ?_⟩
    · apply List.Forall₂.flip
      apply List.Forall₂.imp _ ((List.forall₂_and_left _ _).mpr
        ⟨fun place member => place_front member, running.blocks.flip⟩)
      rintro place b ⟨front, block⟩
      refine ⟨?_, openSections_increasing _ _, openSections_last _ _⟩
      rw [block.headingPath]
      exact follows _ (sections_front front)
    · intro i j page other place place' first second found found'
      rw [List.getElem?_map, Option.map_eq_some_iff] at first second
      obtain ⟨b, here, rfl⟩ := first
      obtain ⟨c, there, rfl⟩ := second
      obtain ⟨_, same, block⟩ := Abreast.at_place running.blocks here
      cases found.symm.trans same
      obtain ⟨_, same', block'⟩ := Abreast.at_place running.blocks there
      cases found'.symm.trans same'
      have index : (places place).length = (places place').length ↔ i = j := by
        rw [place_index found, place_index found']
        omega
      have key (b : HtmlBlock) : parentChunkKey (htmlPage metadata name b) =
          some (.str (parentKey "html" b.headingPath b.parentIndex)) := rfl
      have inside := place_front (List.mem_of_getElem? found)
      have inside' := place_front (List.mem_of_getElem? found')
      rw [key, key, Option.some.injEq, Value.str.injEq, ← index]
      rcases List.prefix_or_prefix_of_prefix inside inside' with before | before
      · exact keys_of_blocks ok block block' before inside'
          (apart b (List.mem_of_getElem? here) c (List.mem_of_getElem? there))
      · have keys := keys_of_blocks ok block' block before inside
          (apart c (List.mem_of_getElem? there) b (List.mem_of_getElem? here))
        rw [eq_comm, keys, eq_comm (a := (places place').length)]
        apply or_congr_right
        exact same_section

end Claim

section Pages

local instance outlineTables : UnicodeTables := asciiTables

/-- A page whose headings end only sections whose upper levels are all there. -/
def handbookPage : List HtmlItem :=
  [.heading 0 [] ["Handbook"], .paragraph [("class", some "lead")] ["For new ", "colleagues."],
    .heading 1 [] ["Travel"], .paragraph [] ["Book early."], .heading 1 [] ["Leave"],
    .paragraph [] ["Ask first."]]

theorem handbook_ok : ∀ item ∈ handbookPage, item.Ok := by
  decide +kernel

theorem handbook_outline :
    ∃ p, parseHtml 20000 (handbookPage.flatMap HtmlItem.events) = .ok p ∧ (DigestsApart p.blocks →
      (OutlineKept handbookPage p.blocks (htmlBlocksToPages p.blocks ⟨"a.html", none, none⟩ p.title) ↔
        Steady HtmlSection.level (sectionsOf handbookPage))) :=
  heading_paths 20000 ⟨"a.html", none, none⟩ handbookPage handbook_ok (by decide)

/-- A heading h3 and then a heading h2. -/
def skippedLevel : List HtmlItem := [.heading 2 [] ["Notes"], .heading 1 [] ["Usage"]]

theorem skipped_ok : ∀ item ∈ skippedLevel, item.Ok := by
  decide +kernel

def skippedBlocks : List HtmlBlock :=
  [⟨"Notes", ["Notes"], "h3", 1, 1⟩, ⟨"Usage", ["Notes", "Usage"], "h2", 2, 2⟩]

theorem skipped_blocks :
    (parseHtml 20000 (skippedLevel.flatMap HtmlItem.events)).map (·.blocks) =
      .ok skippedBlocks := by
  decide +kernel

theorem skipped_digests : DigestsApart skippedBlocks := by
  unfold DigestsApart
  decide +kernel

/-- The second heading is put below the first. -/
theorem skipped_level_kept :
    ¬∀ items : List HtmlItem, (∀ item ∈ items, item.Ok) → items.length ≤ 20000 →
      ∃ p, parseHtml 20000 (items.flatMap HtmlItem.events) = .ok p ∧ (DigestsApart p.blocks →
        OutlineKept items p.blocks (htmlBlocksToPages p.blocks ⟨"a.html", none, none⟩ p.title)) := by
  intro all
  obtain ⟨p, parsed, kept⟩ := all skippedLevel skipped_ok (by decide)
  have blocks : p.blocks = skippedBlocks := by
    have outcome := skipped_blocks
    rw [parsed] at outcome
    exact Except.ok.inj outcome
  rw [blocks] at kept
  obtain ⟨place, found, follows⟩ := Abreast.at_place (kept skipped_digests).paths
    (show skippedBlocks[1]? = some ⟨"Usage", ["Notes", "Usage"], "h2", 2, 2⟩ from rfl)
  have last : (places skippedLevel)[1]? = some skippedLevel := by decide +kernel
  cases last.symm.trans found
  exact absurd follows.path (by decide +kernel)

end Pages
end RagProject.Ingest
