import RagProject.Ingest.Html

/-! The elements of a page as the parser meets them: what stands in a suppressed element changes
nothing, and what follows it is taken as if the element were not there. -/
namespace RagProject.Ingest
open Python Context

/-- Nodes one after another. A void element may be closed by a slash. -/
inductive HtmlNodes where
  | nil
  | text (data : String) (rest : HtmlNodes)
  | void (tag : String) (attrs : Attrs) (slash : Bool) (rest : HtmlNodes)
  | element (tag : String) (attrs : Attrs) (children rest : HtmlNodes)
  deriving DecidableEq, Repr

namespace HtmlNodes

def events : HtmlNodes → List HtmlEvent
  | .nil => []
  | .text data rest => .data data :: rest.events
  | .void tag attrs slash rest =>
    .starttag tag attrs :: ((if slash then [.endtag tag] else []) ++ rest.events)
  | .element tag attrs children rest =>
    .starttag tag attrs :: (children.events ++ .endtag tag :: rest.events)

def elementCount : HtmlNodes → Nat
  | .nil => 0
  | .text _ rest => rest.elementCount
  | .void _ _ _ rest => 1 + rest.elementCount
  | .element _ _ children rest => 1 + children.elementCount + rest.elementCount

variable [UnicodeTables]

/-- The void tags, and no other, have no end of their own. -/
def Nested : HtmlNodes → Prop
  | .nil => True
  | .text _ rest => rest.Nested
  | .void tag _ _ rest => lowerText tag ∈ voidHtmlTags ∧ rest.Nested
  | .element tag _ children rest =>
    lowerText tag ∉ voidHtmlTags ∧ children.Nested ∧ rest.Nested

instance nestedDecidable : (nodes : HtmlNodes) → Decidable nodes.Nested
  | .nil => isTrue trivial
  | .text _ rest => nestedDecidable rest
  | .void tag _ _ rest =>
    have : Decidable rest.Nested := nestedDecidable rest
    inferInstanceAs (Decidable (lowerText tag ∈ voidHtmlTags ∧ rest.Nested))
  | .element tag _ children rest =>
    have : Decidable children.Nested := nestedDecidable children
    have : Decidable rest.Nested := nestedDecidable rest
    inferInstanceAs (Decidable (lowerText tag ∉ voidHtmlTags ∧ children.Nested ∧ rest.Nested))

/-- A blocked tag, or hidden by an attribute or a style. -/
def Hides (tag : String) (attrs : Attrs) : Prop :=
  lowerText tag ∈ blockedHtmlTags ∨ isHiddenHtmlElement attrs = true

instance (tag : String) (attrs : Attrs) : Decidable (Hides tag attrs) :=
  inferInstanceAs (Decidable (_ ∨ _))

/-- The nodes without their suppressed elements. -/
def shown : HtmlNodes → HtmlNodes
  | .nil => .nil
  | .text data rest => .text data rest.shown
  | .void tag attrs slash rest => .void tag attrs slash rest.shown
  | .element tag attrs children rest =>
    if Hides tag attrs then rest.shown else .element tag attrs children.shown rest.shown

end HtmlNodes

namespace SafeHtmlTextParser
variable [UnicodeTables]

/-- A handler outside suppressed elements, without the count of the elements. -/
def take (p : SafeHtmlTextParser) : HtmlEvent → SafeHtmlTextParser
  | .starttag tag attrs => p.openTag (lowerText tag) attrs
  | .endtag tag => p.closeTag (lowerText tag)
  | .data text => p.addText text
  | .comment _ => p

def takeAll (p : SafeHtmlTextParser) (events : List HtmlEvent) : SafeHtmlTextParser :=
  events.foldl take p

omit [UnicodeTables] in
def counted (n : Nat) (p : SafeHtmlTextParser) : SafeHtmlTextParser :=
  { p with elementCount := p.elementCount + n }

omit [UnicodeTables] in
theorem appendText_counted (n : Nat) (p : SafeHtmlTextParser) (data : String) :
    (p.counted n).appendText data = (p.appendText data).counted n := by
  unfold appendText
  dsimp only
  split
  · rfl
  · rfl

omit [UnicodeTables] in
theorem flushCurrent_counted (n : Nat) (p : SafeHtmlTextParser) (elementType : Option String) :
    (p.counted n).flushCurrent elementType = (p.flushCurrent elementType).counted n := by
  by_cases blank : cleanText (joinTexts " " p.currentText) = ""
  · simp only [flushCurrent, counted, blank, if_true]
  · by_cases first : p.headings = []
    · simp only [flushCurrent, counted, blank, first, if_false, if_true]
    · simp only [flushCurrent, counted, blank, first, if_false]

theorem openTag_counted (n : Nat) (p : SafeHtmlTextParser) (tag : String) (attrs : Attrs) :
    (p.counted n).openTag tag attrs = (p.openTag tag attrs).counted n := by
  unfold openTag
  rw [flushCurrent_counted]
  generalize p.flushCurrent none = q
  repeat' split
  all_goals rfl

theorem closeHeading_counted (n : Nat) (p : SafeHtmlTextParser) (tag : String) :
    (p.counted n).closeHeading tag = (p.closeHeading tag).counted n := by
  have text : (p.counted n).currentText = p.currentText := rfl
  unfold closeHeading
  rw [text]
  dsimp only
  split
  · rfl
  · rfl

omit [UnicodeTables] in
theorem closeRow_counted (n : Nat) (p : SafeHtmlTextParser) (cells : List String) :
    (p.counted n).closeRow cells = (p.closeRow cells).counted n := by
  unfold closeRow
  rw [appendText_counted, flushCurrent_counted]
  generalize (p.appendText (joinTexts " | " cells)).flushCurrent (some "table_row") = q
  by_cases none : cells = []
  · simp only [none, if_true, counted]
  · simp only [none, if_false, counted]

theorem closeTag_counted (n : Nat) (p : SafeHtmlTextParser) (tag : String) :
    (p.counted n).closeTag tag = (p.closeTag tag).counted n := by
  have cell : (p.counted n).tableCellText = p.tableCellText := rfl
  have row : (p.counted n).tableRowCells = p.tableRowCells := rfl
  unfold closeTag
  rw [cell, row]
  by_cases title : tag = "title"
  · rw [if_pos title, if_pos title]
    rfl
  rw [if_neg title, if_neg title]
  cases (if tag ∈ tableCellTags then p.tableCellText else none) with
  | some texts => rfl
  | none =>
    cases (if tag = "tr" then p.tableRowCells else none) with
    | some cells => exact closeRow_counted n p cells
    | none =>
      dsimp only
      rw [closeHeading_counted, flushCurrent_counted]
      repeat' split
      all_goals rfl

theorem take_counted (n : Nat) (p : SafeHtmlTextParser) (event : HtmlEvent) :
    (p.counted n).take event = (p.take event).counted n := by
  cases event with
  | starttag tag attrs => exact openTag_counted n p _ attrs
  | endtag tag => exact closeTag_counted n p _
  | data text =>
    have cell : (p.counted n).tableCellText = p.tableCellText := rfl
    have title : (p.counted n).inTitle = p.inTitle := rfl
    simp only [take, addText]
    rw [cell, title, appendText_counted]
    split
    · rfl
    · cases p.tableCellText <;> rfl
  | comment text => rfl

variable {maxElements : Nat}

theorem feed_cons (p q : SafeHtmlTextParser) (event : HtmlEvent) (events : List HtmlEvent)
    (handled : p.handle maxElements event = .ok q) :
    p.feed maxElements (event :: events) = q.feed maxElements events := by
  rw [feed, handled]
  rfl

/-- Inside a suppressed element nothing changes, and at the end of a part the same elements are
open. -/
theorem feed_suppressed {nodes : HtmlNodes} (nested : nodes.Nested) (more : List HtmlEvent)
    {p : SafeHtmlTextParser} (inside : p.suppressedTags ≠ [])
    (closed : ∀ tag ∈ p.suppressedTags, tag ∉ voidHtmlTags)
    (room : p.elementCount + nodes.elementCount ≤ maxElements) :
    p.feed maxElements (nodes.events ++ more) =
      (p.counted nodes.elementCount).feed maxElements more := by
  induction nodes generalizing p more with
  | nil => rfl
  | text data rest ih =>
    rw [HtmlNodes.events, List.cons_append, feed_cons p p]
    · exact ih nested more inside closed room
    · simp [handle, handleData, inside]
  | void tag attrs slash rest ih =>
    rw [HtmlNodes.elementCount] at room ⊢
    obtain ⟨isVoid, nested⟩ := nested
    have few : ¬maxElements < p.elementCount + 1 := by omega
    have next := ih nested more (p := p.counted 1) inside closed (by simp only [counted]; omega)
    have rest_counted : (p.counted 1).counted rest.elementCount =
        p.counted (1 + rest.elementCount) := by
      simp only [counted, Nat.add_assoc]
    rw [HtmlNodes.events, List.cons_append, feed_cons p (p.counted 1), List.append_assoc]
    · cases slash with
      | false => rw [← rest_counted, ← next]; rfl
      | true =>
        rw [← rest_counted, ← next]
        change feed _ _ (HtmlEvent.endtag tag :: (rest.events ++ more)) = _
        apply feed_cons
        have outside : lowerText tag ∉ p.suppressedTags := fun member =>
          closed _ member isVoid
        simp only [handle, handleEndtag, outside, if_false, counted, inside, ne_eq, not_false_eq_true,
          if_true]
    · simp [handle, handleStarttag, inside, isVoid, few, counted]
  | element tag attrs children rest inner later =>
    rw [HtmlNodes.elementCount] at room ⊢
    obtain ⟨solid, nested, nested'⟩ := nested
    have few : ¬maxElements < p.elementCount + 1 := by omega
    let q : SafeHtmlTextParser :=
      { p.counted 1 with suppressedTags := lowerText tag :: p.suppressedTags }
    have opened : p.handle maxElements (.starttag tag attrs) = .ok q := by
      simp [handle, handleStarttag, inside, solid, few, q, counted]
    have deeper : ∀ t ∈ q.suppressedTags, t ∉ voidHtmlTags := by
      intro t member
      rcases List.mem_cons.mp member with rfl | before
      · exact solid
      · exact closed t before
    have through := inner nested (.endtag tag :: (rest.events ++ more)) (p := q)
      (List.cons_ne_nil _ _) deeper (by simp only [q, counted]; omega)
    have ended : (q.counted children.elementCount).handle maxElements (.endtag tag) =
        .ok (p.counted (1 + children.elementCount)) := by
      simp [handle, handleEndtag, q, counted, Nat.add_assoc]
    have last := later nested' more (p := p.counted (1 + children.elementCount)) inside closed
      (by simp only [counted]; omega)
    rw [HtmlNodes.events, List.cons_append, feed_cons _ _ _ _ opened, List.append_assoc,
      List.cons_append, through, feed_cons _ _ _ _ ended, last]
    simp only [counted, Nat.add_assoc]

omit [UnicodeTables] in
/-- What the handlers outside suppressed elements leave alone. -/
def shell (p : SafeHtmlTextParser) : List String × Nat := (p.suppressedTags, p.elementCount)

omit [UnicodeTables] in
theorem appendText_shell (p : SafeHtmlTextParser) (data : String) :
    (p.appendText data).shell = p.shell := by
  unfold appendText
  dsimp only
  split
  · rfl
  · rfl

omit [UnicodeTables] in
theorem flushCurrent_shell (p : SafeHtmlTextParser) (elementType : Option String) :
    (p.flushCurrent elementType).shell = p.shell := by
  simp only [flushCurrent, shell]

theorem openTag_shell {p : SafeHtmlTextParser} {tag : String} {attrs : Attrs}
    (seen : ¬HtmlNodes.Hides tag attrs ∨ lowerText tag ∈ voidHtmlTags) :
    (p.openTag (lowerText tag) attrs).shell = p.shell := by
  unfold openTag
  by_cases hides : lowerText tag ∈ blockedHtmlTags ∨ isHiddenHtmlElement attrs = true
  · have isVoid := seen.resolve_left fun shows => shows hides
    rw [if_pos hides, if_pos isVoid]
  · rw [if_neg hides]
    have flushed := flushCurrent_shell p none
    generalize p.flushCurrent none = q at flushed
    repeat' split
    all_goals first | rfl | exact flushed

theorem closeTag_shell (p : SafeHtmlTextParser) (tag : String) :
    (p.closeTag tag).shell = p.shell := by
  unfold closeTag
  by_cases title : tag = "title"
  · rw [if_pos title]
    rfl
  rw [if_neg title]
  cases (if tag ∈ tableCellTags then p.tableCellText else none) with
  | some texts => rfl
  | none =>
    cases (if tag = "tr" then p.tableRowCells else none) with
    | some cells =>
      have added := appendText_shell p (joinTexts " | " cells)
      by_cases none : cells = []
      · simp only [closeRow, none, if_true, shell]
      · simp only [closeRow, none, if_false, shell, flushCurrent] at added ⊢
        exact added
    | none =>
      have heading : (p.closeHeading tag).shell = p.shell := by
        by_cases blank : safeMetadataText (joinTexts " " p.currentText) = ""
        · simp only [closeHeading, blank, if_true, shell]
        · simp only [closeHeading, blank, if_false, shell]
      have flushed := flushCurrent_shell p none
      generalize p.closeHeading tag = q at heading
      generalize p.flushCurrent none = r at flushed
      dsimp only
      repeat' split
      · exact heading
      · exact flushed
      · rfl

theorem take_shell {p : SafeHtmlTextParser} {event : HtmlEvent} (seen : ∀ tag attrs,
    event = .starttag tag attrs → ¬HtmlNodes.Hides tag attrs ∨ lowerText tag ∈ voidHtmlTags) :
    (p.take event).shell = p.shell := by
  cases event with
  | starttag tag attrs => exact openTag_shell (seen tag attrs rfl)
  | endtag tag => exact closeTag_shell p _
  | data text =>
    simp only [take, addText]
    split
    · rfl
    · cases p.tableCellText with
      | none => exact appendText_shell p text
      | some texts => rfl
  | comment text => rfl

theorem handle_start {p : SafeHtmlTextParser} (outside : p.suppressedTags = [])
    (room : p.elementCount < maxElements) (tag : String) (attrs : Attrs) :
    p.handle maxElements (.starttag tag attrs) = .ok ((p.take (.starttag tag attrs)).counted 1) := by
  have few : ¬maxElements < p.elementCount + 1 := by omega
  have none_open : ¬p.suppressedTags ≠ [] := by simpa using outside
  unfold handle handleStarttag
  dsimp only
  rw [if_neg few, if_neg none_open]
  exact congrArg Except.ok (openTag_counted 1 p (lowerText tag) attrs)

theorem handle_end {p : SafeHtmlTextParser} (outside : p.suppressedTags = []) (tag : String) :
    p.handle maxElements (.endtag tag) = .ok (p.take (.endtag tag)) := by
  have none_open : ¬p.suppressedTags ≠ [] := by simpa using outside
  unfold handle handleEndtag
  dsimp only
  rw [if_neg none_open]
  rfl

theorem handle_text {p : SafeHtmlTextParser} (outside : p.suppressedTags = []) (text : String) :
    p.handle maxElements (.data text) = .ok (p.take (.data text)) := by
  have none_open : ¬p.suppressedTags ≠ [] := by simpa using outside
  unfold handle handleData
  dsimp only
  rw [if_neg none_open]
  rfl

theorem takeAll_counted (n : Nat) (p : SafeHtmlTextParser) (events : List HtmlEvent) :
    (p.counted n).takeAll events = (p.takeAll events).counted n := by
  induction events generalizing p with
  | nil => rfl
  | cons event events ih =>
    have step := ih (p.take event)
    rw [← take_counted] at step
    exact step

theorem takeAll_append (p : SafeHtmlTextParser) (events more : List HtmlEvent) :
    p.takeAll (events ++ more) = (p.takeAll events).takeAll more :=
  List.foldl_append

omit [UnicodeTables] in
theorem counted_counted (m n : Nat) (p : SafeHtmlTextParser) :
    (p.counted m).counted n = p.counted (m + n) := by
  simp only [counted, Nat.add_assoc]

omit [UnicodeTables] in
theorem shell_eq {p q : SafeHtmlTextParser} :
    p.shell = q.shell ↔ p.suppressedTags = q.suppressedTags ∧ p.elementCount = q.elementCount :=
  Prod.mk.injEq _ _ _ _ ▸ Iff.rfl

omit [UnicodeTables] in
theorem counted_shell {p q : SafeHtmlTextParser} {n : Nat} :
    (p.counted n).shell = (q.counted n).shell ↔ p.shell = q.shell := by
  rw [shell_eq, shell_eq]
  simp only [counted, Nat.add_right_cancel_iff]

/-- The events of nodes are taken as if the suppressed elements were not there. -/
theorem feed_shown {nodes : HtmlNodes} (nested : nodes.Nested) (more : List HtmlEvent)
    {p : SafeHtmlTextParser} (outside : p.suppressedTags = [])
    (room : p.elementCount + nodes.elementCount ≤ maxElements) :
    p.feed maxElements (nodes.events ++ more) =
        ((p.takeAll nodes.shown.events).counted nodes.elementCount).feed maxElements more ∧
      (p.takeAll nodes.shown.events).shell = p.shell := by
  induction nodes generalizing p more with
  | nil => exact ⟨rfl, rfl⟩
  | text data rest ih =>
    have same : (p.take (.data data)).shell = p.shell := take_shell (by simp)
    obtain ⟨tags, count⟩ := shell_eq.mp same
    obtain ⟨fed, shell⟩ := ih nested more (p := p.take (.data data)) (tags.trans outside)
      (by rw [count]; exact room)
    rw [HtmlNodes.events, List.cons_append, feed_cons _ _ _ _ (handle_text outside data), fed]
    exact ⟨rfl, shell.trans same⟩
  | void tag attrs slash rest ih =>
    obtain ⟨isVoid, nested⟩ := nested
    rw [HtmlNodes.elementCount] at room ⊢
    have few : p.elementCount < maxElements := by omega
    have same : (p.take (.starttag tag attrs)).shell = p.shell := take_shell fun t a found => by
      cases found
      exact .inr isVoid
    have start := handle_start outside few tag attrs
    have shape : p.takeAll (HtmlNodes.void tag attrs slash rest).shown.events =
        ((p.take (.starttag tag attrs)).takeAll (if slash then [.endtag tag] else [])).takeAll
          rest.shown.events := by
      rw [← takeAll_append]
      rfl
    rw [shape, HtmlNodes.events, List.cons_append, feed_cons _ _ _ _ start, List.append_assoc]
    generalize p.take (.starttag tag attrs) = q at same
    obtain ⟨tags, count⟩ := shell_eq.mp same
    have ended : (q.counted 1).feed maxElements
        ((if slash then [.endtag tag] else []) ++ (rest.events ++ more)) =
          ((q.takeAll (if slash then [.endtag tag] else [])).counted 1).feed maxElements
            (rest.events ++ more) ∧
        (q.takeAll (if slash then [.endtag tag] else [])).shell = p.shell := by
      cases slash with
      | false => exact ⟨rfl, same⟩
      | true =>
        have outside' : (q.counted 1).suppressedTags = [] := tags.trans outside
        constructor
        · change feed _ _ (.endtag tag :: (rest.events ++ more)) = _
          rw [feed_cons _ _ _ _ (handle_end outside' tag), take_counted]
          rfl
        · exact (closeTag_shell q _).trans same
    obtain ⟨ended, same'⟩ := ended
    rw [ended]
    generalize q.takeAll (if slash then [.endtag tag] else []) = r at same'
    obtain ⟨tags', count'⟩ := shell_eq.mp same'
    obtain ⟨fed, shell⟩ := ih nested more (p := r.counted 1) (tags'.trans outside)
      (by simp only [counted, count']; omega)
    rw [takeAll_counted] at fed shell
    rw [fed, counted_counted]
    exact ⟨rfl, (counted_shell.mp shell).trans same'⟩
  | element tag attrs children rest inner later =>
    obtain ⟨solid, nested, nested'⟩ := nested
    rw [HtmlNodes.elementCount] at room ⊢
    have few : p.elementCount < maxElements := by omega
    rw [HtmlNodes.events, List.cons_append, feed_cons _ _ _ _ (handle_start outside few tag attrs),
      HtmlNodes.shown]
    by_cases hides : HtmlNodes.Hides tag attrs
    · -- The element is opened, passed over and closed again.
      have opened : p.take (.starttag tag attrs) = { p with suppressedTags := [lowerText tag] } := by
        unfold take openTag
        exact (if_pos hides).trans (if_neg solid)
      rw [if_pos hides, opened]
      let q : SafeHtmlTextParser := { p with suppressedTags := [lowerText tag] }
      have enough : (q.counted 1).elementCount + children.elementCount ≤ maxElements := by
        simp only [q, counted]
        omega
      have through := feed_suppressed nested (.endtag tag :: (rest.events ++ more)) (p := q.counted 1)
        (List.cons_ne_nil _ _) (fun t member => List.mem_singleton.mp member ▸ solid) enough
      have ended : ((q.counted 1).counted children.elementCount).handle maxElements (.endtag tag) =
          .ok (p.counted (1 + children.elementCount)) := by
        simp [handle, handleEndtag, q, counted, outside, Nat.add_assoc]
      obtain ⟨fed, shell⟩ := later nested' more (p := p.counted (1 + children.elementCount)) outside
        (by simp only [counted]; omega)
      rw [takeAll_counted, counted_counted] at fed
      rw [takeAll_counted, counted_shell] at shell
      rw [List.append_assoc, List.cons_append, through, feed_cons _ _ _ _ ended]
      exact ⟨fed, shell⟩
    · have same : (p.take (.starttag tag attrs)).shell = p.shell := take_shell fun t a found => by
        cases found
        exact .inl hides
      have shape : p.takeAll (HtmlNodes.element tag attrs children.shown rest.shown).events =
          (((p.take (.starttag tag attrs)).takeAll children.shown.events).take
            (.endtag tag)).takeAll rest.shown.events := by
        have events : (HtmlNodes.element tag attrs children.shown rest.shown).events =
            .starttag tag attrs :: (children.shown.events ++ .endtag tag :: rest.shown.events) := rfl
        rw [events, ← List.singleton_append, takeAll_append, takeAll_append]
        rfl
      rw [if_neg hides, shape]
      generalize p.take (.starttag tag attrs) = q at same
      obtain ⟨tags, count⟩ := shell_eq.mp same
      obtain ⟨fed, shell⟩ := inner nested (.endtag tag :: (rest.events ++ more)) (p := q.counted 1)
        (tags.trans outside) (by simp only [counted, count]; omega)
      rw [takeAll_counted, counted_counted] at fed
      rw [takeAll_counted, counted_shell] at shell
      rw [List.append_assoc, List.cons_append, fed]
      generalize q.takeAll children.shown.events = r at shell
      have same' : (r.take (.endtag tag)).shell = p.shell :=
        ((closeTag_shell r _).trans shell).trans same
      obtain ⟨tags', _⟩ := shell_eq.mp (shell.trans same)
      have outside' : (r.counted (1 + children.elementCount)).suppressedTags = [] :=
        tags'.trans outside
      rw [feed_cons _ _ _ _ (handle_end outside' tag), take_counted]
      generalize r.take (.endtag tag) = u at same'
      obtain ⟨tags'', count''⟩ := shell_eq.mp same'
      obtain ⟨fed', shell'⟩ := later nested' more (p := u.counted (1 + children.elementCount))
        (tags''.trans outside) (by simp only [counted, count'']; omega)
      rw [takeAll_counted, counted_counted] at fed'
      rw [takeAll_counted, counted_shell] at shell'
      exact ⟨fed', shell'.trans same'⟩

end SafeHtmlTextParser
end RagProject.Ingest
