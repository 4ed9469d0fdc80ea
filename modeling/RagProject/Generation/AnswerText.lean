import RagProject.Generation.Answer

/-! Normalized answers: lines of words. Rewriting a marker changes one word and nothing around it. -/
namespace RagProject.Generation
open Python Markers Context

structure Line (words : List (List Char)) : Prop where
  shows : words ≠ []
  words : ∀ w ∈ words, Word w ∧ '\x00' ∉ w

/-- The text of some lines. -/
def layout (lines : List (List (List Char))) : List Char :=
  join ['\n'] (lines.map (join [' ']))

section Layout

theorem withoutNul_eq {s : List Char} (none_there : '\x00' ∉ s) : withoutNul s = s := by
  unfold withoutNul
  conv_rhs => rw [← List.map_id s]
  apply List.map_congr_left
  intro c member
  have other : c ≠ '\x00' := by
    rintro rfl
    exact none_there member
  rw [if_neg other]
  rfl

theorem nul_gone (s : List Char) : '\x00' ∉ withoutNul s := by
  intro member
  obtain ⟨c, _, same⟩ := List.mem_map.mp member
  split at same
  · cases same
  · contradiction

theorem splitLines_chars {s line : List Char} (member : line ∈ splitLines s) : ∀ c ∈ line, c ∈ s := by
  fun_induction splitLines s generalizing line with
  | case1 => cases member
  | case2 s ih =>
    rcases List.mem_cons.mp member with rfl | later
    · exact fun c inside => nomatch inside
    · exact fun c inside => List.mem_cons_of_mem _ (List.mem_cons_of_mem _ (ih later c inside))
  | case3 c s _ br ih =>
    rcases List.mem_cons.mp member with rfl | later
    · exact fun c inside => nomatch inside
    · exact fun c inside => List.mem_cons_of_mem _ (ih later c inside)
  | case4 c s _ _ first rest shape ih =>
    rcases List.mem_cons.mp member with rfl | later
    · intro d inside
      rcases List.mem_cons.mp inside with rfl | deeper
      · exact List.mem_cons_self
      · exact List.mem_cons_of_mem _ (ih (shape ▸ List.mem_cons_self) d deeper)
    · exact fun d inside => List.mem_cons_of_mem _ (ih (shape ▸ List.mem_cons_of_mem _ later) d inside)
  | case5 c s _ _ shape =>
    cases List.mem_singleton.mp member
    exact fun d inside => List.mem_singleton.mp inside ▸ List.mem_cons_self

/-- A normalized answer is a text of lines. -/
theorem normalized_lines (content : String) :
    ∃ lines, (∀ line ∈ lines, Line line) ∧ (normalizeAnswerText content).toList = layout lines := by
  refine ⟨((splitLines (withoutNul content.toList)).map splitWords).filter (· ≠ []), ?_, ?_⟩
  · intro words member
    obtain ⟨inside, shows⟩ := List.mem_filter.mp member
    obtain ⟨line, there, rfl⟩ := List.mem_map.mp inside
    refine ⟨by simpa using shows, fun w member => ⟨word_of_split member, fun zero => ?_⟩⟩
    exact nul_gone _ (splitLines_chars there _ (splitWords_chars member _ zero))
  · have kept (words : List (List Char)) (ok : ∀ w ∈ words, Word w) :
        join [' '] words ≠ [] ↔ words ≠ [] := by
      constructor
      · rintro shows rfl
        exact shows rfl
      · exact join_ne_nil ok
    have same : ∀ lines : List (List Char),
        (lines.map fun line => join [' '] (splitWords line)).filter (· ≠ []) =
          ((lines.map splitWords).filter (· ≠ [])).map (join [' ']) := by
      intro lines
      induction lines with
      | nil => rfl
      | cons line lines ih =>
        have shows := kept (splitWords line) fun w member => word_of_split member
        by_cases none : splitWords line = []
        · rw [List.map_cons, List.map_cons, List.filter_cons_of_neg (by simp [none, join]),
            List.filter_cons_of_neg (by simp [none]), ih]
        · rw [List.map_cons, List.map_cons, List.filter_cons_of_pos (by simpa using shows.mpr none),
            List.filter_cons_of_pos (by simpa using none), ih, List.map_cons]
    unfold normalizeAnswerText layout
    simp only [String.toList_ofList, same]

variable {lines : List (List (List Char))}

theorem line_solid {words : List (List Char)} (line : Line words) :
    join [' '] words ≠ [] ∧ (∀ c ∈ join [' '] words, isLineBreak c = false) ∧
      '\x00' ∉ join [' '] words ∧ splitWords (join [' '] words) = words := by
  have ok : ∀ w ∈ words, Word w := fun w member => (line.words w member).1
  refine ⟨join_ne_nil ok line.shows, fun c member => ?_, fun zero => ?_, splitWords_join ok⟩
  · rcases join_chars member with blank | ⟨w, inside, there⟩
    · cases List.mem_singleton.mp blank
      rfl
    · by_contra br
      have blank := lineBreak_blank (by simpa using br)
      rw [(ok w inside).solid c there] at blank
      cases blank
  · rcases join_chars zero with blank | ⟨w, inside, there⟩
    · cases List.mem_singleton.mp blank
    · exact (line.words w inside).2 there

/-- Normalizing a normalized answer changes nothing. -/
theorem normalize_layout (ok : ∀ line ∈ lines, Line line) :
    normalizeAnswerText (String.ofList (layout lines)) = String.ofList (layout lines) := by
  have free : '\x00' ∉ layout lines := by
    intro zero
    rcases join_chars zero with br | ⟨text, inside, there⟩
    · cases List.mem_singleton.mp br
    · obtain ⟨words, member, rfl⟩ := List.mem_map.mp inside
      exact (line_solid (ok words member)).2.2.1 there
  have split : splitLines (layout lines) = lines.map (join [' ']) := by
    apply splitLines_join
    intro text member
    obtain ⟨words, inside, rfl⟩ := List.mem_map.mp member
    exact ⟨(line_solid (ok words inside)).1, (line_solid (ok words inside)).2.1⟩
  have words : (lines.map (join [' '])).map (fun line => join [' '] (splitWords line)) =
      lines.map (join [' ']) := by
    rw [List.map_map]
    apply List.map_congr_left
    intro ws member
    simp only [Function.comp]
    rw [(line_solid (ok ws member)).2.2.2]
  have all : (lines.map (join [' '])).filter (· ≠ []) = lines.map (join [' ']) := by
    apply List.filter_eq_self.mpr
    intro text member
    obtain ⟨ws, inside, rfl⟩ := List.mem_map.mp member
    simpa using (line_solid (ok ws inside)).1
  unfold normalizeAnswerText
  simp only [String.toList_ofList]
  rw [withoutNul_eq free, split, words, all]
  rfl

theorem splitWords_layout (ok : ∀ line ∈ lines, Line line) :
    splitWords (layout lines) = lines.flatten := by
  induction lines with
  | nil => rfl
  | cons words lines ih =>
    have first := (line_solid (ok words List.mem_cons_self)).2.2.2
    have later := ih fun line member => ok line (List.mem_cons_of_mem _ member)
    cases lines with
    | nil => simpa [layout, join] using first
    | cons next lines =>
      have shape : layout (words :: next :: lines) =
          join [' '] words ++ '\n' :: layout (next :: lines) := by
        simp [layout, join]
      rw [shape, splitWords_cut rfl, first, later]
      rfl

/-- What a cleaned answer shows: its words. -/
theorem cleanText_layout (ok : ∀ line ∈ lines, Line line) :
    (cleanText (String.ofList (layout lines))).toList = join [' '] lines.flatten := by
  have free : '\x00' ∉ layout lines := by
    intro zero
    rcases join_chars zero with br | ⟨text, inside, there⟩
    · cases List.mem_singleton.mp br
    · obtain ⟨words, member, rfl⟩ := List.mem_map.mp inside
      exact (line_solid (ok words member)).2.2.1 there
  have same : (layout lines).map (fun c => if c = '\x00' then ' ' else c) = layout lines :=
    withoutNul_eq free
  rw [cleanText_words, String.toList_ofList, same, splitWords_layout ok]

/-- A normalized answer begins with a character that shows. -/
theorem layout_head (ok : ∀ line ∈ lines, Line line) {c : Char} {rest : List Char}
    (shape : layout lines = c :: rest) : isSpace c = false := by
  cases lines with
  | nil => cases shape
  | cons words lines =>
    have line := ok words List.mem_cons_self
    obtain ⟨first, _, head, _, graphic, _⟩ :=
      join_ends (fun w member => (line.words w member).1) line.shows
    obtain ⟨more, front⟩ := List.head?_eq_some_iff.mp head
    have start : ∃ tail, layout (words :: lines) = join [' '] words ++ tail := by
      cases lines with
      | nil => exact ⟨[], by simp [layout, join]⟩
      | cons next lines => exact ⟨'\n' :: layout (next :: lines), by simp [layout, join]⟩
    obtain ⟨tail, whole⟩ := start
    rw [whole, front] at shape
    obtain ⟨rfl, _⟩ := List.cons_eq_cons.mp shape
    exact graphic

/-- A last word, after a blank. -/
theorem layout_append (ok : ∀ line ∈ lines, Line line) (some_line : lines ≠ []) {w : List Char}
    (word : Word w) (free : '\x00' ∉ w) :
    ∃ longer, (∀ line ∈ longer, Line line) ∧ layout lines ++ ' ' :: w = layout longer := by
  induction lines with
  | nil => exact absurd rfl some_line
  | cons words lines ih =>
    have first := ok words List.mem_cons_self
    cases lines with
    | nil =>
      refine ⟨[words ++ [w]], ?_, ?_⟩
      · intro line member
        cases List.mem_singleton.mp member
        refine ⟨by simp, fun v inside => ?_⟩
        rcases List.mem_append.mp inside with old | new
        · exact first.words v old
        · cases List.mem_singleton.mp new
          exact ⟨word, free⟩
      · have grow : ∀ ws : List (List Char), ws ≠ [] →
            join [' '] ws ++ ' ' :: w = join [' '] (ws ++ [w]) := by
          intro ws
          induction ws with
          | nil => exact fun none => absurd rfl none
          | cons v ws ih =>
            intro _
            cases ws with
            | nil => simp [join]
            | cons u ws =>
              have rest := ih (by simp)
              simp only [join, List.cons_append, List.append_assoc] at rest ⊢
              rw [rest]
        exact grow words first.shows
    | cons next lines =>
      obtain ⟨longer, okLonger, shape⟩ :=
        ih (fun line member => ok line (List.mem_cons_of_mem _ member)) (by simp)
      refine ⟨words :: longer, ?_, ?_⟩
      · intro line member
        rcases List.mem_cons.mp member with rfl | later
        · exact first
        · exact okLonger line later
      · have some_longer : longer ≠ [] := by
          rintro rfl
          simp [layout, join] at shape
        obtain ⟨l, ls, rfl⟩ := List.exists_cons_of_ne_nil some_longer
        have grow (t : List (List (List Char))) (l : List (List Char)) :
            layout (words :: l :: t) = join [' '] words ++ '\n' :: layout (l :: t) := by
          simp [layout, join]
        rw [grow, grow, ← shape]
        simp

end Layout

section Rewriting
variable [DigitTables] {fits : List Char → Bool} {g : List Char → List Char}

theorem rewrite_join {c : Char} (stop : isDecimal c = false) (left : c ≠ '[') (right : c ≠ ']')
    (ws : List (List Char)) : rewrite fits g (join [c] ws) = join [c] (ws.map (rewrite fits g)) := by
  induction ws with
  | nil => rfl
  | cons w ws ih =>
    cases ws with
    | nil => rfl
    | cons v ws =>
      have shape (u : List Char) (t : List (List Char)) (x : List Char) :
          join [c] (u :: x :: t) = u ++ c :: join [c] (x :: t) := by
        simp [join]
      rw [shape, rewrite_cut stop left right, ih]
      simp only [List.map_cons, shape]

/-- A rewritten text has its lines and words. -/
theorem rewrite_layout (lines : List (List (List Char))) :
    rewrite fits g (layout lines) = layout (lines.map (List.map (rewrite fits g))) := by
  unfold layout
  rw [rewrite_join rfl (by decide) (by decide), List.map_map, List.map_map]
  congr 1
  apply List.map_congr_left
  intro words _
  exact rewrite_join rfl (by decide) (by decide) words

theorem rewrite_chars {s : List Char} {c : Char} (member : c ∈ rewrite fits g s) :
    c ∈ s ∨ c = '[' ∨ c = ']' ∨ ∃ digits, Digits fits digits ∧ c ∈ g digits := by
  induction s using piece_induction fits with
  | nil => cases member
  | plain x s plain ih =>
    rw [rewrite_plain plain] at member
    rcases List.mem_cons.mp member with rfl | later
    · exact .inl List.mem_cons_self
    · exact (ih later).imp_left (List.mem_cons_of_mem _)
  | marker digits rest ok ih =>
    rw [rewrite_marker ok] at member
    rcases List.mem_append.mp member with here | later
    · simp only [bracketed, List.cons_append, List.mem_cons, List.mem_append, List.not_mem_nil,
        or_false] at here
      rcases here with rfl | inside | rfl
      · exact .inr (.inl rfl)
      · exact .inr (.inr (.inr ⟨digits, ok, inside⟩))
      · exact .inr (.inr (.inl rfl))
    · exact (ih later).imp_left (List.mem_append_right _)

theorem rewrite_ne_nil {s : List Char} (shows : s ≠ []) : rewrite fits g s ≠ [] := by
  induction s using piece_induction fits with
  | nil => exact absurd rfl shows
  | plain x s plain _ =>
    rw [rewrite_plain plain]
    exact List.cons_ne_nil _ _
  | marker digits rest ok _ =>
    rw [rewrite_marker ok]
    simp [bracketed]

theorem decimal_zero : isDecimal '\x00' = false := rfl

theorem rewrite_line (keeps : ∀ digits, Digits fits digits → ∀ c ∈ g digits, isDecimal c = true)
    {words : List (List Char)} (line : Line words) : Line (words.map (rewrite fits g)) := by
  refine ⟨by simpa using line.shows, fun w member => ?_⟩
  obtain ⟨v, inside, rfl⟩ := List.mem_map.mp member
  obtain ⟨word, free⟩ := line.words v inside
  refine ⟨⟨rewrite_ne_nil word.shows, fun c there => ?_⟩, fun zero => ?_⟩
  · rcases rewrite_chars there with old | rfl | rfl | ⟨digits, ok, new⟩
    · exact word.solid c old
    · rfl
    · rfl
    · exact (digit_plain (keeps digits ok c new)).2.2
  · rcases rewrite_chars zero with old | same | same | ⟨digits, ok, new⟩
    · exact free old
    · exact absurd same (by decide)
    · exact absurd same (by decide)
    · have digit := keeps digits ok _ new
      rw [decimal_zero] at digit
      cases digit

/-- A text that is normalized stays so when its markers are rewritten. -/
theorem rewrite_lines (keeps : ∀ digits, Digits fits digits → ∀ c ∈ g digits, isDecimal c = true)
    {lines : List (List (List Char))} (ok : ∀ line ∈ lines, Line line) :
    ∀ line ∈ lines.map (List.map (rewrite fits g)), Line line := by
  intro line member
  obtain ⟨words, inside, rfl⟩ := List.mem_map.mp member
  exact rewrite_line keeps (ok words inside)

end Rewriting

end RagProject.Generation
