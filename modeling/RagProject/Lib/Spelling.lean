import RagProject.Lib.Words

/-! Texts under the operations that bring a label into one spelling: characters stripped at both
ends, blanks collapsed, characters replaced, and what lowering changes about them. -/
namespace Python

/-- Induction over a text by its words and the blanks between them. -/
theorem words_induction {P : List Char → Prop} (nil : P [])
    (blank : ∀ b s, isSpace b = true → P s → P (b :: s)) (word : ∀ w, Word w → P w)
    (cut : ∀ w b s, Word w → isSpace b = true → P (b :: s) → P (w ++ b :: s)) (s : List Char) :
    P s := by
  induction len : s.length using Nat.strong_induction_on generalizing s with
  | _ n ih =>
    cases s with
    | nil => exact nil
    | cons c cs =>
      by_cases first : isSpace c = true
      · exact blank c cs first (ih cs.length (by simp [← len]) cs rfl)
      · have front : Word ((c :: cs).takeWhile (!isSpace ·)) := by
          refine ⟨by simp [first], fun d member => ?_⟩
          simpa using List.mem_takeWhile_imp member
        have whole := List.takeWhile_append_dropWhile (p := fun c => !isSpace c) (l := c :: cs)
        cases shape : (c :: cs).dropWhile (!isSpace ·) with
        | nil =>
          rw [shape, List.append_nil] at whole
          exact whole ▸ word _ front
        | cons b rest =>
          have space : isSpace b = true := by
            have stop := List.head?_dropWhile_not (fun c => !isSpace c) (c :: cs)
            rw [shape] at stop
            simpa using stop
          have shorter : (b :: rest).length < n := by
            have total := congrArg List.length whole
            rw [List.length_append, shape, len] at total
            have shows := List.length_pos_iff.mpr front.shows
            omega
          rw [shape] at whole
          rw [← whole]
          exact cut _ b rest front space (ih _ shorter (b :: rest) rfl)

/-- The words hold what is no blank, in order. -/
theorem splitWords_flatten (s : List Char) : (splitWords s).flatten = s.filter (!isSpace ·) := by
  induction s using words_induction with
  | nil => rfl
  | blank b s space ih => rw [splitWords_blank space, ih, List.filter_cons_of_neg (by simp [space])]
  | word w word =>
    rw [splitWords_word word, List.flatten_singleton, List.filter_eq_self.mpr]
    intro c member
    simp [word.solid c member]
  | cut w b s word space ih =>
    have kept : w.filter (!isSpace ·) = w :=
      List.filter_eq_self.mpr fun c member => by simp [word.solid c member]
    rw [splitWords_append word space, List.flatten_cons, List.filter_append, kept, ← ih,
      splitWords_blank space]

theorem join_graphic {ws : List (List Char)} (words : ∀ w ∈ ws, Word w) :
    (join [' '] ws).filter (!isSpace ·) = ws.flatten := by
  rw [← splitWords_flatten, splitWords_join words]

/-- str.strip(chars). -/
def stripChars (chars : List Char) (s : List Char) : List Char :=
  (s.dropWhile (chars.contains ·)).rdropWhile (chars.contains ·)

/-- re.sub(r"\s+", " ", text). -/
def collapse : List Char → List Char
  | [] => []
  | c :: cs =>
    if isSpace c then
      match cs with
      | d :: _ => if isSpace d then collapse cs else ' ' :: collapse cs
      | [] => [' ']
    else c :: collapse cs

/-- str.replace for two characters. -/
def replaceChar (old new : Char) (s : List Char) : List Char :=
  s.map fun c => if c = old then new else c

theorem collapse_cons (c : Char) (cs : List Char) : collapse (c :: cs) =
    if isSpace c then
      match cs with
      | d :: _ => if isSpace d then collapse cs else ' ' :: collapse cs
      | [] => [' ']
    else c :: collapse cs := by
  cases cs <;> rfl

theorem collapse_word {w : List Char} (word : Word w) (s : List Char) :
    collapse (w ++ s) = w ++ collapse s := by
  have solid := word.solid
  clear word
  induction w with
  | nil => rfl
  | cons c w ih =>
    rw [List.cons_append, collapse_cons, if_neg (by simp [solid c List.mem_cons_self]),
      ih fun d member => solid d (List.mem_cons_of_mem _ member)]
    rfl

def leadingBlank (s : List Char) : List Char := if s.head?.any isSpace then [' '] else []

/-- A collapsed text is its words, with a blank before them where it had one and at most a blank
behind them. -/
theorem collapse_words (s : List Char) : ∃ rest, (∀ c ∈ rest, isSpace c = true) ∧
    collapse s = leadingBlank s ++ join [' '] (splitWords s) ++ rest := by
  induction s using words_induction with
  | nil => exact ⟨[], by simp, rfl⟩
  | blank b s space ih =>
    obtain ⟨rest, blanks, shape⟩ := ih
    refine ⟨rest, blanks, ?_⟩
    have lead : leadingBlank (b :: s) = [' '] := by simp [leadingBlank, space]
    rw [lead, splitWords_blank space, collapse_cons, if_pos space]
    cases s with
    | nil => simpa [collapse, leadingBlank, splitWords, join] using shape
    | cons d s =>
      by_cases next : isSpace d = true
      · have lead : leadingBlank (d :: s) = [' '] := by simp [leadingBlank, next]
        rw [lead] at shape
        simp only [if_pos next]
        exact shape
      · have lead : leadingBlank (d :: s) = [] := by simp [leadingBlank, next]
        rw [lead, List.nil_append] at shape
        simp only [if_neg next, shape]
        rfl
  | word w word =>
    have lead : leadingBlank w = [] := by
      obtain ⟨c, w, rfl⟩ := List.exists_cons_of_ne_nil word.shows
      simp [leadingBlank, word.solid c List.mem_cons_self]
    refine ⟨[], by simp, ?_⟩
    have plain := collapse_word word []
    rw [List.append_nil] at plain
    rw [lead, splitWords_word word, plain]
    rfl
  | cut w b s word space ih =>
    obtain ⟨rest, blanks, shape⟩ := ih
    have lead : leadingBlank (w ++ b :: s) = [] := by
      obtain ⟨c, w, rfl⟩ := List.exists_cons_of_ne_nil word.shows
      simp [leadingBlank, word.solid c List.mem_cons_self]
    have between : leadingBlank (b :: s) = [' '] := by simp [leadingBlank, space]
    rw [between, splitWords_blank space] at shape
    rw [lead, splitWords_append word space, collapse_word word, shape]
    cases none : splitWords s with
    | nil =>
      refine ⟨' ' :: rest, ?_, by simp [join]⟩
      intro c member
      rcases List.mem_cons.mp member with rfl | later
      · rfl
      · exact blanks c later
    | cons v vs => exact ⟨rest, blanks, by simp [join]⟩

theorem strip_around {front s back : List Char} (before : ∀ c ∈ front, isSpace c = true)
    (after : ∀ c ∈ back, isSpace c = true) (stripped : strip s = s) :
    strip (front ++ s ++ back) = s := by
  rcases strip_eq_self.mp stripped with rfl | ⟨first, last, head, tail, graphicHead, graphicTail⟩
  · rw [List.append_nil, strip_eq_nil]
    intro c member
    exact (List.mem_append.mp member).elim (before c) (after c)
  · obtain ⟨rest, rfl⟩ := List.head?_eq_some_iff.mp head
    obtain ⟨init, shape⟩ := List.getLast?_eq_some_iff.mp tail
    have left : (front ++ first :: rest ++ back).dropWhile isSpace = first :: rest ++ back := by
      rw [List.append_assoc, List.dropWhile_append_of_pos before, List.cons_append,
        List.dropWhile_cons_of_neg (by simp [graphicHead])]
    have right : (init ++ [last] ++ back).rdropWhile isSpace = init ++ [last] := by
      rw [List.rdropWhile, List.reverse_append,
        List.dropWhile_append_of_pos (fun c member => after c (List.mem_reverse.mp member)),
        List.reverse_append, List.reverse_singleton, List.singleton_append,
        List.dropWhile_cons_of_neg (by simp [graphicTail])]
      simp
    change ((front ++ first :: rest ++ back).dropWhile isSpace).rdropWhile isSpace = _
    rw [left, shape, right]

theorem strip_collapse (s : List Char) : strip (collapse s) = join [' '] (splitWords s) := by
  obtain ⟨rest, blanks, shape⟩ := collapse_words s
  have lead : ∀ c ∈ leadingBlank s, isSpace c = true := by
    intro c member
    unfold leadingBlank at member
    split at member
    · rw [List.mem_singleton.mp member]
      rfl
    · cases member
  rw [shape]
  exact strip_around lead blanks (strip_join fun w member => word_of_split member)

section Stripped
variable {chars : List Char}

theorem stripChars_around {front back : List Char} (s : List Char)
    (before : ∀ c ∈ front, c ∈ chars) (after : ∀ c ∈ back, c ∈ chars) :
    stripChars chars (front ++ s ++ back) = stripChars chars s := by
  have left : ∀ t, (front ++ t).dropWhile (chars.contains ·) = t.dropWhile (chars.contains ·) :=
    fun t => List.dropWhile_append_of_pos fun c member => by simpa using before c member
  have right : ∀ t, (t ++ back).rdropWhile (chars.contains ·) = t.rdropWhile (chars.contains ·) := by
    intro t
    unfold List.rdropWhile
    rw [List.reverse_append, List.dropWhile_append_of_pos]
    intro c member
    simpa using after c (List.mem_reverse.mp member)
  unfold stripChars
  rw [List.append_assoc, left, List.dropWhile_append]
  split
  · rename_i nothing
    have all : back.dropWhile (chars.contains ·) = [] :=
      List.dropWhile_eq_nil_iff.mpr fun c member => by simpa using after c member
    rw [all, List.isEmpty_iff.mp nothing]
  · exact right _

/-- Both ends of a text are stripped apart from each other when something between them stays. -/
theorem stripChars_between {s : List Char} (some : s ≠ []) (kept : ∀ c ∈ s, c ∉ chars)
    (a b : List Char) : stripChars chars (a ++ s ++ b) =
      a.dropWhile (chars.contains ·) ++ s ++ b.rdropWhile (chars.contains ·) := by
  have left : (a ++ s ++ b).dropWhile (chars.contains ·) =
      a.dropWhile (chars.contains ·) ++ s ++ b := by
    obtain ⟨c, s, rfl⟩ := List.exists_cons_of_ne_nil some
    have stays : ¬(chars.contains c) = true := by simpa using kept c List.mem_cons_self
    rw [List.append_assoc, List.dropWhile_append]
    split
    · rename_i nothing
      rw [List.isEmpty_iff.mp nothing, List.cons_append, List.dropWhile_cons_of_neg stays]
      rfl
    · rw [List.append_assoc]
  have right : ∀ t, (t ++ s ++ b).rdropWhile (chars.contains ·) =
      t ++ s ++ b.rdropWhile (chars.contains ·) := by
    intro t
    obtain ⟨front, c, shape⟩ := (List.eq_nil_or_concat s).resolve_left some
    rw [List.concat_eq_append] at shape
    have stays : ¬(chars.contains c) = true := by simpa using kept c (by simp [shape])
    unfold List.rdropWhile
    rw [List.reverse_append, List.dropWhile_append]
    split
    · rename_i nothing
      rw [List.isEmpty_iff.mp nothing, shape, ← List.append_assoc, List.reverse_append,
        List.reverse_singleton, List.singleton_append, List.dropWhile_cons_of_neg stays]
      simp
    · rw [List.reverse_append, List.reverse_reverse]
  unfold stripChars
  rw [left, right]

theorem stripChars_plain {s : List Char} (first : ∀ c ∈ s.head?, c ∉ chars)
    (last : ∀ c ∈ s.getLast?, c ∉ chars) : stripChars chars s = s := by
  cases s with
  | nil => rfl
  | cons c s =>
    have stays : ¬(chars.contains c) = true := by simpa using first c rfl
    unfold stripChars
    rw [List.dropWhile_cons_of_neg stays, List.rdropWhile_eq_self_iff]
    intro shows
    simpa using last _ (List.getLast?_eq_some_getLast shows)

end Stripped

section Lowering
variable [UnicodeTables]

/-- Lowering keeps the characters of a class and gives none of them. -/
structure CaseStable (p : Char → Bool) : Prop where
  fixed : ∀ c, p c = true → lower [c] = [c]
  apart : ∀ c, p c = false → lower [c] ≠ [] ∧ ∀ d ∈ lower [c], p d = false

theorem lower_cons (c : Char) (s : List Char) : lower (c :: s) = lower [c] ++ lower s :=
  lower_append [c] s

variable {p : Char → Bool} (stable : CaseStable p)
include stable

theorem dropWhile_lower (s : List Char) : (lower s).dropWhile p = lower (s.dropWhile p) := by
  induction s with
  | nil => rfl
  | cons c s ih =>
    by_cases inside : p c = true
    · rw [lower_cons, stable.fixed c inside, List.singleton_append,
        List.dropWhile_cons_of_pos inside, List.dropWhile_cons_of_pos inside, ih]
    · obtain ⟨shows, apart⟩ := stable.apart c (by simpa using inside)
      obtain ⟨d, rest, shape⟩ := List.exists_cons_of_ne_nil shows
      have first : p d = false := apart d (by simp [shape])
      have whole : lower (c :: s) = d :: (rest ++ lower s) := by
        rw [lower_cons, shape, List.cons_append]
      rw [List.dropWhile_cons_of_neg inside, whole, List.dropWhile_cons_of_neg (by simp [first])]

theorem rdropWhile_lower (s : List Char) : (lower s).rdropWhile p = lower (s.rdropWhile p) := by
  induction s using List.reverseRecOn with
  | nil => rfl
  | append_singleton s c ih =>
    rw [lower_append]
    by_cases inside : p c = true
    · rw [stable.fixed c inside, List.rdropWhile_concat_pos p s c inside,
        List.rdropWhile_concat_pos p _ c inside, ih]
    · obtain ⟨shows, apart⟩ := stable.apart c (by simpa using inside)
      obtain ⟨front, d, shape⟩ := (List.eq_nil_or_concat (lower [c])).resolve_left shows
      rw [List.concat_eq_append] at shape
      have outside : ¬p d = true := by simp [apart d (by simp [shape])]
      rw [List.rdropWhile_concat_neg p s c inside, lower_append, shape, ← List.append_assoc,
        List.rdropWhile_concat_neg p _ d outside]

end Lowering

section Words
variable [UnicodeTables]

theorem lower_word (stable : CaseStable isSpace) {w : List Char} (word : Word w) :
    Word (lower w) := by
  constructor
  · obtain ⟨c, w, rfl⟩ := List.exists_cons_of_ne_nil word.shows
    rw [lower_cons]
    exact List.append_ne_nil_of_left_ne_nil
      (stable.apart c (word.solid c List.mem_cons_self)).1 _
  · intro d member
    obtain ⟨c, there, inside⟩ := List.mem_flatMap.mp member
    refine (stable.apart c (word.solid c there)).2 d ?_
    unfold lower
    rw [List.flatMap_singleton]
    exact inside

theorem splitWords_lower (stable : CaseStable isSpace) (s : List Char) :
    splitWords (lower s) = (splitWords s).map lower := by
  induction s using words_induction with
  | nil => rfl
  | blank b s space ih =>
    rw [lower_cons, stable.fixed b space, List.singleton_append, splitWords_blank space,
      splitWords_blank space, ih]
  | word w word =>
    rw [splitWords_word word, splitWords_word (lower_word stable word)]
    rfl
  | cut w b s word space ih =>
    rw [lower_cons, stable.fixed b space, List.singleton_append, splitWords_blank space,
      splitWords_blank space] at ih
    rw [lower_append, lower_cons, stable.fixed b space, List.singleton_append,
      splitWords_append (lower_word stable word) space, splitWords_append word space, ih]
    rfl

theorem lower_join (ws : List (List Char)) :
    lower (join [' '] ws) = join [' '] (ws.map lower) := by
  fun_induction join [' '] ws with
  | case1 => rfl
  | case2 w => rfl
  | case3 w v ws ih =>
    rw [lower_append, lower_append, ih]
    rfl

end Words

end Python
