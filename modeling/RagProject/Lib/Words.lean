import Mathlib.Data.List.Infix
import RagProject.Lib.Python

/-! Texts as words between blanks, and as lines. -/
namespace Python

structure Word (w : List Char) : Prop where
  shows : w ≠ []
  solid : ∀ c ∈ w, isSpace c = false

theorem splitWords_cons (c : Char) (cs : List Char) :
    splitWords (c :: cs) =
      if isSpace c then splitWords cs
      else match cs with
        | [] => [[c]]
        | d :: _ =>
          if isSpace d then [c] :: splitWords cs
          else match splitWords cs with
            | w :: ws => (c :: w) :: ws
            | [] => [[c]] := by
  cases cs <;> rfl

theorem word_of_split {s w : List Char} (member : w ∈ splitWords s) : Word w := by
  induction s generalizing w with
  | nil => cases member
  | cons c cs ih =>
    rw [splitWords_cons] at member
    split at member
    · exact ih member
    · rename_i solid
      have single : Word [c] := ⟨by simp, by simpa using solid⟩
      split at member
      · exact List.mem_singleton.mp member ▸ single
      · split at member
        · rcases List.mem_cons.mp member with rfl | later
          · exact single
          · exact ih later
        · split at member
          · rename_i first rest shape
            rcases List.mem_cons.mp member with rfl | later
            · have word : Word first := ih (shape ▸ List.mem_cons_self)
              refine ⟨by simp, fun d inside => ?_⟩
              rcases List.mem_cons.mp inside with rfl | deeper
              · simpa using solid
              · exact word.solid d deeper
            · exact ih (shape ▸ List.mem_cons_of_mem _ later)
          · exact List.mem_singleton.mp member ▸ single

theorem splitWords_blank {c : Char} (blank : isSpace c = true) (s : List Char) :
    splitWords (c :: s) = splitWords s := by
  rw [splitWords_cons, if_pos blank]

theorem splitWords_word {w : List Char} (word : Word w) : splitWords w = [w] := by
  obtain ⟨shows, solid⟩ := word
  induction w with
  | nil => exact absurd rfl shows
  | cons c w ih =>
    rw [splitWords_cons, if_neg (by simp [solid c List.mem_cons_self])]
    cases w with
    | nil => rfl
    | cons d w =>
      have rest := ih (by simp) fun e inside => solid e (List.mem_cons_of_mem _ inside)
      simp only [rest, solid d (by simp), Bool.false_eq_true, if_false]

/-- A word ends at the first blank. -/
theorem splitWords_append {w : List Char} {blank : Char} (word : Word w)
    (space : isSpace blank = true) (s : List Char) :
    splitWords (w ++ blank :: s) = w :: splitWords s := by
  obtain ⟨shows, solid⟩ := word
  induction w with
  | nil => exact absurd rfl shows
  | cons c w ih =>
    rw [List.cons_append, splitWords_cons, if_neg (by simp [solid c List.mem_cons_self])]
    cases w with
    | nil =>
      simp only [List.nil_append, space, if_true]
      rw [splitWords_blank space]
    | cons d w =>
      have rest := ih (by simp) fun e inside => solid e (List.mem_cons_of_mem _ inside)
      rw [List.cons_append] at rest ⊢
      simp only [rest, solid d (by simp), Bool.false_eq_true, if_false]

theorem join_part {w : List Char} {ws : List (List Char)} (member : w ∈ ws) :
    w <:+: join [' '] ws := by
  induction ws with
  | nil => cases member
  | cons v ws ih =>
    cases ws with
    | nil =>
      rw [List.mem_singleton.mp member]
      exact List.infix_rfl
    | cons u ws =>
      have shape : join [' '] (v :: u :: ws) = v ++ [' '] ++ join [' '] (u :: ws) := rfl
      rw [shape]
      rcases List.mem_cons.mp member with rfl | later
      · exact (List.prefix_append _ _).trans (List.prefix_append _ _) |>.isInfix
      · exact (ih later).trans (List.suffix_append _ _).isInfix

theorem join_concat {ws : List (List Char)} (some_word : ws ≠ []) (w : List Char) :
    join [' '] (ws ++ [w]) = join [' '] ws ++ [' '] ++ w := by
  induction ws with
  | nil => exact absurd rfl some_word
  | cons v ws ih =>
    cases ws with
    | nil => rfl
    | cons u ws =>
      have shape : join [' '] (v :: u :: ws) = v ++ [' '] ++ join [' '] (u :: ws) := rfl
      have longer : join [' '] (v :: u :: ws ++ [w]) = v ++ [' '] ++ join [' '] (u :: ws ++ [w]) := rfl
      rw [shape, longer, ih (List.cons_ne_nil u ws)]
      simp

/-- Words that are joined by a blank are found again. -/
theorem splitWords_join {ws : List (List Char)} (words : ∀ w ∈ ws, Word w) :
    splitWords (join [' '] ws) = ws := by
  induction ws with
  | nil => rfl
  | cons w ws ih =>
    have first := words w List.mem_cons_self
    have later : ∀ v ∈ ws, Word v := fun v member => words v (List.mem_cons_of_mem _ member)
    cases ws with
    | nil => exact splitWords_word first
    | cons v ws =>
      have shape : join [' '] (w :: v :: ws) = w ++ ' ' :: join [' '] (v :: ws) := by
        simp [join]
      rw [shape, splitWords_append first rfl, ih later]

theorem join_ends {ws : List (List Char)} (words : ∀ w ∈ ws, Word w) (some_word : ws ≠ []) :
    ∃ first last, (join [' '] ws).head? = some first ∧ (join [' '] ws).getLast? = some last ∧
      isSpace first = false ∧ isSpace last = false := by
  induction ws with
  | nil => exact absurd rfl some_word
  | cons w ws ih =>
    obtain ⟨shows, solid⟩ := words w List.mem_cons_self
    obtain ⟨first, rest, rfl⟩ := List.exists_cons_of_ne_nil shows
    cases ws with
    | nil =>
      have ending := List.getLast?_eq_some_getLast shows
      exact ⟨first, _, rfl, ending, solid first (by simp), solid _ (List.getLast_mem shows)⟩
    | cons v ws =>
      obtain ⟨_, last, _, tail, _, graphic⟩ :=
        ih (fun u member => words u (List.mem_cons_of_mem _ member)) (by simp)
      refine ⟨first, last, by simp [join], ?_, solid first (by simp), graphic⟩
      have shape : join [' '] ((first :: rest) :: v :: ws) =
          ((first :: rest) ++ [' ']) ++ join [' '] (v :: ws) := rfl
      rw [shape, List.getLast?_append, tail]
      rfl

theorem strip_join {ws : List (List Char)} (words : ∀ w ∈ ws, Word w) :
    strip (join [' '] ws) = join [' '] ws := by
  by_cases none : ws = []
  · rw [none]
    rfl
  · exact strip_eq_self.mpr (.inr (join_ends words none))

theorem join_ne_nil {ws : List (List Char)} (words : ∀ w ∈ ws, Word w) (some_word : ws ≠ []) :
    join [' '] ws ≠ [] := by
  obtain ⟨first, _, head, _⟩ := join_ends words some_word
  intro empty
  rw [empty] at head
  cases head

/-- A part of a joined text from its beginning is joined, unless it ends in the separator. -/
theorem join_prefix {ws : List (List Char)} (words : ∀ w ∈ ws, Word w) {p : List Char}
    (front : p <+: join [' '] ws) (shows : p ≠ []) (whole : p.getLast? ≠ some ' ') :
    ∃ vs, (∀ v ∈ vs, Word v) ∧ p = join [' '] vs := by
  induction ws generalizing p with
  | nil => exact absurd (List.prefix_nil.mp front) shows
  | cons w ws ih =>
    have within (inside : p <+: w) : ∃ vs, (∀ v ∈ vs, Word v) ∧ p = join [' '] vs := by
      refine ⟨[p], fun v member => ?_, rfl⟩
      rw [List.mem_singleton.mp member]
      exact ⟨shows, fun c member => (words w List.mem_cons_self).solid c (inside.subset member)⟩
    cases ws with
    | nil => exact within front
    | cons v vs =>
      have shape : join [' '] (w :: v :: vs) = w ++ ' ' :: join [' '] (v :: vs) := by
        simp [join]
      rw [shape] at front
      obtain ⟨rest, both⟩ := front
      rcases List.append_eq_append_iff.mp both with ⟨t, inside, _⟩ | ⟨t, rfl, tail⟩
      · exact within ⟨t, inside.symm⟩
      · cases t with
        | nil =>
          rw [List.append_nil]
          rw [List.append_nil] at shows
          exact ⟨[w], fun u member => words u (by simp_all), rfl⟩
        | cons c t =>
          obtain ⟨rfl, later⟩ := List.cons.inj tail
          by_cases ended : t = []
          · subst ended
            exact absurd (by simp) whole
          · have last : t.getLast? ≠ some ' ' := by
              intro blank
              apply whole
              rw [List.getLast?_append, List.getLast?_cons]
              simp [blank]
            obtain ⟨us, known, rfl⟩ :=
              ih (fun u member => words u (List.mem_cons_of_mem _ member)) ⟨rest, later.symm⟩
                ended last
            cases us with
            | nil => exact absurd rfl ended
            | cons u us =>
              refine ⟨w :: u :: us, fun x member => ?_, by simp [join]⟩
              rcases List.mem_cons.mp member with rfl | there
              · exact words x List.mem_cons_self
              · exact known x there

theorem splitWords_chars {s w : List Char} (member : w ∈ splitWords s) : ∀ c ∈ w, c ∈ s := by
  induction s generalizing w with
  | nil => cases member
  | cons d s ih =>
    rw [splitWords_cons] at member
    intro c inside
    split at member
    · exact List.mem_cons_of_mem _ (ih member c inside)
    · split at member
      · rw [List.mem_singleton.mp member] at inside
        exact List.mem_singleton.mp inside ▸ List.mem_cons_self
      · split at member
        · rcases List.mem_cons.mp member with rfl | later
          · exact List.mem_singleton.mp inside ▸ List.mem_cons_self
          · exact List.mem_cons_of_mem _ (ih later c inside)
        · split at member
          · next first rest shape =>
            rcases List.mem_cons.mp member with rfl | later
            · rcases List.mem_cons.mp inside with rfl | deeper
              · exact List.mem_cons_self
              · exact List.mem_cons_of_mem _ (ih (shape ▸ List.mem_cons_self) c deeper)
            · exact List.mem_cons_of_mem _ (ih (shape ▸ List.mem_cons_of_mem _ later) c inside)
          · rw [List.mem_singleton.mp member] at inside
            exact List.mem_singleton.mp inside ▸ List.mem_cons_self

theorem join_chars {sep : List Char} {ws : List (List Char)} {c : Char}
    (member : c ∈ join sep ws) : c ∈ sep ∨ ∃ w ∈ ws, c ∈ w := by
  fun_induction join sep ws with
  | case1 => cases member
  | case2 w => exact .inr ⟨w, List.mem_cons_self, member⟩
  | case3 w v ws ih =>
    rcases List.mem_append.mp member with front | later
    · rcases List.mem_append.mp front with inside | between
      · exact .inr ⟨w, List.mem_cons_self, inside⟩
      · exact .inl between
    · rcases ih later with between | ⟨u, inside, there⟩
      · exact .inl between
      · exact .inr ⟨u, List.mem_cons_of_mem _ inside, there⟩

theorem splitWords_eq_nil {s : List Char} : splitWords s = [] ↔ ∀ c ∈ s, isSpace c = true := by
  induction s with
  | nil => exact ⟨(fun _ _ member => nomatch member), fun _ => rfl⟩
  | cons c s ih =>
    rw [splitWords_cons]
    by_cases blank : isSpace c = true
    · rw [if_pos blank, ih]
      simp [blank]
    · rw [if_neg blank]
      constructor
      · intro none
        exfalso
        revert none
        split
        · simp
        · split
          · simp
          · split <;> simp
      · intro all
        exact absurd (all c List.mem_cons_self) blank

/-- Only blanks are stripped away. -/
theorem strip_eq_nil {s : List Char} : strip s = [] ↔ ∀ c ∈ s, isSpace c = true := by
  unfold strip
  rw [List.reverse_eq_nil_iff, List.dropWhile_eq_nil_iff]
  constructor
  · intro all c member
    by_contra solid
    have kept : s.dropWhile isSpace ≠ [] := by
      intro none
      exact solid (List.dropWhile_eq_nil_iff.mp none c member)
    obtain ⟨d, rest, shape⟩ := List.exists_cons_of_ne_nil kept
    have first := List.head?_dropWhile_not isSpace s
    rw [shape] at first
    have blank := all d (by simp [shape])
    simp [blank] at first
  · intro all c member
    exact all c ((List.dropWhile_sublist isSpace).subset (List.mem_reverse.mp member))

theorem contains_iff {s part : List Char} :
    contains s part = true ↔ ∃ front back, s = front ++ (part ++ back) := by
  unfold contains
  rw [List.any_eq_true]
  constructor
  · rintro ⟨tail, member, starts⟩
    obtain ⟨front, whole⟩ := (List.mem_tails _ _).mp member
    obtain ⟨back, shape⟩ := List.isPrefixOf_iff_prefix.mp starts
    exact ⟨front, back, by rw [← whole, ← shape]⟩
  · rintro ⟨front, back, rfl⟩
    exact ⟨part ++ back, (List.mem_tails _ _).mpr ⟨front, rfl⟩,
      List.isPrefixOf_iff_prefix.mpr ⟨back, rfl⟩⟩

/-- The line boundaries of str.splitlines; \r\n is one of them. -/
def isLineBreak (c : Char) : Bool :=
  let n := c.toNat
  (10 ≤ n && n ≤ 13) || (28 ≤ n && n ≤ 30) || n == 0x85 || n == 0x2028 || n == 0x2029

/-- str.splitlines. -/
def splitLines : List Char → List (List Char)
  | [] => []
  | '\r' :: '\n' :: s => [] :: splitLines s
  | c :: s =>
    if isLineBreak c then [] :: splitLines s
    else match splitLines s with
      | line :: lines => (c :: line) :: lines
      | [] => [[c]]

theorem lineBreak_blank {c : Char} (br : isLineBreak c = true) : isSpace c = true := by
  simp only [isLineBreak, isSpace, Bool.or_eq_true, Bool.and_eq_true, decide_eq_true_eq,
    beq_iff_eq] at br ⊢
  omega

/-- A line without breaks ends at the break that follows it. -/
theorem splitLines_line {line : List Char} (shows : line ≠ [])
    (solid : ∀ c ∈ line, isLineBreak c = false) (s : List Char) :
    splitLines (line ++ '\n' :: s) = line :: splitLines s ∧ splitLines line = [line] := by
  induction line with
  | nil => exact absurd rfl shows
  | cons c line ih =>
    have plain := solid c List.mem_cons_self
    have other : c ≠ '\r' := by
      rintro rfl
      cases plain
    have step (t : List Char) : splitLines (c :: t) =
        match splitLines t with
        | l :: lines => (c :: l) :: lines
        | [] => [[c]] := by
      rw [splitLines, if_neg (by simp [plain])]
      rintro rest rfl
      exact absurd rfl other
    cases line with
    | nil =>
      rw [List.cons_append, List.nil_append, step, step]
      exact ⟨by simp [splitLines, isLineBreak], rfl⟩
    | cons d line =>
      obtain ⟨more, single⟩ := ih (by simp) fun e member => solid e (List.mem_cons_of_mem _ member)
      rw [List.cons_append, step, step, more, single]
      exact ⟨rfl, rfl⟩

/-- Lines that are joined by breaks are found again. -/
theorem splitLines_join {lines : List (List Char)}
    (solid : ∀ line ∈ lines, line ≠ [] ∧ ∀ c ∈ line, isLineBreak c = false) :
    splitLines (join ['\n'] lines) = lines := by
  induction lines with
  | nil => rfl
  | cons line lines ih =>
    obtain ⟨shows, plain⟩ := solid line List.mem_cons_self
    have rest := ih fun l member => solid l (List.mem_cons_of_mem _ member)
    cases lines with
    | nil => exact (splitLines_line shows plain []).2
    | cons next lines =>
      have shape : join ['\n'] (line :: next :: lines) = line ++ '\n' :: join ['\n'] (next :: lines) := by
        simp [join]
      rw [shape, (splitLines_line shows plain _).1, rest]

/-- A text may be split into words on both sides of a blank. -/
theorem splitWords_cut {blank : Char} (space : isSpace blank = true) (s t : List Char) :
    splitWords (s ++ blank :: t) = splitWords s ++ splitWords t := by
  induction s with
  | nil => exact splitWords_blank space t
  | cons c s ih =>
    by_cases solid : isSpace c = true
    · rw [List.cons_append, splitWords_blank solid, splitWords_blank solid, ih]
    · rw [List.cons_append, splitWords_cons, splitWords_cons, if_neg solid, if_neg solid]
      cases s with
      | nil => simp [space, splitWords_blank space]
      | cons d s =>
        rw [List.cons_append] at ih ⊢
        simp only
        by_cases next : isSpace d = true
        · rw [if_pos next, if_pos next, ih]
          rfl
        · rw [if_neg next, if_neg next, ih]
          have shows : splitWords (d :: s) ≠ [] := by
            intro none
            exact next (splitWords_eq_nil.mp none d List.mem_cons_self)
          obtain ⟨w, ws, shape⟩ := List.exists_cons_of_ne_nil shows
          rw [shape]
          rfl

/-- str(n) tells numbers apart. -/
theorem toString_injective {m n : Nat} (same : toString m = toString n) : m = n := by
  have digits : Nat.toDigits 10 m = Nat.toDigits 10 n := by
    rw [← Nat.toList_repr, ← Nat.toList_repr]
    exact congrArg String.toList same
  calc m = Nat.ofDigitChars 10 (Nat.toDigits 10 m) 0 := Nat.ofDigitChars_ten_toDigits.symm
    _ = n := by rw [digits, Nat.ofDigitChars_ten_toDigits]

end Python
