import Mathlib.Data.Nat.Find
import RagProject.Lib.Words

/-! Texts that are put together from runs, with a blank between the runs or with nothing. -/
namespace Python

/-- " ".join(s.split()). -/
def squeeze (s : List Char) : List Char := join [' '] (splitWords s)

/-- A word goes on from the end of one text to the beginning of the next. -/
def Meets (s t : List Char) : Prop :=
  (∃ c ∈ s.getLast?, isSpace c = false) ∧ ∃ d ∈ t.head?, isSpace d = false

instance (s t : List Char) : Decidable (Meets s t) := inferInstanceAs (Decidable (_ ∧ _))

/-- No word goes on from one run to the next before the first n characters of the squeezed text. -/
def Undivided (n : Nat) (runs : List (List Char)) : Prop :=
  ∀ k, Meets (runs.take k).flatten (runs.drop k).flatten → n ≤ (squeeze (runs.take k).flatten).length

instance (n : Nat) (runs : List (List Char)) : Decidable (Undivided n runs) :=
  decidable_of_iff (∀ k < runs.length, Meets (runs.take k).flatten (runs.drop k).flatten →
    n ≤ (squeeze (runs.take k).flatten).length) <| by
    constructor
    · intro inside k meets
      by_cases early : k < runs.length
      · exact inside k early meets
      · obtain ⟨_, d, first, _⟩ := meets
        rw [List.drop_eq_nil_of_le (Nat.le_of_not_lt early)] at first
        cases first
    · exact fun undivided k _ => undivided k

theorem join_append {sep : List Char} {ws vs : List (List Char)} (first : ws ≠ []) (later : vs ≠ []) :
    join sep (ws ++ vs) = join sep ws ++ sep ++ join sep vs := by
  fun_induction join sep ws with
  | case1 => exact absurd rfl first
  | case2 w =>
    obtain ⟨v, vs, rfl⟩ := List.exists_cons_of_ne_nil later
    rfl
  | case3 w v ws ih =>
    have shape : join sep (w :: v :: ws ++ vs) = w ++ sep ++ join sep (v :: ws ++ vs) := rfl
    rw [shape, ih (by simp)]
    simp

theorem join_front (sep : List Char) (ws vs : List (List Char)) :
    join sep ws <+: join sep (ws ++ vs) := by
  by_cases none : vs = []
  · rw [none, List.append_nil]
  · by_cases nothing : ws = []
    · rw [nothing]
      exact List.nil_prefix
    · rw [join_append nothing none, List.append_assoc]
      exact List.prefix_append _ _

theorem splitWords_apart {s t : List Char} (apart : ¬ Meets s t) :
    splitWords (s ++ t) = splitWords s ++ splitWords t := by
  rcases s.eq_nil_or_concat with rfl | ⟨s, c, rfl⟩
  · rfl
  · by_cases blank : isSpace c = true
    · have ended : splitWords (s ++ [c]) = splitWords s := by
        simpa [splitWords] using splitWords_cut blank s []
      rw [List.concat_eq_append, ended, List.append_assoc, List.singleton_append, splitWords_cut blank]
    · cases t with
      | nil => simp [splitWords]
      | cons d t =>
        have space : isSpace d = true := by
          by_contra solid
          exact apart ⟨⟨c, by simp, by simpa using blank⟩, d, rfl, by simpa using solid⟩
        rw [splitWords_cut space, splitWords_blank space]

theorem splitWords_solid {c : Char} {s : List Char} (solid : isSpace c = false) (member : c ∈ s) :
    splitWords s ≠ [] := by
  intro none
  rw [splitWords_eq_nil.mp none c member] at solid
  cases solid

theorem squeeze_solid {c : Char} {s : List Char} (solid : isSpace c = false) (shows : s ≠ [])
    (next : ∃ d ∈ s.head?, isSpace d = false) : squeeze (c :: s) = c :: squeeze s := by
  obtain ⟨d, first, other⟩ := next
  obtain ⟨e, t, rfl⟩ := List.exists_cons_of_ne_nil shows
  obtain rfl : e = d := by simpa using first
  have some_word := splitWords_solid other (List.mem_cons_self (l := t))
  obtain ⟨w, ws, shape⟩ := List.exists_cons_of_ne_nil some_word
  unfold squeeze
  rw [splitWords_cons, if_neg (by simp [solid])]
  simp only [other, Bool.false_eq_true, if_false, shape]
  cases ws <;> rfl

theorem squeeze_meets {s t : List Char} (meets : Meets s t) :
    squeeze (s ++ t) = squeeze s ++ squeeze t := by
  obtain ⟨⟨c, last, solid⟩, next⟩ := meets
  have more : t ≠ [] := by
    rintro rfl
    obtain ⟨d, first, _⟩ := next
    cases first
  induction s with
  | nil => cases last
  | cons a s ih =>
    cases s with
    | nil =>
      obtain rfl : a = c := by simpa using last
      have single : squeeze [a] = [a] := by simp [squeeze, splitWords, solid, join]
      rw [single]
      exact squeeze_solid solid more next
    | cons b s =>
      have tail : c ∈ (b :: s).getLast? := by simpa using last
      have rest := ih tail
      by_cases blank : isSpace a = true
      · have drop (u : List Char) : squeeze (a :: u) = squeeze u := by
          unfold squeeze
          rw [splitWords_blank blank]
        rw [List.cons_append, drop, drop, rest]
      · have graphic : isSpace a = false := by simpa using blank
        by_cases gap : isSpace b = true
        · have alone (u : List Char) (some_word : splitWords (b :: u) ≠ []) :
              squeeze (a :: b :: u) = a :: ' ' :: squeeze (b :: u) := by
            obtain ⟨w, ws, shape⟩ := List.exists_cons_of_ne_nil some_word
            unfold squeeze
            rw [splitWords_cons, if_neg blank]
            simp only [gap, if_true, shape]
            rfl
          have word := splitWords_solid solid (List.mem_of_getLast? tail)
          have longer := splitWords_solid solid
            (List.mem_append_left t (List.mem_of_getLast? tail))
          rw [List.cons_append, List.cons_append, alone (s ++ t) longer, alone s word]
          rw [List.cons_append] at rest
          rw [rest]
          rfl
        · have inner (u : List Char) : squeeze (a :: b :: u) = a :: squeeze (b :: u) :=
            squeeze_solid graphic (by simp) ⟨b, rfl, by simpa using gap⟩
          rw [List.cons_append] at rest
          rw [List.cons_append, List.cons_append, inner, inner, rest]
          rfl

theorem squeeze_front (s t : List Char) : squeeze s <+: squeeze (s ++ t) := by
  by_cases meets : Meets s t
  · rw [squeeze_meets meets]
    exact List.prefix_append _ _
  · unfold squeeze
    rw [splitWords_apart meets]
    exact join_front _ _ _

theorem flatMap_words (runs : List (List Char)) :
    splitWords (join [' '] runs) = runs.flatMap splitWords := by
  induction runs with
  | nil => rfl
  | cons run runs ih =>
    cases runs with
    | nil => simp [join]
    | cons next runs =>
      have shape : join [' '] (run :: next :: runs) = run ++ ' ' :: join [' '] (next :: runs) := by
        simp [join]
      rw [shape, splitWords_cut rfl, ih]
      rfl

theorem flatten_append_solid {runs : List (List Char)} {c : Char} (member : c ∈ runs.flatten)
    (solid : isSpace c = false) : runs.flatMap splitWords ≠ [] := by
  intro none
  obtain ⟨run, inside, there⟩ := List.mem_flatten.mp member
  exact splitWords_solid solid there (List.flatMap_eq_nil_iff.mp none run inside)

/-- Runs that never meet have their words in the whole text. -/
theorem runs_apart {runs : List (List Char)}
    (apart : ∀ k, ¬ Meets (runs.take k).flatten (runs.drop k).flatten) :
    splitWords runs.flatten = runs.flatMap splitWords := by
  induction runs with
  | nil => rfl
  | cons run runs ih =>
    have first : ¬ Meets run runs.flatten := by simpa using apart 1
    have later (k : Nat) : ¬ Meets (runs.take k).flatten (runs.drop k).flatten := by
      rintro ⟨⟨c, last, solid⟩, next⟩
      apply apart (k + 1)
      have more : (runs.take k).flatten.getLast? = some c := last
      exact ⟨⟨c, by simp [more], solid⟩, next⟩
    rw [List.flatten_cons, splitWords_apart first, ih later, List.flatMap_cons]

/-- A squeezed text shows a word of the text that it comes from at both ends. -/
theorem squeeze_ends {s : List Char} {c : Char} (solid : isSpace c = false) (member : c ∈ s) :
    (∃ a ∈ (squeeze s).head?, isSpace a = false) ∧ ∃ b ∈ (squeeze s).getLast?, isSpace b = false := by
  obtain ⟨a, b, first, last, front, back⟩ :=
    join_ends (fun w inside => word_of_split inside) (splitWords_solid solid member)
  exact ⟨⟨a, first, front⟩, b, last, back⟩

theorem squeeze_squeeze (s : List Char) : squeeze (squeeze s) = squeeze s := by
  unfold squeeze
  rw [splitWords_join fun w inside => word_of_split inside]

/-- One character decides whether a word goes on. -/
theorem going_on {t u v : List Char} {c d : Char} (whole : squeeze t = t)
    (last : ∃ b ∈ t.getLast?, isSpace b = false) (solid : isSpace c = false)
    (blank : isSpace d = true) : splitWords (t ++ c :: u) ≠ splitWords (t ++ d :: v) := by
  intro same
  have meets : Meets t (c :: u) := ⟨last, c, rfl, solid⟩
  have joined : squeeze (t ++ c :: u) = t ++ squeeze (c :: u) := by
    rw [squeeze_meets meets, whole]
  obtain ⟨⟨a, first, graphic⟩, _⟩ := squeeze_ends solid (List.mem_cons_self (l := u))
  have cut : squeeze (t ++ d :: v) = join [' '] (splitWords t ++ splitWords v) := by
    unfold squeeze
    rw [splitWords_cut blank]
  have equal : t ++ squeeze (c :: u) = join [' '] (splitWords t ++ splitWords v) := by
    rw [← joined, ← cut]
    unfold squeeze
    rw [same]
  by_cases none : splitWords v = []
  · rw [none, List.append_nil] at equal
    have stop : t ++ squeeze (c :: u) = t ++ [] := by
      rw [equal, List.append_nil]
      exact whole
    rw [List.append_cancel_left stop] at first
    cases first
  · obtain ⟨b, member, shows⟩ := last
    have some_word := splitWords_solid shows (List.mem_of_getLast? member)
    have stop : t ++ squeeze (c :: u) = t ++ (' ' :: join [' '] (splitWords v)) := by
      rw [equal, join_append some_word none, List.append_assoc]
      congr 1
    rw [List.append_cancel_left stop] at first
    obtain rfl : ' ' = a := by simpa using first
    cases graphic

/-- As far as n characters the runs show the words of the whole text when no seam divides a word
there, and only then. -/
theorem undivided_iff (n : Nat) (runs : List (List Char)) :
    splitWords ((join [' '] (runs.flatMap splitWords)).take n) =
      splitWords ((squeeze runs.flatten).take n) ↔ Undivided n runs := by
  by_cases divided : ∃ k, Meets (runs.take k).flatten (runs.drop k).flatten
  · -- The first seam that divides a word decides.
    have least (j : Nat) := Nat.find_min divided (m := j)
    obtain ⟨last, next⟩ := Nat.find_spec divided
    generalize Nat.find divided = k at least last next
    have before : splitWords (runs.take k).flatten = (runs.take k).flatMap splitWords := by
      refine runs_apart fun j => ?_
      rintro ⟨back, d, first, solid⟩
      by_cases early : j < k
      · apply least j early
        rw [List.take_take, Nat.min_eq_left (Nat.le_of_lt early)] at back
        have shape : runs.drop j = (runs.take k).drop j ++ runs.drop k := by
          rw [List.drop_take]
          nth_rewrite 1 [← List.take_append_drop (k - j) (runs.drop j)]
          rw [List.drop_drop, Nat.add_sub_cancel' (Nat.le_of_lt early)]
        refine ⟨back, d, ?_, solid⟩
        rw [shape, List.flatten_append]
        exact List.mem_head?_append_of_mem_head? first
      · have nothing : (runs.take k).drop j = [] := by
          apply List.drop_eq_nil_of_le
          rw [List.length_take]
          omega
        rw [nothing] at first
        cases first
    have upto (j : Nat) (late : k ≤ j) :
        squeeze (runs.take k).flatten <+: squeeze (runs.take j).flatten := by
      have shape : runs.take j = runs.take k ++ (runs.drop k).take (j - k) := by
        rw [← List.take_add, Nat.add_sub_cancel' late]
      rw [shape, List.flatten_append]
      exact squeeze_front _ _
    obtain ⟨c, ending, graphic⟩ := last
    obtain ⟨d, first, solid⟩ := next
    have some_word : (runs.take k).flatMap splitWords ≠ [] :=
      flatten_append_solid (List.mem_of_getLast? ending) graphic
    have more : (runs.drop k).flatMap splitWords ≠ [] :=
      flatten_append_solid (List.mem_of_head? first) solid
    have whole : squeeze runs.flatten =
        squeeze (runs.take k).flatten ++ squeeze (runs.drop k).flatten := by
      rw [← squeeze_meets ⟨⟨c, ending, graphic⟩, d, first, solid⟩, ← List.flatten_append,
        List.take_append_drop]
    have parted : join [' '] (runs.flatMap splitWords) =
        squeeze (runs.take k).flatten ++ ' ' :: join [' '] ((runs.drop k).flatMap splitWords) := by
      nth_rewrite 1 [← List.take_append_drop k runs]
      rw [List.flatMap_append, join_append some_word more, ← before, List.append_assoc]
      rfl
    obtain ⟨⟨a, head, shows⟩, _⟩ := squeeze_ends solid (List.mem_of_head? first)
    obtain ⟨_, tail⟩ := squeeze_ends graphic (List.mem_of_getLast? ending)
    obtain ⟨rest, shape⟩ : ∃ rest, squeeze (runs.drop k).flatten = a :: rest :=
      List.head?_eq_some_iff.mp head
    rw [whole, parted, shape]
    generalize known : squeeze (runs.take k).flatten = t at upto tail ⊢
    have still : squeeze t = t := by rw [← known, squeeze_squeeze]
    by_cases short : n ≤ t.length
    · rw [List.take_append_of_le_length short, List.take_append_of_le_length short]
      refine ⟨fun _ j meets => ?_, fun _ => rfl⟩
      have late : k ≤ j := by
        by_contra early
        exact least j (by omega) meets
      exact Nat.le_trans short (upto j late).length_le
    · obtain ⟨m, rfl⟩ : ∃ m, n = t.length + (m + 1) := ⟨n - t.length - 1, by omega⟩
      rw [List.take_length_add_append, List.take_length_add_append, List.take_succ_cons,
        List.take_succ_cons]
      constructor
      · intro same
        exact absurd same.symm (going_on still tail shows rfl)
      · intro undivided
        have far := undivided k ⟨⟨c, ending, graphic⟩, d, first, solid⟩
        rw [known] at far
        omega
  · have apart := fun k meets => divided ⟨k, meets⟩
    rw [← runs_apart apart]
    exact ⟨fun _ k meets => absurd meets (apart k), fun _ => rfl⟩

end Python
