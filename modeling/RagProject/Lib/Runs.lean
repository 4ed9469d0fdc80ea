import RagProject.Lib.Words

/-! The longest runs of characters of a class. -/
namespace Python

variable {inside : Char → Bool}

def runs (inside : Char → Bool) (s : List Char) : List (List Char) :=
  (s.splitOnP (!inside ·)).filter (!·.isEmpty)

theorem runs_between {c : Char} (outside : inside c = false) (s t : List Char) :
    runs inside (s ++ c :: t) = runs inside s ++ runs inside t := by
  unfold runs
  rw [List.splitOnP_append_cons _ _ (by simp [outside]), List.filter_append]

theorem runs_blank {c : Char} (outside : inside c = false) (s : List Char) :
    runs inside (c :: s) = runs inside s :=
  runs_between outside [] s

/-- No run reaches over a blank, so the runs of a text are the runs of its words. -/
theorem runs_words (solid : ∀ c, isSpace c = true → inside c = false) (s : List Char) :
    runs inside s = (splitWords s).flatMap (runs inside) := by
  induction length : s.length using Nat.strong_induction_on generalizing s with
  | _ n ih =>
    cases s with
    | nil => rfl
    | cons c cs =>
      by_cases blank : isSpace c = true
      · rw [splitWords_blank blank, runs_blank (solid c blank)]
        exact ih cs.length (by rw [← length]; exact Nat.lt_succ_self _) cs rfl
      · have front : (c :: cs).takeWhile (!isSpace ·) ≠ [] := by
          rw [List.takeWhile_cons, if_pos (by simpa using blank)]
          exact List.cons_ne_nil _ _
        have word : Word ((c :: cs).takeWhile (!isSpace ·)) := by
          refine ⟨front, fun d member => ?_⟩
          simpa using List.mem_takeWhile_imp member
        have whole := List.takeWhile_append_dropWhile (p := (!isSpace ·)) (l := c :: cs)
        cases rest : (c :: cs).dropWhile (!isSpace ·) with
        | nil =>
          rw [rest, List.append_nil] at whole
          rw [← whole, splitWords_word word, List.flatMap_singleton]
        | cons b t =>
          have space : isSpace b = true := by
            have first := List.head?_dropWhile_not (!isSpace ·) (c :: cs)
            rw [rest] at first
            simpa using first
          rw [rest] at whole
          have shorter : t.length < n := by
            rw [← length, ← whole, List.length_append, List.length_cons]
            omega
          rw [← whole, splitWords_append word space, runs_between (solid b space),
            List.flatMap_cons, ih t.length shorter t rfl]

/-- Joining the words by single blanks keeps the runs. -/
theorem runs_join (solid : ∀ c, isSpace c = true → inside c = false) (s : List Char) :
    runs inside (join [' '] (splitWords s)) = runs inside s := by
  rw [runs_words solid, runs_words solid s, splitWords_join fun w member => word_of_split member]

end Python
