import Mathlib.Data.List.SplitBy

/-! A list cut into maximal runs of one key, and into overlapping windows that cover it. -/
namespace Windows

universe u v
variable {A : Type u} {K : Type v}

section Runs

/-- The maximal runs of elements with one key, in order. -/
structure Runs (key : A → K) (xs : List A) (runs : List (List A)) : Prop where
  whole : runs.flatten = xs
  shows : ∀ run ∈ runs, run ≠ []
  same : ∀ run ∈ runs, ∀ a ∈ run, ∀ b ∈ run, key a = key b
  apart : runs.IsChain fun run next => ∀ a ∈ run, ∀ b ∈ next, key a ≠ key b

variable {key : A → K} {xs last : List A} {runs : List (List A)} {x y : A}

theorem Runs.first (key : A → K) (x : A) : Runs key [x] [[x]] := by
  refine ⟨rfl, by simp, ?_, .singleton _⟩
  intro run member a ha b hb
  cases List.mem_singleton.mp member
  rw [List.mem_singleton.mp ha, List.mem_singleton.mp hb]

/-- An element with the key of the last run makes it longer. -/
theorem Runs.extend (cut : Runs key xs (runs ++ [last])) (inside : y ∈ last) (hit : key x = key y) :
    Runs key (xs ++ [x]) (runs ++ [last ++ [x]]) := by
  have old : ∀ a ∈ last, key a = key x := fun a member =>
    (cut.same last (by simp) a member y inside).trans hit.symm
  have keys : ∀ a ∈ last ++ [x], key a = key x := by
    intro a member
    rcases List.mem_append.mp member with before | new
    · exact old a before
    · rw [List.mem_singleton.mp new]
  refine ⟨?_, ?_, ?_, ?_⟩
  · rw [← cut.whole]
    simp
  · intro run member
    rcases List.mem_append.mp member with before | new
    · exact cut.shows run (List.mem_append_left _ before)
    · rw [List.mem_singleton.mp new]
      simp
  · intro run member a ha b hb
    rcases List.mem_append.mp member with before | new
    · exact cut.same run (List.mem_append_left _ before) a ha b hb
    · rw [List.mem_singleton.mp new] at ha hb
      rw [keys a ha, keys b hb]
  · obtain ⟨front, _, between⟩ := List.isChain_append.mp cut.apart
    refine List.isChain_append.mpr ⟨front, .singleton _, fun run before next new a ha b hb => ?_⟩
    cases Option.some.inj new
    rw [keys b hb, hit]
    exact between run before last rfl a ha y inside

/-- An element with another key begins a run. -/
theorem Runs.begin (cut : Runs key xs (runs ++ [last])) (inside : y ∈ last) (other : key x ≠ key y) :
    Runs key (xs ++ [x]) (runs ++ [last] ++ [[x]]) := by
  refine ⟨?_, ?_, ?_, ?_⟩
  · rw [← cut.whole]
    simp
  · intro run member
    rcases List.mem_append.mp member with before | new
    · exact cut.shows run before
    · rw [List.mem_singleton.mp new]
      simp
  · intro run member a ha b hb
    rcases List.mem_append.mp member with before | new
    · exact cut.same run before a ha b hb
    · rw [List.mem_singleton.mp new] at ha hb
      rw [List.mem_singleton.mp ha, List.mem_singleton.mp hb]
  · refine List.isChain_append.mpr ⟨cut.apart, .singleton _, fun run before next new a ha b hb => ?_⟩
    have one : last = run := by simpa using before
    subst one
    cases Option.some.inj new
    rw [List.mem_singleton.mp hb, cut.same last (by simp) a ha y inside]
    exact other.symm

end Runs

section Windows

/-- The windows from a place on: each begins a step behind the one before it. -/
def windowsFrom (size step : Nat) (positive : 0 < step) (xs : List A) (start : Nat) :
    List (Nat × List A) :=
  if start < xs.length then
    (start, (xs.drop start).take size) :: windowsFrom size step positive xs (start + step)
  else []
termination_by xs.length - start

/-- What the windows bring beyond what is covered before them, in order. -/
def uncovered : Nat → List (Nat × List A) → List A
  | _, [] => []
  | covered, (start, window) :: rest =>
    window.drop (covered - start) ++ uncovered (max covered (start + window.length)) rest

variable {size step : Nat} {positive : 0 < step} {xs : List A}

theorem windowsFrom_get {start i : Nat} {w : Nat × List A}
    (found : (windowsFrom size step positive xs start)[i]? = some w) :
    w.1 = start + i * step ∧ w.1 < xs.length ∧ w.2 = (xs.drop w.1).take size := by
  fun_induction windowsFrom size step positive xs start generalizing i with
  | case1 start inside ih =>
    cases i with
    | zero =>
      cases found
      exact ⟨by simp, inside, rfl⟩
    | succ i =>
      obtain ⟨place, rest⟩ := ih found
      refine ⟨?_, rest⟩
      rw [place, Nat.succ_mul]
      omega
  | case2 start outside => cases found

theorem window_length {start : Nat} (xs : List A) (inside : start < xs.length) :
    start + ((xs.drop start).take size).length = min (start + size) xs.length := by
  rw [List.length_take, List.length_drop]
  omega

/-- The windows leave no gap when a step is no longer than a window. -/
theorem uncovered_windows (overlap : step ≤ size) {start covered : Nat}
    (reached : start ≤ covered ∨ xs.length ≤ covered) :
    uncovered covered (windowsFrom size step positive xs start) = xs.drop covered := by
  fun_induction windowsFrom size step positive xs start generalizing covered with
  | case1 start inside ih =>
    have next : start + ((xs.drop start).take size).length = min (start + size) xs.length :=
      window_length xs inside
    rw [uncovered, next, ih (by omega)]
    by_cases short : covered < min (start + size) xs.length
    · have behind : start ≤ covered := by omega
      have upto : max covered (min (start + size) xs.length) = min (start + size) xs.length := by
        omega
      rw [upto, List.drop_take, List.drop_drop, Nat.add_sub_cancel' behind]
      have split := List.take_append_drop (size - (covered - start)) (xs.drop covered)
      have rest : (xs.drop covered).drop (size - (covered - start)) =
          xs.drop (min (start + size) xs.length) := by
        rw [List.drop_drop]
        by_cases whole : start + size ≤ xs.length
        · congr 1
          omega
        · rw [List.drop_eq_nil_of_le (by omega), List.drop_eq_nil_of_le (by omega)]
      rwa [rest] at split
    · have upto : max covered (min (start + size) xs.length) = covered := by omega
      have none : ((xs.drop start).take size).drop (covered - start) = [] := by
        apply List.drop_eq_nil_of_le
        omega
      rw [upto, none, List.nil_append]
  | case2 start outside =>
    rw [uncovered, List.drop_eq_nil_of_le (by omega)]

end Windows

end Windows
