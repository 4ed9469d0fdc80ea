import Mathlib.Data.Finset.Card
import Mathlib.Data.List.Sort
import Mathlib.Order.Interval.Finset.Nat

/-! Sections that nest by level: a section stays open until a heading of the same or a smaller
level. -/
namespace Outline
variable {α : Type*} (level : α → Nat)

/-- The headings that no later one of a smaller or equal level follows. -/
def openSections : List α → List α
  | [] => []
  | s :: rest =>
    if ∀ t ∈ rest, level s < level t then s :: openSections rest else openSections rest

theorem openSections_sublist (l : List α) : (openSections level l).Sublist l := by
  induction l with
  | nil => exact .slnil
  | cons s rest ih =>
    rw [openSections]
    split
    · exact ih.cons_cons s
    · exact ih.cons s

/-- One more heading closes the sections that are not above it. -/
theorem openSections_concat (l : List α) (t : α) :
    openSections level (l ++ [t]) = (openSections level l).filter (level · < level t) ++ [t] := by
  induction l with
  | nil => simp [openSections]
  | cons s rest ih =>
    rw [List.cons_append, openSections, openSections, ih]
    by_cases stays : ∀ u ∈ rest, level s < level u
    · by_cases above : level s < level t
      · rw [if_pos stays, if_pos, List.filter_cons_of_pos (by simpa using above), List.cons_append]
        intro u member
        rcases List.mem_append.mp member with before | last
        · exact stays u before
        · rwa [List.mem_singleton.mp last]
      · rw [if_pos stays, if_neg, List.filter_cons_of_neg (by simpa using above)]
        exact fun all => above (all t (by simp))
    · rw [if_neg stays, if_neg]
      exact fun all => stays fun u member => all u (List.mem_append_left _ member)

theorem openSections_increasing (l : List α) :
    (openSections level l).Pairwise (level · < level ·) := by
  induction l with
  | nil => exact .nil
  | cons s rest ih =>
    rw [openSections]
    split
    · rename_i stays
      exact .cons (fun t member => stays t ((openSections_sublist level rest).subset member)) ih
    · exact ih

theorem openSections_last (l : List α) : (openSections level l).getLast? = l.getLast? := by
  induction l using List.reverseRecOn with
  | nil => rfl
  | append_singleton l t _ => rw [openSections_concat, List.getLast?_concat, List.getLast?_concat]

/-- The path of a list that is cut by the level of a heading, as if no level were ever skipped. -/
def cutPath (path : List α) (t : α) : List α := path.take (level t - 1) ++ [t]

/-- All open sections are above the new level, or all the levels above it are open. -/
def Fits (path : List α) (n : Nat) : Prop :=
  (∀ s ∈ path, level s < n) ∨ ∀ m, 0 < m → m < n → ∃ s ∈ path, level s = m

variable {level} {path : List α}

/-- In an increasing path the sections above a level come first. -/
theorem filter_above (increasing : path.Pairwise (level · < level ·)) (n : Nat) :
    path.filter (level · < n) = path.take (path.filter (level · < n)).length := by
  induction path with
  | nil => rfl
  | cons s rest ih =>
    obtain ⟨first, later⟩ := List.pairwise_cons.mp increasing
    by_cases above : level s < n
    · rw [List.filter_cons_of_pos (by simpa using above), List.length_cons, List.take_succ_cons,
        ← ih later]
    · rw [List.filter_cons_of_neg (by simpa using above)]
      have none : rest.filter (level · < n) = [] := by
        apply List.filter_eq_nil_iff.mpr
        intro t member
        have larger := first t member
        simp only [decide_eq_true_eq]
        omega
      rw [none]
      rfl

/-- There are at most n - 1 sections above level n, and n - 1 only if all of these levels are
there. -/
theorem count_above (increasing : path.Pairwise (level · < level ·))
    (positive : ∀ s ∈ path, 0 < level s) (n : Nat) :
    (path.filter (level · < n)).length ≤ n - 1 ∧
      ((path.filter (level · < n)).length = n - 1 ↔
        ∀ m, 0 < m → m < n → ∃ s ∈ path, level s = m) := by
  have distinct : ((path.filter (level · < n)).map level).Nodup := by
    rw [List.Nodup, List.pairwise_map]
    exact (increasing.filter _).imp fun smaller => Nat.ne_of_lt smaller
  have within : ((path.filter (level · < n)).map level).toFinset ⊆ Finset.Ico 1 n := by
    intro m member
    obtain ⟨s, inside, rfl⟩ := List.mem_map.mp (List.mem_toFinset.mp member)
    obtain ⟨there, above⟩ := List.mem_filter.mp inside
    exact Finset.mem_Ico.mpr ⟨positive s there, by simpa using above⟩
  have count : ((path.filter (level · < n)).map level).toFinset.card =
      (path.filter (level · < n)).length := by
    rw [List.toFinset_card_of_nodup distinct, List.length_map]
  have room : (Finset.Ico 1 n).card = n - 1 := Nat.card_Ico 1 n
  constructor
  · rw [← count, ← room]
    exact Finset.card_le_card within
  · rw [← count, ← room]
    constructor
    · intro full m pos small
      have all := Finset.eq_of_subset_of_card_le within full.ge
      have member : m ∈ ((path.filter (level · < n)).map level).toFinset := by
        rw [all]
        exact Finset.mem_Ico.mpr ⟨pos, small⟩
      obtain ⟨s, inside, same⟩ := List.mem_map.mp (List.mem_toFinset.mp member)
      exact ⟨s, (List.mem_filter.mp inside).1, same⟩
    · intro all
      apply le_antisymm (Finset.card_le_card within)
      apply Finset.card_le_card
      intro m member
      obtain ⟨pos, small⟩ := Finset.mem_Ico.mp member
      obtain ⟨s, there, rfl⟩ := all m pos small
      exact List.mem_toFinset.mpr (List.mem_map.mpr
        ⟨s, List.mem_filter.mpr ⟨there, by simpa using small⟩, rfl⟩)

/-- Cutting by the level keeps as many sections as are above it, exactly where the level fits. -/
theorem take_iff_fits (increasing : path.Pairwise (level · < level ·))
    (positive : ∀ s ∈ path, 0 < level s) (n : Nat) :
    (path.take (n - 1)).length = (path.filter (level · < n)).length ↔ Fits level path n := by
  obtain ⟨few, full⟩ := count_above increasing positive n
  have whole : (path.filter (level · < n)).length = path.length ↔ ∀ s ∈ path, level s < n := by
    rw [List.length_filter_eq_length_iff]
    simp
  unfold Fits
  rw [← whole, ← full, List.length_take]
  have sections : (path.filter (level · < n)).length ≤ path.length := List.length_filter_le _ _
  omega

/-- A list of headings each of which fits the sections that are open before it. -/
def Steady (level : α → Nat) (l : List α) : Prop :=
  ∀ before t, before ++ [t] <+: l → Fits level (openSections level before) (level t)

section Cut
variable {before : List α} {t : α}

theorem cut_length (positive : ∀ s ∈ before, 0 < level s)
    (same : before.foldl (cutPath level) [] = openSections level before) :
    ((before ++ [t]).foldl (cutPath level) []).length =
        (openSections level (before ++ [t])).length ↔
      Fits level (openSections level before) (level t) := by
  have fits := take_iff_fits (openSections_increasing level before)
    (fun s member => positive s ((openSections_sublist level before).subset member)) (level t)
  rw [← fits, List.foldl_append, List.foldl_cons, List.foldl_nil, same, cutPath,
    openSections_concat, List.length_append, List.length_append]
  omega

/-- A heading that fits is cut as it should be. -/
theorem cut_fits (positive : ∀ s ∈ before, 0 < level s)
    (same : before.foldl (cutPath level) [] = openSections level before)
    (fits : Fits level (openSections level before) (level t)) :
    (before ++ [t]).foldl (cutPath level) [] = openSections level (before ++ [t]) := by
  have lengths := (take_iff_fits (openSections_increasing level before)
    (fun s member => positive s ((openSections_sublist level before).subset member)) _).mpr fits
  rw [List.foldl_append, List.foldl_cons, List.foldl_nil, same, cutPath, openSections_concat,
    filter_above (openSections_increasing level before), ← lengths, List.length_take]
  congr 1
  rcases Nat.le_total (level t - 1) (openSections level before).length with few | many
  · rw [Nat.min_eq_left few]
  · rw [Nat.min_eq_right many, List.take_length, List.take_of_length_le many]

end Cut

/-- The path that is kept by cutting shows the chain of open sections at every heading of the list,
exactly where each of them fits. -/
theorem cut_follows {β : Type*} (name : α → β) (l : List α) (positive : ∀ s ∈ l, 0 < level s) :
    (∀ part, part <+: l →
      (part.foldl (cutPath level) []).map name = (openSections level part).map name) ↔
        Steady level l := by
  have shorter {before : List α} {t : α} (inside : before ++ [t] <+: l) :
      before <+: l ∧ ∀ s ∈ before, 0 < level s :=
    ⟨(List.prefix_append before [t]).trans inside, fun s member =>
      positive s (inside.subset (List.mem_append_left _ member))⟩
  constructor
  · intro all
    -- The first heading that does not fit would make the two paths differ in length.
    have same (part : List α) (inside : part <+: l) :
        part.foldl (cutPath level) [] = openSections level part := by
      induction part using List.reverseRecOn with
      | nil => rfl
      | append_singleton before t ih =>
        obtain ⟨earlier, above⟩ := shorter inside
        apply cut_fits above (ih earlier)
        rw [← cut_length above (ih earlier)]
        simpa using congrArg List.length (all _ inside)
    intro before t inside
    obtain ⟨earlier, above⟩ := shorter inside
    rw [← cut_length above (same before earlier), same _ inside]
  · intro steady part inside
    congr 1
    induction part using List.reverseRecOn with
    | nil => rfl
    | append_singleton before t ih =>
      obtain ⟨earlier, above⟩ := shorter inside
      exact cut_fits above (ih earlier) (steady before t inside)

end Outline
