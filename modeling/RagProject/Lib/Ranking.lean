import Mathlib.Data.List.Sort

/-! The first items of a list that is sorted by a key. -/
namespace Ranking

universe u v
variable {A : Type u} {K : Type v} [LinearOrder K] (key : A → K)

/-- sorted(items, key=key)[:limit]. -/
def ranked (items : List A) (limit : Nat) : List A :=
  (items.insertionSort fun a b => key a ≤ key b).take limit

variable {key} {items : List A} {limit : Nat}

theorem ranked_subset {a : A} (member : a ∈ ranked key items limit) : a ∈ items :=
  (List.perm_insertionSort _ items).mem_iff.mp (List.mem_of_mem_take member)

theorem ranked_length : (ranked key items limit).length = min limit items.length := by
  rw [ranked, List.length_take, (List.perm_insertionSort _ items).length_eq]

theorem sorted_ranking (key : A → K) (items : List A) :
    (items.insertionSort fun a b => key a ≤ key b).Pairwise fun a b => key a ≤ key b := by
  have total : Std.Total fun a b : A => key a ≤ key b := ⟨fun a b => le_total (key a) (key b)⟩
  have trans : IsTrans A fun a b => key a ≤ key b := ⟨fun _ _ _ => le_trans⟩
  exact List.pairwise_insertionSort _ items

theorem ranked_sorted : (ranked key items limit).Pairwise fun a b => key a ≤ key b :=
  (sorted_ranking key items).sublist (List.take_sublist _ _)

theorem ranked_nodup {B : Type*} (f : A → B) (distinct : (items.map f).Nodup) :
    ((ranked key items limit).map f).Nodup := by
  have all : ((items.insertionSort fun a b => key a ≤ key b).map f).Nodup :=
    (((List.perm_insertionSort _ items).map f).nodup_iff).mpr distinct
  exact all.sublist ((List.take_sublist _ _).map f)

theorem ranked_map {B : Type*} (f : B → A) (others : List B) :
    (ranked (fun b => key (f b)) others limit).map f = ranked key (others.map f) limit := by
  unfold ranked
  rw [List.map_take, List.map_insertionSort _ (fun a b => key a ≤ key b)]
  intro a _ b _
  rfl

/-- A smaller limit gives a first part of the ranking. -/
theorem ranked_take {smaller : Nat} (le : smaller ≤ limit) :
    ranked key items smaller = (ranked key items limit).take smaller := by
  rw [ranked, ranked, List.take_take, Nat.min_eq_left le]

/-- Only a full ranking leaves an item out. -/
theorem ranked_or_full {a : A} (member : a ∈ items) :
    a ∈ ranked key items limit ∨ (ranked key items limit).length = limit := by
  rcases Nat.lt_or_ge items.length limit with room | full
  · left
    have whole : ranked key items limit = items.insertionSort fun a b => key a ≤ key b := by
      apply List.take_of_length_le
      rw [(List.perm_insertionSort _ items).length_eq]
      exact Nat.le_of_lt room
    rw [whole]
    exact (List.perm_insertionSort _ items).mem_iff.mpr member
  · right
    rw [ranked_length, Nat.min_eq_left full]

/-- An item with a smaller key stands before one that is ranked. -/
theorem ranked_before {a b : A} (member : a ∈ items) (smaller : key a < key b)
    (shown : b ∈ ranked key items limit) : [a, b].Sublist (ranked key items limit) := by
  have sorted := sorted_ranking key items
  have present : a ∈ items.insertionSort fun a b => key a ≤ key b :=
    (List.perm_insertionSort _ items).mem_iff.mpr member
  unfold ranked at shown ⊢
  generalize items.insertionSort (fun a b => key a ≤ key b) = all at sorted present shown
  obtain ⟨front, back, split⟩ := List.append_of_mem shown
  rw [← List.take_append_drop limit all, List.pairwise_append, split] at sorted
  rw [← List.take_append_drop limit all, split] at present
  rw [split]
  have early : a ∈ front := by
    obtain ⟨inside, _, across⟩ := sorted
    obtain ⟨_, later, _⟩ := List.pairwise_append.mp inside
    rcases List.mem_append.mp present with here | dropped
    · rcases List.mem_append.mp here with first | second
      · exact first
      · rcases List.mem_cons.mp second with rfl | after
        · exact absurd smaller (lt_irrefl _)
        · exact absurd ((List.pairwise_cons.mp later).1 a after) (not_le_of_gt smaller)
    · exact absurd (across b (by simp) a dropped) (not_le_of_gt smaller)
  exact (List.singleton_sublist.mpr early).append
    (List.singleton_sublist.mpr List.mem_cons_self)

end Ranking
