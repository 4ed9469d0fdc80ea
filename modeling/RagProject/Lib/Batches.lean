import Mathlib.Data.List.Basic
import Mathlib.Data.List.Forall2
import Mathlib.Data.List.SplitBy

/-! A list cut into batches of one size, and lists of the same shape put together again. -/
namespace Batches

universe u v
variable {A : Type u} {B : Type v}

/-- The slices from 0, from size, from twice the size and so on. -/
def batches (size : Nat) (xs : List A) : List (List A) :=
  (List.range ((xs.length + size - 1) / size)).map fun k => (xs.drop (k * size)).take size

variable {size : Nat} {xs : List A}

@[simp] theorem batches_nil (positive : 0 < size) : batches size ([] : List A) = [] := by
  unfold batches
  rw [List.length_nil, Nat.zero_add, Nat.div_eq_of_lt (by omega)]
  rfl

theorem batches_cons (positive : 0 < size) (shows : xs ≠ []) :
    batches size xs = xs.take size :: batches size (xs.drop size) := by
  have some_row : 0 < xs.length := List.length_pos_iff.mpr shows
  have count : (xs.length + size - 1) / size = ((xs.drop size).length + size - 1) / size + 1 := by
    rw [List.length_drop]
    by_cases more : size ≤ xs.length
    · have whole : xs.length + size - 1 = (xs.length - size + size - 1) + size := by omega
      rw [whole, Nat.add_div_right _ positive]
    · have rest : xs.length - size = 0 := by omega
      rw [rest, Nat.zero_add, Nat.div_eq_of_lt (show size - 1 < size by omega)]
      apply Nat.div_eq_of_lt_le
      · omega
      · omega
  unfold batches
  rw [count, List.range_succ_eq_map, List.map_cons, List.map_map]
  congr 1
  · rw [Nat.zero_mul, List.drop_zero]
  · apply List.map_congr_left
    intro k _
    simp only [Function.comp, List.drop_drop]
    congr 2
    rw [Nat.succ_mul, Nat.add_comm]

theorem batches_flatten (positive : 0 < size) (xs : List A) : (batches size xs).flatten = xs := by
  induction h : xs.length using Nat.strongRecOn generalizing xs with
  | ind n ih =>
    by_cases none : xs = []
    · rw [none, batches_nil positive]
      rfl
    · have some_row : 0 < xs.length := List.length_pos_iff.mpr none
      rw [batches_cons positive none, List.flatten_cons,
        ih (xs.drop size).length (by rw [List.length_drop]; omega) (xs.drop size) rfl,
        List.take_append_drop]

/-- Batch by batch as long as the batches, the lists put together show at a place what the list of
its batch shows at its place in the batch. -/
theorem flatten_get (positive : 0 < size) {yss : List (List B)}
    (shape : List.Forall₂ (fun batch ys => ys.length = batch.length) (batches size xs) yss)
    (p : Nat) : yss.flatten[p]? = (yss[p / size]?).bind (·[p % size]?) := by
  induction h : xs.length using Nat.strongRecOn generalizing xs yss p with
  | ind n ih =>
    by_cases none : xs = []
    · rw [none, batches_nil positive] at shape
      cases shape
      rfl
    · have some_row : 0 < xs.length := List.length_pos_iff.mpr none
      rw [batches_cons positive none] at shape
      cases shape with
      | @cons _ ys _ yss first rest =>
        rw [List.length_take] at first
        rw [List.flatten_cons]
        by_cases inside : p < size
        · rw [Nat.div_eq_of_lt inside, Nat.mod_eq_of_lt inside, List.getElem?_cons_zero,
            Option.bind_some]
          by_cases early : p < ys.length
          · exact List.getElem?_append_left early
          · have last : xs.drop size = [] := List.drop_eq_nil_of_le (by omega)
            rw [last, batches_nil positive] at rest
            cases rest
            rw [List.flatten_nil, List.append_nil]
        · have next : p / size = (p - size) / size + 1 := by
            rw [← Nat.add_div_right _ positive, Nat.sub_add_cancel (by omega)]
          have place : p % size = (p - size) % size := by
            rw [← Nat.add_mod_right (p - size), Nat.sub_add_cancel (by omega)]
          rw [next, place, List.getElem?_cons_succ]
          by_cases more : size ≤ xs.length
          · rw [List.getElem?_append_right (by omega), first, Nat.min_eq_left more]
            exact ih _ (by rw [List.length_drop]; omega) rest (p - size) rfl
          · have last : xs.drop size = [] := List.drop_eq_nil_of_le (by omega)
            rw [last, batches_nil positive] at rest
            cases rest
            rw [List.flatten_nil, List.append_nil, List.getElem?_nil, Option.bind_none,
              List.getElem?_eq_none (by omega)]

theorem batches_length (size : Nat) (xs : List A) :
    (batches size xs).length = (xs.length + size - 1) / size := by
  simp [batches]

theorem batch_shows (positive : 0 < size) {batch : List A} (member : batch ∈ batches size xs) :
    batch ≠ [] ∧ batch.length ≤ size := by
  unfold batches at member
  obtain ⟨k, inside, rfl⟩ := List.mem_map.mp member
  have early : k < (xs.length + size - 1) / size := List.mem_range.mp inside
  have below : k * size < xs.length := by
    have whole : (k + 1) * size ≤ xs.length + size - 1 :=
      Nat.le_trans (Nat.mul_le_mul_right size early) (Nat.div_mul_le_self _ _)
    rw [Nat.succ_mul] at whole
    omega
  constructor
  · intro none
    have length := congrArg List.length none
    rw [List.length_take, List.length_drop, List.length_nil] at length
    omega
  · rw [List.length_take]
    omega

/-- Batches of a chain are chains, and the last of a batch is next to the first of the following. -/
theorem batches_chain {R : A → A → Prop} (positive : 0 < size) (chain : xs.IsChain R) :
    (∀ batch ∈ batches size xs, batch.IsChain R) ∧
      (batches size xs).IsChain fun b c => ∀ x ∈ b.getLast?, ∀ y ∈ c.head?, R x y := by
  have shown : [] ∉ batches size xs := fun member => (batch_shows positive member).1 rfl
  rw [← batches_flatten positive xs, List.isChain_flatten shown] at chain
  exact chain

/-- Lists that are chains are a chain together when every element is related to all later ones. -/
theorem chain_flatMap {R : B → B → Prop} {f : A → List B} (inner : ∀ x ∈ xs, (f x).IsChain R)
    (across : xs.Pairwise fun x y => ∀ b ∈ f x, ∀ c ∈ f y, R b c) : (xs.flatMap f).IsChain R := by
  induction across with
  | nil => exact .nil
  | @cons x xs first _ ih =>
    rw [List.flatMap_cons, List.isChain_append]
    refine ⟨inner x List.mem_cons_self, ih fun y member => inner y (List.mem_cons_of_mem _ member),
      fun b last c head => ?_⟩
    obtain ⟨y, member, there⟩ := List.mem_flatMap.mp (List.mem_of_head? head)
    exact first y member b (List.mem_of_getLast? last) c there

/-- A list is split like the list that it is mapped to. -/
theorem splitBy_map (r : B → B → Bool) (f : A → B) (xs : List A) :
    (xs.map f).splitBy r = (xs.splitBy fun a b => r (f a) (f b)).map (List.map f) := by
  rw [List.splitBy_eq_iff]
  refine ⟨?_, ?_, ?_, ?_⟩
  · rw [← List.map_flatten, List.flatten_splitBy]
  · intro member
    obtain ⟨group, inside, none⟩ := List.mem_map.mp member
    rw [List.map_eq_nil_iff.mp none] at inside
    exact List.nil_notMem_splitBy _ xs inside
  · intro mapped member
    obtain ⟨group, inside, rfl⟩ := List.mem_map.mp member
    exact List.isChain_map f |>.mpr (List.isChain_of_mem_splitBy inside)
  · rw [List.isChain_map]
    refine (List.isChain_getLast_head_splitBy _ xs).imp fun g h apart => ?_
    obtain ⟨some_g, some_h, apart⟩ := apart
    exact ⟨by simpa using some_g, by simpa using some_h, by simpa using apart⟩

theorem chain_and {R S : A → A → Prop} (first : xs.IsChain R) (second : xs.IsChain S) :
    xs.IsChain fun x y => R x y ∧ S x y := by
  induction first with
  | nil => exact .nil
  | singleton x => exact .singleton x
  | cons_cons related _ ih =>
    obtain ⟨other, rest⟩ := List.isChain_cons_cons.mp second
    exact .cons_cons ⟨related, other⟩ (ih rest)

/-- The numbers of the elements of a chain go up by one. -/
theorem chain_zipIdx {R : A → A → Prop} (chain : xs.IsChain R) (k : Nat) :
    (xs.zipIdx k).IsChain fun x y => R x.1 y.1 ∧ y.2 = x.2 + 1 := by
  induction chain generalizing k with
  | nil => exact .nil
  | singleton x => exact .singleton _
  | cons_cons first _ ih => exact .cons_cons ⟨first, rfl⟩ (ih (k + 1))

theorem flatMap_zipIdx (f : A → List B) (xs : List A) (k : Nat) :
    ((xs.zipIdx k).flatMap fun x => f x.1) = xs.flatMap f := by
  induction xs generalizing k with
  | nil => rfl
  | cons x xs ih => rw [List.zipIdx_cons, List.flatMap_cons, List.flatMap_cons, ih]

/-- The first batch begins where the list begins. -/
theorem batches_head (positive : 0 < size) {batch : List A}
    (first : batch ∈ (batches size xs).head?) : batch.head? = xs.head? := by
  obtain ⟨rest, shape⟩ := List.head?_eq_some_iff.mp first
  have whole := batches_flatten positive xs
  obtain ⟨x, later, rfl⟩ := List.exists_cons_of_ne_nil
    (batch_shows positive (List.mem_of_head? first)).1
  rw [← whole, shape]
  rfl

/-- The last batch ends where the list ends. -/
theorem batches_last (positive : 0 < size) {batch : List A}
    (last : batch ∈ (batches size xs).getLast?) : batch.getLast? = xs.getLast? := by
  obtain ⟨front, shape⟩ := List.getLast?_eq_some_iff.mp last
  have whole := batches_flatten positive xs
  have shows := (batch_shows positive (List.mem_of_getLast? last)).1
  rw [← whole, shape, List.flatten_append, List.flatten_singleton, List.getLast?_append,
    List.getLast?_eq_some_getLast shows]
  rfl

end Batches
