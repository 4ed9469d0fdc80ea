import Mathlib.Data.List.Sort

/-! Sorts that keep ties in their order: what holds along a list holds of its ties after a sort, and
a list with distinct keys shows its keys unchanged exactly when it was sorted before. -/
namespace Stable

universe u
variable {A : Type u} {s o : A → A → Prop} {xs : List A} {n : Nat}

/-- The first order, and the second one among its ties. -/
def Then (s o : A → A → Prop) (a b : A) : Prop := s a b ∧ (s b a → o a b)

/-- The first items stand in order and before all others. -/
def Leading (s : A → A → Prop) (n : Nat) (xs : List A) : Prop :=
  (xs.take n).Pairwise s ∧ ∀ a ∈ xs.take n, ∀ b ∈ xs.drop n, s a b

theorem leading_length : Leading s xs.length xs ↔ xs.Pairwise s := by
  unfold Leading
  rw [List.take_length, List.drop_length]
  exact ⟨fun leads => leads.1, fun sorted => ⟨sorted, fun _ _ _ none => nomatch none⟩⟩

section Keys
variable {K : Type*} {key : A → K}

/-- Parts of a list with distinct keys are equal as their keys are. -/
theorem eq_of_keys (distinct : (xs.map key).Nodup) {ys zs : List A} (left : ∀ y ∈ ys, y ∈ xs)
    (right : ∀ z ∈ zs, z ∈ xs) (same : ys.map key = zs.map key) : ys = zs := by
  induction ys generalizing zs with
  | nil => exact (List.map_eq_nil_iff.mp same.symm).symm
  | cons y ys ih =>
    cases zs with
    | nil => cases same
    | cons z zs =>
      obtain ⟨head, tail⟩ := List.cons.inj same
      have one : y = z := List.inj_on_of_nodup_map distinct (left y List.mem_cons_self)
        (right z List.mem_cons_self) head
      rw [one, ih (fun a member => left a (List.mem_cons_of_mem _ member))
        (fun a member => right a (List.mem_cons_of_mem _ member)) tail]

end Keys

variable [DecidableRel s] [DecidableRel o]

theorem insertionSort_leading (leads : Leading s n xs) :
    (xs.insertionSort s).take n = xs.take n := by
  induction n generalizing xs with
  | zero => rfl
  | succ n ih =>
    cases xs with
    | nil => rfl
    | cons a xs =>
      obtain ⟨sorted, before⟩ := leads
      rw [List.take_succ_cons] at sorted before
      rw [List.drop_succ_cons] at before
      obtain ⟨first, rest⟩ := List.pairwise_cons.mp sorted
      have all : ∀ b ∈ xs, s a b := by
        intro b member
        rw [← List.take_append_drop n xs] at member
        rcases List.mem_append.mp member with early | late
        · exact first b early
        · exact before a List.mem_cons_self b late
      rw [List.insertionSort_cons_of_forall_rel _ all, List.take_succ_cons, List.take_succ_cons,
        ih ⟨rest, fun b member => before b (List.mem_cons_of_mem _ member)⟩]

variable [Std.Total s] [IsTrans A s] [Std.Total o] [IsTrans A o]

omit [DecidableRel o] [Std.Total o] [IsTrans A o] in
theorem orderedInsert_then {x : A} (sorted : xs.Pairwise (Then s o)) (first : ∀ b ∈ xs, o x b) :
    (xs.orderedInsert s x).Pairwise (Then s o) := by
  induction xs with
  | nil => exact List.pairwise_singleton _ _
  | cons b xs ih =>
    obtain ⟨head, tail⟩ := List.pairwise_cons.mp sorted
    by_cases le : s x b
    · rw [List.orderedInsert_cons_of_le _ _ le]
      refine List.pairwise_cons.mpr ⟨fun c member => ⟨?_, fun _ => first c member⟩, sorted⟩
      rcases List.mem_cons.mp member with rfl | later
      · exact le
      · exact IsTrans.trans _ _ _ le (head c later).1
    · rw [List.orderedInsert_of_not_le _ _ le]
      refine List.pairwise_cons.mpr
        ⟨?_, ih tail fun c member => first c (List.mem_cons_of_mem _ member)⟩
      intro c member
      rcases List.mem_orderedInsert _ |>.mp member with rfl | later
      · exact ⟨(Std.Total.total c b).resolve_left le, fun ge => absurd ge le⟩
      · exact head c later

omit [DecidableRel o] [Std.Total o] [IsTrans A o] in
/-- What holds along a list holds of the ties of the sorted one. -/
theorem sorted_then (before : xs.Pairwise o) : (xs.insertionSort s).Pairwise (Then s o) := by
  induction xs with
  | nil => exact .nil
  | cons x xs ih =>
    obtain ⟨first, rest⟩ := List.pairwise_cons.mp before
    exact orderedInsert_then (ih rest) fun b member => first b (List.mem_insertionSort _ |>.mp member)

section Keys
variable {K : Type*} {key : A → K}

omit [DecidableRel o] [Std.Total o] [IsTrans A o] in
/-- The first items of the sorted list have the keys of the first items. -/
theorem take_sorted (distinct : (xs.map key).Nodup) :
    ((xs.insertionSort s).take n).map key = (xs.take n).map key ↔ Leading s n xs := by
  constructor
  · intro same
    have perm := List.perm_insertionSort s xs
    have kept : (xs.insertionSort s).take n = xs.take n :=
      eq_of_keys distinct (fun a member => perm.mem_iff.mp (List.mem_of_mem_take member))
        (fun a member => List.mem_of_mem_take member) same
    have sorted := List.pairwise_insertionSort s xs
    rw [← List.take_append_drop n (xs.insertionSort s), List.pairwise_append, kept] at sorted
    have rest : ((xs.insertionSort s).drop n).Perm (xs.drop n) := by
      rw [← List.take_append_drop n (xs.insertionSort s), kept] at perm
      conv_rhs at perm => rw [← List.take_append_drop n xs]
      exact (List.perm_append_left_iff _).mp perm
    exact ⟨sorted.1, fun a early b late => sorted.2.2 a early b (rest.mem_iff.mpr late)⟩
  · intro leads
    rw [insertionSort_leading leads]

omit [DecidableRel o] [Std.Total o] [IsTrans A o] in
theorem sort_fixed (distinct : (xs.map key).Nodup) :
    (xs.insertionSort s).map key = xs.map key ↔ xs.Pairwise s := by
  have whole := take_sorted (s := s) (n := xs.length) distinct
  rw [List.take_of_length_le (List.length_insertionSort _ _).le, List.take_length,
    leading_length] at whole
  exact whole

end Keys

/-- Sorts by two orders, one after the other, leave the numbers of a list as they are exactly when
it is sorted by the first order and among its ties by the second one. -/
theorem lexicographic_fixed {number : A → Nat} (increasing : xs.Pairwise (number · < number ·)) :
    (((xs.insertionSort s).insertionSort o).insertionSort s).map number = xs.map number ↔
      xs.Pairwise (Then s o) := by
  have sorted := sorted_then (s := s) (sorted_then (s := o) (sorted_then (s := s) increasing))
  have perm : (((xs.insertionSort s).insertionSort o).insertionSort s).Perm xs :=
    ((List.perm_insertionSort s _).trans (List.perm_insertionSort o _)).trans
      (List.perm_insertionSort s xs)
  constructor
  · intro same
    have distinct : (xs.map number).Nodup :=
      (List.pairwise_map.mpr increasing).imp fun less => Nat.ne_of_lt less
    have kept := eq_of_keys distinct (fun a member => perm.mem_iff.mp member) (fun _ => id) same
    rw [kept] at sorted
    exact sorted.imp fun before => ⟨before.1, fun tie => (before.2 tie).1⟩
  · intro before
    have both := (before.and increasing).imp fun {a b} pair =>
      (⟨pair.1.1, fun tie => ⟨pair.1.2 tie, fun _ => ⟨pair.1.1, fun _ => pair.2⟩⟩⟩ :
        Then s (Then o (Then s (number · < number ·))) a b)
    have one : ((xs.insertionSort s).insertionSort o).insertionSort s = xs := by
      apply perm.eq_of_pairwise _ sorted both
      intro a b _ _ le ge
      have less := (((le.2 ge.1).2 (ge.2 le.1).1).2 ge.1)
      have more := (((ge.2 le.1).2 (le.2 ge.1).1).2 le.1)
      omega
    rw [one]

end Stable
