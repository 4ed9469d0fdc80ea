import Mathlib.Data.List.Forall2
import Mathlib.Data.List.Enum

/-! Two lists whose elements are related one by one. -/
namespace Abreast
open List

universe u v w
variable {A : Type u} {B : Type v} {C : Type w} {R : A → B → Prop} {as : List A} {bs : List B}

theorem partner (abreast : Forall₂ R as bs) {b : B} (member : b ∈ bs) : ∃ a ∈ as, R a b := by
  induction abreast with
  | nil => cases member
  | cons related _ ih =>
    rcases List.mem_cons.mp member with rfl | later
    · exact ⟨_, .head _, related⟩
    · obtain ⟨a, there, found⟩ := ih later
      exact ⟨a, .tail _ there, found⟩

theorem at_place (abreast : Forall₂ R as bs) {p : Nat} {a : A} (there : as[p]? = some a) :
    ∃ b, bs[p]? = some b ∧ R a b := by
  induction abreast generalizing p with
  | nil => cases there
  | cons related _ ih =>
    cases p with
    | zero =>
      cases there
      exact ⟨_, rfl, related⟩
    | succ p => exact ih there

theorem partner_at (abreast : Forall₂ R as bs) {p : Nat} {b : B} (there : bs[p]? = some b) :
    ∃ a, as[p]? = some a ∧ R a b := by
  induction abreast generalizing p with
  | nil => cases there
  | cons related _ ih =>
    cases p with
    | zero =>
      cases there
      exact ⟨_, rfl, related⟩
    | succ p => exact ih there

theorem map_eq {f : A → C} {g : B → C} (abreast : Forall₂ R as bs)
    (same : ∀ a b, R a b → f a = g b) : as.map f = bs.map g := by
  induction abreast with
  | nil => rfl
  | cons related _ ih => rw [List.map_cons, List.map_cons, same _ _ related, ih]

theorem filterMap_eq {f : A → Option C} {g : B → Option C} (abreast : Forall₂ R as bs)
    (same : ∀ a b, R a b → f a = g b) : as.filterMap f = bs.filterMap g := by
  induction abreast with
  | nil => rfl
  | cons related _ ih => rw [List.filterMap_cons, List.filterMap_cons, same _ _ related, ih]

/-- The elements are numbered alike, from two numbers on. -/
theorem zipIdx (abreast : Forall₂ R as bs) (m n : Nat) :
    Forall₂ (fun a b => R a.1 b.1 ∧ ∃ i, a.2 = m + i ∧ b.2 = n + i) (as.zipIdx m)
      (bs.zipIdx n) := by
  induction abreast generalizing m n with
  | nil => exact .nil
  | cons related _ ih =>
    rw [List.zipIdx_cons, List.zipIdx_cons]
    refine .cons ⟨related, 0, rfl, rfl⟩ ((ih (m + 1) (n + 1)).imp ?_)
    rintro a b ⟨later, i, first, second⟩
    exact ⟨later, i + 1, by omega, by omega⟩

theorem filter {p : A → Bool} {q : B → Bool} (abreast : Forall₂ R as bs)
    (same : ∀ a b, R a b → p a = q b) : Forall₂ R (as.filter p) (bs.filter q) := by
  induction abreast with
  | nil => exact .nil
  | cons related _ ih =>
    have both := same _ _ related
    rw [List.filter_cons, List.filter_cons, both]
    split
    · exact .cons related ih
    · exact ih

theorem of_mapM {f : A → Option B} (done : as.mapM f = some bs) :
    Forall₂ (fun a b => f a = some b) as bs := by
  induction as generalizing bs with
  | nil =>
    cases done
    exact .nil
  | cons a as ih =>
    simp only [List.mapM_cons, Option.bind_eq_bind, Option.bind_eq_some_iff] at done
    obtain ⟨b, first, rest, others, shape⟩ := done
    cases shape
    exact .cons first (ih others)

/-- A test that the first elements pass, and no later one. -/
theorem filter_prefix {p : A → Bool} (k : Nat)
    (first : ∀ i (inside : i < as.length), p as[i] = decide (i < k)) : as.filter p = as.take k := by
  induction as generalizing k with
  | nil => simp
  | cons a as ih =>
    have head := first 0 (by simp)
    rw [List.getElem_cons_zero] at head
    have tail (i : Nat) (inside : i < as.length) : p as[i] = decide (i + 1 < k) := by
      have at_next := first (i + 1) (by simpa using inside)
      rwa [List.getElem_cons_succ] at at_next
    cases k with
    | zero =>
      have none := ih 0 fun i inside => by simpa using tail i inside
      rw [List.filter_cons, head, none]
      simp
    | succ k =>
      have some := ih k fun i inside => by simpa using tail i inside
      rw [List.filter_cons, head, some]
      simp

end Abreast
