import Mathlib.Data.List.Induction
import Mathlib.Data.List.Nodup

/-! A greedy selection: each candidate in turn is taken, with what it becomes, or turned away for
a reason, in view of what was taken before it. -/
namespace Sieve

universe u v w
variable {A : Type u} {B : Type v} {R : Type w} (judge : List B → A → Except R B)

def sift : List B → List A → List (A × Except R B)
  | _, [] => []
  | taken, a :: as =>
    match judge taken a with
    | .ok b => (a, .ok b) :: sift (taken ++ [b]) as
    | .error r => (a, .error r) :: sift taken as

def takenOf : Except R B → Option B
  | .ok b => some b
  | .error _ => none

/-- What was taken, in order. -/
def taken (turns : List (A × Except R B)) : List B := turns.filterMap fun turn => takenOf turn.2

theorem sift_cons (before : List B) (a : A) (as : List A) :
    sift judge before (a :: as) = (a, judge before a) ::
      sift judge (before ++ (takenOf (judge before a)).toList) as := by
  rw [sift]
  cases judge before a with
  | ok b => rfl
  | error r => rw [takenOf, Option.toList_none, List.append_nil]

theorem sift_candidates (before : List B) (as : List A) :
    (sift judge before as).map (·.1) = as := by
  induction as generalizing before with
  | nil => rfl
  | cons a as ih => rw [sift_cons, List.map_cons, ih]

variable {judge}

/-- Each candidate is judged by what was taken before it. -/
theorem sift_judged {before : List B} {as : List A} {done rest : List (A × Except R B)} {a : A}
    {verdict : Except R B} (turns : sift judge before as = done ++ (a, verdict) :: rest) :
    verdict = judge (before ++ taken done) a := by
  induction as generalizing before done with
  | nil => simp [sift] at turns
  | cons first as ih =>
    rw [sift_cons] at turns
    cases done with
    | nil =>
      obtain ⟨rfl, rfl⟩ := Prod.mk.inj (List.cons.inj turns).1
      simp [taken]
    | cons turn done =>
      obtain ⟨rfl, later⟩ := List.cons.inj turns
      rw [ih later]
      congr 1
      cases judge before first <;> simp [takenOf, taken]

/-- What every acceptance keeps holds of what is taken in the end. -/
theorem taken_keeps {P : List B → Prop}
    (keeps : ∀ before a b, P before → judge before a = .ok b → P (before ++ [b]))
    {before : List B} (holds : P before) (as : List A) :
    P (before ++ taken (sift judge before as)) := by
  induction as generalizing before with
  | nil => simpa [sift, taken] using holds
  | cons a as ih =>
    rw [sift_cons]
    cases verdict : judge before a with
    | ok b => simpa [taken, takenOf] using ih (keeps before a b holds verdict)
    | error r => simpa [taken, takenOf] using ih holds

theorem taken_append (done rest : List (A × Except R B)) :
    taken (done ++ rest) = taken done ++ taken rest := List.filterMap_append

theorem sift_append (before : List B) (as rest : List A) :
    sift judge before (as ++ rest) =
      sift judge before as ++ sift judge (before ++ taken (sift judge before as)) rest := by
  induction as generalizing before with
  | nil => simp [sift, taken]
  | cons a as ih =>
    rw [List.cons_append, sift_cons, sift_cons, ih, List.cons_append]
    cases judge before a <;> simp [takenOf, taken]

/-- The first turns are the turns of the first candidates. -/
theorem sift_first {before : List B} {as : List A} {done rest : List (A × Except R B)}
    (turns : sift judge before as = done ++ rest) :
    sift judge before (done.map (·.1)) = done := by
  have names := sift_candidates judge before as
  rw [turns, List.map_append] at names
  rw [← names, sift_append] at turns
  have length : (sift judge before (done.map (·.1))).length = done.length := by
    have own := congrArg List.length (sift_candidates judge before (done.map (·.1)))
    rwa [List.length_map, List.length_map] at own
  exact (List.append_inj turns length).1

/-- What is taken differs in `f` when each acceptance differs from the ones before it. -/
theorem taken_nodup_iff {C : Type w} (f : B → C) (turns : List (A × Except R B)) :
    ((taken turns).map f).Nodup ↔
      ∀ done a b rest, turns = done ++ (a, .ok b) :: rest → ∀ c ∈ taken done, f c ≠ f b := by
  constructor
  · rintro distinct done a b rest rfl c member same
    rw [taken_append, List.map_append, List.nodup_append] at distinct
    refine distinct.2.2 (f c) (List.mem_map_of_mem member) (f b) ?_ same
    simp [taken, takenOf]
  · intro apart
    induction turns using List.reverseRecOn with
    | nil => exact .nil
    | append_singleton turns turn ih =>
      have before := ih fun done a b rest split c member =>
        apart done a b (rest ++ [turn]) (by rw [split, List.append_assoc]; rfl) c member
      rw [taken_append, List.map_append, List.nodup_append]
      obtain ⟨a, verdict⟩ := turn
      cases verdict with
      | error r => exact ⟨before, .nil, by simp [taken, takenOf]⟩
      | ok b =>
        refine ⟨before, by simp [taken, takenOf], fun x old y new => ?_⟩
        obtain ⟨c, member, rfl⟩ := List.mem_map.mp old
        have last : y = f b := by simpa [taken, takenOf] using new
        rw [last]
        exact apart turns a b [] rfl c member

end Sieve
