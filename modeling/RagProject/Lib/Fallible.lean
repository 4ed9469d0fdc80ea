import Mathlib.Data.List.Basic

/-! Computations that fail: what the parts of one that returned have done. -/
namespace Fallible

universe u v
variable {E : Type u} {A B S : Type v}

theorem ok_bind {a : A} {f : A → Except E B} : ((.ok a : Except E A) >>= f) = f a := rfl

/-- A test that a computed value passes is passed by what the computation returned. -/
theorem ok_with {p : A → Bool} {r : Except E A} (checked : r.toOption.any p = true) :
    ∃ a, r = .ok a ∧ p a = true := by
  cases r with
  | error e => cases checked
  | ok a => exact ⟨a, rfl, checked⟩

theorem bind_ok {x : Except E A} {f : A → Except E B} {b : B} (done : x >>= f = .ok b) :
    ∃ a, x = .ok a ∧ f a = .ok b := by
  cases x with
  | error e => cases done
  | ok a => exact ⟨a, rfl, done⟩

theorem bind_error {x : Except E A} {f : A → Except E B} {e : E} (failed : x >>= f = .error e) :
    x = .error e ∨ ∃ a, x = .ok a ∧ f a = .error e := by
  cases x with
  | error e' =>
    cases failed
    exact .inl rfl
  | ok a => exact .inr ⟨a, rfl, failed⟩

/-- A loop that returned has returned for every element, in order. -/
theorem mapM_ok {f : A → Except E B} {g : A → B} {xs : List A} {ys : List B}
    (done : xs.mapM f = .ok ys) (each : ∀ x ∈ xs, ∀ y, f x = .ok y → y = g x) : ys = xs.map g := by
  induction xs generalizing ys with
  | nil =>
    cases done
    rfl
  | cons x xs ih =>
    rw [List.mapM_cons] at done
    obtain ⟨y, first, done⟩ := bind_ok done
    obtain ⟨rest, others, done⟩ := bind_ok done
    cases done
    have tail := ih others fun z member => each z (List.mem_cons_of_mem _ member)
    rw [List.map_cons, each x List.mem_cons_self y first, tail]

theorem mapM_into {f : A → Except E B} {xs : List A} {ys : List B} (done : xs.mapM f = .ok ys) :
    ∀ x ∈ xs, ∃ y ∈ ys, f x = .ok y := by
  induction xs generalizing ys with
  | nil =>
    intro x member
    cases member
  | cons first xs ih =>
    rw [List.mapM_cons] at done
    obtain ⟨y, head, done⟩ := bind_ok done
    obtain ⟨rest, others, done⟩ := bind_ok done
    cases done
    intro x member
    rcases List.mem_cons.mp member with rfl | later
    · exact ⟨y, List.mem_cons_self, head⟩
    · obtain ⟨z, inside, found⟩ := ih others x later
      exact ⟨z, List.mem_cons_of_mem _ inside, found⟩

theorem mapM_each {f : A → Except E B} {xs : List A} {ys : List B} (done : xs.mapM f = .ok ys) :
    ∀ x ∈ xs, ∃ y, f x = .ok y := by
  intro x member
  obtain ⟨y, _, found⟩ := mapM_into done x member
  exact ⟨y, found⟩

/-- A loop over other elements, whose every turn gives the other result. -/
theorem mapM_hom {A' B' : Type v} {f : A → Except E B} {f' : A' → Except E B'} {g : A → A'}
    {h : B → B'} (turn : ∀ x, f' (g x) = (f x).map h) (xs : List A) :
    (xs.map g).mapM f' = (xs.mapM f).map (List.map h) := by
  induction xs with
  | nil => rfl
  | cons x xs ih =>
    rw [List.map_cons, List.mapM_cons, List.mapM_cons, turn, ih]
    cases f x with
    | error e => rfl
    | ok y => cases xs.mapM f <;> rfl

/-- A loop from another state over other elements, whose every turn gives the other state. -/
theorem foldlM_hom {A' S' : Type v} {f : S → A → Except E S} {f' : S' → A' → Except E S'}
    {g : A → A'} {h : S → S'} (turn : ∀ s x, f' (h s) (g x) = (f s x).map h) (xs : List A)
    (s : S) : (xs.map g).foldlM f' (h s) = (xs.foldlM f s).map h := by
  induction xs generalizing s with
  | nil => rfl
  | cons x xs ih =>
    rw [List.map_cons, List.foldlM_cons, List.foldlM_cons, turn]
    cases f s x with
    | error e => rfl
    | ok next => exact ih next

theorem mapM_from {f : A → Except E B} {xs : List A} {ys : List B} (done : xs.mapM f = .ok ys) :
    ∀ y ∈ ys, ∃ x ∈ xs, f x = .ok y := by
  induction xs generalizing ys with
  | nil =>
    cases done
    exact fun y member => nomatch member
  | cons x xs ih =>
    rw [List.mapM_cons] at done
    obtain ⟨y, first, done⟩ := bind_ok done
    obtain ⟨rest, others, done⟩ := bind_ok done
    cases done
    intro z member
    rcases List.mem_cons.mp member with rfl | later
    · exact ⟨x, List.mem_cons_self, first⟩
    · obtain ⟨w, inside, found⟩ := ih others z later
      exact ⟨w, List.mem_cons_of_mem _ inside, found⟩

/-- A loop fails as one of its turns fails. -/
theorem mapM_error {f : A → Except E B} {p : E → Prop} {xs : List A} {e : E}
    (failed : xs.mapM f = .error e) (each : ∀ x e, f x = .error e → p e) : p e := by
  induction xs with
  | nil => cases failed
  | cons x xs ih =>
    rw [List.mapM_cons] at failed
    rcases bind_error failed with first | ⟨y, _, rest⟩
    · exact each x e first
    · rcases bind_error rest with later | ⟨ys, _, last⟩
      · exact ih later
      · cases last

theorem mapM_total {f : A → Except E B} {g : A → B} {xs : List A}
    (each : ∀ x ∈ xs, f x = .ok (g x)) : xs.mapM f = .ok (xs.map g) := by
  induction xs with
  | nil => rfl
  | cons x xs ih =>
    rw [List.mapM_cons, each x List.mem_cons_self,
      ih fun y member => each y (List.mem_cons_of_mem _ member)]
    rfl

/-- A loop whose turns return, each with a result of a kind. -/
theorem mapM_each_ok {f : A → Except E B} {P : A → B → Prop} {xs : List A}
    (each : ∀ x ∈ xs, ∃ y, f x = .ok y ∧ P x y) : ∃ ys, xs.mapM f = .ok ys ∧ List.Forall₂ P xs ys := by
  induction xs with
  | nil => exact ⟨[], rfl, .nil⟩
  | cons x xs ih =>
    obtain ⟨y, first, kind⟩ := each x List.mem_cons_self
    obtain ⟨ys, rest, kinds⟩ := ih fun z member => each z (List.mem_cons_of_mem _ member)
    refine ⟨y :: ys, ?_, .cons kind kinds⟩
    rw [List.mapM_cons, first, rest]
    rfl

theorem forM_ok {f : A → Except E PUnit} {xs : List A} (each : ∀ x ∈ xs, f x = .ok ⟨⟩) :
    xs.forM f = .ok ⟨⟩ := by
  induction xs with
  | nil => rfl
  | cons x xs ih =>
    have turn : (x :: xs).forM f = (do f x; xs.forM f) := rfl
    rw [turn, each x List.mem_cons_self]
    exact ih fun y member => each y (List.mem_cons_of_mem _ member)

theorem forM_each {f : A → Except E PUnit} {xs : List A} (done : xs.forM f = .ok ⟨⟩) :
    ∀ x ∈ xs, f x = .ok ⟨⟩ := by
  induction xs with
  | nil => exact fun _ none => nomatch none
  | cons first xs ih =>
    have turn : (first :: xs).forM f = (do f first; xs.forM f) := rfl
    rw [turn] at done
    obtain ⟨_, head, rest⟩ := bind_ok done
    intro x member
    rcases List.mem_cons.mp member with rfl | later
    · exact head
    · exact ih rest x later

theorem forM_error {f : A → Except E PUnit} {p : E → Prop} {xs : List A} {e : E}
    (failed : xs.forM f = .error e) (each : ∀ x e, f x = .error e → p e) : p e := by
  induction xs with
  | nil => cases failed
  | cons x xs ih =>
    have turn : (x :: xs).forM f = (do f x; xs.forM f) := rfl
    rw [turn] at failed
    rcases bind_error failed with first | ⟨_, _, rest⟩
    · exact each x e first
    · exact ih rest

theorem mapM_some {A B : Type*} {f : A → Option B} {g : A → B} {xs : List A}
    (each : ∀ x ∈ xs, f x = some (g x)) : xs.mapM f = some (xs.map g) := by
  induction xs with
  | nil => rfl
  | cons x xs ih =>
    rw [List.mapM_cons, each x List.mem_cons_self,
      ih fun y member => each y (List.mem_cons_of_mem _ member)]
    rfl

/-- A lookup of every element succeeds as all of them succeed. -/
theorem mapM_isSome {A B : Type*} {f : A → Option B} {xs : List A} :
    (∃ ys, xs.mapM f = some ys) ↔ ∀ x ∈ xs, (f x).isSome := by
  induction xs with
  | nil => simp
  | cons x xs ih =>
    rw [List.mapM_cons]
    cases first : f x with
    | none => simp [first]
    | some y =>
      simp only [Option.bind_eq_bind, Option.bind_some, List.mem_cons, forall_eq_or_imp, first,
        Option.isSome_some, true_and]
      rw [← ih]
      cases xs.mapM f <;> simp

theorem mapM_key {A B : Type*} {f : A → Option B} {key : B → A} {xs : List A} {ys : List B}
    (done : xs.mapM f = some ys) (each : ∀ x ∈ xs, ∀ y, f x = some y → key y = x) :
    ys.map key = xs := by
  induction xs generalizing ys with
  | nil =>
    cases done
    rfl
  | cons x xs ih =>
    rw [List.mapM_cons] at done
    obtain ⟨y, first, done⟩ := Option.bind_eq_some_iff.mp done
    obtain ⟨rest, others, done⟩ := Option.bind_eq_some_iff.mp done
    cases done
    rw [List.map_cons, each x List.mem_cons_self y first,
      ih others fun z member => each z (List.mem_cons_of_mem _ member)]

theorem mapM_mem {A B : Type*} {f : A → Option B} {xs : List A} {ys : List B}
    (done : xs.mapM f = some ys) : ∀ y ∈ ys, ∃ x ∈ xs, f x = some y := by
  induction xs generalizing ys with
  | nil =>
    cases done
    exact fun y member => nomatch member
  | cons x xs ih =>
    rw [List.mapM_cons] at done
    obtain ⟨y, first, done⟩ := Option.bind_eq_some_iff.mp done
    obtain ⟨rest, others, done⟩ := Option.bind_eq_some_iff.mp done
    cases done
    intro z member
    rcases List.mem_cons.mp member with rfl | later
    · exact ⟨x, List.mem_cons_self, first⟩
    · obtain ⟨w, inside, found⟩ := ih others z later
      exact ⟨w, List.mem_cons_of_mem _ inside, found⟩

/-- The rule for a loop with a state: the invariant speaks of the elements still to come. -/
theorem foldlM_ok {f : S → A → Except E S} (inv : List A → S → Prop)
    (one : ∀ x xs s t, inv (x :: xs) s → f s x = .ok t → inv xs t) {xs : List A} {s t : S}
    (done : xs.foldlM f s = .ok t) (initial : inv xs s) : inv [] t := by
  induction xs generalizing s with
  | nil =>
    cases done
    exact initial
  | cons x xs ih =>
    rw [List.foldlM_cons] at done
    obtain ⟨next, head, tail⟩ := bind_ok done
    exact ih tail (one x xs s next initial head)

end Fallible
