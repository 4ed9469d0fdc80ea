import Mathlib.Data.List.Basic

/-! Programs with a state that survives their exceptions, and the inversion rules for
the runs that return a value. -/
namespace Program

universe u
variable {E S A B : Type u}

abbrev Prog (E S A : Type u) := ExceptT E (StateM S) A

def Prog.exec (x : Prog E S A) (s : S) : Except E A × S := x s

/-- The program takes s to t and returns a. -/
def Returns (x : Prog E S A) (s : S) (a : A) (t : S) : Prop := x.exec s = (.ok a, t)

theorem returns_pure {a b : A} {s t : S} :
    Returns (pure a : Prog E S A) s b t ↔ a = b ∧ s = t := by
  have run : (pure a : Prog E S A).exec s = (.ok a, s) := rfl
  rw [Returns, run, Prod.mk.injEq, Except.ok.injEq]

theorem returns_throw {e : E} {a : A} {s t : S} : ¬Returns (throw e : Prog E S A) s a t := by
  intro h
  have run : (throw e : Prog E S A).exec s = (.error e, s) := rfl
  rw [Returns, run] at h
  cases h

theorem returns_bind {x : Prog E S A} {f : A → Prog E S B} {s t : S} {b : B} :
    Returns (x >>= f) s b t ↔ ∃ a m, Returns x s a m ∧ Returns (f a) m b t := by
  have unfolded : (x >>= f).exec s = match x.exec s with
      | (.ok a, m) => (f a).exec m
      | (.error e, m) => (.error e, m) := by
    simp only [Prog.exec, bind, ExceptT.bind, ExceptT.mk, StateT.bind, ExceptT.bindCont]
    cases x s with
    | mk result m => cases result <;> rfl
  constructor
  · intro h
    rw [Returns, unfolded] at h
    cases run : x.exec s with
    | mk result m =>
      cases result with
      | ok a =>
        rw [run] at h
        exact ⟨a, m, run, h⟩
      | error e => simp [run] at h
  · rintro ⟨a, m, first, second⟩
    rw [Returns, unfolded, first]
    exact second

theorem returns_get {a s t : S} :
    Returns (get : Prog E S S) s a t ↔ a = s ∧ s = t := by
  constructor
  · intro h
    cases h
    exact ⟨rfl, rfl⟩
  · rintro ⟨rfl, rfl⟩
    rfl

theorem returns_set {u s t : S} {a : PUnit} :
    Returns (set u : Prog E S PUnit) s a t ↔ t = u := by
  constructor
  · intro h
    cases h
    rfl
  · rintro rfl
    rfl

end Program
