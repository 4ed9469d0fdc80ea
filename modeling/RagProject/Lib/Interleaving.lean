import Mathlib.Data.List.Basic
import Mathlib.Data.List.Induction

/-! Runs of a system whose step is a partial function of the state and an action.
An interleaving of several parties is one list of their actions. A theorem about
every run of the list is a theorem about every interleaving. -/
namespace Interleaving

universe u v
variable {S : Type u} {A : Type v}

/-- Perform the actions in order; none when one of them is not enabled. -/
def exec (step : S → A → Option S) : S → List A → Option S
  | s, [] => some s
  | s, a :: as => (step s a).bind fun t => exec step t as

/-- A run whose every action satisfies `ok` in the state before it. -/
inductive Run (step : S → A → Option S) (ok : S → A → Prop) : S → List A → S → Prop where
  | nil (s : S) : Run step ok s [] s
  | cons {s t u : S} {a : A} {as : List A} :
      ok s a → step s a = some t → Run step ok t as u → Run step ok s (a :: as) u

/-- No condition on the actions: every interleaving. -/
def Free (_ : S) (_ : A) : Prop := True

theorem run_of_exec {step : S → A → Option S} {s t : S} {as : List A}
    (done : exec step s as = some t) : Run step Free s as t := by
  induction as generalizing s with
  | nil =>
    cases Option.some.inj done
    exact .nil _
  | cons a as ih =>
    simp only [exec, Option.bind_eq_some_iff] at done
    obtain ⟨u, hu, rest⟩ := done
    exact .cons trivial hu (ih rest)

theorem Run.free {step : S → A → Option S} {ok : S → A → Prop} {s t : S} {as : List A}
    (run : Run step ok s as t) : Run step Free s as t := by
  induction run with
  | nil => exact .nil _
  | cons _ done _ ih => exact .cons trivial done ih

/-- The step with a test in front of it. -/
def guarded (step : S → A → Option S) (test : S → A → Bool) (s : S) (a : A) : Option S :=
  if test s a then step s a else none

/-- A run is found by evaluation when its condition follows from a test. -/
theorem run_of_guarded {step : S → A → Option S} {test : S → A → Bool} {ok : S → A → Prop}
    (sound : ∀ s a, test s a = true → ok s a) {s t : S} {as : List A}
    (done : exec (guarded step test) s as = some t) : Run step ok s as t := by
  induction as generalizing s with
  | nil =>
    cases Option.some.inj done
    exact .nil _
  | cons a as ih =>
    simp only [exec, Option.bind_eq_some_iff] at done
    obtain ⟨u, hu, rest⟩ := done
    unfold guarded at hu
    split at hu
    · rename_i passed
      exact .cons (sound s a passed) hu (ih rest)
    · cases hu

/-- One step preserves, hence a whole run preserves. -/
theorem Run.preserves {step : S → A → Option S} {ok : S → A → Prop} {inv : S → Prop}
    (one : ∀ s a t, inv s → ok s a → step s a = some t → inv t)
    {s t : S} {as : List A} (run : Run step ok s as t) (initial : inv s) : inv t := by
  induction run with
  | nil => exact initial
  | cons hok hstep _ ih => exact ih (one _ _ _ initial hok hstep)

/-- The same for an invariant that speaks about the actions still to come. -/
theorem Run.consumes {step : S → A → Option S} {ok : S → A → Prop} (inv : List A → S → Prop)
    (one : ∀ s a as t, inv (a :: as) s → ok s a → step s a = some t → inv as t)
    {s t : S} {as : List A} (run : Run step ok s as t) (initial : inv as s) : inv [] t := by
  induction run with
  | nil => exact initial
  | cons hok hstep _ ih => exact ih (one _ _ _ _ initial hok hstep)

section Prefixes
variable {step : S → A → Option S} {start : S}

theorem exec_append (s : S) (before after : List A) :
    exec step s (before ++ after) = (exec step s before).bind fun t => exec step t after := by
  induction before generalizing s with
  | nil => rfl
  | cons a before ih =>
    rw [List.cons_append, exec, exec, Option.bind_assoc]
    exact congrArg _ (funext fun t => ih t)

/-- The state was passed on the way through the actions. -/
def Passed (step : S → A → Option S) (start : S) (actions : List A) (s : S) : Prop :=
  ∃ before after, actions = before ++ after ∧ exec step start before = some s

theorem Passed.more {actions : List A} {s : S} (passed : Passed step start actions s) (a : A) :
    Passed step start (actions ++ [a]) s := by
  obtain ⟨before, after, rfl, done⟩ := passed
  exact ⟨before, after ++ [a], List.append_assoc .., done⟩

theorem passed_now {actions : List A} {s : S} (done : exec step start actions = some s) :
    Passed step start actions s :=
  ⟨actions, [], (List.append_nil _).symm, done⟩

/-- After one more action, the states on the way are those before it and the one it led to. -/
theorem passed_last {actions : List A} {a : A} {s : S} (passed : Passed step start (actions ++ [a]) s) :
    Passed step start actions s ∨ exec step start (actions ++ [a]) = some s := by
  obtain ⟨before, after, same, done⟩ := passed
  rcases List.eq_nil_or_concat after with rfl | ⟨front, last, rfl⟩
  · rw [List.append_nil] at same
    exact .inr (same ▸ done)
  · rw [List.concat_eq_append, ← List.append_assoc] at same
    exact .inl ⟨before, front, (List.append_inj' same rfl).1, done⟩

/-- A fact about the actions so far and the state that they led to, kept by every step. -/
theorem exec_keeps (inv : List A → S → Prop) (first : inv [] start)
    (one : ∀ actions s a t, exec step start actions = some s → inv actions s → step s a = some t →
      inv (actions ++ [a]) t)
    {actions : List A} {s : S} (done : exec step start actions = some s) : inv actions s := by
  induction actions using List.reverseRecOn generalizing s with
  | nil =>
    cases Option.some.inj done
    exact first
  | append_singleton actions a ih =>
    rw [exec_append, Option.bind_eq_some_iff] at done
    obtain ⟨t, before, last⟩ := done
    rw [exec, Option.bind_eq_some_iff] at last
    obtain ⟨u, stepped, same⟩ := last
    cases Option.some.inj same
    exact one actions t a _ before (ih before) stepped

end Prefixes

end Interleaving
