import RagProject.Lib.Interleaving

/-! A unit of work under a lease. Anyone may take it until it is closed, also from a
holder that is still alive, and only the holder may finish it. -/
namespace Lease
open Interleaving

universe u

inductive Phase (W : Type u) where
  | waiting
  | held (owner : W)
  | closed
  deriving DecidableEq

inductive Event (W : Type u) where
  | idle
  | take (worker : W)
  | finish (worker : W)
  | withdraw
  deriving DecidableEq

variable {W : Type u}

/-- The most recent taker in a history that began with the given one. -/
def lastTaker (last : Option W) : List (Event W) → Option W
  | [] => last
  | .take worker :: events => lastTaker (some worker) events
  | _ :: events => lastTaker last events

/-- The holder of a lease is the one that took it last. -/
def Phase.Follows (last : Option W) (phase : Phase W) : Prop :=
  ∀ owner, phase = .held owner → last = some owner

@[simp] theorem follows_waiting (last : Option W) : Phase.Follows last .waiting := by
  intro owner h
  cases h

@[simp] theorem follows_closed (last : Option W) : Phase.Follows last .closed := by
  intro owner h
  cases h

@[simp] theorem follows_held (last : Option W) (owner : W) :
    Phase.Follows last (.held owner) ↔ last = some owner := by
  constructor
  · intro h
    exact h owner rfl
  · intro h other same
    cases same
    exact h

theorem lastTaker_cons (last : Option W) (event : Event W) (events : List (Event W)) :
    lastTaker last (event :: events) = lastTaker (lastTaker last [event]) events := by
  cases event <;> rfl

variable [DecidableEq W]

def Phase.heldBy (worker : W) : Phase W → Bool
  | .held owner => owner == worker
  | _ => false

def step : Phase W → Event W → Option (Phase W)
  | phase, .idle => some phase
  | .closed, _ => none
  | _, .take worker => some (.held worker)
  | phase, .finish worker => if phase.heldBy worker then some .closed else none
  | _, .withdraw => some .closed

theorem heldBy_iff {phase : Phase W} {worker : W} :
    phase.heldBy worker = true ↔ phase = .held worker := by
  cases phase <;> simp [Phase.heldBy]

theorem take_open {phase : Phase W} (isOpen : phase ≠ .closed) (worker : W) :
    step phase (.take worker) = some (.held worker) := by
  cases phase with
  | closed => exact absurd rfl isOpen
  | waiting | held => rfl

theorem finish_held (worker : W) : step (.held worker) (.finish worker) = some .closed := by
  simp [step, Phase.heldBy]

theorem withdraw_open {phase : Phase W} (isOpen : phase ≠ .closed) :
    step phase .withdraw = some .closed := by
  cases phase with
  | closed => exact absurd rfl isOpen
  | waiting | held => rfl

theorem step_follows {phase next : Phase W} {event : Event W} {last : Option W}
    (follows : phase.Follows last) (moved : step phase event = some next) :
    next.Follows (lastTaker last [event]) := by
  cases event with
  | idle =>
    cases moved
    exact follows
  | take worker =>
    cases phase with
    | closed => cases moved
    | waiting | held => cases moved; simp [lastTaker]
  | finish worker =>
    cases phase with
    | closed | waiting => cases moved
    | held owner =>
      simp only [step] at moved
      split at moved
      · cases moved
        simp
      · cases moved
  | withdraw =>
    cases phase with
    | closed => cases moved
    | waiting | held => cases moved; simp

/-- In every history the holder is the last taker. -/
theorem exec_follows {events : List (Event W)} {phase final : Phase W} {last : Option W}
    (follows : phase.Follows last) (done : exec step phase events = some final) :
    final.Follows (lastTaker last events) := by
  induction events generalizing phase last with
  | nil =>
    cases done
    exact follows
  | cons event events ih =>
    simp only [exec, Option.bind_eq_some_iff] at done
    obtain ⟨next, moved, rest⟩ := done
    rw [lastTaker_cons]
    exact ih (step_follows follows moved) rest

/-- A closed lease stays closed: no later event finishes it again. -/
theorem exec_closed {events : List (Event W)} {final : Phase W}
    (done : exec step .closed events = some final) :
    final = .closed ∧ ∀ event ∈ events, event = .idle := by
  induction events with
  | nil =>
    cases done
    simp
  | cons event events ih =>
    simp only [exec, Option.bind_eq_some_iff] at done
    obtain ⟨next, moved, rest⟩ := done
    cases event with
    | idle =>
      cases moved
      obtain ⟨same, idle⟩ := ih rest
      exact ⟨same, by simpa using idle⟩
    | take | finish | withdraw => cases moved

end Lease
