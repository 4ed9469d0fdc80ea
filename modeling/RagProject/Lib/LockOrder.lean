import Mathlib.Logic.Relation
import Mathlib.Order.Basic

/-! Parties that take locks one after the other and wait for a lock that another one holds. -/
namespace LockOrder

universe u v w
variable {P : Type u} {L : Type v} {R : Type w}

/-- The party waits for a lock that the other one holds. -/
def WaitsFor (wants holds : P → L → Prop) (p q : P) : Prop :=
  p ≠ q ∧ ∃ lock, wants p lock ∧ holds q lock

/-- A chain of waiting parties begins at a wanted lock and ends at a held one of the same or a
higher rank. -/
theorem chain_climbs [Preorder R] {wants holds : P → L → Prop} {rank : L → R}
    (ordered : ∀ p wanted held, wants p wanted → holds p held → rank held < rank wanted) {p q : P}
    (chain : Relation.TransGen (WaitsFor wants holds) p q) :
    ∃ wanted held, wants p wanted ∧ holds q held ∧ rank wanted ≤ rank held := by
  induction chain with
  | single waits =>
    obtain ⟨_, lock, wanted, held⟩ := waits
    exact ⟨lock, lock, wanted, held, le_refl _⟩
  | tail _ waits ih =>
    obtain ⟨first, last, wanted, held, below⟩ := ih
    obtain ⟨_, lock, next, other⟩ := waits
    exact ⟨first, lock, wanted, other, le_trans below (le_of_lt (ordered _ lock last next held))⟩

/-- Nobody waits for itself along a chain when every wanted lock stands above the held ones. -/
theorem acyclic [Preorder R] {wants holds : P → L → Prop} {rank : L → R}
    (ordered : ∀ p wanted held, wants p wanted → holds p held → rank held < rank wanted) (p : P) :
    ¬Relation.TransGen (WaitsFor wants holds) p p := by
  intro cycle
  obtain ⟨wanted, held, wants, holds, below⟩ := chain_climbs ordered cycle
  exact lt_irrefl _ (lt_of_le_of_lt below (ordered p wanted held wants holds))

end LockOrder
