import Mathlib.Data.List.Nodup
import Mathlib.Tactic.Tauto

/-! Writes to rows that wait to be sent, at most one for each key: a later write to a row comes
after the earlier one. -/
namespace Pending

universe u v
variable {K : Type u} {R : Type v} [DecidableEq K]

abbrev Writes (K : Type u) (R : Type v) := List (K × (R → R))

def stage (k : K) (f : R → R) : Writes K R → Writes K R
  | [] => [(k, f)]
  | write :: writes =>
    if write.1 = k then (k, f ∘ write.2) :: writes else write :: stage k f writes

/-- What the row under a key becomes. -/
def written : Writes K R → K → R → R
  | [], _, r => r
  | write :: writes, k, r => if k = write.1 then write.2 r else written writes k r

@[simp]
theorem written_nil (k : K) (r : R) : written [] k r = r := rfl

theorem written_cons (write : K × (R → R)) (writes : Writes K R) (k : K) (r : R) :
    written (write :: writes) k r = if k = write.1 then write.2 r else written writes k r := rfl

theorem written_absent {writes : Writes K R} {k : K} (absent : k ∉ writes.map Prod.fst) (r : R) :
    written writes k r = r := by
  induction writes with
  | nil => rfl
  | cons write writes ih =>
    rw [List.map_cons, List.mem_cons, not_or] at absent
    rw [written_cons, if_neg absent.1, ih absent.2]

theorem written_of_mem {writes : Writes K R} (distinct : (writes.map Prod.fst).Nodup) {k : K}
    {f : R → R} (member : (k, f) ∈ writes) (r : R) : written writes k r = f r := by
  induction writes with
  | nil => cases member
  | cons write writes ih =>
    obtain ⟨other, rest⟩ := List.nodup_cons.mp distinct
    rw [written_cons]
    rcases List.mem_cons.mp member with rfl | later
    · rw [if_pos rfl]
    · rw [if_neg, ih rest later]
      intro same
      exact other (List.mem_map.mpr ⟨(k, f), later, same⟩)

theorem written_perm {writes writes' : Writes K R} (distinct : (writes.map Prod.fst).Nodup)
    (perm : writes'.Perm writes) (k : K) (r : R) : written writes' k r = written writes k r := by
  by_cases present : k ∈ writes.map Prod.fst
  · obtain ⟨⟨k, f⟩, member, rfl⟩ := List.mem_map.mp present
    rw [written_of_mem distinct member,
      written_of_mem ((perm.map _).nodup_iff.mpr distinct) (perm.mem_iff.mpr member)]
  · rw [written_absent present, written_absent fun there => present ((perm.map _).mem_iff.mp there)]

theorem mem_stage_keys {k j : K} {f : R → R} {writes : Writes K R} :
    j ∈ (stage k f writes).map Prod.fst ↔ j = k ∨ j ∈ writes.map Prod.fst := by
  induction writes with
  | nil => simp [stage]
  | cons write writes ih =>
    rw [stage]
    split
    · rename_i same
      simp only [List.map_cons, List.mem_cons, same]
      tauto
    · rw [List.map_cons, List.mem_cons, ih, List.map_cons, List.mem_cons]
      tauto

theorem stage_distinct {writes : Writes K R} (distinct : (writes.map Prod.fst).Nodup) (k : K)
    (f : R → R) : ((stage k f writes).map Prod.fst).Nodup := by
  induction writes with
  | nil => exact List.nodup_singleton k
  | cons write writes ih =>
    obtain ⟨other, rest⟩ := List.nodup_cons.mp distinct
    rw [stage]
    split
    · rename_i same
      exact List.nodup_cons.mpr ⟨same ▸ other, rest⟩
    · rename_i apart
      refine List.nodup_cons.mpr ⟨fun there => ?_, ih rest⟩
      rcases mem_stage_keys.mp there with same | there
      · exact apart same
      · exact other there

theorem written_stage (k : K) (f : R → R) (writes : Writes K R) (j : K) (r : R) :
    written (stage k f writes) j r =
      if j = k then f (written writes k r) else written writes j r := by
  induction writes with
  | nil => rw [stage, written_cons, written_nil, written_nil]
  | cons write writes ih =>
    rw [stage]
    split
    · rename_i same
      subst same
      rw [written_cons, written_cons, written_cons, if_pos rfl]
      split
      · rfl
      · rfl
    · rename_i apart
      have other : k ≠ write.1 := fun same => apart same.symm
      rw [written_cons, written_cons, written_cons, ih, if_neg other]
      by_cases here : j = write.1
      · subst here
        rw [if_pos rfl, if_pos rfl, if_neg apart]
      · rw [if_neg here, if_neg here]

theorem written_cases (writes : Writes K R) (k : K) (r : R) :
    written writes k r = r ∨ ∃ write ∈ writes, written writes k r = write.2 r := by
  induction writes with
  | nil => exact .inl rfl
  | cons write writes ih =>
    rw [written_cons]
    split
    · exact .inr ⟨write, .head _, rfl⟩
    · rcases ih with same | ⟨later, member, same⟩
      · exact .inl same
      · exact .inr ⟨later, .tail _ member, same⟩

/-- What holds of every write and composes still does after one more. -/
theorem stage_forall {P : (R → R) → Prop} {writes : Writes K R} (each : ∀ write ∈ writes, P write.2)
    {k : K} {f : R → R} (one : P f) (compose : ∀ g, P g → P (f ∘ g)) :
    ∀ write ∈ stage k f writes, P write.2 := by
  induction writes with
  | nil =>
    intro write member
    cases List.mem_singleton.mp member
    exact one
  | cons first writes ih =>
    obtain ⟨head, tail⟩ := List.forall_mem_cons.mp each
    rw [stage]
    split
    · exact List.forall_mem_cons.mpr ⟨compose _ head, tail⟩
    · exact List.forall_mem_cons.mpr ⟨head, ih tail⟩

end Pending
