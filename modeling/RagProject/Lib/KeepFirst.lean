import Mathlib.Data.List.Basic
import Mathlib.Data.List.Nodup

/-! Keep the first row of each key, in order, with the set of the keys seen so far. -/
namespace KeepFirst

universe u v
variable {R : Type u} {K : Type v} [DecidableEq K]

def keepFirst (key : R → K) (seen : List K) : List R → List R
  | [] => []
  | r :: rows =>
    if key r ∈ seen then keepFirst key seen rows else r :: keepFirst key (key r :: seen) rows

variable {key : R → K}

theorem keepFirst_sublist (seen : List K) (rows : List R) :
    (keepFirst key seen rows).Sublist rows := by
  induction rows generalizing seen with
  | nil => exact .slnil
  | cons r rows ih =>
    unfold keepFirst
    split
    · exact (ih seen).cons r
    · exact (ih (key r :: seen)).cons_cons r

theorem not_seen {seen : List K} {rows : List R} {r : R} (member : r ∈ keepFirst key seen rows) :
    key r ∉ seen := by
  induction rows generalizing seen with
  | nil => cases member
  | cons first rows ih =>
    unfold keepFirst at member
    split at member
    · exact ih member
    · rename_i fresh
      rcases List.mem_cons.mp member with rfl | later
      · exact fresh
      · exact fun old => ih later (List.mem_cons_of_mem _ old)

/-- The kept rows have distinct keys. -/
theorem keepFirst_distinct (seen : List K) (rows : List R) :
    ((keepFirst key seen rows).map key).Nodup := by
  induction rows generalizing seen with
  | nil => exact .nil
  | cons r rows ih =>
    unfold keepFirst
    split
    · exact ih seen
    · rw [List.map_cons, List.nodup_cons]
      refine ⟨?_, ih _⟩
      intro again
      obtain ⟨other, member, same⟩ := List.mem_map.mp again
      exact not_seen member (same ▸ List.mem_cons_self)

/-- Every key that was not seen before is kept. -/
theorem key_kept {seen : List K} {rows : List R} {r : R} (member : r ∈ rows)
    (fresh : key r ∉ seen) : ∃ kept ∈ keepFirst key seen rows, key kept = key r := by
  induction rows generalizing seen with
  | nil => cases member
  | cons first rows ih =>
    unfold keepFirst
    by_cases old : key first ∈ seen
    · rw [if_pos old]
      rcases List.mem_cons.mp member with rfl | later
      · exact absurd old fresh
      · exact ih later fresh
    · rw [if_neg old]
      by_cases same : key r = key first
      · exact ⟨first, List.mem_cons_self, same.symm⟩
      · rcases List.mem_cons.mp member with rfl | later
        · exact absurd rfl same
        · have still : key r ∉ key first :: seen := by
            intro again
            rcases List.mem_cons.mp again with h | h
            · exact same h
            · exact fresh h
          obtain ⟨kept, there, eq⟩ := ih later still
          exact ⟨kept, List.mem_cons_of_mem _ there, eq⟩

/-- Rows with distinct new keys are all kept. -/
theorem keepFirst_of_distinct {seen : List K} {rows : List R} (distinct : (rows.map key).Nodup)
    (fresh : ∀ r ∈ rows, key r ∉ seen) : keepFirst key seen rows = rows := by
  induction rows generalizing seen with
  | nil => rfl
  | cons r rows ih =>
    obtain ⟨new, rest⟩ := List.nodup_cons.mp distinct
    unfold keepFirst
    rw [if_neg (fresh r List.mem_cons_self), ih rest]
    intro other member again
    rcases List.mem_cons.mp again with h | h
    · exact new (h ▸ List.mem_map_of_mem member)
    · exact fresh other (List.mem_cons_of_mem _ member) h

/-- The first rows give the first of the kept rows. -/
theorem keepFirst_prefix {front rows : List R} (first : front <+: rows) (seen : List K) :
    keepFirst key seen front <+: keepFirst key seen rows := by
  induction front generalizing rows seen with
  | nil => exact List.nil_prefix
  | cons r front ih =>
    obtain ⟨rest, rfl⟩ := first
    rw [List.cons_append]
    unfold keepFirst
    split
    · exact ih (List.prefix_append _ _) seen
    · exact List.cons_prefix_cons.mpr ⟨rfl, ih (List.prefix_append _ _) _⟩

end KeepFirst
