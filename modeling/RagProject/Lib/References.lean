import Mathlib.Data.List.Basic

/-! Foreign keys between tables: what may be removed or rewritten on either side. A key with a
missing part refers to nothing. -/
namespace References

universe u v w
variable {C : Type u} {P : Type v} {K : Type w}

/-- Every row on the left refers to a row on the right, or to nothing. -/
def Refers (rows : List C) (key : C → Option K) (parents : List P) (id : P → Option K) : Prop :=
  ∀ c ∈ rows, ∀ k, key c = some k → ∃ p ∈ parents, id p = some k

variable {rows : List C} {key : C → Option K} {parents : List P} {id : P → Option K}

theorem refers_iff [BEq K] [LawfulBEq K] : Refers rows key parents id ↔
    (rows.all fun c => (key c).all fun k => parents.any (id · == some k)) = true := by
  simp only [Refers, List.all_eq_true, Option.all_eq_true, List.any_eq_true, beq_iff_eq]

instance [BEq K] [LawfulBEq K] : Decidable (Refers rows key parents id) :=
  decidable_of_iff' _ refers_iff

/-- Rows that refer may go. -/
theorem Refers.fewer {rows' : List C} (refers : Refers rows key parents id)
    (fewer : ∀ c ∈ rows', c ∈ rows) : Refers rows' key parents id :=
  fun c member => refers c (fewer c member)

theorem Refers.filter (refers : Refers rows key parents id) (keep : C → Bool) :
    Refers (rows.filter keep) key parents id :=
  refers.fewer fun _ member => (List.mem_filter.mp member).1

/-- A row that nothing refers to may go. -/
theorem Refers.filter_parents (refers : Refers rows key parents id) {keep : P → Bool}
    (kept : ∀ p ∈ parents, ∀ c ∈ rows, ∀ k, key c = some k → id p = some k → keep p = true) :
    Refers rows key (parents.filter keep) id := by
  intro c member k refersTo
  obtain ⟨p, there, same⟩ := refers c member k refersTo
  exact ⟨p, List.mem_filter.mpr ⟨there, kept p there c member k refersTo same⟩, same⟩

/-- A row may be rewritten when its key stays or is cleared. -/
theorem Refers.rewrite (refers : Refers rows key parents id) {f : C → C}
    (same : ∀ c ∈ rows, key (f c) = key c ∨ key (f c) = none) :
    Refers (rows.map f) key parents id := by
  intro c member k refersTo
  obtain ⟨old, there, rfl⟩ := List.mem_map.mp member
  rcases same old there with stays | cleared
  · exact refers old there k (stays ▸ refersTo)
  · rw [cleared] at refersTo
    cases refersTo

/-- A row may be rewritten when what refers to it still finds it. -/
theorem Refers.rewrite_parents (refers : Refers rows key parents id) {f : P → P}
    (same : ∀ p ∈ parents, ∀ c ∈ rows, ∀ k, key c = some k → id p = some k → id (f p) = some k) :
    Refers rows key (parents.map f) id := by
  intro c member k refersTo
  obtain ⟨p, there, found⟩ := refers c member k refersTo
  exact ⟨f p, List.mem_map_of_mem there, same p there c member k refersTo found⟩

end References
