import Mathlib.Data.List.Nodup
import Mathlib.Data.List.Perm.Lattice

/-! The simple paths of a multigraph from some start vertices, level by level. -/
namespace Trails

universe u v
variable {V : Type u} {E : Type v}

/-- A start and the steps from it: an edge and the vertex it leads to. -/
@[ext]
structure Trail (V : Type u) (E : Type v) where
  start : V
  steps : List (E × V)
  deriving DecidableEq

namespace Trail

def vertices (t : Trail V E) : List V := t.start :: t.steps.map (·.2)

def edges (t : Trail V E) : List E := t.steps.map (·.1)

def last (t : Trail V E) : V := (t.steps.getLast?.map (·.2)).getD t.start

def snoc (t : Trail V E) (step : E × V) : Trail V E := ⟨t.start, t.steps ++ [step]⟩

variable (t : Trail V E) (step : E × V)

@[simp] theorem snoc_start : (t.snoc step).start = t.start := rfl

@[simp] theorem snoc_vertices : (t.snoc step).vertices = t.vertices ++ [step.2] := by
  simp [vertices, snoc]

@[simp] theorem snoc_edges : (t.snoc step).edges = t.edges ++ [step.1] := by
  simp [edges, snoc]

@[simp] theorem snoc_last : (t.snoc step).last = step.2 := by
  simp [last, snoc]

@[simp] theorem snoc_length : (t.snoc step).steps.length = t.steps.length + 1 := by
  simp [snoc]

theorem last_mem : t.last ∈ t.vertices := by
  unfold last vertices
  cases end_ : t.steps.getLast? with
  | none => exact List.mem_cons_self
  | some step => exact List.mem_cons_of_mem _ (List.mem_map_of_mem (List.mem_of_getLast? end_))

theorem snoc_inj {s t : Trail V E} {a b : E × V} (same : s.snoc a = t.snoc b) : s = t ∧ a = b := by
  obtain ⟨start, steps⟩ := Trail.mk.inj same
  obtain ⟨front, last⟩ := List.append_inj' steps rfl
  exact ⟨Trail.ext start front, List.singleton_inj.mp last⟩

end Trail

section Levels
variable [DecidableEq V] (next : V → List (E × V))

/-- The trails longer by one step that lead to a new vertex. -/
def extensions (t : Trail V E) : List (Trail V E) :=
  ((next t.last).filter (·.2 ∉ t.vertices)).map t.snoc

def level (starts : List V) : Nat → List (Trail V E)
  | 0 => starts.map (⟨·, []⟩)
  | k + 1 => (level starts k).flatMap (extensions next)

/-- The trails of one step up to a number of steps. -/
def upTo (starts : List V) (depth : Nat) : List (Trail V E) :=
  (List.range depth).flatMap fun k => level next starts (k + 1)

/-- Each step follows an edge from the vertex before it. -/
inductive Follows : V → List (E × V) → Prop
  | nil (v : V) : Follows v []
  | cons {v w : V} {e : E} {steps : List (E × V)} :
    (e, w) ∈ next v → Follows w steps → Follows v ((e, w) :: steps)

structure Simple (t : Trail V E) : Prop where
  follows : Follows next t.start t.steps
  distinct : t.vertices.Nodup

variable {next}

omit [DecidableEq V] in
theorem follows_snoc {v w : V} {e : E} {steps : List (E × V)} :
    Follows next v (steps ++ [(e, w)]) ↔
      Follows next v steps ∧ (e, w) ∈ next (Trail.last ⟨v, steps⟩) := by
  induction steps generalizing v with
  | nil =>
    constructor
    · rintro ⟨⟩
      exact ⟨.nil v, by assumption⟩
    · rintro ⟨_, edge⟩
      exact .cons edge (.nil w)
  | cons step steps ih =>
    obtain ⟨f, x⟩ := step
    have tail : Trail.last ⟨v, (f, x) :: steps⟩ = Trail.last ⟨x, steps⟩ := by
      cases steps with
      | nil => rfl
      | cons step steps =>
        unfold Trail.last
        rw [List.getLast?_cons_cons]
        obtain ⟨y, end_⟩ := List.getLast?_isSome.mpr (List.cons_ne_nil step steps) |>
          Option.isSome_iff_exists.mp
        rw [end_]
        rfl
    rw [tail]
    constructor
    · rintro (_ | ⟨edge, rest⟩)
      exact ⟨.cons edge (ih.mp rest).1, (ih.mp rest).2⟩
    · rintro ⟨_ | ⟨edge, rest⟩, last⟩
      exact .cons edge (ih.mpr ⟨rest, last⟩)

omit [DecidableEq V] in
theorem Follows.edge {v : V} {steps : List (E × V)} (follows : Follows next v steps) :
    ∀ step ∈ steps, ∃ u, step ∈ next u := by
  induction follows with
  | nil v => exact fun _ none => nomatch none
  | cons edge _ ih =>
    intro step member
    rcases List.mem_cons.mp member with rfl | later
    · exact ⟨_, edge⟩
    · exact ih step later

omit [DecidableEq V] in
theorem simple_snoc {t : Trail V E} {step : E × V} :
    Simple next (t.snoc step) ↔
      Simple next t ∧ step ∈ next t.last ∧ step.2 ∉ t.vertices := by
  constructor
  · rintro ⟨follows, distinct⟩
    obtain ⟨front, edge⟩ := follows_snoc.mp follows
    rw [Trail.snoc_vertices, List.nodup_append] at distinct
    refine ⟨⟨front, distinct.1⟩, edge, ?_⟩
    intro old
    exact distinct.2.2 _ old _ (List.mem_singleton_self _) rfl
  · rintro ⟨⟨follows, distinct⟩, edge, new⟩
    refine ⟨follows_snoc.mpr ⟨follows, edge⟩, ?_⟩
    rw [Trail.snoc_vertices, List.nodup_append]
    refine ⟨distinct, List.nodup_singleton _, ?_⟩
    rintro v old w last rfl
    rw [List.mem_singleton] at last
    exact new (last ▸ old)

theorem mem_extensions {t s : Trail V E} :
    s ∈ extensions next t ↔ ∃ step ∈ next t.last, step.2 ∉ t.vertices ∧ t.snoc step = s := by
  unfold extensions
  simp only [List.mem_map, List.mem_filter, decide_eq_true_eq]
  tauto

/-- The trails of a level are the simple paths of its length. -/
theorem mem_level {starts : List V} {k : Nat} {t : Trail V E} :
    t ∈ level next starts k ↔ t.start ∈ starts ∧ Simple next t ∧ t.steps.length = k := by
  induction k generalizing t with
  | zero =>
    unfold level
    rw [List.mem_map]
    constructor
    · rintro ⟨v, start, rfl⟩
      exact ⟨start, ⟨.nil v, List.nodup_singleton v⟩, rfl⟩
    · rintro ⟨start, _, none⟩
      exact ⟨t.start, start, Trail.ext rfl (List.length_eq_zero_iff.mp none).symm⟩
  | succ k ih =>
    unfold level
    rw [List.mem_flatMap]
    constructor
    · rintro ⟨s, before, member⟩
      obtain ⟨step, edge, new, rfl⟩ := mem_extensions.mp member
      obtain ⟨start, simple, length⟩ := ih.mp before
      exact ⟨start, simple_snoc.mpr ⟨simple, edge, new⟩, by rw [Trail.snoc_length, length]⟩
    · rintro ⟨start, simple, length⟩
      obtain ⟨front, step, split⟩ := List.eq_nil_or_concat t.steps |>.resolve_left (by
        intro none
        rw [none] at length
        cases length)
      have whole : Trail.snoc ⟨t.start, front⟩ step = t := Trail.ext rfl (by
        rw [split, List.concat_eq_append]
        rfl)
      rw [← whole] at simple length
      obtain ⟨shorter, edge, new⟩ := simple_snoc.mp simple
      rw [Trail.snoc_length] at length
      exact ⟨⟨t.start, front⟩, ih.mpr ⟨start, shorter, Nat.succ.inj length⟩,
        mem_extensions.mpr ⟨step, edge, new, whole⟩⟩

theorem extensions_nodup {t : Trail V E} (simple : ((next t.last).filter (·.2 ∉ t.vertices)).Nodup) :
    (extensions next t).Nodup :=
  simple.map fun _ _ same => (Trail.snoc_inj same).2

/-- No trail is listed twice. -/
theorem level_nodup {starts : List V} (distinct : starts.Nodup) (simple : ∀ v, (next v).Nodup)
    (k : Nat) : (level next starts k).Nodup := by
  induction k with
  | zero => exact distinct.map fun _ _ same => (Trail.mk.inj same).1
  | succ k ih =>
    unfold level
    rw [List.nodup_flatMap]
    refine ⟨fun t _ => extensions_nodup ((simple _).filter _), ?_⟩
    apply ih.imp
    intro s t apart u first second
    obtain ⟨_, _, _, rfl⟩ := mem_extensions.mp first
    obtain ⟨_, _, _, same⟩ := mem_extensions.mp second
    exact apart (Trail.snoc_inj same).1.symm

theorem mem_upTo {starts : List V} {depth : Nat} {t : Trail V E} :
    t ∈ upTo next starts depth ↔
      t.start ∈ starts ∧ Simple next t ∧ 1 ≤ t.steps.length ∧ t.steps.length ≤ depth := by
  unfold upTo
  rw [List.mem_flatMap]
  constructor
  · rintro ⟨k, inside, member⟩
    obtain ⟨start, simple, length⟩ := mem_level.mp member
    have bound := List.mem_range.mp inside
    exact ⟨start, simple, by omega, by omega⟩
  · rintro ⟨start, simple, some_step, bound⟩
    refine ⟨t.steps.length - 1, List.mem_range.mpr (by omega), mem_level.mpr ⟨start, simple, ?_⟩⟩
    omega

theorem upTo_nodup {starts : List V} (distinct : starts.Nodup) (simple : ∀ v, (next v).Nodup)
    (depth : Nat) : (upTo next starts depth).Nodup := by
  unfold upTo
  rw [List.nodup_flatMap]
  refine ⟨fun k _ => level_nodup distinct simple _, ?_⟩
  apply List.nodup_range.imp
  intro j k apart t first second
  have one := (mem_level.mp first).2.2
  have two := (mem_level.mp second).2.2
  omega

theorem upTo_succ (starts : List V) (depth : Nat) :
    upTo next starts (depth + 1) = upTo next starts depth ++ level next starts (depth + 1) := by
  unfold upTo
  rw [List.range_succ, List.flatMap_append, List.flatMap_singleton]

theorem upTo_initial {starts : List V} {depth more : Nat} (later : depth ≤ more) :
    upTo next starts depth <+: upTo next starts more := by
  induction later with
  | refl => exact List.prefix_rfl
  | step _ ih =>
    rw [upTo_succ]
    exact ih.trans (List.prefix_append _ _)

/-- An empty level ends the trails. -/
theorem upTo_stop {starts : List V} {depth more : Nat} (none : level next starts depth = [])
    (later : depth ≤ more) : upTo next starts more = upTo next starts depth := by
  have nothing : ∀ k, level next starts (depth + k) = [] := by
    intro k
    induction k with
    | zero => exact none
    | succ k ih =>
      rw [← Nat.add_assoc, level, ih]
      rfl
  induction later with
  | refl => rfl
  | @step more before ih =>
    rw [upTo_succ, ih]
    have shorter : depth ≤ more := before
    have empty := nothing (more + 1 - depth)
    rw [Nat.add_sub_cancel' (by omega)] at empty
    rw [empty, List.append_nil]

end Levels

end Trails
