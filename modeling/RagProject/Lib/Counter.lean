import Mathlib.Algebra.GroupWithZero.Nat
import Mathlib.Algebra.BigOperators.Group.List.Basic
import Mathlib.Data.List.Induction
import Mathlib.Data.List.Nodup

/-! Counting by keys, and items grouped by a key in the order in which the keys appear. -/
namespace Counter

universe u v
variable {K : Type u} [DecidableEq K] {A : Type v}

section Counting

def add (counts : List (K × Nat)) (k : K) : List (K × Nat) :=
  if counts.any (·.1 = k) then counts.map fun e => if e.1 = k then (e.1, e.2 + 1) else e
  else counts ++ [(k, 1)]

def get (counts : List (K × Nat)) (k : K) : Nat := (counts.lookup k).getD 0

def total (counts : List (K × Nat)) : Nat := (counts.map (·.2)).sum

/-- Counter(ks). -/
def counted (ks : List K) : List (K × Nat) := ks.foldl add []

variable {counts : List (K × Nat)} {k : K}

theorem get_cons (e : K × Nat) (counts : List (K × Nat)) (k : K) :
    get (e :: counts) k = if e.1 = k then e.2 else get counts k := by
  obtain ⟨key, n⟩ := e
  unfold get
  by_cases same : key = k
  · simp [same]
  · have miss : (k == key) = false := by simpa using Ne.symm same
    simp [List.lookup_cons, miss, same]

theorem get_absent (absent : ∀ e ∈ counts, e.1 ≠ k) : get counts k = 0 := by
  induction counts with
  | nil => rfl
  | cons e counts ih =>
    rw [get_cons, if_neg (absent e List.mem_cons_self)]
    exact ih fun f member => absent f (List.mem_cons_of_mem _ member)

theorem get_raised (counts : List (K × Nat)) (k key : K) (present : ∃ e ∈ counts, e.1 = k) :
    get (counts.map fun e => if e.1 = k then (e.1, e.2 + 1) else e) key =
      get counts key + if k = key then 1 else 0 := by
  induction counts with
  | nil => simp at present
  | cons e counts ih =>
    rw [List.map_cons, get_cons, get_cons]
    by_cases hit : e.1 = key
    · by_cases same : e.1 = k
      · simp [same, ← hit]
      · simp [hit, show k ≠ key from fun eq => same (hit.trans eq.symm), show key ≠ k from
          fun eq => same (hit.trans eq)]
    · have later : ∀ n : Nat, (if e.1 = k then (e.1, n) else e).1 ≠ key := by
        intro n
        split <;> exact hit
      rw [if_neg (later _), if_neg hit]
      by_cases more : ∃ f ∈ counts, f.1 = k
      · exact ih more
      · have first : e.1 = k := by
          obtain ⟨f, member, same⟩ := present
          rcases List.mem_cons.mp member with rfl | inside
          · exact same
          · exact absurd ⟨f, inside, same⟩ more
        have unchanged : (counts.map fun e => if e.1 = k then (e.1, e.2 + 1) else e) = counts := by
          rw [List.map_congr_left (g := id), List.map_id]
          intro f inside
          rw [if_neg fun same => more ⟨f, inside, same⟩]
          rfl
        rw [unchanged, if_neg (fun same => hit (first.trans same)), Nat.add_zero]

theorem get_add (counts : List (K × Nat)) (k key : K) :
    get (add counts k) key = get counts key + if k = key then 1 else 0 := by
  unfold add
  split
  · next present => exact get_raised counts k key (by simpa using present)
  · next absent =>
    have none : ∀ e ∈ counts, e.1 ≠ k := by
      intro e member same
      exact absent (List.any_eq_true.mpr ⟨e, member, by simpa using same⟩)
    clear absent
    induction counts with
    | nil =>
      rw [List.nil_append, get_cons]
      simp [get]
    | cons e counts ih =>
      rw [List.cons_append, get_cons, get_cons]
      have first := none e List.mem_cons_self
      by_cases hit : e.1 = key
      · simp [hit, show k ≠ key from fun eq => first (hit.trans eq.symm)]
      · rw [if_neg hit, if_neg hit, ih fun f member => none f (List.mem_cons_of_mem _ member)]

/-- counts[k] += n. -/
def raise (counts : List (K × Nat)) (k : K) (n : Nat) : List (K × Nat) :=
  if counts.any (·.1 = k) then counts.map fun e => if e.1 = k then (e.1, e.2 + n) else e
  else counts ++ [(k, n)]

theorem raise_keys (distinct : (counts.map (·.1)).Nodup) (k : K) (n : Nat) :
    ((raise counts k n).map (·.1)).Nodup := by
  unfold raise
  split
  · have keys : (counts.map fun e => if e.1 = k then (e.1, e.2 + n) else e).map (·.1) =
        counts.map (·.1) := by
      rw [List.map_map]
      apply List.map_congr_left
      intro e _
      simp only [Function.comp]
      split <;> rfl
    rw [keys]
    exact distinct
  · next absent =>
    rw [List.map_append, List.nodup_append]
    refine ⟨distinct, by simp, ?_⟩
    rintro _ member _ last rfl
    obtain ⟨e, inside, rfl⟩ := List.mem_map.mp member
    have same : e.1 = k := by simpa using last
    exact absent (List.any_eq_true.mpr ⟨e, inside, by simpa using same⟩)

theorem add_keys (distinct : (counts.map (·.1)).Nodup) (k : K) :
    ((add counts k).map (·.1)).Nodup := raise_keys distinct k 1

theorem total_raise (distinct : (counts.map (·.1)).Nodup) (k : K) (n : Nat) :
    total (raise counts k n) = total counts + n := by
  unfold raise
  split
  · next present =>
    induction counts with
    | nil => simp at present
    | cons e counts ih =>
      rw [List.map_cons, List.nodup_cons] at distinct
      by_cases same : e.1 = k
      · have unchanged : (counts.map fun e => if e.1 = k then (e.1, e.2 + n) else e) = counts := by
          rw [List.map_congr_left (g := id), List.map_id]
          intro f inside
          rw [if_neg fun hit => distinct.1 (List.mem_map.mpr ⟨f, inside, hit.trans same.symm⟩)]
          rfl
        rw [List.map_cons, unchanged, if_pos same]
        simp only [total, List.map_cons, List.sum_cons]
        omega
      · have rest := ih distinct.2 (by simpa [same] using present)
        simp only [total, List.map_cons, List.sum_cons, if_neg same] at rest ⊢
        omega
  · simp [total]

theorem total_add (distinct : (counts.map (·.1)).Nodup) (k : K) :
    total (add counts k) = total counts + 1 := total_raise distinct k 1

/-- The counts of the other keys stay. -/
theorem raise_others (counts : List (K × Nat)) (k : K) (n : Nat) :
    (raise counts k n).filter (·.1 ≠ k) = counts.filter (·.1 ≠ k) := by
  unfold raise
  split
  · rw [List.filter_map]
    have kept : (fun e : K × Nat => decide (e.1 ≠ k)) ∘
        (fun e => if e.1 = k then (e.1, e.2 + n) else e) = fun e => decide (e.1 ≠ k) := by
      funext e
      dsimp only [Function.comp_apply]
      split <;> rfl
    rw [kept]
    conv_rhs => rw [← List.map_id (counts.filter _)]
    apply List.map_congr_left
    intro e member
    have other : e.1 ≠ k := by simpa using (List.mem_filter.mp member).2
    rw [if_neg other]
    rfl
  · rw [List.filter_append]
    simp

/-- The total of the other keys. -/
theorem total_others (distinct : (counts.map (·.1)).Nodup) {k other : K} (apart : k ≠ other)
    (n : Nat) : total ((raise counts k n).filter (·.1 ≠ other)) =
      total (counts.filter (·.1 ≠ other)) + n := by
  have kept : ((counts.filter (·.1 ≠ other)).map (·.1)).Nodup :=
    distinct.sublist (List.filter_sublist.map _)
  have same : (raise counts k n).filter (·.1 ≠ other) =
      raise (counts.filter (·.1 ≠ other)) k n := by
    unfold raise
    have present : (counts.filter (·.1 ≠ other)).any (·.1 = k) = counts.any (·.1 = k) := by
      rw [Bool.eq_iff_iff, List.any_eq_true, List.any_eq_true]
      constructor
      · rintro ⟨e, member, hit⟩
        exact ⟨e, List.mem_of_mem_filter member, hit⟩
      · rintro ⟨e, member, hit⟩
        have key : e.1 = k := by simpa using hit
        exact ⟨e, List.mem_filter.mpr ⟨member, decide_eq_true (key ▸ apart)⟩, hit⟩
    rw [present]
    split
    · rw [List.filter_map]
      apply congrArg
      apply List.filter_congr
      intro e _
      dsimp only [Function.comp_apply]
      split <;> rfl
    · rw [List.filter_append, List.filter_singleton]
      simp [apart]
  rw [same, total_raise kept]

theorem raise_key {counts : List (K × Nat)} {k : K} {n : Nat} {e : K × Nat}
    (member : e ∈ raise counts k n) : e.1 = k ∨ ∃ f ∈ counts, f.1 = e.1 := by
  unfold raise at member
  split at member
  · obtain ⟨f, inside, rfl⟩ := List.mem_map.mp member
    refine .inr ⟨f, inside, ?_⟩
    split <;> rfl
  · rcases List.mem_append.mp member with old | new
    · exact .inr ⟨e, old, rfl⟩
    · exact .inl (by rw [List.mem_singleton.mp new])

theorem counted_key {ks : List K} {e : K × Nat} (member : e ∈ counted ks) : e.1 ∈ ks := by
  have loop (ks : List K) {counts : List (K × Nat)} (inside : e ∈ ks.foldl add counts) :
      e.1 ∈ ks ∨ ∃ f ∈ counts, f.1 = e.1 := by
    induction ks generalizing counts with
    | nil => exact .inr ⟨e, inside, rfl⟩
    | cons k ks ih =>
      rcases ih inside with later | ⟨f, member, same⟩
      · exact .inl (.tail _ later)
      · rcases raise_key (n := 1) member with first | ⟨g, before, eq⟩
        · exact .inl (by rw [← same, first]; exact .head _)
        · exact .inr ⟨g, before, eq.trans same⟩
  rcases loop ks member with inside | ⟨f, absent, _⟩
  · exact inside
  · cases absent

theorem counted_keys (ks : List K) : ((counted ks).map (·.1)).Nodup := by
  have loop (ks : List K) {counts : List (K × Nat)} (distinct : (counts.map (·.1)).Nodup) :
      ((ks.foldl add counts).map (·.1)).Nodup := by
    induction ks generalizing counts with
    | nil => exact distinct
    | cons k ks ih => exact ih (add_keys distinct k)
  exact loop ks .nil

theorem get_foldl (ks : List K) (counts : List (K × Nat)) (k : K) :
    get (ks.foldl add counts) k = get counts k + ks.count k := by
  induction ks generalizing counts with
  | nil => rfl
  | cons key ks ih =>
    rw [List.foldl_cons, ih, get_add, List.count_cons]
    simp only [beq_iff_eq]
    omega

/-- Each key is counted as often as it occurs. -/
theorem get_counted (ks : List K) (k : K) : get (counted ks) k = ks.count k := by
  rw [counted, get_foldl, get, List.lookup_nil, Option.getD_none, Nat.zero_add]

theorem total_foldl (ks : List K) {counts : List (K × Nat)} (distinct : (counts.map (·.1)).Nodup) :
    total (ks.foldl add counts) = total counts + ks.length := by
  induction ks generalizing counts with
  | nil => rfl
  | cons k ks ih =>
    rw [List.foldl_cons, ih (add_keys distinct k), total_add distinct, List.length_cons]
    omega

/-- The counts add up to the number of occurrences. -/
theorem total_counted (ks : List K) : total (counted ks) = ks.length := by
  have empty : (([] : List (K × Nat)).map (·.1)).Nodup := .nil
  rw [counted, total_foldl ks empty, total, List.map_nil, List.sum_nil, Nat.zero_add]

end Counting

section Grouping

def addTo (key : A → K) (groups : List (K × List A)) (a : A) : List (K × List A) :=
  match groups with
  | [] => [(key a, [a])]
  | g :: groups =>
    if g.1 = key a then (g.1, g.2 ++ [a]) :: groups else g :: addTo key groups a

def grouped (key : A → K) (as : List A) : List (K × List A) := as.foldl (addTo key) []

variable (key : A → K)

theorem addTo_flatten (groups : List (K × List A)) (a : A) :
    ((addTo key groups a).map (·.2)).flatten.Perm ((groups.map (·.2)).flatten ++ [a]) := by
  induction groups with
  | nil => exact .refl _
  | cons g groups ih =>
    unfold addTo
    split
    · simp only [List.map_cons, List.flatten_cons, List.append_assoc]
      exact List.perm_append_comm.append_left _
    · simp only [List.map_cons, List.flatten_cons, List.append_assoc]
      exact ih.append_left _

theorem foldl_flatten (as : List A) (groups : List (K × List A)) :
    ((as.foldl (addTo key) groups).map (·.2)).flatten.Perm ((groups.map (·.2)).flatten ++ as) := by
  induction as generalizing groups with
  | nil => simp
  | cons a as ih =>
    rw [List.foldl_cons]
    have first := (addTo_flatten key groups a).append_right as
    rw [List.append_assoc] at first
    exact (ih (addTo key groups a)).trans first

theorem grouped_map {B : Type v} {f : B → A} (as : List B) :
    grouped key (as.map f) = (grouped (key ∘ f) as).map fun g => (g.1, g.2.map f) := by
  have turn (groups : List (K × List B)) (a : B) :
      addTo key (groups.map fun g => (g.1, g.2.map f)) (f a) =
        (addTo (key ∘ f) groups a).map fun g => (g.1, g.2.map f) := by
    induction groups with
    | nil => rfl
    | cons g groups ih =>
      unfold addTo
      rw [List.map_cons]
      dsimp only [Function.comp_apply]
      split
      · rw [List.map_cons, List.map_append]
        rfl
      · rw [List.map_cons, ih]
  have loop (groups : List (K × List B)) :
      as.foldl (fun groups a => addTo key groups (f a)) (groups.map fun g => (g.1, g.2.map f)) =
        (as.foldl (addTo (key ∘ f)) groups).map fun g => (g.1, g.2.map f) := by
    induction as generalizing groups with
    | nil => rfl
    | cons a as ih =>
      rw [List.foldl_cons, turn]
      exact ih _
  unfold grouped
  rw [List.foldl_map]
  exact loop []

/-- Every item stands in one group. -/
theorem grouped_flatten (as : List A) : ((grouped key as).map (·.2)).flatten.Perm as :=
  foldl_flatten key as []

/-- A total over the groups is the total over the items. -/
theorem sum_grouped (f : A → Nat) (as : List A) :
    ((grouped key as).map fun g => (g.2.map f).sum).sum = (as.map f).sum := by
  have flat := ((grouped_flatten key as).map f).sum_eq
  rw [← flat, List.map_flatten, List.sum_flatten, List.map_map, List.map_map]
  rfl

theorem addTo_map {ks : List K} (distinct : ks.Nodup) (items : K → List A) (a : A) :
    addTo key (ks.map fun k => (k, items k)) a =
      if key a ∈ ks then ks.map fun k => (k, if k = key a then items k ++ [a] else items k)
      else ks.map (fun k => (k, items k)) ++ [(key a, [a])] := by
  induction ks with
  | nil => rfl
  | cons k ks ih =>
    rw [List.nodup_cons] at distinct
    rw [List.map_cons, addTo]
    by_cases same : k = key a
    · have others : ks.map (fun l => (l, if l = key a then items l ++ [a] else items l)) =
          ks.map fun l => (l, items l) := by
        apply List.map_congr_left
        intro l member
        rw [if_neg]
        rintro rfl
        exact distinct.1 (same ▸ member)
      rw [if_pos same, if_pos (same ▸ List.mem_cons_self), List.map_cons, others, if_pos same]
    · rw [if_neg same, ih distinct.2]
      by_cases later : key a ∈ ks
      · rw [if_pos later, if_pos (List.mem_cons_of_mem _ later), List.map_cons, if_neg same]
      · have absent : key a ∉ k :: ks := fun member =>
          (List.mem_cons.mp member).elim (fun first => same first.symm) later
        rw [if_neg later, if_neg absent]
        rfl

/-- The groups: distinct keys, and under each of them the items that have it. -/
theorem grouped_eq (as : List A) : ∃ ks : List K, ks.Nodup ∧ (∀ k, k ∈ ks ↔ ∃ a ∈ as, key a = k) ∧
    grouped key as = ks.map fun k => (k, as.filter fun a => key a = k) := by
  induction as using List.reverseRecOn with
  | nil => exact ⟨[], .nil, by simp, rfl⟩
  | append_singleton as a ih =>
    obtain ⟨ks, distinct, keys, groups⟩ := ih
    have turn : grouped key (as ++ [a]) = addTo key (grouped key as) a := by
      rw [grouped, List.foldl_append]
      rfl
    rw [turn, groups, addTo_map key distinct]
    by_cases known : key a ∈ ks
    · refine ⟨ks, distinct, fun k => ?_, ?_⟩
      · rw [keys]
        constructor
        · rintro ⟨b, member, same⟩
          exact ⟨b, List.mem_append_left _ member, same⟩
        · rintro ⟨b, member, rfl⟩
          rcases List.mem_append.mp member with old | new
          · exact ⟨b, old, rfl⟩
          · rw [List.mem_singleton.mp new]
            exact (keys _).mp known
      · rw [if_pos known]
        apply List.map_congr_left
        intro k _
        rw [List.filter_append]
        by_cases same : k = key a
        · simp [same]
        · simp [same, Ne.symm same]
    · refine ⟨ks ++ [key a], ?_, fun k => ?_, ?_⟩
      · rw [List.nodup_append]
        refine ⟨distinct, by simp, ?_⟩
        rintro k member _ last rfl
        exact known (List.mem_singleton.mp last ▸ member)
      · rw [List.mem_append, List.mem_singleton, keys]
        constructor
        · rintro (⟨b, member, same⟩ | rfl)
          · exact ⟨b, List.mem_append_left _ member, same⟩
          · exact ⟨a, by simp, rfl⟩
        · rintro ⟨b, member, rfl⟩
          rcases List.mem_append.mp member with old | new
          · exact .inl ⟨b, old, rfl⟩
          · exact .inr (by rw [List.mem_singleton.mp new])
      · have fresh : as.filter (fun b => key b = key a) = [] := by
          apply List.filter_eq_nil_iff.mpr
          intro b member
          simpa using fun same => known ((keys _).mpr ⟨b, member, same⟩)
        rw [if_neg known, List.map_append, List.map_singleton, List.filter_append, fresh]
        have others : ks.map (fun k => (k, as.filter fun b => key b = k)) =
            ks.map fun k => (k, (as ++ [a]).filter fun b => key b = k) := by
          apply List.map_congr_left
          intro k member
          have other : key a ≠ k := fun same => known (same ▸ member)
          simp [List.filter_append, other]
        rw [others]
        simp

end Grouping

end Counter
