import Mathlib.Data.List.Basic
import Mathlib.Data.List.Nodup
import Mathlib.Data.List.Pairwise
import Mathlib.Data.List.Sort

/-! A table as a list of rows under distinct keys: what a lookup finds, and what an
update of the rows that keeps their keys leaves in place. -/
namespace Table

universe u v w
variable {R : Type u} {K : Type v} {key : R → K} {rows : List R}

theorem unique (distinct : (rows.map key).Nodup) {r s : R} (hr : r ∈ rows) (hs : s ∈ rows)
    (same : key r = key s) : r = s := List.inj_on_of_nodup_map distinct hr hs same

theorem map_keys {g : R → R} (sameKey : ∀ r ∈ rows, key (g r) = key r) :
    (rows.map g).map key = rows.map key := by
  rw [List.map_map]
  exact List.map_congr_left fun r member => sameKey r member

theorem filter_distinct (distinct : (rows.map key).Nodup) (p : R → Bool) :
    ((rows.filter p).map key).Nodup := distinct.sublist (List.filter_sublist.map _)

/-- A rewrite of rows that do not pass a filter is not seen behind it. -/
theorem filter_rewritten {f : R → R} {p : R → Bool} (same : ∀ r ∈ rows, p (f r) = p r)
    (kept : ∀ r ∈ rows, p r = true → f r = r) : (rows.map f).filter p = rows.filter p := by
  induction rows with
  | nil => rfl
  | cons r rows ih =>
    have later := ih (fun s member => same s (.tail _ member)) fun s member =>
      kept s (.tail _ member)
    have head := same r (.head _)
    rw [List.map_cons]
    by_cases passes : p r = true
    · rw [List.filter_cons_of_pos (head.trans passes), List.filter_cons_of_pos passes, later,
        kept r (.head _) passes]
    · rw [List.filter_cons_of_neg (by rwa [head]), List.filter_cons_of_neg passes, later]

theorem append_distinct (distinct : (rows.map key).Nodup) {r : R}
    (fresh : ∀ s ∈ rows, key s ≠ key r) : ((rows ++ [r]).map key).Nodup := by
  rw [List.map_append, List.nodup_append]
  refine ⟨distinct, by simp, ?_⟩
  intro k member l last same
  obtain ⟨s, hs, rfl⟩ := List.mem_map.mp member
  have last : l = key r := by simpa using last
  exact fresh s hs (same.trans last)

/-- New rows take the next ids. -/
theorem append_numbered {key : R → Nat} {new : List R} {next : Nat}
    (distinct : (rows.map key).Nodup) (fresh : ∀ r ∈ rows, key r < next)
    (ids : new.map key = List.range' next new.length) :
    ((rows ++ new).map key).Nodup ∧ ∀ r ∈ rows ++ new, key r < next + new.length := by
  have newer : ∀ r ∈ new, next ≤ key r ∧ key r < next + new.length := by
    intro r member
    have listed : key r ∈ List.range' next new.length := by
      rw [← ids]
      exact List.mem_map_of_mem member
    exact List.mem_range'_1.mp listed
  constructor
  · rw [List.map_append, List.nodup_append]
    refine ⟨distinct, by rw [ids]; exact List.nodup_range', ?_⟩
    intro a old b later same
    obtain ⟨r, hr, rfl⟩ := List.mem_map.mp old
    obtain ⟨s, hs, rfl⟩ := List.mem_map.mp later
    have := fresh r hr
    have := newer s hs
    omega
  · intro r member
    rcases List.mem_append.mp member with old | later
    · exact Nat.lt_of_lt_of_le (fresh r old) (Nat.le_add_right _ _)
    · exact (newer r later).2

/-- When a function of the rows takes distinct values on a part of them. -/
theorem nodup_filter_map_iff {L : Type w} {f : R → L} {p : R → Bool}
    (distinct : (rows.map key).Nodup) :
    ((rows.filter p).map f).Nodup ↔ ∀ r ∈ rows, ∀ s ∈ rows, p r = true → p s = true →
      f r = f s → key r = key s := by
  have nodup : rows.Nodup := List.Nodup.of_map key distinct
  constructor
  · intro h r hr s hs pr ps same
    rw [List.inj_on_of_nodup_map h (List.mem_filter.mpr ⟨hr, pr⟩)
      (List.mem_filter.mpr ⟨hs, ps⟩) same]
  · intro h
    refine List.Nodup.map_on (fun r hr s hs same => ?_) (nodup.filter p)
    obtain ⟨hr, pr⟩ := List.mem_filter.mp hr
    obtain ⟨hs, ps⟩ := List.mem_filter.mp hs
    exact unique distinct hr hs (h r hr s hs pr ps same)

/-- A unique index over the rows that it covers, as a database checks it. -/
def UniqueIndex {I : Type w} (index : R → Option I) (rows : List R) : Prop :=
  rows.Pairwise fun r s => ∀ i, index r = some i → index s ≠ some i

section Index
variable {I : Type w} {index : R → Option I}

theorem UniqueIndex.eq (unique : UniqueIndex index rows) {r s : R} (hr : r ∈ rows) (hs : s ∈ rows)
    {i : I} (first : index r = some i) (second : index s = some i) : r = s := by
  by_contra different
  have symmetric : Std.Symm fun r s : R => ∀ i, index r = some i → index s ≠ some i :=
    ⟨fun a b apart i second first => apart i first second⟩
  exact unique.forall hr hs different i first second

theorem UniqueIndex.append (unique : UniqueIndex index rows) {r : R}
    (fresh : ∀ i, index r = some i → ∀ s ∈ rows, index s ≠ some i) :
    UniqueIndex index (rows ++ [r]) := by
  refine List.pairwise_append.mpr ⟨unique, List.pairwise_singleton _ _, ?_⟩
  intro s hs last member i first second
  cases List.mem_singleton.mp member
  exact fresh i second s hs first

theorem UniqueIndex.map {g : R → R} (unique : UniqueIndex index rows)
    (same : ∀ r ∈ rows, index (g r) = index r) : UniqueIndex index (rows.map g) := by
  rw [UniqueIndex, List.pairwise_map]
  refine unique.imp_of_mem ?_
  intro r s hr hs apart
  rw [same r hr, same s hs]
  exact apart

theorem UniqueIndex.at_most_one (unique : UniqueIndex index rows) {i : I} {p : R → Bool}
    (covered : ∀ r ∈ rows, p r = true → index r = some i) : (rows.filter p).length ≤ 1 := by
  have apart : (rows.filter p).Pairwise fun _ _ => False := by
    refine List.Pairwise.imp_of_mem ?_ (unique.filter p)
    intro r s hr hs different
    obtain ⟨memberR, pr⟩ := List.mem_filter.mp hr
    obtain ⟨memberS, ps⟩ := List.mem_filter.mp hs
    exact different i (covered r memberR pr) (covered s memberS ps)
  match rows.filter p, apart with
  | [], _ => exact Nat.zero_le 1
  | [_], _ => exact Nat.le_refl 1
  | _ :: s :: _, apart => exact (List.rel_of_pairwise_cons apart List.mem_cons_self).elim

end Index

section Lookup
variable [DecidableEq K]

def row (key : R → K) (rows : List R) (k : K) : Option R := rows.find? fun r => key r == k

theorem mem_of_row {k : K} {r : R} (found : row key rows k = some r) : r ∈ rows ∧ key r = k := by
  refine ⟨List.mem_of_find?_eq_some found, ?_⟩
  simpa using List.find?_some found

theorem row_isSome {k : K} {r : R} (member : r ∈ rows) (same : key r = k) :
    (row key rows k).isSome := by
  simp only [row, List.find?_isSome]
  exact ⟨r, member, by simp [same]⟩

theorem row_of_mem (distinct : (rows.map key).Nodup) {r : R} (member : r ∈ rows) :
    row key rows (key r) = some r := by
  have some_row : (row key rows (key r)).isSome := row_isSome member rfl
  obtain ⟨found, h⟩ := Option.isSome_iff_exists.mp some_row
  obtain ⟨foundMember, same⟩ := mem_of_row h
  rw [h, unique distinct foundMember member same]

theorem filter_one (distinct : (rows.map key).Nodup) {r : R} (member : r ∈ rows) :
    rows.filter (fun s => key s = key r) = [r] := by
  induction rows with
  | nil => cases member
  | cons s rows ih =>
    obtain ⟨other, rest⟩ := List.nodup_cons.mp distinct
    rcases List.mem_cons.mp member with rfl | later
    · have none : rows.filter (fun t => key t = key r) = [] := by
        rw [List.filter_eq_nil_iff]
        intro t there same
        apply other
        rw [← of_decide_eq_true same]
        exact List.mem_map_of_mem there
      rw [List.filter_cons, if_pos (decide_eq_true rfl), none]
    · have apart : key s ≠ key r := by
        intro same
        apply other
        rw [same]
        exact List.mem_map_of_mem later
      rw [List.filter_cons, if_neg (by simpa using apart), ih rest later]

theorem row_map {g : R → R} (sameKey : ∀ r ∈ rows, key (g r) = key r) (k : K) :
    row key (rows.map g) k = (row key rows k).map g := by
  unfold row
  induction rows with
  | nil => rfl
  | cons r rows ih =>
    have rest := ih fun s member => sameKey s (List.mem_cons_of_mem _ member)
    simp only [List.map_cons, List.find?_cons, sameKey r List.mem_cons_self]
    split
    · rfl
    · exact rest

theorem row_filter (distinct : (rows.map key).Nodup) (p : R → Bool) (k : K) :
    row key (rows.filter p) k = (row key rows k).filter p := by
  cases found : row key rows k with
  | none =>
    rw [row, List.find?_eq_none] at found
    exact List.find?_eq_none.mpr fun r member => found r (List.mem_filter.mp member).1
  | some r =>
    obtain ⟨member, rfl⟩ := mem_of_row found
    by_cases kept : p r = true
    · rw [Option.filter_some, if_pos kept]
      exact row_of_mem (filter_distinct distinct p) (List.mem_filter.mpr ⟨member, kept⟩)
    · rw [Option.filter_some, if_neg kept]
      apply List.find?_eq_none.mpr
      intro s inside same
      obtain ⟨there, passes⟩ := List.mem_filter.mp inside
      rw [unique distinct there member (beq_iff_eq.mp same)] at passes
      exact kept passes

theorem row_append_other {k : K} {r : R} (other : key r ≠ k) :
    row key (rows ++ [r]) k = row key rows k := by
  simp [row, List.find?_append, other]

theorem row_append_new {r : R} (fresh : ∀ s ∈ rows, key s ≠ key r) :
    row key (rows ++ [r]) (key r) = some r := by
  have none : rows.find? (fun s => key s == key r) = none := by
    simpa using fresh
  simp [row, List.find?_append, none]

theorem lookup_iff {V : Type*} {entries : List (K × V)}
    (distinct : (entries.map Prod.fst).Nodup) {k : K} {v : V} :
    entries.lookup k = some v ↔ (k, v) ∈ entries := by
  constructor
  · intro found
    obtain ⟨front, back, split, _⟩ := List.lookup_eq_some_iff.mp found
    simp [split]
  · intro member
    obtain ⟨u, found⟩ := Option.isSome_iff_exists.mp
      (List.lookup_isSome_iff.mpr ⟨(k, v), member, beq_self_eq_true k⟩)
    obtain ⟨front, back, split, _⟩ := List.lookup_eq_some_iff.mp found
    have there : (k, u) ∈ entries := by simp [split]
    rw [found, (Prod.mk.inj (unique distinct there member rfl)).2]

/-- All keys looked up give the values, each of them once. -/
theorem lookup_perm {V : Type*} {entries : List (K × V)} (distinct : (entries.map Prod.fst).Nodup)
    (values : (entries.map Prod.snd).Nodup) {keys : List K} (nodup : keys.Nodup)
    (all : ∀ e ∈ entries, e.1 ∈ keys) :
    (keys.filterMap (entries.lookup ·)).Perm (entries.map Prod.snd) := by
  rw [List.perm_ext_iff_of_nodup _ values]
  · intro v
    rw [List.mem_filterMap, List.mem_map]
    constructor
    · rintro ⟨k, _, found⟩
      exact ⟨(k, v), (lookup_iff distinct).mp found, rfl⟩
    · rintro ⟨⟨k, v⟩, member, rfl⟩
      exact ⟨k, all _ member, (lookup_iff distinct).mpr member⟩
  · apply nodup.filterMap
    intro k l v first second
    have one := (lookup_iff distinct).mp first
    have two := (lookup_iff distinct).mp second
    exact (Prod.mk.inj (List.inj_on_of_nodup_map values one two rfl)).1

/-- The rows under the wanted keys, each joined with its parent, as entries by key. -/
def join {P V : Type*} (key : R → K) (parent : R → Option P) (entry : R → P → V)
    (wanted : List K) (rows : List R) : List (K × V) :=
  rows.filterMap fun r =>
    if wanted.contains (key r) then (parent r).map fun p => (key r, entry r p) else none

theorem lookup_join {P V : Type*} (distinct : (rows.map key).Nodup) {parent : R → Option P}
    {entry : R → P → V} {wanted : List K} {k : K} {v : V} :
    (join key parent entry wanted rows).lookup k = some v ↔
      k ∈ wanted ∧ ∃ r ∈ rows, ∃ p, parent r = some p ∧ key r = k ∧ v = entry r p := by
  have image {r : R} {k : K} {v : V} :
      (if wanted.contains (key r) then (parent r).map fun p => (key r, entry r p) else none) =
        some (k, v) ↔ k ∈ wanted ∧ ∃ p, parent r = some p ∧ key r = k ∧ v = entry r p := by
    constructor
    · intro h
      split at h
      · rename_i isWanted
        obtain ⟨p, found, same⟩ := Option.map_eq_some_iff.mp h
        cases same
        exact ⟨by simpa using isWanted, p, found, rfl, rfl⟩
      · cases h
    · rintro ⟨isWanted, p, found, rfl, rfl⟩
      simp [isWanted, found]
  have entries {u : V} : (k, u) ∈ join key parent entry wanted rows ↔
      k ∈ wanted ∧ ∃ r ∈ rows, ∃ p, parent r = some p ∧ key r = k ∧ u = entry r p := by
    rw [join, List.mem_filterMap]
    constructor
    · rintro ⟨r, member, h⟩
      obtain ⟨isWanted, rest⟩ := image.mp h
      exact ⟨isWanted, r, member, rest⟩
    · rintro ⟨isWanted, r, member, rest⟩
      exact ⟨r, member, image.mpr ⟨isWanted, rest⟩⟩
  have sound {u : V} (found : (join key parent entry wanted rows).lookup k = some u) :
      (k, u) ∈ join key parent entry wanted rows := by
    obtain ⟨front, back, split, _⟩ := List.lookup_eq_some_iff.mp found
    simp [split]
  constructor
  · exact fun found => entries.mp (sound found)
  · intro given
    have present : ((join key parent entry wanted rows).lookup k).isSome := by
      rw [List.lookup_isSome_iff]
      exact ⟨(k, v), entries.mpr given, by simp⟩
    obtain ⟨u, found⟩ := Option.isSome_iff_exists.mp present
    obtain ⟨_, r, hr, p, hp, idr, rfl⟩ := entries.mp (sound found)
    obtain ⟨_, s, hs, q, hq, ids, rfl⟩ := given
    cases unique distinct hr hs (idr.trans ids.symm)
    rw [hp] at hq
    cases hq
    exact found

end Lookup

/-! Rows in the order of their keys, read page by page: a page starts at the key that the
page before it ended with. -/
section Pages
variable (key) (before : K → K → Bool)

def SortedBy (rows : List R) : Prop := rows.Pairwise fun r s => before (key r) (key s) = true

/-- The rows from a key on. -/
def ahead (offset : Option K) (rows : List R) : List R :=
  match offset with
  | none => rows
  | some k => rows.dropWhile fun r => before (key r) k

/-- The key that the rows after a page start with. -/
def nextKey (limit : Nat) (rows : List R) : Option K := (rows[limit]?).map key

variable {key before}

theorem ahead_of_sorted {done rest : List R} (irreflexive : ∀ k, before k k = false)
    (sorted : SortedBy key before (done ++ rest)) {r : R} (first : rest.head? = some r) :
    ahead key before (some (key r)) (done ++ rest) = rest := by
  obtain ⟨tail, rfl⟩ : ∃ tail, rest = r :: tail := by
    cases rest with
    | nil => cases first
    | cons s tail => exact ⟨tail, by rw [Option.some.inj first]⟩
  have passed : ∀ s ∈ done, before (key s) (key r) = true := fun s member =>
    (List.pairwise_append.mp sorted).2.2 s member r List.mem_cons_self
  rw [ahead, List.dropWhile_append_of_pos passed, List.dropWhile_cons_of_neg]
  simp [irreflexive]

theorem nextKey_some {limit : Nat} {k : K} (next : nextKey key limit rows = some k) :
    ∃ r, (rows.drop limit).head? = some r ∧ key r = k := by
  simpa [nextKey, List.head?_drop] using next

theorem nextKey_none {limit : Nat} (next : nextKey key limit rows = none) :
    rows.drop limit = [] := by
  simpa [nextKey] using next

theorem sorted_of_keys {rows' : List R} (keys : (rows'.map key).Sublist (rows.map key))
    (sorted : SortedBy key before rows) : SortedBy key before rows' := by
  have ordered : (rows.map key).Pairwise fun k l => before k l = true :=
    List.pairwise_map.mpr sorted
  exact List.pairwise_map.mp (ordered.sublist keys)

theorem sorted_distinct (irreflexive : ∀ k, before k k = false)
    (sorted : SortedBy key before rows) : (rows.map key).Nodup := by
  rw [List.Nodup, List.pairwise_map]
  exact sorted.imp fun earlier same => by simp [same, irreflexive] at earlier

end Pages

/-! Rows merged under their keys: a row takes the place of the one with its key. -/
section Merge
variable [DecidableEq K] (key)

def mergeRow (rows : List R) (row : R) : List R :=
  if rows.any fun r => key r == key row then rows.map fun r => if key r = key row then row else r
  else rows ++ [row]

def mergeRows (rows new : List R) : List R := new.foldl (mergeRow key) rows

variable {key}

theorem mem_mergeRow {r row : R} :
    r ∈ mergeRow key rows row ↔ r = row ∨ (r ∈ rows ∧ key r ≠ key row) := by
  unfold mergeRow
  split
  · rename_i there
    obtain ⟨old, member, same⟩ := List.any_eq_true.mp there
    have same := beq_iff_eq.mp same
    constructor
    · intro h
      obtain ⟨s, hs, rfl⟩ := List.mem_map.mp h
      split
      · exact .inl rfl
      · rename_i other
        exact .inr ⟨hs, other⟩
    · rintro (rfl | ⟨hr, other⟩)
      · exact List.mem_map.mpr ⟨old, member, by rw [if_pos same]⟩
      · exact List.mem_map.mpr ⟨r, hr, by rw [if_neg other]⟩
  · rename_i absent
    have other : ∀ s ∈ rows, key s ≠ key row := by simpa using absent
    rw [List.mem_append, List.mem_singleton]
    constructor
    · rintro (h | rfl)
      · exact .inr ⟨h, other r h⟩
      · exact .inl rfl
    · rintro (rfl | ⟨h, _⟩)
      · exact .inr rfl
      · exact .inl h

theorem mergeRow_fresh {row : R} (fresh : ∀ r ∈ rows, key r ≠ key row) :
    mergeRow key rows row = rows ++ [row] := by
  unfold mergeRow
  rw [if_neg]
  rw [List.any_eq_true]
  rintro ⟨r, member, same⟩
  exact fresh r member (beq_iff_eq.mp same)

theorem mergeRow_distinct {row : R} (distinct : (rows.map key).Nodup) :
    ((mergeRow key rows row).map key).Nodup := by
  unfold mergeRow
  split
  · rw [map_keys]
    · exact distinct
    · intro r _
      split
      · rename_i same
        exact same.symm
      · rfl
  · rename_i absent
    exact append_distinct distinct (by simpa using absent)

theorem row_mergeRow (distinct : (rows.map key).Nodup) (new : R) (k : K) :
    row key (mergeRow key rows new) k = if key new = k then some new else row key rows k := by
  by_cases same : key new = k
  · subst same
    rw [if_pos rfl]
    exact row_of_mem (mergeRow_distinct distinct) (mem_mergeRow.mpr (.inl rfl))
  · rw [if_neg same]
    cases found : row key rows k with
    | none =>
      rw [row, List.find?_eq_none] at found
      apply List.find?_eq_none.mpr
      intro r member
      rcases mem_mergeRow.mp member with rfl | ⟨old, _⟩
      · simpa using same
      · exact found r old
    | some r =>
      obtain ⟨member, rfl⟩ := mem_of_row found
      exact row_of_mem (mergeRow_distinct distinct) (mem_mergeRow.mpr (.inr ⟨member, Ne.symm same⟩))

theorem mergeRows_distinct {new : List R} (distinct : (rows.map key).Nodup) :
    ((mergeRows key rows new).map key).Nodup := by
  unfold mergeRows
  induction new generalizing rows with
  | nil => exact distinct
  | cons first new ih => exact ih (mergeRow_distinct distinct)

/-- The new rows, and the old rows under other keys. -/
theorem mem_mergeRows {new : List R} (distinct : (new.map key).Nodup) {r : R} :
    r ∈ mergeRows key rows new ↔ r ∈ new ∨ (r ∈ rows ∧ key r ∉ new.map key) := by
  unfold mergeRows
  induction new generalizing rows with
  | nil => simp
  | cons first new ih =>
    obtain ⟨fresh, rest⟩ := List.nodup_cons.mp distinct
    rw [List.foldl_cons, ih rest, mem_mergeRow, List.map_cons]
    constructor
    · rintro (later | ⟨rfl | ⟨old, other⟩, absent⟩)
      · exact .inl (List.mem_cons_of_mem _ later)
      · exact .inl List.mem_cons_self
      · refine .inr ⟨old, fun again => ?_⟩
        rcases List.mem_cons.mp again with h | h
        · exact other h
        · exact absent h
    · rintro (member | ⟨old, absent⟩)
      · rcases List.mem_cons.mp member with rfl | later
        · exact .inr ⟨.inl rfl, fresh⟩
        · exact .inl later
      · refine .inr ⟨.inr ⟨old, fun same => ?_⟩, fun again => ?_⟩
        · exact absent (same ▸ List.mem_cons_self)
        · exact absent (List.mem_cons_of_mem _ again)

end Merge

section Ordered
variable {rel : R → R → Prop} [DecidableRel rel]

/-- The first row of a sorted table stands before every row. -/
theorem first_of_sorted [Std.Total rel] [IsTrans R rel] {first : R}
    (found : (rows.insertionSort rel).head? = some first) :
    first ∈ rows ∧ ∀ r ∈ rows, r = first ∨ rel first r := by
  have sorted := List.pairwise_insertionSort rel rows
  have same (r : R) : r ∈ rows.insertionSort rel ↔ r ∈ rows := List.mem_insertionSort _
  cases shape : rows.insertionSort rel with
  | nil => simp [shape] at found
  | cons head rest =>
    rw [shape] at found sorted
    cases found
    refine ⟨(same _).mp (shape ▸ List.mem_cons_self), ?_⟩
    intro r member
    rcases List.mem_cons.mp (shape ▸ (same r).mpr member) with rfl | later
    · exact .inl rfl
    · exact .inr ((List.pairwise_cons.mp sorted).1 r later)

theorem first_isSome (rel : R → R → Prop) [DecidableRel rel] {r : R} (member : r ∈ rows) :
    (rows.insertionSort rel).head?.isSome := by
  have there : r ∈ rows.insertionSort rel := (List.mem_insertionSort _).mpr member
  cases shape : rows.insertionSort rel with
  | nil => simp [shape] at there
  | cons head rest => rfl

end Ordered

end Table
