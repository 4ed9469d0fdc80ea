import Mathlib.Data.Finset.Sort
import RagProject.Lib.Ranking

/-! The best item under each key, ranked: what of a collection of items is seen in the end does not
depend on the order in which they came in. -/
namespace Leaders

universe u v w x
variable {A : Type u} {K : Type v} {S : Type w} {L : Type x} [DecidableEq K] [LinearOrder S]
  [LinearOrder L] (key : A → K) (score : A → S) (rank : A → L)

/-- No item of the same key has a higher score. -/
def Leads (items : List A) (a : A) : Prop := ∀ b ∈ items, key b = key a → score b ≤ score a

instance (items : List A) (a : A) : Decidable (Leads key score items a) :=
  List.decidableBAll (fun b => key b = key a → score b ≤ score a) items

/-- The ranks of the best items. -/
def leaders (items : List A) : Finset L :=
  ((items.filter fun a => Leads key score items a).map rank).toFinset

/-- The first ranks among them. -/
def top (items : List A) (limit : Nat) : List L := (leaders key score rank items).sort.take limit

variable {key score rank}

theorem mem_leaders {items : List A} {l : L} : l ∈ leaders key score rank items ↔
    ∃ a ∈ items, Leads key score items a ∧ rank a = l := by
  unfold leaders
  rw [List.mem_toFinset, List.mem_map]
  constructor
  · rintro ⟨a, member, same⟩
    obtain ⟨inside, leads⟩ := List.mem_filter.mp member
    exact ⟨a, inside, of_decide_eq_true leads, same⟩
  · rintro ⟨a, inside, leads, same⟩
    exact ⟨a, List.mem_filter.mpr ⟨inside, decide_eq_true leads⟩, same⟩

theorem top_congr {items others : List A} (same : ∀ a, a ∈ items ↔ a ∈ others) (limit : Nat) :
    top key score rank items limit = top key score rank others limit := by
  have equal : leaders key score rank items = leaders key score rank others := by
    ext l
    simp only [mem_leaders, Leads, same]
  unfold top
  rw [equal]

/-- One best item for each key. -/
structure Board (key : A → K) (score : A → S) (items picks : List A) : Prop where
  distinct : (picks.map key).Nodup
  present : ∀ a ∈ picks, a ∈ items
  leads : ∀ a ∈ picks, Leads key score items a
  covers : ∀ b ∈ items, ∃ a ∈ picks, key a = key b

theorem Board.ranked_top {items picks : List A} (board : Board key score items picks)
    (exact_rank : ∀ a b, rank a = rank b ↔ score a = score b ∧ key a = key b) (limit : Nat) :
    (Ranking.ranked rank picks limit).map rank = top key score rank items limit := by
  have nodup : ((picks.insertionSort fun a b => rank a ≤ rank b).map rank).Nodup := by
    rw [((List.perm_insertionSort _ picks).map rank).nodup_iff]
    rw [List.Nodup, List.pairwise_map]
    apply (List.pairwise_map.mp board.distinct).imp
    intro a b apart same
    exact apart ((exact_rank a b).mp same).2
  have members : ((picks.insertionSort fun a b => rank a ≤ rank b).map rank).toFinset =
      leaders key score rank items := by
    ext l
    rw [List.mem_toFinset, ((List.perm_insertionSort _ picks).map rank).mem_iff, mem_leaders,
      List.mem_map]
    constructor
    · rintro ⟨a, picked, same⟩
      exact ⟨a, board.present a picked, board.leads a picked, same⟩
    · rintro ⟨b, inside, leads, rfl⟩
      obtain ⟨a, picked, same⟩ := board.covers b inside
      have above := board.leads a picked b inside same.symm
      have below := leads a (board.present a picked) same
      exact ⟨a, picked, (exact_rank a b).mpr ⟨le_antisymm below above, same⟩⟩
  have sorted : ((picks.insertionSort fun a b => rank a ≤ rank b).map rank).Pairwise (· ≤ ·) :=
    List.pairwise_map.mpr (Ranking.sorted_ranking rank picks)
  unfold Ranking.ranked top
  rw [List.map_take, ← members, (List.toFinset_sort (· ≤ ·) nodup).mpr sorted]

end Leaders
