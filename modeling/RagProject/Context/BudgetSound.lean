import Mathlib.Data.List.Induction
import RagProject.Context.Budget
import RagProject.Lib.Sieve

/-! The context budget is kept: what is selected fits, nothing is dropped without need, and the
trace counts what happened. -/
namespace RagProject.Context
open Python Sieve

section FirstPass
variable (policy : ContextBudgetPolicy)

/-- The item at a place may enter the prompt: it has a text, is small enough and is the first of
its chunk. -/
structure Eligible (items : List ContextItem) (i : Nat) (item : ContextItem) : Prop where
  text : 0 < item.charCount
  small : item.estimatedTokens ≤ policy.maxTokensPerItem
  first : ∀ j < i, ∀ other, items[j]? = some other → other.documentChunkId ≠ item.documentChunkId

structure PassOk (items : List ContextItem) (pass : FirstPass) : Prop where
  length : pass.decided.length = items.length
  seen : ∀ id, id ∈ pass.seenChunks ↔ ∃ item ∈ items, item.documentChunkId = id
  decided : ∀ (i : Nat) (item : ContextItem), items[i]? = some item →
    ∃ r, pass.decided[i]? = some { item with dropReason := r } ∧
      (r = none ↔ Eligible policy items i item)
  eligible : ∀ e : Entry, e ∈ pass.eligible ↔
    pass.decided[e.1]? = some e.2 ∧ e.2.dropReason = none
  distinct : (pass.eligible.map (·.1)).Nodup

variable {policy}

theorem Eligible.of_front {items : List ContextItem} {last item : ContextItem} {i : Nat}
    (inside : i ≤ items.length) :
    Eligible policy (items ++ [last]) i item ↔ Eligible policy items i item := by
  have before {j : Nat} (earlier : j < i) : (items ++ [last])[j]? = items[j]? :=
    List.getElem?_append_left (by omega)
  constructor
  · rintro ⟨text, small, first⟩
    exact ⟨text, small, fun j earlier other there => first j earlier other
      ((before earlier).trans there)⟩
  · rintro ⟨text, small, first⟩
    exact ⟨text, small, fun j earlier other there => first j earlier other
      ((before earlier).symm.trans there)⟩

/-- The reason that the first pass gives an item. -/
def firstReason (policy : ContextBudgetPolicy) (seenChunks : List Nat) (item : ContextItem) :
    Option ContextDropReason :=
  if item.documentChunkId ∈ seenChunks then some .duplicateChunk
  else if item.charCount = 0 then some .missingText
  else if policy.maxTokensPerItem < item.estimatedTokens then some .overBudget
  else none

theorem firstReason_none {items : List ContextItem} {pass : FirstPass}
    (ok : PassOk policy items pass) (item : ContextItem) :
    firstReason policy pass.seenChunks item = none ↔
      Eligible policy items items.length item := by
  have fresh : item.documentChunkId ∉ pass.seenChunks ↔ ∀ j < items.length, ∀ other,
      items[j]? = some other → other.documentChunkId ≠ item.documentChunkId := by
    rw [ok.seen]
    constructor
    · intro none j _ other there same
      exact none ⟨other, List.mem_of_getElem? there, same⟩
    · rintro first ⟨other, member, same⟩
      obtain ⟨j, inside, there⟩ := List.getElem_of_mem member
      exact first j inside other (there ▸ List.getElem?_eq_getElem inside) same
  unfold firstReason
  constructor
  · intro none
    split at none
    · cases none
    · next unseen =>
      split at none
      · cases none
      · split at none
        · cases none
        · exact ⟨by omega, by omega, fresh.mp unseen⟩
  · rintro ⟨text, small, first⟩
    rw [if_neg (fresh.mpr first), if_neg (by omega), if_neg (by omega)]

theorem passItem_eq (policy : ContextBudgetPolicy) (pass : FirstPass) (item : ContextItem) :
    passItem policy pass item =
      { decided := pass.decided ++ [{ item with dropReason := firstReason policy pass.seenChunks item }]
        eligible :=
          if firstReason policy pass.seenChunks item = none then
            pass.eligible ++ [(pass.decided.length,
              { item with dropReason := firstReason policy pass.seenChunks item })]
          else pass.eligible
        seenChunks := item.documentChunkId :: pass.seenChunks } := rfl

theorem passItem_ok {items : List ContextItem} {pass : FirstPass} (ok : PassOk policy items pass)
    (item : ContextItem) : PassOk policy (items ++ [item]) (passItem policy pass item) := by
  have reason := firstReason_none ok item
  rw [passItem_eq]
  generalize firstReason policy pass.seenChunks item = r at reason
  have old (e : Entry) : e ∈ pass.eligible ↔ e.1 < pass.decided.length ∧
      (pass.decided ++ [{ item with dropReason := r }])[e.1]? = some e.2 ∧
        e.2.dropReason = none := by
    rw [ok.eligible]
    constructor
    · rintro ⟨there, free⟩
      have inside := (List.getElem?_eq_some_iff.mp there).1
      exact ⟨inside, (List.getElem?_append_left inside).trans there, free⟩
    · rintro ⟨inside, there, free⟩
      exact ⟨(List.getElem?_append_left inside).symm.trans there, free⟩
  refine ⟨by simp [ok.length], fun id => ?_, fun i x there => ?_, fun e => ?_, ?_⟩
  · rw [List.mem_cons, ok.seen]
    constructor
    · rintro (rfl | ⟨x, member, same⟩)
      · exact ⟨item, by simp, rfl⟩
      · exact ⟨x, List.mem_append_left _ member, same⟩
    · rintro ⟨x, member, rfl⟩
      rcases List.mem_append.mp member with before | last
      · exact .inr ⟨x, before, rfl⟩
      · exact .inl (by rw [List.mem_singleton.mp last])
  · rcases Nat.lt_or_ge i items.length with before | last
    · rw [List.getElem?_append_left before] at there
      obtain ⟨s, decided, free⟩ := ok.decided i x there
      refine ⟨s, ?_, free.trans (Eligible.of_front (by omega)).symm⟩
      rw [← decided]
      exact List.getElem?_append_left (by rw [ok.length]; exact before)
    · have inside := (List.getElem?_eq_some_iff.mp there).1
      have place : i = items.length := by
        rw [List.length_append, List.length_singleton] at inside
        omega
      subst place
      rw [List.getElem?_concat_length] at there
      cases there
      refine ⟨r, ?_, reason.trans (Eligible.of_front (Nat.le_refl _)).symm⟩
      show (pass.decided ++ [_])[items.length]? = _
      rw [← ok.length, List.getElem?_concat_length]
  · by_cases free : r = none
    · rw [if_pos free, List.mem_append, old, List.mem_singleton]
      constructor
      · rintro (⟨_, there⟩ | rfl)
        · exact there
        · exact ⟨List.getElem?_concat_length, free⟩
      · rintro ⟨there, none⟩
        rcases Nat.lt_or_ge e.1 pass.decided.length with before | last
        · exact .inl ⟨before, there, none⟩
        · have inside := (List.getElem?_eq_some_iff.mp there).1
          have place : e.1 = pass.decided.length := by
            rw [List.length_append, List.length_singleton] at inside
            omega
          rw [place, List.getElem?_concat_length] at there
          exact .inr (Prod.ext place (Option.some.inj there).symm)
    · rw [if_neg free, old]
      constructor
      · exact fun h => h.2
      · rintro ⟨there, none⟩
        refine ⟨?_, there, none⟩
        have inside := (List.getElem?_eq_some_iff.mp there).1
        rcases Nat.lt_or_ge e.1 pass.decided.length with before | last
        · exact before
        · have place : e.1 = pass.decided.length := by
            rw [List.length_append, List.length_singleton] at inside
            omega
          rw [place, List.getElem?_concat_length] at there
          rw [← Option.some.inj there] at none
          exact absurd none free
  · split
    · rw [List.map_append, List.nodup_append]
      refine ⟨ok.distinct, by simp, ?_⟩
      rintro _ member _ last rfl
      obtain ⟨e, inside, rfl⟩ := List.mem_map.mp member
      have place : e.1 = pass.decided.length := by simpa using last
      have below := ((old e).mp inside).1
      omega
    · exact ok.distinct

variable (policy) in
theorem firstPass_ok (items : List ContextItem) :
    PassOk policy items (items.foldl (passItem policy) ⟨[], [], []⟩) := by
  induction items using List.reverseRecOn with
  | nil => exact ⟨rfl, by simp, by simp, by simp, .nil⟩
  | append_singleton items item ih =>
    rw [List.foldl_append]
    exact passItem_ok ih item

end FirstPass

section Order

/-- The step of the loop of diverse. -/
def diverseStep (parts : List Entry × List Entry × List String) (entry : Entry) :
    List Entry × List Entry × List String :=
  if entry.2.sourceGroupKey ∈ parts.2.2 then (parts.1, parts.2.1 ++ [entry], parts.2.2)
  else (parts.1 ++ [entry], parts.2.1, entry.2.sourceGroupKey :: parts.2.2)

theorem diverse_eq (entries : List Entry) : diverse entries =
    (entries.foldl diverseStep ([], [], [])).1 ++ (entries.foldl diverseStep ([], [], [])).2.1 :=
  rfl

theorem diverse_perm (entries : List Entry) : (diverse entries).Perm entries := by
  have loop : ∀ (entries : List Entry) (first rest : List Entry) (seen : List String),
      let split := entries.foldl diverseStep (first, rest, seen)
      (split.1 ++ split.2.1).Perm (first ++ rest ++ entries) := by
    intro entries
    induction entries with
    | nil => intro first rest seen; simp
    | cons entry entries ih =>
      intro first rest seen
      simp only [List.foldl_cons, diverseStep]
      split
      · exact (ih first (rest ++ [entry]) seen).trans (by simp)
      · refine (ih (first ++ [entry]) rest (entry.2.sourceGroupKey :: seen)).trans ?_
        simp only [List.append_assoc, List.singleton_append]
        exact (List.perm_middle.symm).append_left first
  exact loop entries [] [] []

theorem selectionOrder_perm (policy : ContextBudgetPolicy) (entries : List Entry) :
    (selectionOrder policy entries).Perm entries := by
  have sorted : (if policy.dropLowScoreFirst then
      entries.insertionSort fun a b => scoreOrder a.2 ≤ scoreOrder b.2 else entries).Perm
      entries := by
    split
    · exact List.perm_insertionSort _ _
    · exact .refl _
  simp only [selectionOrder]
  by_cases diversity : policy.preserveSourceDiversity = true
  · rw [if_pos diversity]
    exact (diverse_perm _).trans sorted
  · rw [if_neg diversity]
    exact sorted

theorem orderedEntries_perm (policy : ContextBudgetPolicy) (eligible : List Entry) :
    (orderedEntries policy eligible).Perm eligible := by
  refine ((selectionOrder_perm policy _).append (selectionOrder_perm policy _)).trans ?_
  exact List.filter_append_perm _ eligible

end Order

section Loop
variable (policy : ContextBudgetPolicy)

def tokens (taken : List ContextItem) : Nat := (taken.map (·.estimatedTokens)).sum

/-- What happens to an entry in view of the items that were taken before it. -/
def judge (taken : List ContextItem) (entry : Entry) : Except ContextDropReason ContextItem :=
  if policy.maxContextItems ≤ taken.length then .error .maxItemsExceeded
  else if !entry.2.citationCandidate && policy.minCitationCandidates ≤ taken.length then
    .error .notSelectedByRerank
  else if effectiveContextTokenLimit policy < tokens taken + entry.2.estimatedTokens then
    .error .overBudget
  else .ok entry.2

/-- How a turn leaves the item it is about. -/
def Outcome (item : ContextItem) : Except ContextDropReason ContextItem → ContextItem → Prop
  | .ok _, decided => ∃ reason,
      decided = { item with selected := true, reason := some reason, dropReason := none }
  | .error r, decided => decided = { item with dropReason := some r }

def selectedItems (items : List ContextItem) : List ContextItem := items.filter (·.selected)

theorem selected_set {items : List ContextItem} {i : Nat} {x : ContextItem}
    (there : items[i]? = some x) (off : x.selected = false) (y : ContextItem)
    (f : ContextItem → Nat) :
    ((selectedItems (items.set i y)).map f).sum =
      ((selectedItems items).map f).sum + if y.selected then f y else 0 := by
  induction items generalizing i with
  | nil => cases there
  | cons item items ih =>
    unfold selectedItems at ih ⊢
    cases i with
    | zero =>
      cases there
      cases on : y.selected <;> simp [off, on, Nat.add_comm]
    | succ i =>
      have rest := ih there
      rw [List.set_cons_succ]
      cases on : item.selected
      · simpa only [List.filter_cons, on, Bool.false_eq_true, if_false] using rest
      · simp only [List.filter_cons, on, if_true, List.map_cons, List.sum_cons, rest]
        omega

/-- One turn of the loop, as a judgement. -/
theorem selectIndex_judged (first : List Nat) {s : Selection} {taken : List ContextItem}
    {entry : Entry} (count : s.selectedCount = taken.length)
    (spent : s.selectedTokens = tokens taken) (there : s.decided[entry.1]? = some entry.2)
    (free : entry.2.dropReason = none) :
    ∃ decided exhausted, Outcome entry.2 (judge policy taken entry) decided ∧
      selectIndex policy first s entry.1 =
        { decided := s.decided.set entry.1 decided
          selectedCount := (taken ++ (takenOf (judge policy taken entry)).toList).length
          selectedTokens := tokens (taken ++ (takenOf (judge policy taken entry)).toList)
          budgetExhausted := exhausted } := by
  have held : entry.2.dropReason.isSome = false := by rw [free]; rfl
  unfold selectIndex judge
  simp only [there, held, Bool.false_eq_true, if_false]
  rw [count, spent]
  split
  · exact ⟨_, s.budgetExhausted, rfl, by simp [takenOf, ← count, ← spent]⟩
  · split
    · exact ⟨_, s.budgetExhausted, rfl, by simp [takenOf, ← count, ← spent]⟩
    · split
      · exact ⟨_, true, rfl, by simp [takenOf, ← count, ← spent]⟩
      · have more : tokens (taken ++ [entry.2]) = tokens taken + entry.2.estimatedTokens := by
          simp [tokens]
        simp only [takenOf, Option.toList_some, more, List.length_append, List.length_singleton]
        exact ⟨_, s.budgetExhausted, ⟨_, rfl⟩, rfl⟩

/-- What the loop over the ordered entries leaves behind. -/
structure LoopOk (taken : List ContextItem) (order : List Entry) (before after : List ContextItem) :
    Prop where
  length : after.length = before.length
  others : ∀ i ∉ order.map (·.1), after[i]? = before[i]?
  turns : ∀ turn ∈ sift (judge policy) taken order,
    ∃ decided, after[turn.1.1]? = some decided ∧ Outcome turn.1.2 turn.2 decided
  totals : ∀ f : ContextItem → Nat,
    (∀ item reason, f { item with selected := true, reason := reason, dropReason := none } = f item) →
      ((selectedItems after).map f).sum = ((selectedItems before).map f).sum +
        ((Sieve.taken (sift (judge policy) taken order)).map f).sum

theorem Outcome.total {item decided : ContextItem} {verdict : Except ContextDropReason ContextItem}
    {entry : Entry} {taken : List ContextItem} (outcome : Outcome item verdict decided)
    (off : item.selected = false) (judged : verdict = judge policy taken entry)
    (same : entry.2 = item) (f : ContextItem → Nat)
    (kept : ∀ item reason,
      f { item with selected := true, reason := reason, dropReason := none } = f item) :
    (if decided.selected then f decided else 0) = ((takenOf verdict).toList.map f).sum := by
  cases verdict with
  | error r =>
    rw [show decided = { item with dropReason := some r } from outcome]
    simp [off, takenOf]
  | ok b =>
    obtain ⟨reason, rfl⟩ := outcome
    have taken : b = item := by
      unfold judge at judged
      split at judged
      · cases judged
      · split at judged
        · cases judged
        · split at judged
          · cases judged
          · cases judged
            exact same
    simp only [if_true, kept, takenOf, Option.toList_some, List.map_singleton, List.sum_singleton,
      taken]

theorem loop_ok (first : List Nat) {s : Selection} {taken : List ContextItem} {order : List Entry}
    (count : s.selectedCount = taken.length) (spent : s.selectedTokens = tokens taken)
    (distinct : (order.map (·.1)).Nodup)
    (there : ∀ e ∈ order, s.decided[e.1]? = some e.2 ∧ e.2.dropReason = none ∧
      e.2.selected = false) :
    LoopOk policy taken order s.decided
      ((order.map (·.1)).foldl (selectIndex policy first) s).decided := by
  induction order generalizing s taken with
  | nil => 
    exact ⟨rfl, fun _ _ => rfl, fun _ member => (nomatch member), fun f _ => by
      simp [sift, Sieve.taken]⟩
  | cons entry order ih =>
    rw [List.map_cons, List.nodup_cons] at distinct
    obtain ⟨place, free, off⟩ := there entry List.mem_cons_self
    obtain ⟨decided, exhausted, outcome, turn⟩ :=
      selectIndex_judged policy first count spent place free
    rw [List.map_cons, List.foldl_cons, turn]
    have inside := (List.getElem?_eq_some_iff.mp place).1
    have apart {e : Entry} (member : e ∈ order) : entry.1 ≠ e.1 := fun same =>
      distinct.1 (List.mem_map.mpr ⟨e, member, same.symm⟩)
    have later : ∀ e ∈ order, (s.decided.set entry.1 decided)[e.1]? = some e.2 ∧
        e.2.dropReason = none ∧ e.2.selected = false := by
      intro e member
      obtain ⟨before, more⟩ := there e (List.mem_cons_of_mem _ member)
      exact ⟨(List.getElem?_set_ne (apart member)).trans before, more⟩
    have rest := @ih ⟨s.decided.set entry.1 decided, _, tokens _, exhausted⟩
      (taken ++ (takenOf (judge policy taken entry)).toList) rfl rfl distinct.2 later
    have mine : (s.decided.set entry.1 decided)[entry.1]? = some decided :=
      List.getElem?_set_self inside
    refine ⟨rest.length.trans List.length_set, fun i outside => ?_, fun turn member => ?_,
      fun f kept => ?_⟩
    · rw [List.map_cons, List.mem_cons, not_or] at outside
      rw [rest.others i outside.2]
      exact List.getElem?_set_ne (Ne.symm outside.1)
    · rw [sift_cons] at member
      rcases List.mem_cons.mp member with rfl | later
      · exact ⟨decided, (rest.others _ distinct.1).trans mine, outcome⟩
      · exact rest.turns turn later
    · have total := rest.totals f kept
      have one := selected_set place off decided f
      rw [outcome.total policy off rfl rfl f kept] at one
      rw [total, one, sift_cons]
      cases judge policy taken entry <;> simp [takenOf, Sieve.taken, Nat.add_assoc]

end Loop

section Judged
variable (policy : ContextBudgetPolicy)

theorem judge_ok {taken : List ContextItem} {entry : Entry} {item : ContextItem}
    (ok : judge policy taken entry = .ok item) :
    item = entry.2 ∧ taken.length < policy.maxContextItems ∧
      (entry.2.citationCandidate = false → taken.length < policy.minCitationCandidates) ∧
      tokens taken + entry.2.estimatedTokens ≤ effectiveContextTokenLimit policy := by
  unfold judge at ok
  split at ok
  · cases ok
  · split at ok
    · cases ok
    · split at ok
      · cases ok
      · next more few fits =>
        cases ok
        refine ⟨rfl, by omega, fun extra => ?_, by omega⟩
        simpa [extra] using few

theorem judge_error {taken : List ContextItem} {entry : Entry} {r : ContextDropReason}
    (citation : entry.2.citationCandidate = true) (error : judge policy taken entry = .error r) :
    policy.maxContextItems ≤ taken.length ∨
      effectiveContextTokenLimit policy < tokens taken + entry.2.estimatedTokens := by
  unfold judge at error
  simp only [citation, Bool.not_true, Bool.false_and, Bool.false_eq_true, if_false] at error
  split at error
  · next full => exact .inl full
  · split at error
    · next large => exact .inr large
    · cases error

/-- What is taken stays within the limits. -/
theorem taken_fits (order : List Entry) :
    (Sieve.taken (sift (judge policy) [] order)).length ≤ policy.maxContextItems ∧
      tokens (Sieve.taken (sift (judge policy) [] order)) ≤ effectiveContextTokenLimit policy := by
  have keeps : ∀ before entry item,
      (before.length ≤ policy.maxContextItems ∧
        tokens before ≤ effectiveContextTokenLimit policy) →
      judge policy before entry = .ok item →
      (before ++ [item]).length ≤ policy.maxContextItems ∧
        tokens (before ++ [item]) ≤ effectiveContextTokenLimit policy := by
    intro before entry item _ ok
    obtain ⟨rfl, few, _, fits⟩ := judge_ok policy ok
    have more : tokens (before ++ [entry.2]) = tokens before + entry.2.estimatedTokens := by
      simp [tokens]
    rw [more, List.length_append, List.length_singleton]
    exact ⟨few, fits⟩
  have start : ([] : List ContextItem).length ≤ policy.maxContextItems ∧
      tokens [] ≤ effectiveContextTokenLimit policy := ⟨Nat.zero_le _, Nat.zero_le _⟩
  exact taken_keeps (P := fun taken => taken.length ≤ policy.maxContextItems ∧
    tokens taken ≤ effectiveContextTokenLimit policy) keeps start order

end Judged

section Selected
variable (policy : ContextBudgetPolicy)

/-- The decided item at a place is selected. -/
def SelectedAt (decided : List ContextItem) (i : Nat) : Prop :=
  ∃ item, decided[i]? = some item ∧ item.selected = true

instance (decided : List ContextItem) (i : Nat) : Decidable (SelectedAt decided i) :=
  match there : decided[i]? with
  | none => .isFalse fun ⟨item, found, _⟩ => by rw [there] at found; cases found
  | some item =>
    if on : item.selected = true then .isTrue ⟨item, there, on⟩
    else .isFalse fun ⟨other, found, yes⟩ => on (by
      rw [there] at found
      cases found
      exact yes)

/-- The entries of an order that end up selected. -/
def selectedOf (decided : List ContextItem) (order : List Entry) : List ContextItem :=
  (order.filter fun e => SelectedAt decided e.1).map (·.2)

/-- The decision about the items, as the claim of a budget: the eligible ones in the order in
which they are looked at, and what stands in the prompt in the end. -/
structure Selected (items decided : List ContextItem) (order : List Entry) : Prop where
  places : ∀ (i : Nat) (item : ContextItem), items[i]? = some item → ∃ selected reason dropReason,
    decided[i]? = some { item with
      selected := selected, reason := reason, dropReason := dropReason }
  length : decided.length = items.length
  eligible : ∀ (i : Nat) (item : ContextItem), items[i]? = some item →
    (Eligible policy items i item ↔ i ∈ order.map (·.1))
  distinct : (order.map (·.1)).Nodup
  entries : ∀ e ∈ order, ∃ item, items[e.1]? = some item ∧ e.2 = { item with dropReason := none }
  verdict : ∀ item ∈ decided, (item.selected = true ∧ item.dropReason = none) ∨
    (item.selected = false ∧ item.dropReason.isSome)
  ordered : ∀ i, SelectedAt decided i → i ∈ order.map (·.1)
  count : (selectedItems decided).length ≤ policy.maxContextItems
  tokens : ((selectedItems decided).map (·.estimatedTokens)).sum ≤
    effectiveContextTokenLimit policy
  extra : ∀ done entry rest, order = done ++ entry :: rest → SelectedAt decided entry.1 →
    entry.2.citationCandidate = false →
      (selectedOf decided done).length < policy.minCitationCandidates
  needed : ∀ done entry rest, order = done ++ entry :: rest → ¬SelectedAt decided entry.1 →
    entry.2.citationCandidate = true →
      policy.maxContextItems ≤ (selectedOf decided done).length ∨
        effectiveContextTokenLimit policy <
          Context.tokens (selectedOf decided done) + entry.2.estimatedTokens

variable {policy}

theorem Outcome.selected {item decided : ContextItem}
    {verdict : Except ContextDropReason ContextItem} (outcome : Outcome item verdict decided)
    (off : item.selected = false) :
    (decided.selected = true ↔ (takenOf verdict).isSome) ∧
      ((decided.selected = true ∧ decided.dropReason = none) ∨
        (decided.selected = false ∧ decided.dropReason.isSome)) ∧
      ∃ selected reason dropReason, decided = { item with
        selected := selected, reason := reason, dropReason := dropReason } := by
  cases verdict with
  | ok b =>
    obtain ⟨reason, rfl⟩ := outcome
    exact ⟨by simp [takenOf], .inl ⟨rfl, rfl⟩, _, _, _, rfl⟩
  | error r =>
    cases (show decided = { item with dropReason := some r } from outcome)
    exact ⟨by simp [takenOf, off], .inr ⟨off, rfl⟩, _, _, _, rfl⟩

/-- Among the turns that were made, the selected entries are the ones taken. -/
theorem selectedOf_turns (decided : List ContextItem)
    (done : List (Entry × Except ContextDropReason ContextItem))
    (each : ∀ turn ∈ done, (SelectedAt decided turn.1.1 ↔ (takenOf turn.2).isSome) ∧
      ∀ item, turn.2 = .ok item → item = turn.1.2) :
    selectedOf decided (done.map (·.1)) = Sieve.taken done := by
  induction done with
  | nil => rfl
  | cons turn done ih =>
    obtain ⟨selected, same⟩ := each turn List.mem_cons_self
    have rest := ih fun later member => each later (List.mem_cons_of_mem _ member)
    unfold selectedOf Sieve.taken at rest ⊢
    obtain ⟨entry, verdict⟩ := turn
    cases verdict with
    | ok item =>
      have here : SelectedAt decided entry.1 := selected.mpr rfl
      rw [List.map_cons, List.filter_cons_of_pos (by simpa using here), List.map_cons, rest,
        ← same item rfl]
      rfl
    | error r =>
      have off : ¬SelectedAt decided entry.1 := fun on => nomatch selected.mp on
      rw [List.map_cons, List.filter_cons_of_neg (by simpa using off), rest,
        List.filterMap_cons_none rfl]

/-- The entries that the loop goes through, after the first pass has decided the others. -/
structure Ordered (policy : ContextBudgetPolicy) (items decided : List ContextItem)
    (order : List Entry) : Prop where
  length : decided.length = items.length
  unselected : ∀ item ∈ decided, item.selected = false
  distinct : (order.map (·.1)).Nodup
  entries : ∀ e ∈ order, ∃ item, items[e.1]? = some item ∧
    e.2 = { item with dropReason := none } ∧ decided[e.1]? = some e.2
  eligible : ∀ (i : Nat) (item : ContextItem), items[i]? = some item →
    (Eligible policy items i item ↔ i ∈ order.map (·.1))
  others : ∀ (i : Nat) (item : ContextItem), items[i]? = some item → i ∉ order.map (·.1) →
    ∃ r, decided[i]? = some { item with dropReason := some r }

theorem PassOk.ordered {items : List ContextItem} {pass : FirstPass} {order : List Entry}
    (ok : PassOk policy items pass) (perm : order.Perm pass.eligible)
    (fresh : ∀ item ∈ items, item.selected = false) :
    Ordered policy items pass.decided order := by
  have inside {i : Nat} {item : ContextItem} {r : Option ContextDropReason}
      (first : pass.decided[i]? = some { item with dropReason := r }) (free : r = none) :
      i ∈ order.map (·.1) := by
    cases free
    exact List.mem_map.mpr
      ⟨(i, { item with dropReason := none }), perm.mem_iff.mpr ((ok.eligible _).mpr ⟨first, rfl⟩), rfl⟩
  have original {i : Nat} {decided : ContextItem} (there : pass.decided[i]? = some decided) :
      ∃ item, items[i]? = some item ∧ ∃ r, decided = { item with dropReason := r } := by
    have below := (List.getElem?_eq_some_iff.mp there).1
    rw [ok.length] at below
    have place := List.getElem?_eq_getElem below
    obtain ⟨r, first, _⟩ := ok.decided i _ place
    rw [there] at first
    exact ⟨_, place, r, Option.some.inj first⟩
  have entries : ∀ e ∈ order, ∃ item, items[e.1]? = some item ∧
      e.2 = { item with dropReason := none } ∧ pass.decided[e.1]? = some e.2 := by
    intro e member
    obtain ⟨there, free⟩ := (ok.eligible e).mp (perm.mem_iff.mp member)
    obtain ⟨item, place, r, same⟩ := original there
    rw [same] at free
    cases (show r = none from free)
    exact ⟨item, place, same, there⟩
  refine ⟨ok.length, fun decided member => ?_, ((perm.map _).nodup_iff).mpr ok.distinct, entries,
    fun i item there => ?_, fun i item there outside => ?_⟩
  · obtain ⟨i, below, rfl⟩ := List.getElem_of_mem member
    obtain ⟨item, place, r, same⟩ := original (List.getElem?_eq_getElem below)
    rw [same]
    exact fresh item (List.mem_of_getElem? place)
  · obtain ⟨r, first, free⟩ := ok.decided i item there
    rw [← free]
    constructor
    · exact inside first
    · intro member
      obtain ⟨e, inOrder, rfl⟩ := List.mem_map.mp member
      obtain ⟨original, _, same, decided⟩ := entries e inOrder
      rw [first] at decided
      rw [← Option.some.inj decided] at same
      exact congrArg ContextItem.dropReason same
  · obtain ⟨r, first, _⟩ := ok.decided i item there
    cases r with
    | none => exact absurd (inside first rfl) outside
    | some r => exact ⟨r, first⟩

variable (policy) in
theorem selectItems_loop {items : List ContextItem}
    (fresh : ∀ item ∈ items, item.selected = false) : ∃ decided order,
      Ordered policy items decided order ∧
        LoopOk policy [] order decided (selectItems policy items).1 := by
  have pass := firstPass_ok policy items
  have ordered := pass.ordered (orderedEntries_perm policy _) fresh
  refine ⟨_, _, ordered, ?_⟩
  exact @loop_ok policy _ ⟨_, 0, 0, false⟩ [] _ rfl rfl ordered.distinct fun e member => by
    obtain ⟨item, place, same, there⟩ := ordered.entries e member
    refine ⟨there, by rw [same], ?_⟩
    rw [same]
    exact fresh item (List.mem_of_getElem? place)

section Turns
variable {items decided after : List ContextItem} {order : List Entry}

theorem Ordered.off (ordered : Ordered policy items decided order) :
    ∀ e ∈ order, e.2.selected = false := by
  intro e member
  obtain ⟨_, _, _, there⟩ := ordered.entries e member
  exact ordered.unselected _ (List.mem_of_getElem? there)

theorem LoopOk.each (loop : LoopOk policy [] order decided after)
    (ordered : Ordered policy items decided order) :
    ∀ turn ∈ sift (judge policy) [] order, turn.1 ∈ order ∧
      (SelectedAt after turn.1.1 ↔ (takenOf turn.2).isSome) ∧
      ∀ item, turn.2 = .ok item → item = turn.1.2 := by
  intro turn member
  have inside : turn.1 ∈ order := by
    have candidates := List.mem_map_of_mem (f := (·.1)) member
    rwa [sift_candidates] at candidates
  obtain ⟨item, there, outcome⟩ := loop.turns turn member
  refine ⟨inside, ?_, fun taken ok => ?_⟩
  · rw [← (outcome.selected (ordered.off _ inside)).1]
    constructor
    · rintro ⟨other, found, on⟩
      rw [there] at found
      cases found
      exact on
    · exact fun on => ⟨item, there, on⟩
  · obtain ⟨done, rest, split⟩ := List.append_of_mem member
    have judged := sift_judged split
    rw [ok] at judged
    exact (judge_ok policy judged.symm).1

/-- An entry is judged by the selected entries before it. -/
theorem LoopOk.judged (loop : LoopOk policy [] order decided after)
    (ordered : Ordered policy items decided order) {done rest : List Entry} {entry : Entry}
    (split : order = done ++ entry :: rest) :
    SelectedAt after entry.1 ↔
      (takenOf (judge policy (selectedOf after done) entry)).isSome := by
  have each := loop.each ordered
  rw [← sift_candidates (judge policy) [] order] at split
  obtain ⟨front, back, cut, rfl, tail⟩ := List.map_eq_append_iff.mp split
  obtain ⟨turn, others, rfl, rfl, _⟩ := List.map_eq_cons_iff.mp tail
  have before := selectedOf_turns after front fun t member =>
    (each t (cut ▸ List.mem_append_left _ member)).2
  rw [before, (each turn (by rw [cut]; simp)).2.1, sift_judged cut, List.nil_append]

/-- How a place is left: an item with a verdict, selected only when the loop came to it. -/
theorem LoopOk.place (loop : LoopOk policy [] order decided after)
    (ordered : Ordered policy items decided order) {i : Nat} {item : ContextItem}
    (there : items[i]? = some item) :
    ∃ final, after[i]? = some final ∧
      (∃ selected reason dropReason, final = { item with
        selected := selected, reason := reason, dropReason := dropReason }) ∧
      ((final.selected = true ∧ final.dropReason = none) ∨
        (final.selected = false ∧ final.dropReason.isSome)) ∧
      (final.selected = true → i ∈ order.map (·.1)) := by
  by_cases inside : i ∈ order.map (·.1)
  · obtain ⟨e, member, rfl⟩ := List.mem_map.mp inside
    obtain ⟨original, origin, same, _⟩ := ordered.entries e member
    rw [there] at origin
    cases origin
    have off := ordered.off e member
    rw [← sift_candidates (judge policy) [] order] at member
    obtain ⟨turn, turnMember, rfl⟩ := List.mem_map.mp member
    obtain ⟨final, found, outcome⟩ := loop.turns turn turnMember
    obtain ⟨_, verdict, s, reason, drop, shape⟩ := outcome.selected off
    exact ⟨final, found, ⟨s, reason, drop, by rw [shape, same]⟩, verdict, fun _ => inside⟩
  · obtain ⟨r, first⟩ := ordered.others i item there inside
    have kept := ordered.unselected _ (List.mem_of_getElem? first)
    have unselected : item.selected = false := kept
    refine ⟨_, (loop.others i inside).trans first, ⟨item.selected, item.reason, some r, rfl⟩,
      .inr ⟨unselected, rfl⟩, fun on => ?_⟩
    rw [show item.selected = true from on] at unselected
    cases unselected

theorem LoopOk.fits (loop : LoopOk policy [] order decided after)
    (ordered : Ordered policy items decided order) :
    (selectedItems after).length ≤ policy.maxContextItems ∧
      ((selectedItems after).map (·.estimatedTokens)).sum ≤ effectiveContextTokenLimit policy := by
  have none : selectedItems decided = [] := List.filter_eq_nil_iff.mpr fun item member => by
    simp [ordered.unselected item member]
  have count := loop.totals (fun _ => 1) fun _ _ => rfl
  have spent := loop.totals (·.estimatedTokens) fun _ _ => rfl
  rw [none] at count spent
  simp only [List.map_const', List.sum_replicate_nat, Nat.mul_one, List.length_nil,
    Nat.zero_add] at count
  rw [List.map_nil, List.sum_nil, Nat.zero_add] at spent
  rw [count, spent]
  exact taken_fits policy order

end Turns

variable (policy) in
theorem selectItems_selected {items : List ContextItem}
    (fresh : ∀ item ∈ items, item.selected = false) :
    ∃ order, Selected policy items (selectItems policy items).1 order := by
  obtain ⟨decided, order, ordered, loop⟩ := selectItems_loop policy fresh
  have length := loop.length.trans ordered.length
  have original : ∀ (i : Nat) (final : ContextItem),
      (selectItems policy items).1[i]? = some final → ∃ item, items[i]? = some item := by
    intro i final there
    have inside := (List.getElem?_eq_some_iff.mp there).1
    rw [length] at inside
    exact ⟨_, List.getElem?_eq_getElem inside⟩
  refine ⟨order, fun i item there => ?_, length, ordered.eligible, ordered.distinct,
    fun e member => ?_, fun final member => ?_, fun i on => ?_, (loop.fits ordered).1,
    (loop.fits ordered).2, ?_, ?_⟩
  · obtain ⟨final, found, ⟨s, reason, drop, rfl⟩, _⟩ := loop.place ordered there
    exact ⟨s, reason, drop, found⟩
  · obtain ⟨item, there, same, _⟩ := ordered.entries e member
    exact ⟨item, there, same⟩
  · obtain ⟨i, inside, rfl⟩ := List.getElem_of_mem member
    have there := List.getElem?_eq_getElem inside
    obtain ⟨item, origin⟩ := original i _ there
    obtain ⟨d, found, _, verdict, _⟩ := loop.place ordered origin
    rw [there] at found
    rw [Option.some.inj found]
    exact verdict
  · obtain ⟨final, there, selected⟩ := on
    obtain ⟨item, origin⟩ := original i _ there
    obtain ⟨d, found, _, _, inside⟩ := loop.place ordered origin
    rw [there] at found
    cases found
    exact inside selected
  · intro done entry rest split on extra
    have taken := (loop.judged ordered split).mp on
    cases verdict : judge policy (selectedOf (selectItems policy items).1 done) entry with
    | error r =>
      rw [verdict] at taken
      cases taken
    | ok item => exact (judge_ok policy verdict).2.2.1 extra
  · intro done entry rest split dropped citation
    cases verdict : judge policy (selectedOf (selectItems policy items).1 done) entry with
    | error r => exact judge_error policy citation verdict
    | ok item => exact absurd ((loop.judged ordered split).mpr (by rw [verdict]; rfl)) dropped

end Selected

end RagProject.Context
