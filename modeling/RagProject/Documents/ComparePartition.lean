import Mathlib.Data.Prod.Lex
import RagProject.Documents.Compare
import RagProject.Lib.Words

/-! Every chunk of the two versions stands in exactly one match. -/
namespace RagProject.Documents
open Python

section Loops

/-- The chunks that are matched and those that are not, against all chunks. -/
structure Partition (base target : List DocumentChunk) (m : Matching) : Prop where
  bases : (m.pairs.filterMap (·.base) ++ m.unmatchedBase).Perm base
  targets : (m.pairs.filterMap (·.target) ++ m.unmatchedTarget).Perm target
  paired : ∀ p ∈ m.pairs, p.base.isSome ∧ p.target.isSome

/-- What a reason says of the two chunks. -/
def Reasoned (holds : MatchReason → DocumentChunk → DocumentChunk → Prop) (m : Matching) : Prop :=
  ∀ p ∈ m.pairs, ∀ b t, p.base = some b → p.target = some t → holds p.reason b t

variable {base target : List DocumentChunk}

theorem takeCandidate_some {accepts : DocumentChunk → Bool} {queue rest : List DocumentChunk}
    {found : Option DocumentChunk} (taken : takeCandidate accepts queue = (found, rest)) :
    (∀ c ∈ rest, c ∈ queue) ∧ ∀ c, found = some c → c ∈ queue ∧ accepts c = true := by
  induction queue with
  | nil =>
    cases taken
    exact ⟨fun _ h => h, fun _ h => nomatch h⟩
  | cons candidate queue ih =>
    unfold takeCandidate at taken
    split at taken
    · rename_i accepted
      cases taken
      refine ⟨fun c member => List.mem_cons_of_mem _ member, fun c same => ?_⟩
      cases same
      exact ⟨List.mem_cons_self, accepted⟩
    · obtain ⟨kept, hit⟩ := ih taken
      refine ⟨fun c member => List.mem_cons_of_mem _ (kept c member), fun c same => ?_⟩
      exact ⟨List.mem_cons_of_mem _ (hit c same).1, (hit c same).2⟩

theorem removeChunk_perm {chunks : List DocumentChunk} {c : DocumentChunk}
    (distinct : (chunks.map (·.documentChunkId)).Nodup) (member : c ∈ chunks) :
    (c :: removeChunk c chunks).Perm chunks := by
  have same : removeChunk c chunks = chunks.erase c := by
    rw [(List.Nodup.of_map _ distinct).erase_eq_filter]
    refine List.filter_congr fun d inside => ?_
    by_cases equal : d = c
    · subst equal
      rw [bne_self_eq_false, bne_self_eq_false]
    · have other : d.documentChunkId ≠ c.documentChunkId := fun id =>
        equal (Table.unique distinct inside member id)
      rw [bne_iff_ne.mpr other, bne_iff_ne.mpr equal]
  rw [same]
  exact (List.perm_cons_erase member).symm

/-- The queues hold chunks of the target under their keys. -/
def QueuesOk (key : DocumentChunk → Option String) (target : List DocumentChunk) (queues : Queues) :
    Prop :=
  ∀ k, ∀ c ∈ queues k, c ∈ target ∧ key c = some k

theorem queuesOf_ok (key : DocumentChunk → Option String) {chunks : List DocumentChunk}
    (inside : ∀ c ∈ chunks, c ∈ target) : QueuesOk key target (queuesOf key chunks) := by
  intro k c member
  obtain ⟨there, same⟩ := List.mem_filter.mp member
  exact ⟨inside c there, by simpa using same⟩

theorem nodup_part {chunks part rest : List DocumentChunk}
    (distinct : (chunks.map (·.documentChunkId)).Nodup) (perm : (part ++ rest).Perm chunks) :
    (rest.map (·.documentChunkId)).Nodup := by
  have whole := (perm.map DocumentChunk.documentChunkId).nodup_iff.mpr distinct
  rw [List.map_append] at whole
  exact (List.nodup_append.mp whole).2.1

/-- A turn of a loop: the chunk gets a partner, or nothing changes but the queues. -/
theorem matchChunk_ok {key : DocumentChunk → Option String} {reason : MatchReason}
    {similar : DocumentChunk → DocumentChunk → Bool} {holds : MatchReason → DocumentChunk →
      DocumentChunk → Prop}
    (baseIds : (base.map (·.documentChunkId)).Nodup)
    (targetIds : (target.map (·.documentChunkId)).Nodup)
    (sound : ∀ b t k, key b = some k → key t = some k → similar b t = true → holds reason b t)
    {queues queues' : Queues} {m m' : Matching} (part : Partition base target m)
    (reasoned : Reasoned holds m) (ok : QueuesOk key target queues) {b : DocumentChunk}
    (waiting : b ∈ m.unmatchedBase)
    (done : matchChunk key reason similar (queues, m) b = (queues', m')) :
    Partition base target m' ∧ Reasoned holds m' ∧ QueuesOk key target queues' ∧
      ∀ c ∈ m.unmatchedBase, c.documentChunkId ≠ b.documentChunkId → c ∈ m'.unmatchedBase := by
  unfold matchChunk at done
  split at done
  · cases done
    exact ⟨part, reasoned, ok, fun c member _ => member⟩
  · rename_i k named
    dsimp only at done
    generalize taken : takeCandidate _ (queues k) = result at done
    obtain ⟨found, rest⟩ := result
    obtain ⟨kept, hit⟩ := takeCandidate_some taken
    have shorter : QueuesOk key target (Function.update queues k rest) := by
      intro l c member
      by_cases same : l = k
      · subst same
        rw [Function.update_self] at member
        exact ok l c (kept c member)
      · rw [Function.update_of_ne same] at member
        exact ok l c member
    cases found with
    | none =>
      cases done
      exact ⟨part, reasoned, shorter, fun c member _ => member⟩
    | some t =>
      cases done
      obtain ⟨queued, accepted⟩ := hit t rfl
      obtain ⟨inTarget, sameKey⟩ := ok k t queued
      obtain ⟨holding, close⟩ := Bool.and_eq_true_iff.mp accepted
      have open_target : t ∈ m.unmatchedTarget := by
        obtain ⟨c, there, id⟩ := List.any_eq_true.mp holding
        have cIn : c ∈ target := part.targets.subset (List.mem_append_right _ there)
        exact Table.unique targetIds cIn inTarget (beq_iff_eq.mp id) ▸ there
      have baseLeft := removeChunk_perm (nodup_part baseIds part.bases) waiting
      have targetLeft := removeChunk_perm (nodup_part targetIds part.targets) open_target
      refine ⟨⟨?_, ?_, ?_⟩, ?_, shorter, ?_⟩
      · refine List.Perm.trans ?_ part.bases
        simp only [List.filterMap_append, List.filterMap_cons, List.filterMap_nil,
          List.append_assoc, List.singleton_append]
        exact baseLeft.append_left _
      · refine List.Perm.trans ?_ part.targets
        simp only [List.filterMap_append, List.filterMap_cons, List.filterMap_nil,
          List.append_assoc, List.singleton_append]
        exact targetLeft.append_left _
      · intro p member
        rcases List.mem_append.mp member with old | new
        · exact part.paired p old
        · rw [List.mem_singleton.mp new]
          exact ⟨rfl, rfl⟩
      · intro p member b' t' isBase isTarget
        rcases List.mem_append.mp member with old | new
        · exact reasoned p old b' t' isBase isTarget
        · cases List.mem_singleton.mp new
          cases isBase
          cases isTarget
          exact sound _ _ k named sameKey close
      · exact fun c member other => List.mem_filter.mpr ⟨member, by simpa using other⟩

/-- A whole loop over chunks that wait for a partner. -/
theorem matchLoop_ok (key : DocumentChunk → Option String) (reason : MatchReason)
    (similar : DocumentChunk → DocumentChunk → Bool)
    (holds : MatchReason → DocumentChunk → DocumentChunk → Prop)
    (baseIds : (base.map (·.documentChunkId)).Nodup)
    (targetIds : (target.map (·.documentChunkId)).Nodup)
    (sound : ∀ b t k, key b = some k → key t = some k → similar b t = true → holds reason b t)
    {todo : List DocumentChunk} {queues : Queues} {m : Matching} (part : Partition base target m)
    (reasoned : Reasoned holds m) (ok : QueuesOk key target queues)
    (waiting : ∀ b ∈ todo, b ∈ m.unmatchedBase)
    (distinct : (todo.map (·.documentChunkId)).Nodup) :
    Partition base target (todo.foldl (matchChunk key reason similar) (queues, m)).2 ∧
      Reasoned holds (todo.foldl (matchChunk key reason similar) (queues, m)).2 := by
  induction todo generalizing queues m with
  | nil => exact ⟨part, reasoned⟩
  | cons b todo ih =>
    obtain ⟨fresh, rest⟩ := List.nodup_cons.mp distinct
    obtain ⟨⟨queues', m'⟩, done⟩ : ∃ s, matchChunk key reason similar (queues, m) b = s := ⟨_, rfl⟩
    obtain ⟨part', reasoned', ok', kept⟩ := matchChunk_ok baseIds targetIds sound part reasoned ok
      (waiting b List.mem_cons_self) done
    rw [List.foldl_cons, done]
    refine ih part' reasoned' ok' (fun c member => ?_) rest
    exact kept c (waiting c (List.mem_cons_of_mem _ member)) fun same =>
      fresh (List.mem_map.mpr ⟨c, member, same⟩)

end Loops

section Stages
variable [SourceText] {S : Type} [LinearOrder S] (similarity : DocumentChunk → DocumentChunk → S)
  (threshold : S) {base target : List DocumentChunk}

omit [SourceText] in
theorem byIndex_perm (chunks : List DocumentChunk) : (byIndex chunks).Perm chunks :=
  List.perm_insertionSort _ _

omit [SourceText] in
theorem chunksById_eq {chunks : List DocumentChunk}
    (distinct : (chunks.map (·.documentChunkId)).Nodup) : chunksById chunks = chunks := by
  have append (front : List DocumentChunk) : ∀ rest : List DocumentChunk,
      ((front ++ rest).map (·.documentChunkId)).Nodup →
        Table.mergeRows DocumentChunk.documentChunkId front rest = front ++ rest := by
    intro rest
    induction rest generalizing front with
    | nil =>
      intro _
      exact (List.append_nil _).symm
    | cons c rest ih =>
      intro whole
      have fresh : ¬(front.any fun d => d.documentChunkId == c.documentChunkId) = true := by
        intro again
        obtain ⟨d, member, same⟩ := List.any_eq_true.mp again
        rw [List.map_append, List.map_cons] at whole
        exact (List.nodup_append.mp whole).2.2 _ (List.mem_map_of_mem member) _ List.mem_cons_self
          (beq_iff_eq.mp same)
      have one : Table.mergeRow DocumentChunk.documentChunkId front c = front ++ [c] := if_neg fresh
      have shape : front ++ c :: rest = (front ++ [c]) ++ rest := by simp
      rw [Table.mergeRows, List.foldl_cons, one, shape]
      exact ih (front ++ [c]) (shape ▸ whole)
  exact append [] chunks distinct

/-- A pair of the last stage stands at one index and is similar enough. -/
def Close (similarity : DocumentChunk → DocumentChunk → S) (threshold : S) (reason : MatchReason)
    (b t : DocumentChunk) : Prop :=
  reason = .chunkIndexSimilarity → b.chunkIndex = t.chunkIndex ∧ threshold ≤ similarity b t

omit [SourceText] in
theorem matchByKey_ok (key : DocumentChunk → Option String) (reason : MatchReason)
    (similar : DocumentChunk → DocumentChunk → Bool)
    (holds : MatchReason → DocumentChunk → DocumentChunk → Prop)
    (baseIds : (base.map (·.documentChunkId)).Nodup)
    (targetIds : (target.map (·.documentChunkId)).Nodup)
    (sound : ∀ b t k, key b = some k → key t = some k → similar b t = true → holds reason b t)
    {m : Matching} (part : Partition base target m) (reasoned : Reasoned holds m) :
    Partition base target (matchByKey key reason similar m) ∧
      Reasoned holds (matchByKey key reason similar m) := by
  have strip {c : DocumentChunk} {k : String} (named : (key c).filter (· ≠ "") = some k) :
      key c = some k := (Option.filter_eq_some_iff.mp named).1
  refine matchLoop_ok _ _ _ _ baseIds targetIds
    (fun b t k one two => sound b t k (strip one) (strip two)) part reasoned ?_ ?_ ?_
  · refine queuesOf_ok _ fun c member => part.targets.subset (List.mem_append_right _ ?_)
    exact (byIndex_perm _).mem_iff.mp member
  · exact fun b member => (byIndex_perm _).mem_iff.mp member
  · exact ((byIndex_perm _).map _).nodup_iff.mpr (nodup_part baseIds part.bases)

omit [SourceText] in
theorem indexKey_eq {b t : DocumentChunk} {k : String} (one : indexKey b = some k)
    (two : indexKey t = some k) : b.chunkIndex = t.chunkIndex := by
  have same := Option.some.inj (one.trans two.symm)
  exact toString_injective ((String.append_right_inj _).mp same)

theorem matchStages_ok (baseIds : (base.map (·.documentChunkId)).Nodup)
    (targetIds : (target.map (·.documentChunkId)).Nodup) :
    Partition base target (matchStages similarity threshold base target) ∧
      Reasoned (Close similarity threshold) (matchStages similarity threshold base target) := by
  have start : Partition base target ⟨chunksById base, chunksById target, []⟩ := by
    rw [chunksById_eq baseIds, chunksById_eq targetIds]
    exact ⟨List.Perm.refl _, List.Perm.refl _, fun _ h => nomatch h⟩
  have all : ∀ b ∈ base, b ∈ chunksById base := by
    rw [chunksById_eq baseIds]
    exact fun _ h => h
  obtain ⟨part, reasoned⟩ := matchLoop_ok (fun c => some c.chunkHash) .chunkHash (fun _ _ => true)
    (Close similarity threshold) baseIds targetIds (fun _ _ _ _ _ _ other => nomatch other) start
    (fun _ h => nomatch h) (queuesOf_ok _ fun _ h => h) all baseIds
  obtain ⟨part, reasoned⟩ := matchByKey_ok structuralKey .structuralKey (fun _ _ => true)
    (Close similarity threshold) baseIds targetIds (fun _ _ _ _ _ _ other => nomatch other)
    part reasoned
  refine matchByKey_ok indexKey .chunkIndexSimilarity _ _ baseIds targetIds
    (fun b t k one two close _ => ?_) part reasoned
  exact ⟨indexKey_eq one two, by simpa using close⟩

end Stages

section Theorem
variable [SourceText] {S : Type} [LinearOrder S] (similarity : DocumentChunk → DocumentChunk → S)
  (threshold : S)

omit [SourceText] in
theorem sortedMatches_perm (found : List ChunkMatch) : (sortedMatches found).Perm found :=
  List.perm_insertionSort _ _

omit [SourceText] in
theorem sortedMatches_sorted (found : List ChunkMatch) :
    (sortedMatches found).Pairwise fun a b => toLex a.sortKey ≤ toLex b.sortKey := by
  have order (a b : ChunkMatch) : (a.sortKey.1 < b.sortKey.1 ∨
      (a.sortKey.1 = b.sortKey.1 ∧ a.sortKey.2 ≤ b.sortKey.2)) ↔
      toLex a.sortKey ≤ toLex b.sortKey := Prod.Lex.toLex_le_toLex.symm
  have total : Std.Total fun a b : ChunkMatch => a.sortKey.1 < b.sortKey.1 ∨
      (a.sortKey.1 = b.sortKey.1 ∧ a.sortKey.2 ≤ b.sortKey.2) :=
    ⟨fun a b => by simpa only [order] using le_total (toLex a.sortKey) (toLex b.sortKey)⟩
  have trans : IsTrans ChunkMatch fun a b => a.sortKey.1 < b.sortKey.1 ∨
      (a.sortKey.1 = b.sortKey.1 ∧ a.sortKey.2 ≤ b.sortKey.2) :=
    ⟨fun a b c first second => by
      rw [order] at first second ⊢
      exact le_trans first second⟩
  exact (List.pairwise_insertionSort _ found).imp fun le => (order _ _).mp le

omit [SourceText] in
theorem count_sides (found : List ChunkMatch)
    (sides : ∀ m ∈ found, m.base.isSome ∨ m.target.isSome) :
    countOf .removed found + countOf .changed found + countOf .unchanged found =
        (found.filterMap (·.base)).length ∧
      countOf .added found + countOf .changed found + countOf .unchanged found =
        (found.filterMap (·.target)).length := by
  induction found with
  | nil => exact ⟨rfl, rfl⟩
  | cons m found ih =>
    obtain ⟨bases, targets⟩ := ih fun n member => sides n (List.mem_cons_of_mem _ member)
    have here := sides m List.mem_cons_self
    obtain ⟨b, t, reason⟩ := m
    cases b with
    | none =>
      cases t with
      | none => simp at here
      | some t =>
        simp [countOf, ChunkMatch.diffType] at bases targets ⊢
        omega
    | some b =>
      cases t with
      | none =>
        simp [countOf, ChunkMatch.diffType] at bases targets ⊢
        omega
      | some t =>
        by_cases same : b.chunkHash = t.chunkHash <;>
          simp [countOf, ChunkMatch.diffType, same] at bases targets ⊢ <;> omega

theorem chunkMatches_sides {base target : List DocumentChunk}
    (part : Partition base target (matchStages similarity threshold base target)) :
    ((chunkMatches similarity threshold base target).filterMap (·.base)).Perm base ∧
      ((chunkMatches similarity threshold base target).filterMap (·.target)).Perm target := by
  have none (xs : List DocumentChunk) :
      xs.filterMap (fun _ => (none : Option DocumentChunk)) = [] := by simp
  have all (xs : List DocumentChunk) : xs.filterMap (fun c => some c) = xs := List.filterMap_some
  unfold chunkMatches
  simp only [List.filterMap_append, List.filterMap_map, Function.comp_def, none, all,
    List.append_nil]
  exact ⟨((byIndex_perm _).append_left _).trans part.bases,
    ((byIndex_perm _).append_left _).trans part.targets⟩

theorem chunkMatches_some {base target : List DocumentChunk}
    (part : Partition base target (matchStages similarity threshold base target)) :
    ∀ m ∈ chunkMatches similarity threshold base target, m.base.isSome ∨ m.target.isSome := by
  intro m member
  rcases List.mem_append.mp member with inside | added
  · rcases List.mem_append.mp inside with paired | removed
    · exact .inl (part.paired m paired).1
    · obtain ⟨b, _, rfl⟩ := List.mem_map.mp removed
      exact .inl rfl
  · obtain ⟨t, _, rfl⟩ := List.mem_map.mp added
    exact .inr rfl

/-- Each chunk of either side stands in one match, the counts add up, the items are the first ones
in the order of the matches, and a pair of the index stage is similar enough. -/
theorem chunk_diff_partition (scores : Scores S) (maxItems : Nat) (base target : List DocumentChunk)
    (baseIds : (base.map (·.documentChunkId)).Nodup)
    (targetIds : (target.map (·.documentChunkId)).Nodup) :
    let found := chunkMatches similarity threshold base target
    let (items, counts, truncated) := chunkDiff similarity threshold scores maxItems base target
    (found.filterMap (·.base)).Perm base ∧ (found.filterMap (·.target)).Perm target ∧
      counts.removed + counts.changed + counts.unchanged = base.length ∧
      counts.added + counts.changed + counts.unchanged = target.length ∧
      (∃ ordered : List ChunkMatch, ordered.Perm found ∧
        (ordered.Pairwise fun a b => toLex a.sortKey ≤ toLex b.sortKey) ∧
        items = (ordered.take (min maxItems found.length)).map (diffItem similarity scores)) ∧
      (truncated = true ↔ maxItems < found.length) ∧
      ∀ m ∈ found, m.reason = .chunkIndexSimilarity → ∃ b t, m.base = some b ∧ m.target = some t ∧
        b.chunkIndex = t.chunkIndex ∧ threshold ≤ similarity b t := by
  obtain ⟨part, close⟩ := matchStages_ok similarity threshold baseIds targetIds
  obtain ⟨bases, targets⟩ := chunkMatches_sides similarity threshold part
  have sides := chunkMatches_some similarity threshold part
  have order := sortedMatches_perm (chunkMatches similarity threshold base target)
  obtain ⟨left, right⟩ := count_sides (sortedMatches (chunkMatches similarity threshold base target))
    fun m member => sides m (order.mem_iff.mp member)
  rw [(order.filterMap _).length_eq, bases.length_eq] at left
  rw [(order.filterMap _).length_eq, targets.length_eq] at right
  refine ⟨bases, targets, left, right, ⟨_, order, sortedMatches_sorted _, ?_⟩, decide_eq_true_iff,
    fun m member reason => ?_⟩
  · rw [← order.length_eq, List.take_eq_take_min]
  · rcases List.mem_append.mp member with inside | added
    · rcases List.mem_append.mp inside with paired | removed
      · obtain ⟨hasBase, hasTarget⟩ := part.paired m paired
        obtain ⟨b, isBase⟩ := Option.isSome_iff_exists.mp hasBase
        obtain ⟨t, isTarget⟩ := Option.isSome_iff_exists.mp hasTarget
        exact ⟨b, t, isBase, isTarget, close m paired b t isBase isTarget reason⟩
      · obtain ⟨b, _, rfl⟩ := List.mem_map.mp removed
        cases reason
    · obtain ⟨t, _, rfl⟩ := List.mem_map.mp added
      cases reason

/-- Names of sources as they are. -/
@[reducible] def plainSource : SourceText where
  safeOptionalLabel := some
  safeUrl := some
  floatText _ := ""

/-- A chunk without structure. -/
def plainChunk (id version index : Nat) (hash text : String) : DocumentChunk :=
  ⟨id, version, index, hash, text, none, none, none, none, none, none, "text", 0⟩

omit [SourceText] in
/-- Two chunks against one with the text of the second. -/
theorem chunk_diff_partition_pair :
    let _ : SourceText := plainSource
    let found := chunkMatches (fun b t => if b.contentText = t.contentText then 1 else 0) 1
      [plainChunk 1 1 0 "x" "one", plainChunk 2 1 1 "y" "two"] [plainChunk 3 2 1 "z" "two"]
    (found.filterMap (·.target)).Perm [plainChunk 3 2 1 "z" "two"] ∧
      found.map (·.reason) = [.chunkIndexSimilarity, .unmatched] := by
  intro _
  exact ⟨(chunk_diff_partition (fun b t => if b.contentText = t.contentText then 1 else 0) 1
    ⟨1, id⟩ 200 [plainChunk 1 1 0 "x" "one", plainChunk 2 1 1 "y" "two"]
    [plainChunk 3 2 1 "z" "two"] (by decide) (by decide)).2.1, by decide +kernel⟩

end Theorem

end RagProject.Documents
