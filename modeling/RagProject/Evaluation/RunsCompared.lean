import Mathlib.Data.List.Dedup
import RagProject.Evaluation.RunComparison

/-! Every item of the two runs stands in one comparison, with an item of the same case, as long as
the keys of text tell the items apart; and the comparison is antisymmetric. -/
namespace RagProject.Evaluation
open Python Context

section Keys

/-- A text before the last colon. -/
theorem before_colon {a b d e : List Char} (first : ':' ∉ d) (second : ':' ∉ e)
    (same : a ++ ':' :: d = b ++ ':' :: e) : a = b ∧ d = e := by
  have tail {x y : List Char} (free : ':' ∉ y) :
      (x ++ ':' :: y).reverse.takeWhile (· ≠ ':') = y.reverse := by
    rw [List.reverse_append, List.reverse_cons, List.append_assoc, List.takeWhile_append_of_pos]
    · simp
    · intro c member
      simp only [decide_eq_true_eq]
      rintro rfl
      exact free (List.mem_reverse.mp member)
  have ends : d = e := by
    have both := tail (x := a) first
    rw [same, tail second] at both
    exact (List.reverse_injective both).symm
  subst ends
  exact ⟨List.append_cancel_right same, rfl⟩

theorem digits_colon (n : Nat) : ':' ∉ (toString n).toList := by
  have shape : (toString n).toList = Nat.toDigits 10 n := Nat.toList_repr
  rw [shape]
  intro member
  have digit := Nat.isDigit_of_mem_toDigits (by decide) (by decide) member
  exact absurd digit (by decide)

variable {duplicated : List String} {s t : EvaluationCaseComparisonSource}

/-- The key of an item says which item it is, and what its key was before. -/
theorem itemKey_inj (same : itemKey duplicated s = itemKey duplicated t) :
    s.evaluationRunItemId = t.evaluationRunItemId ∧ matchKey duplicated s = matchKey duplicated t := by
  unfold itemKey at same
  have texts := congrArg String.toList same
  rw [String.toList_append, String.toList_append, String.toList_append, String.toList_append] at texts
  have colon : "::item:".toList = "::item".toList ++ [':'] := by decide
  rw [colon, ← List.append_assoc, ← List.append_assoc, List.append_assoc, List.append_assoc _ [':'],
    List.singleton_append, List.singleton_append] at texts
  obtain ⟨front, ids⟩ := before_colon (digits_colon _) (digits_colon _) texts
  exact ⟨toString_injective (String.toList_injective ids),
    String.toList_injective (List.append_cancel_right front)⟩

end Keys

section ByKey
variable (duplicated : List String)

/-- An item whose key another item of its run has as well. -/
def HasTwin (sources : List EvaluationCaseComparisonSource) (t : EvaluationCaseComparisonSource) :
    Prop :=
  ∃ u ∈ sources, u.evaluationRunItemId ≠ t.evaluationRunItemId ∧
    matchKey duplicated u = matchKey duplicated t

instance (sources : List EvaluationCaseComparisonSource) (t : EvaluationCaseComparisonSource) :
    Decidable (HasTwin duplicated sources t) := inferInstanceAs (Decidable (∃ _ ∈ _, _))

/-- No key of an item is the longer key of an item with a twin. -/
def Apart (sources others : List EvaluationCaseComparisonSource) : Prop :=
  ∀ t ∈ sources, HasTwin duplicated sources t → ∀ s ∈ others,
    matchKey duplicated s ≠ itemKey duplicated t

instance (sources others : List EvaluationCaseComparisonSource) :
    Decidable (Apart duplicated sources others) :=
  inferInstanceAs (Decidable (∀ _ ∈ _, _ → ∀ _ ∈ _, _))

/-- The dict holds the items, each under its key or, beside a twin, under its longer key. -/
structure Keyed (sources done : List EvaluationCaseComparisonSource) (byKey : SourcesByKey) : Prop where
  values : byKey.map Prod.snd = done
  distinct : (byKey.map Prod.fst).Nodup
  keys : ∀ entry ∈ byKey, entry.1 = matchKey duplicated entry.2 ∨
    entry.1 = itemKey duplicated entry.2 ∧ HasTwin duplicated sources entry.2
  taken : ∀ s ∈ done, ∃ entry ∈ byKey, entry.1 = matchKey duplicated s

variable {duplicated} {sources done : List EvaluationCaseComparisonSource}
variable {byKey : SourcesByKey} {s t : EvaluationCaseComparisonSource}

theorem addSource_keyed (apart : Apart duplicated sources sources)
    (keyed : Keyed duplicated sources done byKey)
    (ids : ((done ++ [s]).map (·.evaluationRunItemId)).Nodup)
    (inside : ∀ r ∈ done ++ [s], r ∈ sources) :
    Keyed duplicated sources (done ++ [s]) (addSource duplicated byKey s) := by
  have here : s ∈ sources := inside s (List.mem_append_right _ List.mem_cons_self)
  have among {entry : String × EvaluationCaseComparisonSource} (member : entry ∈ byKey) :
      entry.2 ∈ done := keyed.values ▸ List.mem_map_of_mem member
  have other {r : EvaluationCaseComparisonSource} (member : r ∈ done) :
      r.evaluationRunItemId ≠ s.evaluationRunItemId := by
    rw [List.map_append, List.nodup_append] at ids
    exact ids.2.2 _ (List.mem_map_of_mem member) _ (List.mem_map_of_mem List.mem_cons_self)
  have before {r : EvaluationCaseComparisonSource} (member : r ∈ done) : r ∈ sources :=
    inside r (List.mem_append_left _ member)
  -- The key that the item gets is new, and one of its two keys.
  obtain ⟨key, added, fresh, kind, present⟩ : ∃ key,
      addSource duplicated byKey s = Table.mergeRow Prod.fst byKey (key, s) ∧
      (∀ entry ∈ byKey, entry.1 ≠ key) ∧
      (key = matchKey duplicated s ∨ key = itemKey duplicated s ∧ HasTwin duplicated sources s) ∧
      (key = matchKey duplicated s ∨ ∃ entry ∈ byKey, entry.1 = matchKey duplicated s) := by
    unfold addSource
    dsimp only
    by_cases there : byKey.any (·.1 == matchKey duplicated s) = true
    · rw [if_pos there]
      obtain ⟨entry, member, same⟩ := List.any_eq_true.mp there
      rw [beq_iff_eq] at same
      have twin : HasTwin duplicated sources s := by
        rcases keyed.keys entry member with key | ⟨key, twin⟩
        · exact ⟨entry.2, before (among member), other (among member), key ▸ same⟩
        · exact absurd (same.symm.trans key) (apart _ (before (among member)) twin s here)
      refine ⟨_, rfl, ?_, .inr ⟨rfl, twin⟩, .inr ⟨entry, member, same⟩⟩
      intro old inDict equal
      rcases keyed.keys old inDict with key | ⟨key, _⟩
      · exact apart s here twin old.2 (before (among inDict)) (key ▸ equal)
      · exact other (among inDict) (itemKey_inj (key ▸ equal)).1
    · rw [if_neg there]
      refine ⟨_, rfl, ?_, .inl rfl, .inl rfl⟩
      intro old inDict equal
      exact there (List.any_eq_true.mpr ⟨old, inDict, beq_iff_eq.mpr equal⟩)
  rw [added, Table.mergeRow_fresh fresh]
  refine ⟨?_, Table.append_distinct keyed.distinct fresh, ?_, ?_⟩
  · rw [List.map_append, keyed.values]
    rfl
  · intro entry member
    rcases List.mem_append.mp member with old | last
    · exact keyed.keys entry old
    · rw [List.mem_singleton.mp last]
      exact kind
  · intro r member
    rcases List.mem_append.mp member with old | last
    · obtain ⟨entry, inDict, same⟩ := keyed.taken r old
      exact ⟨entry, List.mem_append_left _ inDict, same⟩
    · rw [List.mem_singleton.mp last]
      rcases present with same | ⟨entry, inDict, same⟩
      · exact ⟨(key, s), List.mem_append_right _ List.mem_cons_self, same⟩
      · exact ⟨entry, List.mem_append_left _ inDict, same⟩

/-- Nothing is lost in the dict of a run. -/
theorem sources_keyed (ids : (sources.map (·.evaluationRunItemId)).Nodup)
    (apart : Apart duplicated sources sources) :
    Keyed duplicated sources sources (caseSourcesByMatchKey duplicated sources) := by
  have run (done : List EvaluationCaseComparisonSource)
      (distinct : (done.map (·.evaluationRunItemId)).Nodup) (inside : ∀ r ∈ done, r ∈ sources) :
      Keyed duplicated sources done (done.foldl (addSource duplicated) []) := by
    induction done using List.reverseRecOn with
    | nil => exact ⟨rfl, .nil, fun _ none => (nomatch none), fun _ none => (nomatch none)⟩
    | append_singleton done s ih =>
      rw [List.foldl_append]
      apply addSource_keyed apart _ distinct inside
      apply ih
      · rw [List.map_append] at distinct
        exact (List.nodup_append.mp distinct).1
      · exact fun r member => inside r (List.mem_append_left _ member)
  exact run sources ids fun _ member => member

end ByKey

section Exchange

def EvaluationCaseTransition.exchanged : EvaluationCaseTransition → EvaluationCaseTransition
  | .added => .removed
  | .removed => .added
  | .improved => .regressed
  | .regressed => .improved
  | .unchanged => .unchanged

/-- A comparison and the one with base and candidate exchanged. -/
structure Exchanged (comparison other : EvaluationCaseComparison) : Prop where
  baseStatus : other.baseStatus = comparison.candidateStatus
  candidateStatus : other.candidateStatus = comparison.baseStatus
  transition : other.transition = comparison.transition.exchanged
  metricDeltas : other.metricDeltas = comparison.metricDeltas.map fun delta =>
    (delta.1, delta.2.map (- ·))

theorem mem_sortedUnion {left right : List String} {key : String} :
    key ∈ sortedUnion left right ↔ key ∈ left ∨ key ∈ right := by
  unfold sortedUnion
  rw [List.mem_insertionSort, List.mem_dedup, List.mem_append]

theorem sortedUnion_nodup (left right : List String) : (sortedUnion left right).Nodup := by
  unfold sortedUnion
  exact (List.perm_insertionSort _ _).nodup_iff.mpr (List.nodup_dedup _)

/-- The keys do not depend on which run is the base. -/
theorem sortedUnion_comm (left right : List String) :
    sortedUnion left right = sortedUnion right left := by
  unfold sortedUnion
  apply List.Perm.eq_of_pairwise' (List.pairwise_insertionSort _ _)
    (List.pairwise_insertionSort _ _)
  apply (List.perm_insertionSort _ _).trans
  apply List.Perm.trans _ (List.perm_insertionSort _ _).symm
  exact List.perm_append_comm.dedup

theorem caseTransition_exchanged (base candidate : Option EvaluationStatus)
    (some_run : base.isSome ∨ candidate.isSome) :
    caseTransition candidate base = (caseTransition base candidate).exchanged := by
  cases base with
  | none =>
    cases candidate with
    | none => simp at some_run
    | some candidate => rfl
  | some base =>
    cases candidate with
    | none => rfl
    | some candidate => cases base <;> cases candidate <;> rfl

theorem caseMetricDeltas_exchanged (baseValues candidateValues : List (String × Rat)) :
    caseMetricDeltas candidateValues baseValues =
      (caseMetricDeltas baseValues candidateValues).map fun delta =>
        (delta.1, delta.2.map (- ·)) := by
  unfold caseMetricDeltas
  rw [sortedUnion_comm, List.map_map]
  apply List.map_congr_left
  intro metricName _
  simp only [Function.comp]
  congr 1
  cases baseValues.lookup metricName with
  | none => cases candidateValues.lookup metricName <;> rfl
  | some baseValue =>
    cases candidateValues.lookup metricName with
    | none => rfl
    | some candidateValue =>
      have negated : baseValue - candidateValue = -(candidateValue - baseValue) := by ring
      simp only [Option.map_some, negated, roundDecimal_neg]

theorem caseComparison_exchanged (key : String) {base candidate : Option EvaluationCaseComparisonSource}
    (some_run : base.isSome ∨ candidate.isSome) :
    Exchanged (caseComparison key (base, candidate)) (caseComparison key (candidate, base)) := by
  refine ⟨rfl, rfl, caseTransition_exchanged _ _ (by simpa using some_run), ?_⟩
  cases base with
  | none => cases candidate <;> rfl
  | some base =>
    cases candidate with
    | none => rfl
    | some candidate => exact caseMetricDeltas_exchanged _ _

theorem matchKey_congr {d e : List String} (same : ∀ caseId, caseId ∈ d ↔ caseId ∈ e)
    (sources : List EvaluationCaseComparisonSource) :
    caseSourcesByMatchKey d sources = caseSourcesByMatchKey e sources := by
  have key (s : EvaluationCaseComparisonSource) : matchKey d s = matchKey e s := by
    unfold matchKey
    simp only [same]
  unfold caseSourcesByMatchKey
  congr 1
  funext byKey s
  unfold addSource itemKey
  simp only [key]

variable [UnicodeTables] (base candidate : ComparedRun)

/-- Base and candidate exchanged: the same keys, with what they hold exchanged. -/
theorem matchedSources_exchanged :
    matchedSources candidate base = (matchedSources base candidate).map fun entry =>
      (entry.1, entry.2.swap) := by
  have same : ∀ caseId,
      caseId ∈ duplicatedCaseIds [caseComparisonSources candidate, caseComparisonSources base] ↔
        caseId ∈ duplicatedCaseIds [caseComparisonSources base, caseComparisonSources candidate] := by
    intro caseId
    unfold duplicatedCaseIds
    simp only [List.flatMap_cons, List.flatMap_nil, List.append_nil, List.mem_append]
    exact or_comm
  unfold matchedSources
  dsimp only
  rw [matchKey_congr same, matchKey_congr same, sortedUnion_comm, List.map_map]
  rfl

theorem matchedSources_some {key : String} {pair : MatchedSources}
    (member : (key, pair) ∈ matchedSources base candidate) : pair.1.isSome ∨ pair.2.isSome := by
  unfold matchedSources at member
  obtain ⟨key, there, same⟩ := List.mem_map.mp member
  cases same
  rcases mem_sortedUnion.mp there with left | right
  · obtain ⟨entry, inside, rfl⟩ := List.mem_map.mp left
    exact .inl (List.lookup_isSome_iff.mpr ⟨entry, inside, beq_self_eq_true _⟩)
  · obtain ⟨entry, inside, rfl⟩ := List.mem_map.mp right
    exact .inr (List.lookup_isSome_iff.mpr ⟨entry, inside, beq_self_eq_true _⟩)

theorem compareRunCases_exchanged :
    List.Forall₂ Exchanged (compareRunCases base candidate) (compareRunCases candidate base) := by
  unfold compareRunCases
  rw [matchedSources_exchanged base candidate, List.map_map, List.forall₂_map_left_iff, List.forall₂_map_right_iff,
    List.forall₂_same]
  rintro ⟨key, left, right⟩ member
  exact caseComparison_exchanged key (matchedSources_some base candidate member)

/-- A run against itself: nothing changes. -/
theorem compareRunCases_itself (comparison : EvaluationCaseComparison)
    (member : comparison ∈ compareRunCases base base) :
    comparison.transition = .unchanged ∧
      ∀ delta ∈ comparison.metricDeltas, delta.2 = some 0 ∨ delta.2 = none := by
  obtain ⟨⟨key, left, right⟩, there, rfl⟩ := List.mem_map.mp member
  have filled := matchedSources_some base base there
  obtain ⟨_, _, same⟩ := List.mem_map.mp there
  cases same
  dsimp only at filled ⊢
  obtain ⟨source, found⟩ := Option.isSome_iff_exists.mp (or_self_iff.mp filled)
  rw [found]
  refine ⟨if_pos rfl, ?_⟩
  intro delta inside
  obtain ⟨metricName, _, rfl⟩ := List.mem_map.mp inside
  dsimp only
  cases source.metricValues.lookup metricName with
  | none => exact .inr rfl
  | some value =>
    left
    dsimp only
    rw [sub_self]
    exact congrArg some (roundDecimal_int 0)

end Exchange

section Claim
variable [UnicodeTables] (base candidate : ComparedRun)

/-- The case ids that occur more than once in one of the runs. -/
def repeatedCaseIds : List String :=
  duplicatedCaseIds [caseComparisonSources base, caseComparisonSources candidate]

/-- No text is the key of two items of different cases or, in a repeated case, different labels; and
none is the longer key of another item. -/
structure Unambiguous : Prop where
  across : ∀ s ∈ caseComparisonSources base, ∀ t ∈ caseComparisonSources candidate,
    matchKey (repeatedCaseIds base candidate) s = matchKey (repeatedCaseIds base candidate) t →
      s.caseId = t.caseId ∧
        (s.caseId ∈ repeatedCaseIds base candidate → s.comparisonLabel = t.comparisonLabel)
  bases : Apart (repeatedCaseIds base candidate) (caseComparisonSources base)
    (caseComparisonSources base ++ caseComparisonSources candidate)
  candidates : Apart (repeatedCaseIds base candidate) (caseComparisonSources candidate)
    (caseComparisonSources base ++ caseComparisonSources candidate)

/-- Each item stands in one comparison, with items of its case; the comparison is antisymmetric. -/
structure CasesCompared : Prop where
  bases : ((matchedSources base candidate).filterMap (·.2.1)).Perm (caseComparisonSources base)
  candidates : ((matchedSources base candidate).filterMap (·.2.2)).Perm
    (caseComparisonSources candidate)
  sameCase : ∀ key s t, (key, some s, some t) ∈ matchedSources base candidate →
    s.caseId = t.caseId ∧
      (1 < caseCount (caseComparisonSources base) s.caseId ∨
        1 < caseCount (caseComparisonSources candidate) s.caseId →
          s.comparisonLabel = t.comparisonLabel)
  onlyOnes : ∀ s ∈ caseComparisonSources base, ∀ t ∈ caseComparisonSources candidate,
    s.caseId = t.caseId → caseCount (caseComparisonSources base) s.caseId = 1 →
      caseCount (caseComparisonSources candidate) t.caseId = 1 →
        ∃ key, (key, some s, some t) ∈ matchedSources base candidate
  exchanged : List.Forall₂ Exchanged (compareRunCases base candidate)
    (compareRunCases candidate base)
  itself : ∀ comparison ∈ compareRunCases base base, comparison.transition = .unchanged ∧
    ∀ delta ∈ comparison.metricDeltas, delta.2 = some 0 ∨ delta.2 = none

variable {base candidate}

theorem mem_repeated {caseId : String} : caseId ∈ repeatedCaseIds base candidate ↔
    1 < caseCount (caseComparisonSources base) caseId ∨
      1 < caseCount (caseComparisonSources candidate) caseId := by
  have listed (sources : List EvaluationCaseComparisonSource) :
      caseId ∈ (sources.map (·.caseId)).dedup.filter (fun caseId => 1 < caseCount sources caseId) ↔
        1 < caseCount sources caseId := by
    rw [List.mem_filter, List.mem_dedup, decide_eq_true_eq, and_iff_right_iff_imp]
    intro many
    obtain ⟨s, member, same⟩ := List.countP_pos_iff.mp (Nat.lt_of_succ_lt many)
    exact List.mem_map.mpr ⟨s, member, beq_iff_eq.mp same⟩
  unfold repeatedCaseIds duplicatedCaseIds
  simp only [List.flatMap_cons, List.flatMap_nil, List.append_nil, List.mem_append, listed]

omit [UnicodeTables] in
/-- An item that is the only one of its case is the only one under its case id. -/
theorem only_source {sources : List EvaluationCaseComparisonSource}
    {s u : EvaluationCaseComparisonSource} (one : caseCount sources s.caseId = 1)
    (first : s ∈ sources) (second : u ∈ sources) (same : u.caseId = s.caseId) : u = s := by
  obtain ⟨r, single⟩ : ∃ r, sources.filter (·.caseId == s.caseId) = [r] := by
    rw [← List.length_eq_one_iff, ← List.countP_eq_length_filter]
    exact one
  have here {t : EvaluationCaseComparisonSource} (member : t ∈ sources)
      (case : t.caseId = s.caseId) : t = r := by
    rw [← List.mem_singleton, ← single]
    exact List.mem_filter.mpr ⟨member, beq_iff_eq.mpr case⟩
  rw [here first rfl, here second same]

theorem sources_ids (run : ComparedRun) :
    (caseComparisonSources run).map (·.evaluationRunItemId) =
      run.items.map (·.evaluationRunItemId) := by
  unfold caseComparisonSources
  rw [List.map_map]
  rfl

end Claim

/-! Runs to try it on. -/

def caseItem (id : Nat) (caseKey strategyType : String) (status : EvaluationStatus) :
    EvaluationRunItem :=
  ⟨id, none, some caseKey, strategyType, status, none⟩

def runOf (items : List EvaluationRunItem) : ComparedRun := ⟨items, fun _ => []⟩

/-- A case under two strategies, one of them twice. -/
def twoStrategies : ComparedRun :=
  runOf [caseItem 1 "refund" "dense" .succeeded, caseItem 2 "refund" "hybrid" .failed,
    caseItem 3 "refund" "hybrid" .failed, caseItem 4 "pricing::eu" "dense" .succeeded]

def oneStrategy : ComparedRun :=
  runOf [caseItem 5 "refund" "hybrid" .succeeded, caseItem 6 "pricing::eu" "dense" .failed]

end RagProject.Evaluation
