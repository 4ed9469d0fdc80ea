import RagProject.Agentic.Executor

/-! The agentic loop ends within its budgets, never repeats a family of strategies, and hands on
the best chunks that any of its attempts found. -/
namespace RagProject.Agentic
open Python

section Strategies
variable {settings : Settings} {Ref : Type} {initial strategy : RetrievalStrategy}
  {attempts : List (RetrievalAttemptResult Ref)}

/-- A strategy that is available is of a family that was not attempted. -/
theorem available_fresh
    (available : strategy ∈ availableFallbackStrategies settings initial attempts) :
    executionFamily strategy ∉ attempts.map fun attempt => executionFamily attempt.strategy := by
  have fresh := (List.mem_filter.mp available).2
  rw [Bool.and_eq_true] at fresh
  simpa using fresh.2

theorem rejection_none {available : List RetrievalStrategy}
    (accepted : plannerStrategyRejection strategy available attempts = none) :
    strategy ∈ available := by
  unfold plannerStrategyRejection at accepted
  split at accepted
  · cases accepted
  · split at accepted
    · cases accepted
    · split at accepted
      · cases accepted
      · rename_i listed
        exact not_not.mp listed

theorem rule_available
    (chosen : nextRuleBasedFallback settings initial attempts = some strategy) :
    strategy ∈ availableFallbackStrategies settings initial attempts :=
  List.mem_of_head? chosen

end Strategies

section Run
variable [UnicodeTables] {Ref World : Type} [DecidableEq Ref] [Objects Ref]
  {x : Executor Ref World} {q : Query}

omit [DecidableEq Ref] [Objects Ref] in
theorem readPlan_available {attempts : List (RetrievalAttemptResult Ref)}
    {available : List RetrievalStrategy} {result : AgenticPlannerResult}
    {strategy : RetrievalStrategy}
    (chosen : (readPlan attempts available result).1.1 = some strategy) : strategy ∈ available := by
  unfold readPlan at chosen
  split at chosen
  · cases chosen
  · split at chosen
    · cases chosen
    · split at chosen
      · cases chosen
      · split at chosen
        · cases chosen
        · rename_i accepted
          cases chosen
          exact rejection_none accepted

omit [DecidableEq Ref] in
/-- The planner changes nothing but the events and its own state, and only asks for what is
available. -/
theorem planned_cases (s : LoopState Ref World) :
    (plannedFallbackStrategy x q s).2.attempts = s.attempts ∧
    (plannedFallbackStrategy x q s).2.decisions = s.decisions ∧
    (plannedFallbackStrategy x q s).2.fallbackCalls = s.fallbackCalls ∧
    ∀ strategy, (plannedFallbackStrategy x q s).1.1 = some strategy →
      strategy ∈ availableFallbackStrategies x.settings q.initialStrategy s.attempts := by
  unfold plannedFallbackStrategy
  split
  · exact ⟨rfl, rfl, rfl, fun _ chosen => nomatch chosen⟩
  · dsimp only
    split
    · exact ⟨rfl, rfl, rfl, fun _ chosen => nomatch chosen⟩
    · split
      · exact ⟨rfl, rfl, rfl, fun _ chosen => nomatch chosen⟩
      · exact ⟨rfl, rfl, rfl, fun _ chosen => readPlan_available chosen⟩

/-- The retrieval returns an attempt for the strategy that was asked for. -/
def Honest (x : Executor Ref World) : Prop :=
  ∀ world strategy role, (x.retrieve world strategy role).1.strategy = strategy

/-- The attempts so far: the initial one, then strategies that were available when their turn
came. -/
structure Attempted (x : Executor Ref World) (q : Query)
    (attempts : List (RetrievalAttemptResult Ref)) : Prop where
  initial : (attempts.map RetrievalAttemptResult.strategy).head? = some q.initialStrategy
  families : (attempts.map fun attempt => executionFamily attempt.strategy).Nodup
  available : ∀ before attempt later, attempts = before ++ attempt :: later → before ≠ [] →
    attempt.strategy ∈ availableFallbackStrategies x.settings q.initialStrategy before

/-- What every turn starts from. -/
structure Running (x : Executor Ref World) (q : Query) (s : LoopState Ref World) : Prop where
  attempted : Attempted x q s.attempts
  calls : s.attempts.length = s.fallbackCalls + 1
  room : s.attempts.length ≤ x.maxCalls
  fallbacks : s.fallbackCalls ≤ x.maxFallbackCalls
  judged : s.decisions.length = s.attempts.length
  insufficient : ∀ d ∈ s.decisions, d.sufficient = false

/-- What the executor returns from. -/
structure Finished (x : Executor Ref World) (q : Query) (o : Outcome Ref World) : Prop where
  attempted : Attempted x q o.attempts
  calls : 1 ≤ o.attempts.length ∧ o.attempts.length ≤ x.maxCalls
  fallbacks : o.attempts.length ≤ x.maxFallbackCalls + 1
  judged : o.decisions.length = o.attempts.length
  insufficient : ∀ d ∈ o.decisions.dropLast, d.sufficient = false

omit [UnicodeTables] [DecidableEq Ref] [Objects Ref] in
theorem Running.finished {s : LoopState Ref World} (running : Running x q s)
    (fallbackReason : Option String) (budgetExhausted : Bool) :
    Finished x q (s.outcome fallbackReason budgetExhausted) := by
  obtain ⟨attempted, calls, room, fallbacks, judged, insufficient⟩ := running
  refine ⟨attempted, ⟨?_, room⟩, ?_, judged, fun d member => ?_⟩
  · change 1 ≤ s.attempts.length
    omega
  · change s.attempts.length ≤ x.maxFallbackCalls + 1
    omega
  · exact insufficient d (List.mem_of_mem_dropLast member)

omit [UnicodeTables] [DecidableEq Ref] [Objects Ref] in
theorem Attempted.next {attempts : List (RetrievalAttemptResult Ref)}
    (attempted : Attempted x q attempts) {attempt : RetrievalAttemptResult Ref}
    (available : attempt.strategy ∈
      availableFallbackStrategies x.settings q.initialStrategy attempts) :
    Attempted x q (attempts ++ [attempt]) := by
  obtain ⟨initial, families, each⟩ := attempted
  refine ⟨?_, ?_, fun before a later shape some => ?_⟩
  · rw [List.map_append, List.head?_append, initial]
    rfl
  · rw [List.map_append, List.map_singleton, List.nodup_append]
    refine ⟨families, List.nodup_singleton _, ?_⟩
    intro family member last there same
    rw [List.mem_singleton.mp there] at same
    exact available_fresh available (same ▸ member)
  · rcases List.eq_nil_or_concat later with rfl | ⟨init, last, rfl⟩
    · obtain ⟨rfl, same⟩ := List.append_inj' shape rfl
      rw [List.singleton_inj] at same
      exact same ▸ available
    · rw [List.concat_eq_append, ← List.cons_append, ← List.append_assoc] at shape
      obtain ⟨whole, _⟩ := List.append_inj' shape rfl
      exact each before a init whole some

omit [UnicodeTables] [DecidableEq Ref] [Objects Ref] in
theorem Running.planned {s t : LoopState Ref World} (running : Running x q s)
    (attempts : t.attempts = s.attempts) (decisions : t.decisions = s.decisions)
    (calls : t.fallbackCalls = s.fallbackCalls) : Running x q t := by
  obtain ⟨attempted, count, room, fallbacks, judged, insufficient⟩ := running
  constructor
  · exact attempts ▸ attempted
  · rw [attempts, calls, count]
  · exact attempts ▸ room
  · exact calls ▸ fallbacks
  · rw [attempts, decisions, judged]
  · exact decisions ▸ insufficient

omit [UnicodeTables] in
/-- A fallback makes one more attempt; the first decision that is sufficient ends the loop. -/
theorem fallback_cases (honest : Honest x) {s : LoopState Ref World} (running : Running x q s)
    (calls : s.fallbackCalls < x.maxFallbackCalls) (room : s.attempts.length < x.maxCalls)
    {strategy : RetrievalStrategy}
    (available : strategy ∈ availableFallbackStrategies x.settings q.initialStrategy s.attempts) :
    (∃ o, fallbackTurn x q s strategy = .done o ∧ Finished x q o) ∨
    ∃ t, fallbackTurn x q s strategy = .again t ∧ Running x q t ∧
      t.attempts.length = s.attempts.length + 1 := by
  have asked := honest s.world strategy "fallback"
  unfold fallbackTurn
  dsimp only
  generalize (x.retrieve s.world strategy "fallback").1 = attempt at asked
  generalize (x.retrieve s.world strategy "fallback").2 = world
  generalize x.checker _ _ _ = decision
  have attempted := running.attempted.next (asked ▸ available : attempt.strategy ∈
    availableFallbackStrategies x.settings q.initialStrategy s.attempts)
  have count := running.calls
  have longer : (s.attempts ++ [attempt]).length = s.attempts.length + 1 := by simp
  have judged : (s.decisions ++ [decision]).length = (s.attempts ++ [attempt]).length := by
    simp [running.judged]
  by_cases sufficient : decision.sufficient = true
  · left
    rw [if_pos sufficient]
    refine ⟨_, rfl, attempted, ⟨?_, ?_⟩, ?_, judged, ?_⟩
    · change 1 ≤ (s.attempts ++ [attempt]).length
      omega
    · change (s.attempts ++ [attempt]).length ≤ x.maxCalls
      omega
    · change (s.attempts ++ [attempt]).length ≤ x.maxFallbackCalls + 1
      omega
    · intro d member
      apply running.insufficient d
      have front : (s.decisions ++ [decision]).dropLast = s.decisions := List.dropLast_concat
      exact front ▸ member
  · right
    rw [if_neg sufficient]
    refine ⟨_, rfl, ⟨attempted, ?_, ?_, ?_, judged, ?_⟩, longer⟩
    · change (s.attempts ++ [attempt]).length = s.fallbackCalls + 1 + 1
      omega
    · change (s.attempts ++ [attempt]).length ≤ x.maxCalls
      omega
    · change s.fallbackCalls + 1 ≤ x.maxFallbackCalls
      omega
    · intro d member
      rcases List.mem_append.mp member with old | last
      · exact running.insufficient d old
      · rw [List.mem_singleton.mp last]
        simpa using sufficient

/-- A turn returns, or goes on with one more attempt. -/
theorem turn_cases (honest : Honest x) {s : LoopState Ref World} (running : Running x q s) :
    (∃ o, turn x q s = .done o ∧ Finished x q o) ∨
    ∃ s', turn x q s = .again s' ∧ Running x q s' ∧
      s'.attempts.length = s.attempts.length + 1 := by
  obtain ⟨attempts, decisions, calls, asked⟩ := planned_cases (x := x) (q := q) s
  unfold turn
  by_cases condition : s.fallbackCalls < x.maxFallbackCalls ∧ s.attempts.length < x.maxCalls
  · rw [if_neg (not_not.mpr condition)]
    generalize plannedFallbackStrategy x q s = step at attempts decisions calls asked
    obtain ⟨⟨planned, plannerFinalize⟩, t⟩ := step
    have next := running.planned attempts decisions calls
    dsimp only at attempts calls asked ⊢
    rw [← attempts] at asked
    split
    · exact .inl ⟨_, rfl, next.finished none false⟩
    · split
      · exact .inl ⟨_, rfl, next.finished _ true⟩
      · rename_i strategy chosen
        have available : strategy ∈
            availableFallbackStrategies x.settings q.initialStrategy t.attempts := by
          rcases Option.or_eq_some_iff.mp chosen with first | ⟨_, rule⟩
          · exact asked strategy first
          · exact rule_available rule
        have budget : ¬(x.maxFallbackCalls ≤ t.fallbackCalls ∨ x.maxCalls ≤ t.attempts.length) := by
          rw [calls, attempts]
          omega
        -- what is available is of a new family, so that no turn is skipped
        rw [if_neg budget, if_neg (available_fresh available), ← attempts]
        obtain ⟨below, room⟩ := not_or.mp budget
        exact fallback_cases honest next (not_le.mp below) (not_le.mp room) available
  · rw [if_pos condition]
    exact .inl ⟨_, rfl, running.finished _ true⟩

theorem loop_ends (honest : Honest x) (rest : Nat) {s : LoopState Ref World}
    (running : Running x q s) (left : x.maxCalls - s.attempts.length ≤ rest) :
    ∃ o, (∀ fuel, rest < fuel → loop x q fuel s = some o) ∧ Finished x q o := by
  induction rest generalizing s with
  | zero =>
    rcases turn_cases honest running with ⟨o, ends, finished⟩ | ⟨s', _, next, longer⟩
    · refine ⟨o, fun fuel enough => ?_, finished⟩
      obtain ⟨fuel, rfl⟩ := Nat.exists_eq_succ_of_ne_zero (Nat.pos_iff_ne_zero.mp enough)
      rw [loop, ends]
    · have room := next.room
      omega
  | succ rest ih =>
    rcases turn_cases honest running with ⟨o, ends, finished⟩ | ⟨s', goes, next, longer⟩
    · refine ⟨o, fun fuel enough => ?_, finished⟩
      obtain ⟨fuel, rfl⟩ := Nat.exists_eq_succ_of_ne_zero (by omega : fuel ≠ 0)
      rw [loop, ends]
    · obtain ⟨o, ends, finished⟩ := ih next (by omega)
      refine ⟨o, fun fuel enough => ?_, finished⟩
      obtain ⟨fuel, rfl⟩ := Nat.exists_eq_succ_of_ne_zero (by omega : fuel ≠ 0)
      rw [loop, goes]
      exact ends fuel (by omega)

/-- What the loop and its result keep to. -/
structure AgenticSound (x : Executor Ref World) (q : Query) (o : Outcome Ref World)
    (result : AgenticRetrievalResult) : Prop where
  calls : 1 ≤ o.attempts.length ∧
    (o.attempts.length : Int) ≤ min 3 (max 1 x.settings.routerMaxRetrievalCalls)
  fallbacks : o.attempts.tail.length ≤ x.settings.routerMaxFallbackCalls
  counted : result.retrievalCallCount = o.attempts.length ∧
    result.fallbackStrategies = o.attempts.tail.map RetrievalAttemptResult.strategy
  attempted : Attempted x q o.attempts
  judged : result.sufficiencyDecisions.length = o.attempts.length
  stopped : ∀ d ∈ result.sufficiencyDecisions.dropLast, d.sufficient = false
  merged : Merged o.attempts q.topK result.finalCandidates
  anyOrder : ∀ others, others.Perm o.attempts →
    (mergeDedupeCandidates others q.topK).map (fun c => (c.rankOrder, c.place)) =
      result.finalCandidates.map fun c => (c.rankOrder, c.place)

omit [UnicodeTables] in
/-- Attempts in another order give the same chunks, scores and ranks. -/
theorem listing_perm {attempts others : List (RetrievalAttemptResult Ref)}
    (same : others.Perm attempts) (limit : Nat) :
    (mergeDedupeCandidates others limit).map (fun c => (c.rankOrder, c.place)) =
      (mergeDedupeCandidates attempts limit).map fun c => (c.rankOrder, c.place) := by
  have pairs : ∀ l : List CheckedRetrievalCandidate,
      l.map (fun c => (c.rankOrder, c.place)) = (l.map (·.rankOrder)).zip (l.map (·.place)) := by
    intro l
    rw [List.zip_map']
  have left := merge_ok others limit
  have right := merge_ok attempts limit
  have places : (mergeDedupeCandidates others limit).map (·.place) =
      (mergeDedupeCandidates attempts limit).map (·.place) := by
    rw [left.top, right.top, topChunks_perm same]
  have lengths := congrArg List.length places
  rw [List.length_map, List.length_map] at lengths
  rw [pairs, pairs, places, left.ranks, right.ranks, lengths]

omit [UnicodeTables] in
theorem Finished.sound {o : Outcome Ref World} (finished : Finished x q o) :
    AgenticSound x q o (resultFromAttempts x q o) := by
  obtain ⟨attempted, ⟨some, calls⟩, fallbacks, judged, insufficient⟩ := finished
  refine ⟨⟨some, ?_⟩, ?_, ⟨rfl, rfl⟩, attempted, judged, insufficient, merge_ok o.attempts q.topK,
    fun others same => listing_perm same q.topK⟩
  · unfold Executor.maxCalls boundedMaxCalls at calls
    omega
  · unfold Executor.maxFallbackCalls at fallbacks
    rw [List.length_tail]
    omega

omit [UnicodeTables] [DecidableEq Ref] in
theorem start_shape (honest : Honest x) (world : World) : ∃ attempt decision,
    (start x q world).attempts = [attempt] ∧ (start x q world).decisions = [decision] ∧
      (start x q world).fallbackCalls = 0 ∧ attempt.strategy = q.initialStrategy :=
  ⟨_, _, rfl, rfl, rfl, honest world q.initialStrategy "initial"⟩

omit [UnicodeTables] [DecidableEq Ref] [Objects Ref] in
theorem one_attempted {attempt : RetrievalAttemptResult Ref}
    (asked : attempt.strategy = q.initialStrategy) : Attempted x q [attempt] := by
  refine ⟨congrArg some asked, List.nodup_singleton _, fun before a later shape some => ?_⟩
  obtain ⟨first, rest, rfl⟩ := List.exists_cons_of_ne_nil some
  have lengths := congrArg List.length shape
  simp at lengths

omit [UnicodeTables] [DecidableEq Ref] [Objects Ref] in
theorem maxCalls_bounds (x : Executor Ref World) : 1 ≤ x.maxCalls ∧ x.maxCalls ≤ 3 := by
  unfold Executor.maxCalls boundedMaxCalls
  omega

/-- The loop ends after three turns at most, whatever the planner and the retrieval do. -/
theorem agentic_loop (honest : Honest x) (world : World) :
    ∃ o, (∀ fuel, 3 ≤ fuel → run x q fuel world = some o) ∧
      AgenticSound x q o (resultFromAttempts x q o) := by
  obtain ⟨attempt, decision, attempts, decisions, calls, asked⟩ := start_shape (q := q) honest world
  obtain ⟨least, most⟩ := maxCalls_bounds x
  have attempted : Attempted x q (start x q world).attempts := attempts ▸ one_attempted asked
  unfold run
  dsimp only
  by_cases early : ((start x q world).decisions.any (·.sufficient) || x.maxCalls ≤ 1 ||
      x.maxFallbackCalls = 0) = true
  · refine ⟨_, fun _ _ => if_pos early, Finished.sound ⟨attempted, ?_, ?_, ?_, ?_⟩⟩
    · change 1 ≤ (start x q world).attempts.length ∧ (start x q world).attempts.length ≤ x.maxCalls
      rw [attempts]
      exact ⟨Nat.le_refl 1, least⟩
    · change (start x q world).attempts.length ≤ x.maxFallbackCalls + 1
      rw [attempts]
      exact Nat.le_add_left 1 _
    · change (start x q world).decisions.length = (start x q world).attempts.length
      rw [attempts, decisions]
      rfl
    · change ∀ d ∈ (start x q world).decisions.dropLast, d.sufficient = false
      rw [decisions]
      exact fun _ member => nomatch member
  · have running : Running x q (start x q world) := by
      refine ⟨attempted, ?_, ?_, ?_, ?_, ?_⟩
      · rw [attempts, calls]
        rfl
      · rw [attempts]
        exact least
      · rw [calls]
        exact Nat.zero_le _
      · rw [attempts, decisions]
        rfl
      · intro d member
        simp only [Bool.or_eq_true, not_or, List.any_eq_true, not_exists, not_and] at early
        simpa using early.1.1 d member
    have left : x.maxCalls - (start x q world).attempts.length ≤ 2 := by
      rw [attempts, List.length_singleton]
      omega
    obtain ⟨o, ends, finished⟩ := loop_ends honest 2 running left
    exact ⟨o, fun fuel enough => (if_neg early).trans (ends fuel enough), finished.sound⟩

end Run

section Example

/-- Candidates for two chunks; the number is the score in hundredths. -/
@[reducible] def twoChunks : Objects Nat where
  candidate n :=
    { chunk := ⟨n % 2 + 1, 1, n % 2, "", "text", none, none, none, none, none, none, "text", 0⟩
      documentVersion := ⟨1, 1, 1, "", .ready, true, none, "a.txt", "text/plain", 4, none, none, none,
        none, none, 1, 0, 0⟩
      logicalDocument := ⟨1, 1, "a", .active, none, 0, 0⟩
      retrievalScore := n / 100
      rankOrder := 1
      payload := [] }

/-- A planner that always asks for the sparse strategy, which is no fallback here, so that the
rules choose. -/
def stubbornExecutor : Executor Nat Nat :=
  let settings : Settings := ⟨"llm", 3, 2, 1, 1, 9 / 10, true, true, true, "fallback_dense", true,
    true, 1 / 2⟩
  { settings := settings
    checker := check settings
    planner := some fun n _ => (⟨some ⟨"retrieve", some .sparse, 1, [], "p", "m"⟩, none, none, none⟩,
      n + 1)
    retrieve := fun n strategy role => (⟨strategy, [n, n + 1], 2, none, none, 0, role⟩, n + 10) }

theorem stubborn_planner : let _ : UnicodeTables := asciiTables
    let _ : Objects Nat := twoChunks
    let q : Query := ⟨"how", .dense, none, 5, 3⟩
    ∃ o, (∀ fuel, 3 ≤ fuel → run stubbornExecutor q fuel 20 = some o) ∧
      AgenticSound stubbornExecutor q o (resultFromAttempts stubbornExecutor q o) := by
  intro _ _ q
  have honest : Honest stubbornExecutor := fun _ _ _ => rfl
  exact agentic_loop honest 20

end Example

end RagProject.Agentic
