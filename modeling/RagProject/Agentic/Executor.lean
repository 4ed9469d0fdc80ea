import RagProject.Agentic.Merge
import RagProject.Context.Redactor

/-! AgenticRetrievalExecutor (rag/agentic.py). The spans of the latency tracker are left out. -/
namespace RagProject.Agentic
open Python

inductive QueryIntent where
  | factualLookup | procedural | comparison | summarization | troubleshooting | definition
  | versionSpecific | unknown
  deriving DecidableEq, Repr

def QueryIntent.value : QueryIntent → String
  | .factualLookup => "factual_lookup"
  | .procedural => "procedural"
  | .comparison => "comparison"
  | .summarization => "summarization"
  | .troubleshooting => "troubleshooting"
  | .definition => "definition"
  | .versionSpecific => "version_specific"
  | .unknown => "unknown"

structure Settings where
  routerMode : String
  routerMaxRetrievalCalls : Int
  routerMaxFallbackCalls : Nat
  routerSufficiencyMinCandidates : Nat
  routerSufficiencyMinSelected : Nat
  routerSufficiencyTopScoreThreshold : Rat
  routerEnableFallbackHybrid : Bool
  routerEnableFallbackDense : Bool
  routerNoContextAfterBudgetExhausted : Bool
  routerFallbackStrategy : String
  sparseEnabled : Bool
  hybridEnabled : Bool
  hybridSparseWeight : Rat
  deriving Repr

structure ContextSufficiencyDecision where
  sufficient : Bool
  score : Rat
  reasonCodes : List String
  candidateCount : Nat
  selectedCount : Nat
  topScore : Option Rat
  minRequiredCandidates : Nat
  minRequiredSelected : Nat
  fallbackRecommended : Bool
  sourceDiversity : Nat
  deriving DecidableEq, Repr

section Checker

def topScore (candidates : List CheckedRetrievalCandidate) : Option Rat :=
  (candidates.map (·.retrievalScore)).max?

def sourceDiversity (candidates : List CheckedRetrievalCandidate) : Nat :=
  (candidates.map (·.logicalDocument.logicalDocumentId)).dedup.length

def sufficiencyScore (candidateCount selectedCount : Nat) (topScore : Option Rat)
    (minCandidates minSelected : Nat) (threshold : Rat) (sourceDiversity : Nat)
    (comparisonIntent : Bool) : Rat :=
  let score := if minCandidates ≤ candidateCount then 35 / 100 else 0
  let score := if minSelected ≤ selectedCount then score + 25 / 100 else score
  let score := if topScore.any (threshold ≤ ·) then score + 3 / 10 else score
  let score := if !comparisonIntent || 2 ≤ sourceDiversity then score + 1 / 10 else score
  roundDecimal 6 (min 1 score)

/-- ContextSufficiencyChecker.check. -/
def check (settings : Settings) (candidates : List CheckedRetrievalCandidate) (selectedCount : Nat)
    (intent : Option QueryIntent) : ContextSufficiencyDecision :=
  let candidateCount := candidates.length
  let minCandidates := settings.routerSufficiencyMinCandidates
  let minSelected := settings.routerSufficiencyMinSelected
  let threshold := settings.routerSufficiencyTopScoreThreshold
  let topScore := topScore candidates
  let sourceDiversity := sourceDiversity (candidates.take selectedCount)
  let comparison : Bool := intent = some .comparison
  let reasonCodes :=
    (if candidateCount = 0 then ["no_candidates"] else []) ++
    (if candidateCount < minCandidates then ["too_few_candidates"] else []) ++
    (if selectedCount < minSelected then ["too_few_selected_candidates"] else []) ++
    (match topScore with
      | none => ["missing_top_score"]
      | some score => if score < threshold then ["low_top_score"] else []) ++
    (if comparison && selectedCount < 2 then ["too_few_selected_candidates_for_comparison"]
      else []) ++
    (if comparison && sourceDiversity < 2 then ["insufficient_source_diversity_for_comparison"]
      else [])
  let sufficient := reasonCodes.isEmpty
  { sufficient := sufficient
    score := sufficiencyScore candidateCount selectedCount topScore minCandidates minSelected
      threshold sourceDiversity comparison
    reasonCodes := if sufficient then ["sufficient_context"] else reasonCodes
    candidateCount := candidateCount
    selectedCount := selectedCount
    topScore := topScore
    minRequiredCandidates := minCandidates
    minRequiredSelected := minSelected
    fallbackRecommended := !sufficient
    sourceDiversity := sourceDiversity }

end Checker

section Planner

structure AgenticStrategyPlan where
  action : String
  strategy : Option RetrievalStrategy
  confidence : Rat
  reasonCodes : List String
  provider : String
  model : String
  deriving Repr

structure AgenticPlannerResult where
  plan : Option AgenticStrategyPlan
  fallbackReason : Option String
  provider : Option String
  model : Option String
  deriving Repr

structure AgenticPlannerAttemptSummary where
  strategy : RetrievalStrategy
  role : String
  candidateCount : Nat
  qdrantCandidateCount : Nat
  sparseCandidateCount : Option Nat
  hybridCandidateCount : Option Nat
  excludedByRdbCheckCount : Nat
  topScore : Option Rat
  deriving Repr

structure AgenticPlannerSufficiencySummary where
  sufficient : Bool
  score : Rat
  reasonCodes : List String
  candidateCount : Nat
  selectedCount : Nat
  topScore : Option Rat
  fallbackRecommended : Bool
  sourceDiversity : Nat
  deriving Repr

structure AgenticStrategyPlanningRequest where
  query : String
  phase : String
  availableStrategies : List RetrievalStrategy
  candidateStrategies : List RetrievalStrategy
  attemptedStrategies : List RetrievalStrategy
  queryAnalysis : Value
  attemptSummaries : List AgenticPlannerAttemptSummary
  sufficiencySummaries : List AgenticPlannerSufficiencySummary
  remainingRetrievalCalls : Nat
  remainingFallbackCalls : Nat
  deriving Repr

/-- left or right, of optional texts. -/
def orText (left right : Option String) : Option String :=
  match left with
  | some text => if text = "" then right else left
  | none => right

def optionalText : Option String → Value
  | some text => .str text
  | none => .none

def plannerTraceEvent [UnicodeTables] (phase : String) (result : Option AgenticPlannerResult)
    (used : Bool) (action : Option String) (selectedStrategy : Option RetrievalStrategy)
    (fallbackReason : Option String) : Value :=
  let plan := result.bind (·.plan)
  let provider := result.bind (·.provider)
  let model := result.bind (·.model)
  let reason := orText fallbackReason (result.bind (·.fallbackReason))
  let selected := selectedStrategy.or (plan.bind (·.strategy))
  Context.redact (.dict [
    ("schema_version", .str "phase2.agentic_planner.v1"),
    ("phase", .str phase),
    ("llm_planner_used", .bool used),
    ("planner_provider", optionalText (orText provider (plan.map (·.provider)))),
    ("planner_model", optionalText (orText model (plan.map (·.model)))),
    ("planner_action", optionalText (orText action (plan.map (·.action)))),
    ("planner_selected_strategy", optionalText (selected.map (·.value))),
    ("planner_reason_codes", .list (((plan.map (·.reasonCodes)).getD []).map .str)),
    ("planner_fallback_reason", optionalText reason)])

end Planner

section Strategies
variable (settings : Settings)

def boundedMaxCalls (value : Int) : Nat := min 3 (max 1 value).toNat

def configuredFallbackStrategy : RetrievalStrategy :=
  if settings.routerFallbackStrategy = RetrievalStrategy.dense.value then .dense else .fallbackDense

def strategyAvailable : RetrievalStrategy → Bool
  | .dense | .fallbackDense => settings.routerEnableFallbackDense
  | .sparse => settings.sparseEnabled
  | .hybrid =>
    if !settings.routerEnableFallbackHybrid || !settings.hybridEnabled then false
    else settings.hybridSparseWeight ≤ 0 || settings.sparseEnabled
  | _ => false

def fallbackStrategies (initialStrategy : RetrievalStrategy) : List RetrievalStrategy :=
  let fallbackDense := configuredFallbackStrategy settings
  let strategies :=
    if initialStrategy = .dense ∨ initialStrategy = .fallbackDense then [.hybrid, fallbackDense]
    else if initialStrategy = .sparse then [.hybrid, fallbackDense]
    else [fallbackDense]
  strategies.filter fun strategy => strategyAvailable settings strategy &&
    executionFamily strategy != executionFamily initialStrategy

variable {Ref : Type}

def availableFallbackStrategies (initialStrategy : RetrievalStrategy)
    (attempts : List (RetrievalAttemptResult Ref)) : List RetrievalStrategy :=
  let attemptedFamilies := attempts.map fun attempt => executionFamily attempt.strategy
  let attemptedStrategies := attempts.map RetrievalAttemptResult.strategy
  (fallbackStrategies settings initialStrategy).filter fun strategy =>
    !attemptedStrategies.contains strategy && !attemptedFamilies.contains (executionFamily strategy)

def nextRuleBasedFallback (initialStrategy : RetrievalStrategy)
    (attempts : List (RetrievalAttemptResult Ref)) : Option RetrievalStrategy :=
  (availableFallbackStrategies settings initialStrategy attempts).head?

def plannerStrategyRejection (strategy : RetrievalStrategy) (available : List RetrievalStrategy)
    (attempts : List (RetrievalAttemptResult Ref)) : Option String :=
  if strategy ∈ attempts.map RetrievalAttemptResult.strategy then
    some "planner_strategy_already_attempted"
  else if executionFamily strategy ∈ attempts.map (fun attempt => executionFamily attempt.strategy) then
    some "planner_strategy_family_already_attempted"
  else if strategy ∉ available then some "planner_strategy_unavailable"
  else none

end Strategies

section Execute
variable [UnicodeTables] {Ref World : Type} [DecidableEq Ref] [Objects Ref]

/-- What the executor was built with, and the function that retrieves. The planner and the
retrieval may keep a state of their own. -/
structure Executor (Ref World : Type) where
  settings : Settings
  checker : List CheckedRetrievalCandidate → Nat → Option QueryIntent → ContextSufficiencyDecision
  planner : Option (World → AgenticStrategyPlanningRequest → AgenticPlannerResult × World)
  retrieve : World → RetrievalStrategy → String → RetrievalAttemptResult Ref × World

structure Query where
  query : String
  initialStrategy : RetrievalStrategy
  intent : Option QueryIntent
  topK : Nat
  rerankTopN : Nat

def attemptSummary (attempt : RetrievalAttemptResult Ref) : AgenticPlannerAttemptSummary :=
  { strategy := attempt.strategy
    role := attempt.role
    candidateCount := attempt.candidates.length
    qdrantCandidateCount := attempt.qdrantCandidateCount
    sparseCandidateCount := attempt.sparseCandidateCount
    hybridCandidateCount := attempt.hybridCandidateCount
    excludedByRdbCheckCount := attempt.excludedByRdbCheckCount
    topScore := topScore (attempt.candidates.map Objects.candidate) }

def sufficiencySummary (decision : ContextSufficiencyDecision) : AgenticPlannerSufficiencySummary :=
  { sufficient := decision.sufficient
    score := decision.score
    reasonCodes := decision.reasonCodes
    candidateCount := decision.candidateCount
    selectedCount := decision.selectedCount
    topScore := decision.topScore
    fallbackRecommended := decision.fallbackRecommended
    sourceDiversity := decision.sourceDiversity }

/-- The local variables of the loop. -/
structure LoopState (Ref World : Type) where
  attempts : List (RetrievalAttemptResult Ref)
  decisions : List ContextSufficiencyDecision
  plannerEvents : List Value
  fallbackCalls : Nat
  world : World

/-- The arguments of _result_from_attempts, and what the calls have left behind. -/
structure Outcome (Ref World : Type) where
  attempts : List (RetrievalAttemptResult Ref)
  decisions : List ContextSufficiencyDecision
  fallbackReason : Option String
  budgetExhausted : Bool
  plannerEvents : List Value
  world : World

variable (x : Executor Ref World) (q : Query)

def Executor.maxCalls : Nat := boundedMaxCalls x.settings.routerMaxRetrievalCalls

def Executor.maxFallbackCalls : Nat := min x.settings.routerMaxFallbackCalls (x.maxCalls - 1)

def planningRequest (s : LoopState Ref World) (available : List RetrievalStrategy) :
    AgenticStrategyPlanningRequest :=
  { query := q.query
    phase := "fallback"
    availableStrategies := available
    candidateStrategies := available
    attemptedStrategies := s.attempts.map RetrievalAttemptResult.strategy
    queryAnalysis := Context.redact (.dict [("intent", optionalText (q.intent.map (·.value)))])
    attemptSummaries := s.attempts.map attemptSummary
    sufficiencySummaries := s.decisions.map sufficiencySummary
    remainingRetrievalCalls := x.maxCalls - s.attempts.length
    remainingFallbackCalls := x.maxFallbackCalls - s.fallbackCalls }

/-- The strategy that a result of the planner asks for, whether it wants to finish, and the event
that is noted. -/
def readPlan (attempts : List (RetrievalAttemptResult Ref)) (available : List RetrievalStrategy)
    (result : AgenticPlannerResult) : (Option RetrievalStrategy × Bool) × Value :=
  match result.plan with
  | none => ((none, false), plannerTraceEvent "fallback" (some result) false none none
      (orText result.fallbackReason (some "planner_failed")))
  | some plan =>
    if plan.action = "finalize" then
      ((none, true), plannerTraceEvent "fallback" (some result) true (some "finalize") none none)
    else match plan.strategy with
      | none => ((none, false), plannerTraceEvent "fallback" (some result) false none none
          (some "planner_missing_strategy"))
      | some strategy =>
        match plannerStrategyRejection strategy available attempts with
        | some rejection => ((none, false), plannerTraceEvent "fallback" (some result) false none
            (some strategy) (some rejection))
        | none => ((some strategy, false),
            plannerTraceEvent "fallback" (some result) true none (some strategy) none)

def plannedFallbackStrategy (s : LoopState Ref World) :
    (Option RetrievalStrategy × Bool) × LoopState Ref World :=
  if x.settings.routerMode ≠ "llm" then ((none, false), s)
  else
    let available := availableFallbackStrategies x.settings q.initialStrategy s.attempts
    if available.isEmpty then ((none, false), s)
    else match x.planner with
      | none =>
        let event := plannerTraceEvent "fallback" none false none none (some "planner_unavailable")
        ((none, false), { s with plannerEvents := s.plannerEvents ++ [event] })
      | some plan =>
        let (result, world) := plan s.world (planningRequest x q s available)
        let (answer, event) := readPlan s.attempts available result
        (answer, { s with plannerEvents := s.plannerEvents ++ [event], world := world })

/-- What one turn of the loop comes to. -/
inductive Turn (Ref World : Type) where
  | done (outcome : Outcome Ref World)
  | again (s : LoopState Ref World)

def LoopState.outcome (s : LoopState Ref World) (fallbackReason : Option String)
    (budgetExhausted : Bool) : Outcome Ref World :=
  ⟨s.attempts, s.decisions, fallbackReason, budgetExhausted, s.plannerEvents, s.world⟩

/-- The retrieval at the end of a turn, with the decision on what there is then. -/
def fallbackTurn (s : LoopState Ref World) (strategy : RetrievalStrategy) : Turn Ref World :=
  let (attempt, world) := x.retrieve s.world strategy "fallback"
  let attempts := s.attempts ++ [attempt]
  let merged := mergeDedupeCandidates attempts q.topK
  let decision := x.checker merged (min q.rerankTopN merged.length) q.intent
  let s := { s with
    attempts := attempts
    decisions := s.decisions ++ [decision]
    fallbackCalls := s.fallbackCalls + 1
    world := world }
  if decision.sufficient then .done (s.outcome (some "insufficient_context") false) else .again s

/-- The loop, from its condition on. -/
def turn (s : LoopState Ref World) : Turn Ref World :=
  if ¬(s.fallbackCalls < x.maxFallbackCalls ∧ s.attempts.length < x.maxCalls) then
    .done (s.outcome (some "insufficient_context") true)
  else
    let ((planned, plannerFinalize), s) := plannedFallbackStrategy x q s
    if plannerFinalize then .done (s.outcome none false)
    else
      match planned.or (nextRuleBasedFallback x.settings q.initialStrategy s.attempts) with
      | none => .done (s.outcome (some "insufficient_context") true)
      | some strategy =>
        if x.maxFallbackCalls ≤ s.fallbackCalls ∨ x.maxCalls ≤ s.attempts.length then
          .done (s.outcome (some "insufficient_context") true)
        else if executionFamily strategy ∈
            s.attempts.map (fun attempt => executionFamily attempt.strategy) then .again s
        else fallbackTurn x q s strategy

/-- So many turns at most; none when they do not suffice. -/
def loop : Nat → LoopState Ref World → Option (Outcome Ref World)
  | 0, _ => none
  | fuel + 1, s =>
    match turn x q s with
    | .done outcome => some outcome
    | .again s => loop fuel s

/-- The state after the initial retrieval. -/
def start (world : World) : LoopState Ref World :=
  let (attempt, world) := x.retrieve world q.initialStrategy "initial"
  let candidates := attempt.candidates.map Objects.candidate
  let decision := x.checker candidates (min q.rerankTopN candidates.length) q.intent
  ⟨[attempt], [decision], [], 0, world⟩

def run (fuel : Nat) (world : World) : Option (Outcome Ref World) :=
  let s := start x q world
  let sufficient := s.decisions.any (·.sufficient)
  if sufficient || x.maxCalls ≤ 1 || x.maxFallbackCalls = 0 then
    some (s.outcome none (!sufficient && (x.maxCalls ≤ 1 || x.maxFallbackCalls = 0)))
  else loop x q fuel s

structure AgenticRetrievalResult where
  finalCandidates : List CheckedRetrievalCandidate
  retrievalCallCount : Nat
  initialStrategy : Option RetrievalStrategy
  fallbackStrategies : List RetrievalStrategy
  fallbackUsed : Bool
  fallbackReason : Option String
  sufficiencyDecisions : List ContextSufficiencyDecision
  mergedCandidateCount : Nat
  dedupedCandidateCount : Nat
  finalSelectedCount : Nat
  noContext : Bool
  budgetExhausted : Bool
  qdrantCandidateCount : Nat
  sparseCandidateCount : Option Nat
  hybridCandidateCount : Option Nat
  excludedByRdbCheckCount : Nat
  plannerEvents : List Value

def sumOptional (values : List (Option Nat)) : Option Nat :=
  match values.filterMap id with
  | [] => none
  | seen => some seen.sum

def resultFromAttempts (o : Outcome Ref World) : AgenticRetrievalResult :=
  let finalCandidates := mergeDedupeCandidates o.attempts q.topK
  let fallbackAttempts := o.attempts.tail
  { finalCandidates := finalCandidates
    retrievalCallCount := o.attempts.length
    initialStrategy := (o.attempts.map RetrievalAttemptResult.strategy).head?
    fallbackStrategies := fallbackAttempts.map RetrievalAttemptResult.strategy
    fallbackUsed := !fallbackAttempts.isEmpty
    fallbackReason := if fallbackAttempts.isEmpty then none else o.fallbackReason
    sufficiencyDecisions := o.decisions
    mergedCandidateCount := (o.attempts.map fun attempt => attempt.candidates.length).sum
    dedupedCandidateCount := finalCandidates.length
    finalSelectedCount := min q.rerankTopN finalCandidates.length
    noContext := o.decisions.getLast?.any (!·.sufficient) &&
      x.settings.routerNoContextAfterBudgetExhausted
    budgetExhausted := o.budgetExhausted
    qdrantCandidateCount := (o.attempts.map (·.qdrantCandidateCount)).sum
    sparseCandidateCount := sumOptional (o.attempts.map (·.sparseCandidateCount))
    hybridCandidateCount := sumOptional (o.attempts.map (·.hybridCandidateCount))
    excludedByRdbCheckCount := (o.attempts.map (·.excludedByRdbCheckCount)).sum
    plannerEvents := o.plannerEvents }

def execute (fuel : Nat) (world : World) : Option AgenticRetrievalResult :=
  (run x q fuel world).map (resultFromAttempts x q)

end Execute

end RagProject.Agentic
