import Mathlib.Data.List.Forall2
import RagProject.Mcp.EvaluationSummary

/-! The metrics of a run as the two MCP tools report them: what a faithful report is, and for
which runs they give one. -/
namespace RagProject.Mcp
open Python

section Groups

/-- The comparison group of a row. -/
def StrategyComparisonMetric.label (m : StrategyComparisonMetric) : String :=
  match m.comparisonLabel with
  | some label => if label = "" then m.strategyType else label
  | none => m.strategyType

/-- The row is one of the strategy, under any of its three names. -/
def StrategyComparisonMetric.belongs (m : StrategyComparisonMetric) (strategy : String) : Bool :=
  m.strategyType == strategy || m.comparisonLabel == some strategy ||
    m.retrievalStrategy == some strategy

/-- The row gives the metric the value. -/
def StrategyComparisonMetric.Gives (m : StrategyComparisonMetric) (name : String) (q : Rat) : Prop :=
  m.metricName = name ∧ (m.average = some q ∨ name = "p95_latency" ∧ m.p95 = some q)

def StrategyComparisonMetric.measured (m : StrategyComparisonMetric) : Bool :=
  m.average.isSome || m.metricName == "p95_latency" && m.p95.isSome

/-- The row as the tools show it. -/
def StrategyComparisonMetric.shown (m : StrategyComparisonMetric) : Dict :=
  [("strategy_type", .str m.strategyType), ("comparison_label", textValue m.comparisonLabel),
    ("retrieval_strategy", textValue m.retrievalStrategy),
    ("graph_store_provider", textValue m.graphStoreProvider),
    ("cache_mode", textValue m.cacheMode), ("metric_name", .str m.metricName),
    ("average", numberValue m.average), ("p95", numberValue m.p95), ("count", .int m.count),
    ("not_applicable_count", .int m.notApplicableCount), ("failed_count", .int m.failedCount)]

def StrategyComparisonMetric.texts (m : StrategyComparisonMetric) : List String :=
  [m.strategyType, m.metricName] ++ m.comparisonLabel.toList ++ m.retrievalStrategy.toList ++
    m.graphStoreProvider.toList ++ m.cacheMode.toList

variable (d : EvaluationRunDetail)

def EvaluationRunDetail.rowsOf (strategy : String) : List StrategyComparisonMetric :=
  d.strategyComparison.filter (·.belongs strategy)

/-- The run has the metric for the strategy. -/
def EvaluationRunDetail.Has (strategy name : String) : Prop :=
  ∃ m ∈ d.rowsOf strategy, ∃ q, m.Gives name q

def EvaluationRunDetail.measured (strategy : String) : Bool :=
  (d.rowsOf strategy).any (·.measured)

/-- The value is one that the comparison group gives the metric. -/
def EvaluationRunDetail.FromGroup (strategy label name : String) (v : Value) : Prop :=
  ∃ m ∈ d.rowsOf strategy, m.label = label ∧ ∃ q, m.Gives name q ∧ numberOf v = some q

/-- All metrics of a strategy, all from one group. -/
structure EvaluationRunDetail.Row (strategy : String) (metrics : Dict) : Prop where
  complete : ∀ name, d.Has strategy name → (Dict.get metrics name).isSome
  together : ∃ label, ∀ name v, Dict.get metrics name = some v → d.FromGroup strategy label name v

/-- The entry of rag_compare_strategies for a strategy. -/
def strategyEntry (strategy : String) (metrics : Dict) : Value :=
  .dict [("strategy", .str strategy), ("metric_summary", .dict metrics)]

def floats (metrics : List (String × Rat)) : Dict := metrics.map fun e => (e.1, .float e.2)

variable [UnicodeTables] (cut : String → String) (requested : List McpCompareStrategy)

/-- Both tools report the metrics of the run. -/
structure EvaluationRunDetail.Reported : Prop where
  metricSummary : Dict.get (ragGetEvaluationSummary cut d) "metric_summary" =
    some (.dict (floats d.metricSummary))
  strategyComparison : Dict.get (ragGetEvaluationSummary cut d) "strategy_comparison" =
    some (.list (d.strategyComparison.map fun m => .dict m.shown))
  strategies : ∃ entries,
    Dict.get (ragCompareStrategies cut d requested) "metrics" = some (.list entries) ∧
      List.Forall₂ (fun s entry => ∃ metrics,
        entry = strategyEntry s.value metrics ∧ d.Row s.value metrics)
        (requested.filter (d.measured ·.value)) entries

end Groups

section Picks

/-- The values of a metric in rows, as the average and as the percentile. -/
def averages (rows : List StrategyComparisonMetric) (name : String) : List Rat :=
  rows.filterMap fun m => if m.metricName = name then m.average else none

def percentiles (rows : List StrategyComparisonMetric) (name : String) : List Rat :=
  rows.filterMap fun m =>
    if m.metricName = name ∧ name = "p95_latency" then m.p95 else none

/-- The last percentile, else what is kept already, else the first average. -/
def pick (rows : List StrategyComparisonMetric) (name : String) (kept : Option Value) :
    Option Value :=
  ((percentiles rows name).getLast?.map .float).or
    (kept.or ((averages rows name).head?.map .float))

variable (d : EvaluationRunDetail)

/-- The metrics that the stored summary keeps under the strategy's own name. -/
def EvaluationRunDetail.kept (strategy : String) : Dict :=
  asDict (field (asDict (field (asDict (field (d.strategyMetricsSummaryJson.getD [])
    "strategy_metrics")) strategy)) "metric_summary")

/-- The value that is put together for a metric of the strategy. -/
def EvaluationRunDetail.picked (strategy name : String) : Option Value :=
  pick (d.rowsOf strategy) name (Dict.get (d.kept strategy) name)

variable [UnicodeTables] (cut : String → String) (requested : List McpCompareStrategy)

/-- Nothing of the metrics is hidden or shortened, and no strategy's values are mixed. -/
structure EvaluationRunDetail.Reportable : Prop where
  names : ∀ e ∈ d.metricSummary, plainKey e.1 = true
  texts : ∀ m ∈ d.strategyComparison, ∀ t ∈ m.texts, cut t = t
  plain : ∀ s ∈ requested, ∀ name, (d.picked s.value name).isSome →
    cut s.value = s.value ∧ plainKey name = true
  together : ∀ s ∈ requested, ∃ label, ∀ name v, d.picked s.value name = some v →
    d.FromGroup s.value label name v

end Picks

section Rows

theorem mem_averages {rows : List StrategyComparisonMetric} {name : String} {q : Rat} :
    q ∈ averages rows name ↔ ∃ m ∈ rows, m.metricName = name ∧ m.average = some q := by
  simp [averages, List.mem_filterMap]

theorem mem_percentiles {rows : List StrategyComparisonMetric} {name : String} {q : Rat} :
    q ∈ percentiles rows name ↔
      ∃ m ∈ rows, m.metricName = name ∧ name = "p95_latency" ∧ m.p95 = some q := by
  simp [percentiles, List.mem_filterMap, and_assoc]

/-- A metric that a row gives is picked, whatever is kept. -/
theorem pick_given {rows : List StrategyComparisonMetric} {m : StrategyComparisonMetric}
    {name : String} {q : Rat} (member : m ∈ rows) (gives : m.Gives name q) (kept : Option Value) :
    (pick rows name kept).isSome := by
  obtain ⟨named, average | ⟨latency, p95⟩⟩ := gives
  · have there : q ∈ averages rows name := mem_averages.mpr ⟨m, member, named, average⟩
    have first := List.isSome_head?.mpr (List.ne_nil_of_mem there)
    simp [pick, first]
  · have there : q ∈ percentiles rows name :=
      mem_percentiles.mpr ⟨m, member, named, latency, p95⟩
    have last : (percentiles rows name).getLast?.isSome := by
      simp [Option.isSome_iff_ne_none, List.ne_nil_of_mem there]
    simp [pick, last]

/-- What is picked is kept already or given by a row. -/
theorem pick_isSome {rows : List StrategyComparisonMetric} {name : String} {kept : Option Value}
    (some_ : (pick rows name kept).isSome) :
    kept.isSome ∨ ∃ m ∈ rows, ∃ q, m.Gives name q := by
  simp only [pick, Option.isSome_or, Bool.or_eq_true, Option.isSome_map] at some_
  rcases some_ with last | kept | first
  · obtain ⟨q, last⟩ := Option.isSome_iff_exists.mp last
    obtain ⟨m, member, named, latency, p95⟩ := mem_percentiles.mp (List.mem_of_getLast? last)
    exact .inr ⟨m, member, q, named, .inr ⟨latency, p95⟩⟩
  · exact .inl kept
  · obtain ⟨q, first⟩ := Option.isSome_iff_exists.mp first
    obtain ⟨m, member, named, average⟩ := mem_averages.mp (List.mem_of_head? first)
    exact .inr ⟨m, member, q, named, .inl average⟩

theorem measured_iff {d : EvaluationRunDetail} {strategy : String} :
    d.measured strategy = true ↔ ∃ name, d.Has strategy name := by
  unfold EvaluationRunDetail.measured EvaluationRunDetail.Has
  rw [List.any_eq_true]
  constructor
  · rintro ⟨m, member, measured⟩
    simp only [StrategyComparisonMetric.measured, Bool.or_eq_true, Bool.and_eq_true, beq_iff_eq,
      Option.isSome_iff_exists] at measured
    rcases measured with ⟨q, average⟩ | ⟨latency, q, p95⟩
    · exact ⟨m.metricName, m, member, q, rfl, .inl average⟩
    · exact ⟨m.metricName, m, member, q, rfl, .inr ⟨latency, p95⟩⟩
  · rintro ⟨name, m, member, q, named, given⟩
    refine ⟨m, member, ?_⟩
    rcases given with average | ⟨latency, p95⟩
    · simp [StrategyComparisonMetric.measured, average]
    · simp [StrategyComparisonMetric.measured, named, latency, p95]

theorem shown_matches (strategy : String) (m : StrategyComparisonMetric) :
    matchesStrategyComparison m.shown strategy = m.belongs strategy := by
  have first : field m.shown "strategy_type" = .str m.strategyType := rfl
  have second : field m.shown "comparison_label" = textValue m.comparisonLabel := rfl
  have third : field m.shown "retrieval_strategy" = textValue m.retrievalStrategy := rfl
  unfold matchesStrategyComparison StrategyComparisonMetric.belongs
  rw [first, second, third]
  cases m.comparisonLabel <;> cases m.retrievalStrategy <;> simp [textValue, Bool.or_assoc]

/-- The metrics with the average of a row, unless they have the metric. -/
def withAverage (start : Dict) (m : StrategyComparisonMetric) : Dict :=
  match m.average with
  | some q =>
    if (Dict.get start m.metricName).isSome then start else start.set m.metricName (.float q)
  | none => start

/-- The metrics with the percentile of a row of the latency. -/
def withPercentile (start : Dict) (m : StrategyComparisonMetric) : Dict :=
  match m.p95 with
  | some q => if m.metricName = "p95_latency" then start.set "p95_latency" (.float q) else start
  | none => start

theorem addComparison_shown (strategy : String) (start : Dict) (m : StrategyComparisonMetric) :
    addComparison strategy start (.dict m.shown) =
      if m.belongs strategy then withPercentile (withAverage start m) m else start := by
  have name : field m.shown "metric_name" = .str m.metricName := rfl
  have average : field m.shown "average" = numberValue m.average := rfl
  have p95 : field m.shown "p95" = numberValue m.p95 := rfl
  unfold addComparison
  simp only [shown_matches, name, average, p95]
  split
  · unfold withPercentile withAverage
    cases m.average <;> cases m.p95 <;> simp [numberValue]
  · rfl

theorem get_withAverage (start : Dict) (m : StrategyComparisonMetric) (name : String) :
    Dict.get (withAverage start m) name =
      (Dict.get start name).or ((averages [m] name).head?.map .float) := by
  unfold withAverage averages
  by_cases named : m.metricName = name
  · subst named
    cases average : m.average with
    | none => simp [average]
    | some q =>
      cases kept : Dict.get start m.metricName with
      | none => simp [average, get_set_self]
      | some v => simp [kept]
  · cases m.average with
    | none => simp [named]
    | some q =>
      simp only [List.filterMap_cons, named, if_false, List.filterMap_nil, List.head?_nil,
        Option.map_none, Option.or_none]
      split
      · rfl
      · exact get_set_ne start _ fun same => named same.symm

theorem get_withPercentile (start : Dict) (m : StrategyComparisonMetric) (name : String) :
    Dict.get (withPercentile start m) name =
      ((percentiles [m] name).getLast?.map .float).or (Dict.get start name) := by
  unfold withPercentile percentiles
  by_cases named : m.metricName = name ∧ name = "p95_latency"
  · obtain ⟨named, rfl⟩ := named
    cases p95 : m.p95 with
    | none => simp [named, p95]
    | some q => simp [named, p95, get_set_self]
  · cases m.p95 with
    | none => simp [named]
    | some q =>
      simp only [List.filterMap_cons, named, if_false, List.filterMap_nil, List.getLast?_nil,
        Option.map_none, Option.none_or]
      split
      · rename_i latency
        exact get_set_ne start _ fun same => named ⟨latency.trans same.symm, same⟩
      · rfl

/-- The metrics after the rows of a comparison. -/
theorem get_comparison (strategy : String) (rows : List StrategyComparisonMetric) (start : Dict)
    (name : String) :
    Dict.get ((rows.map fun m => .dict m.shown).foldl (addComparison strategy) start) name =
      pick (rows.filter (·.belongs strategy)) name (Dict.get start name) := by
  induction rows generalizing start with
  | nil => simp [pick, percentiles, averages]
  | cons m rows ih =>
    rw [List.map_cons, List.foldl_cons, ih, addComparison_shown]
    by_cases belongs : m.belongs strategy
    · rw [if_pos belongs, get_withPercentile, get_withAverage, List.filter_cons, if_pos belongs]
      have later : percentiles (m :: rows.filter (·.belongs strategy)) name =
          percentiles [m] name ++ percentiles (rows.filter (·.belongs strategy)) name :=
        List.filterMap_append (l := [m])
      have first : averages (m :: rows.filter (·.belongs strategy)) name =
          averages [m] name ++ averages (rows.filter (·.belongs strategy)) name :=
        List.filterMap_append (l := [m])
      unfold pick
      rw [later, first, List.getLast?_append, List.head?_append]
      simp only [Option.map_or, Option.or_assoc]
    · rw [if_neg belongs, List.filter_cons, if_neg belongs]

end Rows

section Summaries
variable [UnicodeTables] (cut : String → String) (d : EvaluationRunDetail)

def summaryNames : List String :=
  ["metric_summary", "strategy_comparison", "strategy_metrics", "metrics", "strategy", "p95_latency",
    "strategy_type", "comparison_label", "retrieval_strategy", "graph_store_provider", "cache_mode",
    "metric_name", "average", "p95", "count", "not_applicable_count", "failed_count"] ++
  ["dense", "sparse", "hybrid", "graph", "graph_postgres", "graph_neo4j", "agentic_router",
    "llm_tool_orchestrator", "langchain_agentic", "langgraph_agentic"]

theorem summary_plain : ∀ key ∈ summaryNames, plainKey key = true ∧ key ∉ flagNames := by
  have ascii : ∀ key ∈ summaryNames, ∀ c ∈ key.toList, c.toNat < 128 := by decide
  have plain : ∀ key ∈ summaryNames, @plainKey asciiTables key = true := by decide +kernel
  have other : ∀ key ∈ summaryNames, key ∉ flagNames := by decide
  intro key member
  exact ⟨plain_of_ascii (ascii key member) (plain key member), other key member⟩

/-- A mapping redacted is a mapping. -/
theorem asDict_redactData (v : Value) : asDict (redactData cut v) = redactDict cut (asDict v) := by
  cases v with
  | dict entries => rw [redactData_dict, asDict, asDict]
  | _ => rfl

theorem field_redactDict (data : Dict) {key : String} (known : key ∈ summaryNames) :
    field (redactDict cut data) key = redactData cut (field data key) := by
  obtain ⟨plain, other⟩ := summary_plain key known
  unfold field
  rw [get_redactDict cut data plain other]
  cases Dict.get data key <;> rfl

theorem get_summary {data : Dict} {key : String} (known : key ∈ summaryNames) {v : Value}
    (there : Dict.get data key = some v) :
    Dict.get (redactDict cut data) key = some (redactData cut v) := by
  obtain ⟨plain, other⟩ := summary_plain key known
  rw [get_redactDict cut data plain other, there, Option.map_some]

omit [UnicodeTables] in
theorem safeNumericMapping_floats (metrics : List (String × Rat)) :
    safeNumericMapping (.dict (floats metrics)) = floats metrics := by
  induction metrics with
  | nil => rfl
  | cons e metrics ih =>
    have tail : (floats metrics).filterMap (fun e => (safeNumeric e.2).map fun v => (e.1, v)) =
        floats metrics := ih
    change (e.1, Value.float e.2) :: (floats metrics).filterMap _ = _
    rw [tail]
    rfl

omit [UnicodeTables] in
theorem safeStrategyComparison_shown (rows : List StrategyComparisonMetric) :
    safeStrategyComparison (.list (rows.map fun m => .dict m.modelDump)) =
      rows.map fun m => .dict m.shown := by
  simp only [safeStrategyComparison]
  rw [List.filterMap_map, ← List.filterMap_eq_map]
  rfl

/-- Numbers under names stay as they are just when the names are plain. -/
theorem floats_kept (metrics : List (String × Rat)) :
    redactDict cut (floats metrics) = floats metrics ↔ ∀ e ∈ metrics, plainKey e.1 = true := by
  constructor
  · intro same e member
    by_contra unplain
    have there : (e.1, Value.float e.2) ∈ floats metrics := List.mem_map.mpr ⟨e, member, rfl⟩
    obtain ⟨f, found, blemish⟩ := unplain_blemish cut (get_of_mem there) (by simpa using unplain)
    rw [same] at found
    obtain ⟨g, _, became⟩ := List.mem_map.mp (get_mem found)
    have number := blemish.no_number
    rw [← congrArg Prod.snd became] at number
    cases number
  · intro plain
    have names : ∀ e ∈ floats metrics, plainKey e.1 = true := by
      intro e member
      obtain ⟨f, there, rfl⟩ := List.mem_map.mp member
      exact plain f there
    rw [redactDict_plain cut names]
    unfold floats
    rw [List.map_map]
    rfl

theorem redactData_text (s : Option String) :
    redactData cut (textValue s) = textValue s ↔ ∀ t ∈ s.toList, cut t = t := by
  cases s <;> simp [textValue, redactData]

theorem redactData_numberValue (q : Option Rat) : redactData cut (numberValue q) = numberValue q := by
  cases q <;> rfl

/-- A row is shown as it is just when no text of it is shortened. -/
theorem shown_kept (m : StrategyComparisonMetric) :
    redactData cut (.dict m.shown) = .dict m.shown ↔ ∀ t ∈ m.texts, cut t = t := by
  have plain : ∀ e ∈ m.shown, plainKey e.1 = true := by
    have names : ∀ key ∈ m.shown.map Prod.fst, key ∈ summaryNames := by
      intro key member
      have all : ∀ key ∈ ["strategy_type", "comparison_label", "retrieval_strategy",
          "graph_store_provider", "cache_mode", "metric_name", "average", "p95", "count",
          "not_applicable_count", "failed_count"], key ∈ summaryNames := by decide
      exact all key member
    exact fun e member => (summary_plain e.1 (names e.1 (List.mem_map_of_mem member))).1
  rw [redactData_dict, redactDict_plain cut plain]
  simp only [StrategyComparisonMetric.shown, List.map_cons, List.map_nil, Value.dict.injEq,
    List.cons.injEq, Prod.mk.injEq, true_and, and_true, redactData_numberValue, redactData_text,
    redactData, Value.str.injEq, StrategyComparisonMetric.texts, List.mem_append, List.mem_cons,
    List.not_mem_nil, or_false]
  grind

end Summaries

section Strategies
variable [UnicodeTables] (cut : String → String) (d : EvaluationRunDetail) (s : McpCompareStrategy)

/-- What is put together for the strategy from the redacted summary. -/
def EvaluationRunDetail.merged : Dict := metricsOf (safeEvaluationSummary cut d.modelDump) s.value

omit [UnicodeTables] in
theorem strategy_known : s.value ∈ summaryNames := by
  cases s <;> decide

theorem kept_redacted :
    keptMetrics (safeEvaluationSummary cut d.modelDump) s.value = redactDict cut (d.kept s.value) := by
  have stored : asDict (field (evaluationSummary d.modelDump) "strategy_metrics") =
      asDict (field (d.strategyMetricsSummaryJson.getD []) "strategy_metrics") := by
    have shape : field (evaluationSummary d.modelDump) "strategy_metrics" = dictOrEmpty
        (field (asDict (field d.modelDump "strategy_metrics_summary_json")) "strategy_metrics") := rfl
    have json : asDict (field d.modelDump "strategy_metrics_summary_json") =
        d.strategyMetricsSummaryJson.getD [] := by
      change asDict (d.strategyMetricsSummaryJson.elim .none .dict) = _
      cases d.strategyMetricsSummaryJson <;> rfl
    rw [shape, json]
    cases field (d.strategyMetricsSummaryJson.getD []) "strategy_metrics" <;> rfl
  unfold keptMetrics safeEvaluationSummary EvaluationRunDetail.kept
  rw [field_redactDict cut _ (by decide), asDict_redactData, stored,
    field_redactDict cut _ (strategy_known s), asDict_redactData,
    field_redactDict cut _ (by decide), asDict_redactData]

section Whole
variable {cut d} (texts : ∀ m ∈ d.strategyComparison, ∀ t ∈ m.texts, cut t = t)
include texts

theorem comparison_kept :
    redactData cut (.list (d.strategyComparison.map fun m => .dict m.shown)) =
      .list (d.strategyComparison.map fun m => .dict m.shown) := by
  rw [redactData, redactItems_map, List.map_map]
  congr 1
  exact List.map_congr_left fun m member => (shown_kept cut m).mpr (texts m member)

theorem get_merged (name : String) :
    Dict.get (d.merged cut s) name =
      pick (d.rowsOf s.value) name (Dict.get (redactDict cut (d.kept s.value)) name) := by
  have comparison : field (safeEvaluationSummary cut d.modelDump) "strategy_comparison" =
      .list (d.strategyComparison.map fun m => .dict m.shown) := by
    have shape : field (evaluationSummary d.modelDump) "strategy_comparison" =
        .list (d.strategyComparison.map fun m => .dict m.shown) := by
      change Value.list (safeStrategyComparison (.list _)) = _
      rw [safeStrategyComparison_shown]
    unfold safeEvaluationSummary
    rw [field_redactDict cut _ (by decide), shape, comparison_kept texts]
  unfold EvaluationRunDetail.merged metricsOf
  rw [comparison, kept_redacted]
  exact get_comparison s.value _ _ name

/-- A name is put together just when it is picked, where nothing kept is hidden. -/
theorem get_reported (plain : ∀ name, (d.picked s.value name).isSome → plainKey name = true)
    (name : String) :
    Dict.get (redactDict cut (d.merged cut s)) name =
      (d.picked s.value name).map fun v => redactData cut (redactData cut v) := by
  have kept (name : String) : Dict.get (redactDict cut (d.kept s.value)) name =
      (Dict.get (d.kept s.value) name).map (redactData cut) := by
    apply get_redactDict_plain cut
    intro key there
    apply plain key
    obtain ⟨v, found⟩ := Option.isSome_iff_exists.mp there
    simp [EvaluationRunDetail.picked, pick, found]
  have merged (name : String) : Dict.get (d.merged cut s) name =
      pick (d.rowsOf s.value) name ((Dict.get (d.kept s.value) name).map (redactData cut)) := by
    rw [get_merged s texts, kept]
  have names : ∀ key, (Dict.get (d.merged cut s) key).isSome → plainKey key = true := by
    intro key there
    rw [merged] at there
    apply plain key
    simpa [EvaluationRunDetail.picked, pick] using there
  rw [get_redactDict_plain cut names, merged]
  unfold EvaluationRunDetail.picked pick
  cases (percentiles (d.rowsOf s.value) name).getLast? with
  | some q => rfl
  | none => cases Dict.get (d.kept s.value) name <;>
      cases (averages (d.rowsOf s.value) name).head? <;> rfl

/-- In a row of one group every name is plain. -/
theorem row_plain (row : d.Row s.value (redactDict cut (d.merged cut s))) (name : String)
    (picked : (d.picked s.value name).isSome) : plainKey name = true := by
  obtain ⟨label, together⟩ := row.together
  have spotless (e : String × Value) (there : Dict.get (redactDict cut (d.merged cut s)) e.1 = some e.2)
      (blemish : Blemish e) : False := by
    obtain ⟨_, _, _, q, _, number⟩ := together e.1 e.2 there
    rw [blemish.no_number] at number
    cases number
  by_contra unplain
  have unplain : plainKey name = false := by simpa using unplain
  by_cases kept : (Dict.get (d.kept s.value) name).isSome
  · obtain ⟨e, there, blemish⟩ := unplain_blemish cut kept unplain
    have other : e.1 ≠ "p95_latency" := by
      obtain ⟨plain, foreign⟩ := summary_plain "p95_latency" (by decide)
      exact blemish.name plain foreign
    have merged : Dict.get (d.merged cut s) e.1 = some e.2 := by
      rw [get_merged s texts, there]
      simp [pick, percentiles, other]
    obtain ⟨f, found, again⟩ := redactDict_blemish cut merged blemish
    exact spotless f found again
  · obtain kept' | ⟨m, member, q, gives⟩ := pick_isSome picked
    · exact kept kept'
    · have merged : (Dict.get (d.merged cut s) name).isSome := by
        rw [get_merged s texts]
        exact pick_given member gives _
      obtain ⟨f, found, again⟩ := unplain_blemish cut merged unplain
      exact spotless f found again

/-- Under plain names the row is one of one group just when what is picked is. -/
theorem row_iff (plain : ∀ name, (d.picked s.value name).isSome → plainKey name = true) :
    d.Row s.value (redactDict cut (d.merged cut s)) ↔
      ∃ label, ∀ name v, d.picked s.value name = some v → d.FromGroup s.value label name v := by
  have same (label name : String) (v : Value) :
      d.FromGroup s.value label name (redactData cut (redactData cut v)) ↔
        d.FromGroup s.value label name v := by
    unfold EvaluationRunDetail.FromGroup
    rw [number_of_redacted, number_of_redacted]
  constructor
  · intro row
    obtain ⟨label, together⟩ := row.together
    refine ⟨label, fun name v picked => (same label name v).mp (together name _ ?_)⟩
    rw [get_reported s texts plain, picked, Option.map_some]
  · rintro ⟨label, together⟩
    refine ⟨?_, label, ?_⟩
    · rintro name ⟨m, member, q, gives⟩
      rw [get_reported s texts plain, Option.isSome_map]
      exact pick_given member gives _
    · intro name v there
      rw [get_reported s texts plain] at there
      obtain ⟨w, picked, rfl⟩ := Option.map_eq_some_iff.mp there
      exact (same label name w).mpr (together name w picked)

/-- Metrics are put together just when one is picked. -/
theorem merged_ne_nil : d.merged cut s ≠ [] ↔ ∃ name, (d.picked s.value name).isSome := by
  constructor
  · intro some_
    obtain ⟨e, member⟩ := List.exists_mem_of_ne_nil _ some_
    have there := get_of_mem member
    rw [get_merged s texts] at there
    obtain kept | ⟨m, row, q, gives⟩ := pick_isSome there
    · obtain ⟨f, stored⟩ : ∃ f, f ∈ d.kept s.value := by
        apply List.exists_mem_of_ne_nil
        intro empty
        rw [empty] at kept
        cases kept
      obtain ⟨v, found⟩ := Option.isSome_iff_exists.mp (get_of_mem stored)
      exact ⟨f.1, by simp [EvaluationRunDetail.picked, pick, found]⟩
    · exact ⟨e.1, pick_given row gives _⟩
  · rintro ⟨name, picked⟩ empty
    have nothing (key : String) : ¬(Dict.get (d.merged cut s) key).isSome := by
      rw [empty]
      exact Bool.false_ne_true
    obtain kept | ⟨m, row, q, gives⟩ := pick_isSome picked
    · obtain ⟨key, there⟩ := redactDict_some cut kept
      obtain ⟨v, found⟩ := Option.isSome_iff_exists.mp there
      apply nothing key
      rw [get_merged s texts, found]
      simp [pick]
    · apply nothing name
      rw [get_merged s texts]
      exact pick_given row gives _

end Whole

variable (requested : List McpCompareStrategy)

theorem get_metrics : Dict.get (ragCompareStrategies cut d requested) "metrics" =
    some (.list ((requested.filter fun s => d.merged cut s ≠ []).map fun s =>
      strategyEntry (cut s.value) (redactDict cut (d.merged cut s)))) := by
  have literal (a b c e f g h v : Value) : Dict.get
      [("mode", a), ("evaluation_run_id", b), ("evaluation_dataset_id", c), ("dataset_name", e),
        ("strategies", f), ("metrics", v), ("agentic_summary", g), ("failure_summary", h)]
      "metrics" = some v := rfl
  have entry (s : McpCompareStrategy) : redactData cut (strategyEntry s.value (d.merged cut s)) =
      strategyEntry (cut s.value) (redactDict cut (d.merged cut s)) := by
    have plain : ∀ e ∈ [("strategy", Value.str s.value), ("metric_summary", .dict (d.merged cut s))],
        plainKey e.1 = true := by
      intro e member
      have known : e.1 ∈ summaryNames := by
        rcases List.mem_cons.mp member with rfl | member
        · simp [summaryNames]
        · rw [List.mem_singleton.mp member]
          simp [summaryNames]
      exact (summary_plain e.1 known).1
    unfold strategyEntry
    rw [redactData_dict, redactDict_plain cut plain]
    simp only [List.map_cons, List.map_nil, redactData]
    rfl
  have shape : strategyMetrics (safeEvaluationSummary cut d.modelDump) requested =
      (requested.filter fun s => d.merged cut s ≠ []).map fun s =>
        strategyEntry s.value (d.merged cut s) := by
    unfold strategyMetrics
    induction requested with
    | nil => rfl
    | cons s requested ih =>
      rw [List.filterMap_cons, List.filter_cons, ih]
      by_cases empty : d.merged cut s = []
      · have none : metricsOf (safeEvaluationSummary cut d.modelDump) s.value = [] := empty
        simp [none, empty]
      · have some_ : metricsOf (safeEvaluationSummary cut d.modelDump) s.value ≠ [] := empty
        simp [some_, empty]
        rfl
  unfold ragCompareStrategies
  dsimp only
  rw [get_summary cut (by decide) (literal _ _ _ _ _ _ _ _), shape, redactData, redactItems_map,
    List.map_map]
  congr 2
  exact List.map_congr_left fun s _ => entry s

theorem get_metricSummary : Dict.get (ragGetEvaluationSummary cut d) "metric_summary" =
    some (.dict (redactDict cut (floats d.metricSummary))) := by
  have there : Dict.get (evaluationSummary d.modelDump) "metric_summary" =
      some (.dict (safeNumericMapping (.dict (floats d.metricSummary)))) := rfl
  unfold ragGetEvaluationSummary safeEvaluationSummary
  rw [get_summary cut (by decide) there, safeNumericMapping_floats, redactData_dict]

theorem get_strategyComparison :
    Dict.get (ragGetEvaluationSummary cut d) "strategy_comparison" =
      some (redactData cut (.list (d.strategyComparison.map fun m => .dict m.shown))) := by
  have there : Dict.get (evaluationSummary d.modelDump) "strategy_comparison" =
      some (.list (safeStrategyComparison
        (.list (d.strategyComparison.map fun m => .dict m.modelDump)))) := rfl
  unfold ragGetEvaluationSummary safeEvaluationSummary
  rw [get_summary cut (by decide) there, safeStrategyComparison_shown]

variable {cut d requested}

theorem measured_merged (texts : ∀ m ∈ d.strategyComparison, ∀ t ∈ m.texts, cut t = t)
    {s : McpCompareStrategy} (measured : d.measured s.value = true) : d.merged cut s ≠ [] := by
  obtain ⟨name, m, member, q, gives⟩ := measured_iff.mp measured
  exact (merged_ne_nil s texts).mpr ⟨name, pick_given member gives _⟩

theorem Reported.reportable (reported : d.Reported cut requested) : d.Reportable cut requested := by
  have texts : ∀ m ∈ d.strategyComparison, ∀ t ∈ m.texts, cut t = t := by
    have same := reported.strategyComparison
    rw [get_strategyComparison, redactData, redactItems_map, List.map_map] at same
    have each := List.map_inj_left.mp (Value.list.inj (Option.some.inj same))
    exact fun m member => (shown_kept cut m).mp (each m member)
  obtain ⟨entries, there, rows⟩ := reported.strategies
  rw [get_metrics] at there
  obtain rfl := Value.list.inj (Option.some.inj there)
  -- The strategies with a metric are those with something put together.
  have fewer : (requested.filter (d.measured ·.value)).Sublist
      (requested.filter fun s => d.merged cut s ≠ []) := by
    apply List.monotone_filter_right
    intro s measured
    exact decide_eq_true (measured_merged texts measured)
  have same := fewer.eq_of_length (rows.length_eq.trans (List.length_map _))
  rw [same, List.forall₂_map_right_iff, List.forall₂_same] at rows
  have row {s : McpCompareStrategy} (asked : s ∈ requested) {name : String}
      (picked : (d.picked s.value name).isSome) :
      cut s.value = s.value ∧ d.Row s.value (redactDict cut (d.merged cut s)) := by
    have some_ := (merged_ne_nil s texts).mpr ⟨name, picked⟩
    obtain ⟨metrics, entry, row⟩ := rows s (List.mem_filter.mpr ⟨asked, decide_eq_true some_⟩)
    simp only [strategyEntry, Value.dict.injEq, List.cons.injEq, Prod.mk.injEq, Value.str.injEq,
      true_and, and_true] at entry
    rw [entry.2]
    exact ⟨entry.1, row⟩
  have plain : ∀ s ∈ requested, ∀ name, (d.picked s.value name).isSome → plainKey name = true :=
    fun s asked name picked => row_plain s texts (row asked picked).2 name picked
  refine ⟨?_, texts, fun s asked name picked => ⟨(row asked picked).1, plain s asked name picked⟩, ?_⟩
  · have same := reported.metricSummary
    rw [get_metricSummary] at same
    exact (floats_kept cut d.metricSummary).mp (Value.dict.inj (Option.some.inj same))
  · intro s asked
    by_cases nothing : ∃ name, (d.picked s.value name).isSome
    · obtain ⟨name, picked⟩ := nothing
      exact (row_iff s texts (plain s asked)).mp (row asked picked).2
    · exact ⟨"", fun name v picked => absurd ⟨name, by rw [picked]; rfl⟩ nothing⟩

theorem Reportable.reported (reportable : d.Reportable cut requested) : d.Reported cut requested := by
  have texts := reportable.texts
  have given {s : McpCompareStrategy} (asked : s ∈ requested) (some_ : d.merged cut s ≠ []) :
      ∃ name, (d.picked s.value name).isSome ∧ d.Has s.value name := by
    obtain ⟨name, picked⟩ := (merged_ne_nil s texts).mp some_
    obtain ⟨label, together⟩ := reportable.together s asked
    obtain ⟨v, found⟩ := Option.isSome_iff_exists.mp picked
    obtain ⟨m, member, _, q, gives, _⟩ := together name v found
    exact ⟨name, picked, m, member, q, gives⟩
  have same : requested.filter (d.measured ·.value) =
      requested.filter fun s => d.merged cut s ≠ [] := by
    apply List.filter_congr
    intro s asked
    rw [Bool.eq_iff_iff, decide_eq_true_eq]
    constructor
    · exact measured_merged texts
    · intro some_
      obtain ⟨name, _, has⟩ := given asked some_
      exact measured_iff.mpr ⟨name, has⟩
  refine ⟨?_, ?_, _, get_metrics cut d requested, ?_⟩
  · rw [get_metricSummary, (floats_kept cut d.metricSummary).mpr reportable.names]
  · rw [get_strategyComparison, comparison_kept texts]
  · rw [same, List.forall₂_map_right_iff, List.forall₂_same]
    intro s member
    obtain ⟨asked, some_⟩ := List.mem_filter.mp member
    obtain ⟨name, picked, _⟩ := given asked (of_decide_eq_true some_)
    have plain : ∀ name, (d.picked s.value name).isSome → plainKey name = true :=
      fun name picked => (reportable.plain s asked name picked).2
    refine ⟨redactDict cut (d.merged cut s), ?_,
      (row_iff s texts plain).mpr (reportable.together s asked)⟩
    rw [(reportable.plain s asked name picked).1]

end Strategies

section Claim
variable [UnicodeTables]

end Claim

section Counterexample

/-- A run of dense retrieval with its rate of answers without context. -/
def denseRun : EvaluationRunDetail where
  evaluationRunId := 1
  jobId := none
  evaluationDatasetId := some 1
  datasetName := "base"
  strategyType := "dense"
  strategies := ["dense"]
  metricNames := ["no_context_rate"]
  triggerType := "manual"
  status := "succeeded"
  caseCount := 4
  succeededCount := 4
  failedCount := 0
  metricSummary := [("no_context_rate", 1 / 4)]
  strategyComparison := [⟨"dense", "no_context_rate", some (1 / 4), none, none, 4, 0, 0,
    some "dense", some "dense", none, none⟩]
  strategyMetricsSummaryJson := none
  errorCode := none
  createdAt := ""
  updatedAt := ""

end Counterexample
end RagProject.Mcp
