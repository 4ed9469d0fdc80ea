import RagProject.Mcp.Redaction

/-! The evaluation tools of the MCP server (mcp/adapters.py): the safe summary of a run, and the
metrics of the requested strategies that are put together from it. -/
namespace RagProject.Mcp
open Python

section Details

/-- StrategyComparisonMetric, with the enumerations as their values. -/
structure StrategyComparisonMetric where
  strategyType : String
  metricName : String
  average : Option Rat
  p50 : Option Rat
  p95 : Option Rat
  count : Nat
  failedCount : Nat
  notApplicableCount : Nat
  comparisonLabel : Option String
  retrievalStrategy : Option String
  graphStoreProvider : Option String
  cacheMode : Option String
  deriving DecidableEq, Repr

/-- What the summary reads of EvaluationRunDetail. -/
structure EvaluationRunDetail where
  evaluationRunId : Nat
  jobId : Option Nat
  evaluationDatasetId : Option Nat
  datasetName : String
  strategyType : String
  strategies : List String
  metricNames : List String
  triggerType : String
  status : String
  caseCount : Int
  succeededCount : Int
  failedCount : Int
  metricSummary : List (String × Rat)
  strategyComparison : List StrategyComparisonMetric
  strategyMetricsSummaryJson : Option Dict
  errorCode : Option String
  createdAt : String
  updatedAt : String

inductive McpCompareStrategy where
  | dense
  | sparse
  | hybrid
  | graph
  | graphPostgres
  | graphNeo4j
  | agenticRouter
  | llmToolOrchestrator
  | langchainAgentic
  | langgraphAgentic
  deriving DecidableEq, Repr

def McpCompareStrategy.value : McpCompareStrategy → String
  | dense => "dense"
  | sparse => "sparse"
  | hybrid => "hybrid"
  | graph => "graph"
  | graphPostgres => "graph_postgres"
  | graphNeo4j => "graph_neo4j"
  | agenticRouter => "agentic_router"
  | llmToolOrchestrator => "llm_tool_orchestrator"
  | langchainAgentic => "langchain_agentic"
  | langgraphAgentic => "langgraph_agentic"

end Details

section Dumps

def textValue (s : Option String) : Value := s.elim .none .str

def numberValue (q : Option Rat) : Value := q.elim .none .float

def idValue (n : Option Nat) : Value := n.elim .none fun n => .int n

def StrategyComparisonMetric.modelDump (metric : StrategyComparisonMetric) : Dict :=
  [("strategy_type", .str metric.strategyType), ("metric_name", .str metric.metricName),
    ("average", numberValue metric.average), ("p50", numberValue metric.p50),
    ("p95", numberValue metric.p95), ("count", .int metric.count),
    ("failed_count", .int metric.failedCount),
    ("not_applicable_count", .int metric.notApplicableCount),
    ("comparison_label", textValue metric.comparisonLabel),
    ("retrieval_strategy", textValue metric.retrievalStrategy),
    ("graph_store_provider", textValue metric.graphStoreProvider),
    ("cache_mode", textValue metric.cacheMode)]

def EvaluationRunDetail.modelDump (detail : EvaluationRunDetail) : Dict :=
  [("evaluation_run_id", .int detail.evaluationRunId), ("job_id", idValue detail.jobId),
    ("evaluation_dataset_id", idValue detail.evaluationDatasetId),
    ("dataset_name", .str detail.datasetName), ("strategy_type", .str detail.strategyType),
    ("strategies", .list (detail.strategies.map .str)),
    ("metric_names", .list (detail.metricNames.map .str)),
    ("trigger_type", .str detail.triggerType), ("status", .str detail.status),
    ("case_count", .int detail.caseCount), ("succeeded_count", .int detail.succeededCount),
    ("failed_count", .int detail.failedCount),
    ("metric_summary", .dict (detail.metricSummary.map fun e => (e.1, .float e.2))),
    ("strategy_comparison",
      .list (detail.strategyComparison.map fun metric => .dict metric.modelDump)),
    ("strategy_metrics_summary_json", detail.strategyMetricsSummaryJson.elim .none .dict),
    ("error_code", textValue detail.errorCode), ("created_at", .str detail.createdAt),
    ("updated_at", .str detail.updatedAt)]

end Dumps

section Shape

/-- data.get(key), None where it is missing. -/
def field (data : Dict) (key : String) : Value := (Dict.get data key).getD .none

def isEnumChar (c : Char) : Bool := c.isAlphanum || c ∈ ['_', '.', ':', '-']

def isSafeEnumLike (value : String) : Bool :=
  1 ≤ value.length && value.length ≤ 120 && value.toList.all isEnumChar

/-- What _safe_numeric_mapping keeps of a value. -/
def safeNumeric : Value → Option Value
  | .str s => if isSafeEnumLike s then some (.str s) else none
  | .list items =>
    if items.all fun item => match item with
      | .str s => isSafeEnumLike s
      | _ => false
    then some (.list items) else none
  | .dict _ => none
  | v => some v

def safeNumericMapping : Value → Dict
  | .dict entries => entries.filterMap fun e => (safeNumeric e.2).map fun v => (e.1, v)
  | _ => []

def safeComparisonRow (entry : Dict) : Dict :=
  [("strategy_type", field entry "strategy_type"),
    ("comparison_label", field entry "comparison_label"),
    ("retrieval_strategy", field entry "retrieval_strategy"),
    ("graph_store_provider", field entry "graph_store_provider"),
    ("cache_mode", field entry "cache_mode"), ("metric_name", field entry "metric_name"),
    ("average", field entry "average"), ("p95", field entry "p95"),
    ("count", field entry "count"), ("not_applicable_count", field entry "not_applicable_count"),
    ("failed_count", field entry "failed_count")]

def safeStrategyComparison : Value → List Value
  | .list items => items.filterMap fun item => match item with
    | .dict entry => some (.dict (safeComparisonRow entry))
    | _ => none
  | _ => []

def listOrEmpty : Value → Value
  | .list items => .list items
  | _ => .list []

def dictOrEmpty : Value → Value
  | .dict entries => .dict entries
  | _ => .dict []

def dictOrNone : Value → Value
  | .dict entries => .dict entries
  | _ => .none

def asDict : Value → Dict
  | .dict entries => entries
  | _ => []

end Shape

section Tools
variable [UnicodeTables] (cut : String → String)

/-- _safe_evaluation_summary before its redaction. -/
def evaluationSummary (data : Dict) : Dict :=
  let summary := asDict (field data "strategy_metrics_summary_json")
  [("evaluation_run_id", field data "evaluation_run_id"), ("job_id", field data "job_id"),
    ("evaluation_dataset_id", field data "evaluation_dataset_id"),
    ("dataset_name", field data "dataset_name"), ("strategy_type", field data "strategy_type"),
    ("strategies", listOrEmpty (field data "strategies")),
    ("metric_names", listOrEmpty (field data "metric_names")),
    ("trigger_type", field data "trigger_type"), ("status", field data "status"),
    ("case_count", field data "case_count"), ("succeeded_count", field data "succeeded_count"),
    ("failed_count", field data "failed_count"),
    ("metric_summary", .dict (safeNumericMapping (field data "metric_summary"))),
    ("strategy_comparison", .list (safeStrategyComparison (field data "strategy_comparison"))),
    ("strategy_metrics", dictOrEmpty (field summary "strategy_metrics")),
    ("agentic_summary", dictOrNone (field summary "agentic_summary")),
    ("failure_summary", dictOrEmpty (field summary "failure_summary")),
    ("error_code", field data "error_code"), ("created_at", field data "created_at"),
    ("updated_at", field data "updated_at")]

def safeEvaluationSummary (data : Dict) : Dict := redactDict cut (evaluationSummary data)

def matchesStrategyComparison (item : Dict) (strategy : String) : Bool :=
  [field item "strategy_type", field item "comparison_label", field item "retrieval_strategy"].any
    fun candidate => match candidate with
      | .str s => s == strategy
      | _ => false

/-- What an item of the comparison adds to the metrics of a strategy. -/
def addComparison (strategy : String) (metricSummary : Dict) (item : Value) : Dict :=
  match item with
  | .dict entries =>
    if matchesStrategyComparison entries strategy then
      let metricName := field entries "metric_name"
      let average := field entries "average"
      let p95 := field entries "p95"
      let added := match metricName with
        | .str name =>
          if average = .none ∨ (Dict.get metricSummary name).isSome then metricSummary
          else metricSummary.set name average
        | _ => metricSummary
      if metricName = .str "p95_latency" ∧ p95 ≠ .none then added.set "p95_latency" p95 else added
    else metricSummary
  | _ => metricSummary

/-- The metrics that are kept under the name of a strategy. -/
def keptMetrics (summary : Dict) (strategy : String) : Dict :=
  asDict (field (asDict (field (asDict (field summary "strategy_metrics")) strategy)) "metric_summary")

def metricsOf (summary : Dict) (strategy : String) : Dict :=
  let comparison := match field summary "strategy_comparison" with
    | .list items => items
    | _ => []
  comparison.foldl (addComparison strategy) (keptMetrics summary strategy)

def strategyMetrics (summary : Dict) (strategies : List McpCompareStrategy) : List Value :=
  strategies.filterMap fun strategy =>
    let metricSummary := metricsOf summary strategy.value
    if metricSummary = [] then none
    else some (.dict [("strategy", .str strategy.value), ("metric_summary", .dict metricSummary)])

def ragGetEvaluationSummary (detail : EvaluationRunDetail) : Dict :=
  safeEvaluationSummary cut detail.modelDump

def ragCompareStrategies (detail : EvaluationRunDetail) (requested : List McpCompareStrategy) :
    Dict :=
  let summary := safeEvaluationSummary cut detail.modelDump
  redactDict cut [("mode", .str "latest_results"),
    ("evaluation_run_id", field summary "evaluation_run_id"),
    ("evaluation_dataset_id", field summary "evaluation_dataset_id"),
    ("dataset_name", field summary "dataset_name"),
    ("strategies", .list (requested.map fun strategy => .str strategy.value)),
    ("metrics", .list (strategyMetrics summary requested)),
    ("agentic_summary", field summary "agentic_summary"),
    ("failure_summary", field summary "failure_summary")]

end Tools
end RagProject.Mcp
