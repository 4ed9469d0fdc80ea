import RagProject.Lib.Interleaving
import RagProject.Lib.Python
import RagProject.Lib.Regex
import RagProject.Jobs.Sanitize
import RagProject.Jobs.Repository
import RagProject.Jobs.Lease
import RagProject.Jobs.Payloads
import RagProject.Documents.Store
import RagProject.Documents.Approval
import RagProject.Qdrant.Points
import RagProject.Qdrant.Mirror
import RagProject.Jobs.Retry
import RagProject.Lib.Program
import RagProject.Qdrant.Sweep
import RagProject.Qdrant.SweepComplete
import RagProject.Rag.Ask
import RagProject.Rag.AskOnce
import RagProject.Ingest.Chunking
import RagProject.Ingest.Transactions
import RagProject.Rag.Cache
import RagProject.Rag.CacheCoherence
import RagProject.Chat.ReadOnly
import RagProject.Evaluation.AnswerIsolation
import RagProject.Graph.Extraction
import RagProject.Graph.Store
import RagProject.Graph.Build
import RagProject.Graph.Workers
import RagProject.Graph.Persisted
import RagProject.Graph.Steps
import RagProject.Graph.Replacement
import RagProject.Graph.Orphans
import RagProject.Graph.ProjectionWrites
import RagProject.Graph.Convergence
import RagProject.Graph.Aliases
import RagProject.Graph.PersistTransactions
import RagProject.Graph.LockedKeys
import RagProject.Graph.EntityUniqueness
import RagProject.Graph.ConcurrentBuilds
import RagProject.Lib.Sha256
import RagProject.Lib.Windows
import RagProject.Ingest.ChunkCover
import RagProject.Documents.Compare
import RagProject.Documents.ComparePartition
import RagProject.Documents.CompareText
import RagProject.Context.Texts
import RagProject.Lib.Counter
import RagProject.Lib.Sieve
import RagProject.Context.Budget
import RagProject.Context.BudgetSound
import RagProject.Context.BudgetTrace
import RagProject.Context.Evidence
import RagProject.Context.EvidenceBounds
import RagProject.Lib.Ranking
import RagProject.Retrieval.Fusion
import RagProject.Retrieval.FusionDominance
import RagProject.Retrieval.FusionRanking
import RagProject.Lib.Matching
import RagProject.Generation.Citations
import RagProject.Generation.Insufficient
import RagProject.Generation.Answer
import RagProject.Generation.Confidence
import RagProject.Generation.AnswerText
import RagProject.Generation.CitationRules
import RagProject.Generation.Fallback
import RagProject.Generation.FallbackLow
import RagProject.Generation.Outcomes
import RagProject.Generation.RepairedSafe
import RagProject.Generation.StoredSafe
import RagProject.Context.Pack
import RagProject.Generation.Assembly
import RagProject.Generation.PromptSources
import RagProject.Generation.StoredCitations
import RagProject.Generation.ConfidenceOrder
import RagProject.Context.Redactor
import RagProject.Graph.Normalization
import RagProject.Graph.EntityIdentity
import RagProject.Agentic.Merge
import RagProject.Agentic.Executor
import RagProject.Agentic.Budget
import RagProject.Chat.Deletion
import RagProject.Chat.DeletionOrder
import RagProject.Lib.Pending
import RagProject.Rag.CorpusMarker
import RagProject.Rag.MarkerFresh
import RagProject.Documents.Upload
import RagProject.Documents.UploadRuns
import RagProject.Documents.UrlFetchSafe
import RagProject.Retrieval.CachedPayload
import RagProject.Retrieval.CacheJson
import RagProject.Lib.Abreast
import RagProject.Retrieval.SavedResult
import RagProject.Retrieval.SearchPaths
import RagProject.Retrieval.CacheHit
import RagProject.Retrieval.CacheRoundTrip
import RagProject.Context.RowNames
import RagProject.Retrieval.KeptTexts
import RagProject.Retrieval.SamePrompt
import RagProject.Tools.Compression
import RagProject.Tools.Accounting
import RagProject.Context.RedactedAgain
import RagProject.Tools.PlannerInput
import RagProject.Context.SameWords
import RagProject.Tools.Duplicates
import RagProject.GraphSearch.Relations
import RagProject.GraphSearch.Starvation
import RagProject.GraphSearch.Paths
import RagProject.GraphSearch.Loading
import RagProject.GraphSearch.PathsFound
import RagProject.Evaluation.Metrics
import RagProject.Evaluation.MetricsAgree
import RagProject.GraphSearch.Sources
import RagProject.GraphSearch.SourcesKept
import RagProject.GraphSearch.Neo4j
import RagProject.Core.LoginRateLimiter
import RagProject.Core.Lockout
import RagProject.Ingest.Indexing
import RagProject.Ingest.VectorsAligned
import RagProject.Evaluation.RunComparison
import RagProject.Evaluation.RunsCompared
import RagProject.Context.TextWords
import RagProject.Ingest.Html
import RagProject.Lib.Outline
import RagProject.Ingest.HtmlHeadings
import RagProject.Ingest.HtmlTree
import RagProject.Ingest.HtmlWords
import RagProject.Ingest.Excel
import RagProject.Lib.Seams
import RagProject.Ingest.ExcelCells
import RagProject.Ingest.ExcelPages
import RagProject.Ingest.ExcelExtracted
import RagProject.Lib.IpAddress
import RagProject.Lib.IpAddressText
import RagProject.Core.Csrf
import RagProject.Core.AuthRuns
import RagProject.Lib.Json
import RagProject.Mcp.Server
import RagProject.Mcp.StdioLoop
import RagProject.Mcp.EvaluationSummary
import RagProject.Mcp.MetricsReported
import RagProject.Evaluation.Questions
import RagProject.Evaluation.CitationsKept
import RagProject.Retrieval.VisibleResults
import RagProject.Lib.Stable
import RagProject.Retrieval.DeliveredRanks
import RagProject.Evaluation.DeliveredOrder
import RagProject.Ingest.Fenced
import RagProject.Ingest.LostVectors
import RagProject.Evaluation.ReadinessBacked
