import Workbench.Transitions
import Workbench.KeyedTable
import Workbench.RunStore
import Workbench.RunLease
import Workbench.SingleExecution
import Workbench.CompletedRuns
import Workbench.JobConservation
import Workbench.SettledRuns
import Workbench.WorkerSystem
import Workbench.AckSafety
import Workbench.WorkflowEngine
import Workbench.ApprovalGates
import Workbench.EngineRuns
import Workbench.EngineErrors
import Workbench.Services
import Workbench.WorkflowRegistry
import Workbench.EngineFailures
import Workbench.IdempotencyKeys
import Workbench.JsonRuns
import Workbench.ReplicaTransparency
import Workbench.RegistryCalls
import Workbench.RunCopies
import Workbench.SuspensionDecisions
import Workbench.SingleDecision
import Workbench.IdempotentCalls
import Workbench.IdempotentRuns
import Workbench.LabelledTrees
import Workbench.SqlGuard
import Workbench.SqlScopes
import Workbench.CrashCounts
import Workbench.AttemptBudgets
import Workbench.PoisonRuns
import Workbench.RunStates
import Workbench.AttemptLogs
import Workbench.AlikeRuns
import Workbench.Rehydration
import Workbench.AgentLoop
import Workbench.TranscriptShape
import Workbench.UnseenResults
import Workbench.IpAddresses
import Workbench.FetchedHops
import Workbench.BrowseActions
import Workbench.BrowseLoop
import Workbench.BrowsedPages
import Workbench.SensitiveEntries
import Workbench.RunSubmits
import Workbench.SubmittedRuns
import Workbench.WorkflowApi
import Workbench.WorkflowTraces
import Workbench.ToolGateway
import Workbench.AuditedCalls
import Workbench.PyJson
import Workbench.WireMessages
import Workbench.ProviderCalls
import Workbench.ModelRouter
import Workbench.RouterHealth
import Workbench.RouterInterference
import Workbench.ProviderFaults
import Workbench.CallCosts
import Workbench.AutonomousRuns
import Workbench.Chunking
import Workbench.Overlays
import Workbench.RagIndex
import Workbench.CompliancePolicy
import Workbench.ComplianceReview
import Workbench.IncidentReports
import Workbench.ModelNarratives
import Workbench.RateLimiter
import Workbench.ForwardedClients
import Workbench.RankFusion
import Workbench.ReclaimedJobs
import Workbench.ChunkCoverage
import Workbench.ExhaustedChains
import Workbench.MergedRuns
import Workbench.AlternatingTurns
import Workbench.PyIntegers
import Workbench.SqlBounds
import Workbench.StepBudgets
import Workbench.BoundCalls
import Workbench.KeyedWorkflows
import Workbench.LatencyAggregates
import Workbench.PiiExemplars
import Workbench.MaskedExamples
import Workbench.CardStretches
import Workbench.CardFindings
import Workbench.PlannerReplies
import Workbench.RunTraces
import Workbench.VerdictReplies
import Workbench.FirstObjects
import Workbench.FileSystems
import Workbench.SandboxPaths
import Workbench.EvalDatasets
import Workbench.DatasetComposition
import Workbench.SequentialCalls
import Workbench.ResearchRuns
import Workbench.CitedSources
import Workbench.Semaphores
import Workbench.WorkerLoop
import Workbench.WorkerSlots
import Workbench.DigitTexts
import Workbench.Segments
import Workbench.Timestamps
import Workbench.StampedRuns
import Workbench.OperatorGrammars
import Workbench.Calculator
import Workbench.CalculatorCap
import Workbench.CrmPage
import Workbench.CrmSimulation
import Workbench.CrmReports
import Workbench.CrmAgreement
import Workbench.FairSemaphores
import Workbench.InProcessQueue
import Workbench.AccessRequests
import Workbench.AuditTrail
import Workbench.AutonomousProgress
import Workbench.EvalMetrics
import Workbench.EvalReports
import Workbench.FileWorkspace
import Workbench.IndexScans
import Workbench.IndexSearches
import Workbench.LinkFrames
import Workbench.OrderedStarts
import Workbench.ProcessMaps
import Workbench.TraceRollups
import Workbench.WorkspaceRuns
import Workbench.AgentConclusions
import Workbench.CorpusSearches
import Workbench.CrmAccess
import Workbench.GatewayStack
import Workbench.GuardedApprovals
import Workbench.PiiSpans
import Workbench.QaReports
import Workbench.DeniedIncidents
import Workbench.JsonCodec
import Workbench.JsonRoundTrips
import Workbench.SqlAnswers
import Workbench.SqlReports
