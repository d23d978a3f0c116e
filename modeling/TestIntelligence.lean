import TestIntelligence.Js.Text
import TestIntelligence.Js.Collections
import TestIntelligence.Js.Number
import TestIntelligence.Js.NumberText
import TestIntelligence.Js.Json
import TestIntelligence.Js.JsonParse
import TestIntelligence.Security.ContentHash
import TestIntelligence.Systems.Runs
import TestIntelligence.Review.StateMachine
import TestIntelligence.Review.FourEyes
import TestIntelligence.ProductionRunner.PolicyReport
import TestIntelligence.ProductionRunner.ReviewStore
import TestIntelligence.ProductionRunner.ReviewStoreSteps
import TestIntelligence.ProductionRunner.ReviewStoreInvariants
import TestIntelligence.ProductionRunner.ReviewStoreLog
import TestIntelligence.ProductionRunner.JobLock
import TestIntelligence.Temporal.Paths
import TestIntelligence.Search.Saturation
import TestIntelligence.AgenticHarness.FormalVerification.Syntax
import TestIntelligence.AgenticHarness.FormalVerification.Parser
import TestIntelligence.AgenticHarness.FormalVerification.ParserShape
import TestIntelligence.AgenticHarness.FormalVerification.Evaluator
import TestIntelligence.AgenticHarness.FormalVerification.CtlChecker
import TestIntelligence.AgenticHarness.FormalVerification.CtlExactness
import TestIntelligence.AgenticHarness.FormalVerification.KripkeSearch
import TestIntelligence.AgenticHarness.FormalVerification.Verification
import TestIntelligence.AgenticHarness.FormalVerification.CounterexampleSearch
import TestIntelligence.AgenticHarness.FormalVerification.Verdicts
import TestIntelligence.AgenticHarness.FormalVerification.LtlVerdicts
import TestIntelligence.AgenticHarness.FormalVerification.Enumeration
import TestIntelligence.AgenticHarness.FormalVerification.Consistency
import TestIntelligence.Search.BreadthFirst
import TestIntelligence.CoreEngine.WorkflowStateMachine
import TestIntelligence.CoreEngine.StepSequence
import TestIntelligence.CoreEngine.StepRealisability
import TestIntelligence.ModelGateway.IdempotencyCache
import TestIntelligence.ModelGateway.IdempotencyHits
import TestIntelligence.Chains.NumberedFiles
import TestIntelligence.AgenticHarness.ConsolidationLock
import TestIntelligence.AgenticHarness.ConsolidationEvents
import TestIntelligence.AgenticHarness.ConsolidationCursor
import TestIntelligence.AgenticHarness.ConsolidationExclusion
import TestIntelligence.Review.HumanReviewQueue
import TestIntelligence.Review.VerdictRaces
import TestIntelligence.Js.Sorting
import TestIntelligence.Tables.DelimitedText
import TestIntelligence.ProductionRunner.QcCsv
import TestIntelligence.ProductionRunner.JudgeConsensus
import TestIntelligence.ProductionRunner.JudgeConsensusSeverity
import TestIntelligence.ProductionRunner.RepairLoop
import TestIntelligence.ProductionRunner.RepairLoopCoherence
import TestIntelligence.Js.Utf8
import TestIntelligence.Security.Digests
import TestIntelligence.Trees.MerkleTree
import TestIntelligence.ProductionRunner.SealMerkle
import TestIntelligence.Js.JsonText
import TestIntelligence.Files.PosixPath
import TestIntelligence.Files.FileTree
import TestIntelligence.ProductionRunner.EvidenceSeal
import TestIntelligence.ProductionRunner.SealVerifier
import TestIntelligence.ProductionRunner.SealExpectations
import TestIntelligence.Js.Dates
import TestIntelligence.MultiSource.Envelope
import TestIntelligence.MultiSource.EnvelopeRules
import TestIntelligence.MultiSource.AggregateHash
import TestIntelligence.MultiSource.InspectorStore
import TestIntelligence.MultiSource.InspectorSources
import TestIntelligence.Systems.ReadModifyWrite
import TestIntelligence.MultiSource.InspectorDecisions
import TestIntelligence.MultiSource.InspectorRaces
import TestIntelligence.MultiSource.JiraAdf
import TestIntelligence.MultiSource.JiraAdfAttributes
import TestIntelligence.MultiSource.JiraAdfBounds
import TestIntelligence.Systems.Windows
import TestIntelligence.Server.RateLimit
import TestIntelligence.Zod.Types
import TestIntelligence.CoreEngine.GeneratedTestCaseValidator
import TestIntelligence.CoreEngine.ValidatorDrift
import TestIntelligence.Files.Volume
import TestIntelligence.Files.Publishing
import TestIntelligence.Zod.Stored
import TestIntelligence.CoreEngine.StoredTestCases
import TestIntelligence.Systems.Answers
import TestIntelligence.ModelGateway.ReplayCache
import TestIntelligence.ModelGateway.ReplayCacheWriters
import TestIntelligence.Binary.LittleEndian
import TestIntelligence.Binary.Crc32
import TestIntelligence.Binary.ZipArchive
import TestIntelligence.CustomerMarkdown.ZipBundle
import TestIntelligence.Votes.Plurality
import TestIntelligence.Quality.SelfConsistencyVoter
import TestIntelligence.Quality.SelfConsistencySteps
import TestIntelligence.Quality.SelfConsistencyCases
import TestIntelligence.Quality.SelfConsistencyTargets
import TestIntelligence.ModelGateway.CircuitBreaker
import TestIntelligence.ModelGateway.HalfOpenProbes
import TestIntelligence.ProductionRunner.CircuitBreakerState
import TestIntelligence.Integrations.AlmTransfer
import TestIntelligence.Integrations.AlmTenant
import TestIntelligence.Caches.Lru
import TestIntelligence.ProductionRunner.PersistentReplayCache
import TestIntelligence.Integrations.TmsAccounting
import TestIntelligence.Integrations.AlmGating
import TestIntelligence.Integrations.EvidenceRecords
import TestIntelligence.Workbench.RunAdmission
import TestIntelligence.Workbench.StorageAtomicity
import TestIntelligence.Eval.CalibrationRuns
import TestIntelligence.Orders.Layers
import TestIntelligence.Quality.ParetoFronts
import TestIntelligence.Quality.ParetoRanking
import TestIntelligence.Systems.Draws
import TestIntelligence.Quality.CoveragePlanOptimizer
import TestIntelligence.Quality.OptimizerVariation
import TestIntelligence.Quality.OptimizerElitism
import TestIntelligence.Lists.FirstOccurrences
import TestIntelligence.Lists.StableSorting
import TestIntelligence.AgenticHarness.CaseMerger
import TestIntelligence.AgenticHarness.CaseMergerOutcomes
import TestIntelligence.AgenticHarness.CaseMergerOrder
import TestIntelligence.AgenticHarness.CaseMergerIds
import TestIntelligence.AgenticHarness.HarnessStep
import TestIntelligence.Js.Rounding
import TestIntelligence.AgenticHarness.HarnessStepOutcome
import TestIntelligence.ProductionRunner.RepairLoopBudget
import TestIntelligence.Evidence.ArtifactPaths
import TestIntelligence.Lists.Pairs
import TestIntelligence.CoreEngine.DuplicateDetection
import TestIntelligence.Search.LeastWalks
import TestIntelligence.CoreEngine.IntentDeltaSymmetry
import TestIntelligence.CoreEngine.IntentDeltaLaws
import TestIntelligence.CoreEngine.IntentDelta
import TestIntelligence.CoreEngine.TestCaseDelta
import TestIntelligence.CoreEngine.TestCaseDeltaVerdicts
import TestIntelligence.Lists.BlockOrder
import TestIntelligence.Lists.FirstBest
import TestIntelligence.ProductionRunner.JudgeConsensusOrder
import TestIntelligence.Security.PiiChecksums
import TestIntelligence.Lists.Separated
import TestIntelligence.Integrations.TmsKeys
import TestIntelligence.Lists.EditDistance
import TestIntelligence.CoreEngine.LevenshteinCapped
import TestIntelligence.CoreEngine.NearDuplicateText
import TestIntelligence.Server.RateLimitTrimming
import TestIntelligence.CoreEngine.ImportGovernance
import TestIntelligence.CoreEngine.ImportBudgetWindows
import TestIntelligence.Eval.CohensKappa
import TestIntelligence.Eval.InterRaterAgreement
import TestIntelligence.Eval.ReviewerDominance
import TestIntelligence.CoreEngine.CrossFieldVacuity
import TestIntelligence.Quality.CoverageAugmentation
import TestIntelligence.ModelGateway.TechniqueQuota
import TestIntelligence.ModelGateway.TechniqueQuotaAccounting
import TestIntelligence.ProductionRunner.UntrustedContent
import TestIntelligence.CoreEngine.EquivalenceClasses
import TestIntelligence.CoreEngine.IntraClassRedundancy
import TestIntelligence.CoreEngine.IntraClassOutcome
import TestIntelligence.AgenticHarness.FormalVerification.CounterexampleTraces
import TestIntelligence.ProductionRunner.ProvenanceSeal
import TestIntelligence.Eval.CalibrationPromotions
import TestIntelligence.ModelGateway.TransitionLog
