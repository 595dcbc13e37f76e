import AgentTree.Program
import AgentTree.Pool
import AgentTree.Table
import AgentTree.Transactions
import AgentTree.Json
import AgentTree.JsonText
import AgentTree.CanonicalJson
import AgentTree.Outcome
import AgentTree.StoreSchema
import AgentTree.ReceiptCore
import AgentTree.Receipts
import AgentTree.StoreCore
import AgentTree.StoreFrames
import AgentTree.ReplayWindow
import AgentTree.BudgetLedger
import AgentTree.PromotionChain
import AgentTree.Leases
import AgentTree.StoreOps
import AgentTree.StartupRecovery
import AgentTree.ApiTokens
import AgentTree.AppendLog
import AgentTree.EventStreams
import AgentTree.TableViews
import AgentTree.TenantViews
import AgentTree.TenantIsolation
import AgentTree.SqlConnection
import AgentTree.NestedBlocks
import AgentTree.NestedTransactions
import AgentTree.ControlCore
import AgentTree.ControlOperations
import AgentTree.ControlSteps
import AgentTree.ControlFrames
import AgentTree.ControlRuns
import AgentTree.ExactlyOnce
import AgentTree.CommitRuns
import AgentTree.Rollbacks
import AgentTree.Promotions
import AgentTree.LeaseFencing
import AgentTree.Sparing
import AgentTree.SettledOperations
import AgentTree.Holdings
import AgentTree.HoldingSteps
import AgentTree.SettlementContract
import AgentTree.Settlement
import AgentTree.NothingLeaked
import AgentTree.Census
import AgentTree.Admission
import AgentTree.ProcessRegistry
import AgentTree.ProcessCancellation
import AgentTree.DurableDisk
import AgentTree.ArtifactFiles
import AgentTree.DurableArtifacts
import AgentTree.Dictionary
import AgentTree.EngineCore
import AgentTree.SpelledHash
import AgentTree.Transitions
import AgentTree.Benchmarks
import AgentTree.PolicyModel
import AgentTree.Search
import AgentTree.Learning
import AgentTree.Serde
import AgentTree.PolicyFrames
import AgentTree.PolicyUpdates
import AgentTree.ModelPayloads
import AgentTree.Training
import AgentTree.SearchSteps
import AgentTree.SearchValues
import AgentTree.SearchTree
import AgentTree.Exploration
import AgentTree.SearchTotality
import AgentTree.SearchLimits
import AgentTree.SearchOutcomes
import AgentTree.SearchCompleteness
import AgentTree.GenuineResults
import AgentTree.TamperChecks
import AgentTree.Doubles
import AgentTree.GatedResults
import AgentTree.ArtifactBytes
import AgentTree.ArtifactRoundTrips
import AgentTree.AsciiJson
import AgentTree.PromotionReports
import AgentTree.Scoring
import AgentTree.SearchGrowth
import AgentTree.FailedCommits
import AgentTree.ReapedGroups
import AgentTree.ArtifactHashing
import AgentTree.OutputCapture
import AgentTree.EvidenceRuns
import AgentTree.AggregateReceipts
import AgentTree.Tallies
import AgentTree.AggregateChecks
import AgentTree.Interruptions
import AgentTree.BackupFormat
import AgentTree.BackupRestore
import AgentTree.BackupFiles
import AgentTree.BackupStaging
import AgentTree.BackupPhases
import AgentTree.BackupResuming
import AgentTree.BackupSafety
import AgentTree.RequestLimits
import AgentTree.SignatureTexts
import AgentTree.SpendableReservations
import AgentTree.SearchSeeds
import AgentTree.Metrics
import AgentTree.HTTPRequests
import AgentTree.AcceptedPromotions
import AgentTree.ScoreCache
import AgentTree.KeyRotation
import AgentTree.RequestedArtifacts
import AgentTree.JsonSizes
import AgentTree.BackupCreation
import AgentTree.BackupReading
import AgentTree.BackupRoundTrip
import AgentTree.BackupRecovery
import AgentTree.RestoredBackups
import AgentTree.AttemptQuota
import AgentTree.HTTPService
import AgentTree.HTTPServing
import AgentTree.RotatingProcesses
import AgentTree.RacingBootstraps
