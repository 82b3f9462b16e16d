import Coordinator.ActiveKeys
import Coordinator.AdmissionAgreement
import Coordinator.AssumptionDisposal
import Coordinator.AssumptionFreshness
import Coordinator.Authority
import Coordinator.CheckpointTargets
import Coordinator.Clients
import Coordinator.Commit
import Coordinator.DirectiveConflicts
import Coordinator.DoneAdmission
import Coordinator.DoneProof
import Coordinator.DriftCapacity
import Coordinator.DurableSessionChain
import Coordinator.Effects
import Coordinator.EnvelopeMounts
import Coordinator.ExecutionFence
import Coordinator.ExecutionReceipts
import Coordinator.FieldClosure
import Coordinator.FormalJobStarts
import Coordinator.Intents
import Coordinator.Kit.Run
import Coordinator.LifecycleContract
import Coordinator.ObservationSync
import Coordinator.OracleExits
import Coordinator.PredicateReacceptance
import Coordinator.Projections
import Coordinator.PublicationProtocol
import Coordinator.ReceiptRecovery
import Coordinator.Reconciliation
import Coordinator.RetryCapacity
import Coordinator.RetryFrame
import Coordinator.Revision
import Coordinator.RollbackFence
import Coordinator.RollbackRestore
import Coordinator.SessionAdmission
import Coordinator.SessionBackends
import Coordinator.SessionRecovery
import Coordinator.TaskHierarchy
import Coordinator.TaskSet
import Coordinator.TextColumns
import Coordinator.UpdateIntents
import Coordinator.UpgradeBinding
import Coordinator.UpgradeClosure
import Coordinator.UpgradePhases
import Coordinator.PorcelainStatus
import Coordinator.TaskFiles
import Coordinator.ChainHead
import Coordinator.SessionEnvelopes
import Coordinator.WalLifecycle
import Coordinator.EnvelopeTotality
import Coordinator.Kit.Attempt
import Coordinator.SqliteRestore
import Coordinator.TuiBridge
import Coordinator.SafeExit
import Coordinator.FastObservation
import Coordinator.Artifacts
import Coordinator.RoleRegistry
import Coordinator.FastAgreement
import Coordinator.CampaignTimes
import Coordinator.AuthorityMutation
import Coordinator.CommittedNotes
import Coordinator.MutationFence
import Coordinator.Vendor
import Coordinator.CommentPublication
import Coordinator.Kit.Regex
import Coordinator.Privacy
import Coordinator.IssueSeries
import Coordinator.TaskUnion
import Coordinator.SeriesTasks
import Coordinator.SeriesPlan
import Coordinator.SeriesStore
import Coordinator.SeriesTables
