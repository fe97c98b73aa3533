import Freezeit.Lib.SortedMap
import Freezeit.Lib.Transitions
import Freezeit.Lib.Interaction
import Freezeit.Lib.Text
import Freezeit.Lib.Holding
import Freezeit.Lib.CrashSafety
import Freezeit.Domain
import Freezeit.FreezerBackend
import Freezeit.DownloadDeferral
import Freezeit.OperationLog
import Freezeit.Callbacks
import Freezeit.ControlState
import Freezeit.Transactions
import Freezeit.ControlPass
import Freezeit.TransactionTraces
import Freezeit.RecordSteps
import Freezeit.Runs
import Freezeit.StateInvariant
import Freezeit.Frames
import Freezeit.Validation
import Freezeit.Targets
import Freezeit.Custody
import Freezeit.Ownership
import Freezeit.Foreground
import Freezeit.Procfs
import Freezeit.RestartRecovery
import Freezeit.RecoveryCompleteness
import Freezeit.SignalOwnership
import Freezeit.ManagerLog
import Freezeit.ManagerState
import Freezeit.LivePass
import Freezeit.Lib.FileSystem
import Freezeit.Lib.Utf8
import Freezeit.PolicyFile
import Freezeit.PolicyReload
import Freezeit.PolicyRewrite
import Freezeit.PolicyPersistence
import Freezeit.ManagerRequests
import Freezeit.ConfigAtomicity
import Freezeit.RequestEffects
import Freezeit.HookHealth
import Freezeit.HookHealthScan
import Freezeit.HookHealthJson
import Freezeit.HookHealthReport
import Freezeit.ControlLoop
import Freezeit.Server
import Freezeit.HookSync
import Freezeit.SharedUpdates
import Freezeit.HookService
import Freezeit.HookConfigCodec
import Freezeit.RecordBranches
import Freezeit.IdleChecks
import Freezeit.NetworkRequests
import Freezeit.Lib.Since
import Freezeit.DownloadBaseline
import Freezeit.FreezeDelay
import Freezeit.FreezeDelayRuns
import Freezeit.LedgerStore
import Freezeit.LedgerCodec
import Freezeit.LedgerCrashes
import Freezeit.LedgerMap
import Freezeit.LedgerRollback
import Freezeit.RefreezeAudits
import Freezeit.LiveRescan
import Freezeit.FreezeTransactions
import Freezeit.HookRequests
import Freezeit.HookSuppression
import Freezeit.PendingUpdates
import Freezeit.UidTimes
import Freezeit.LogAccounting
import Freezeit.ProcessStat
import Freezeit.Lib.Json
import Freezeit.Lib.JsonMembers
import Freezeit.Lib.JsonReplace
import Freezeit.Lib.JsonObjects
import Freezeit.Lib.SortedMapFolds
import Freezeit.Lib.TextLines
import Freezeit.HookRegistry
import Freezeit.HookRegistryReport
import Freezeit.Lib.JsonReader
import Freezeit.Lib.JsonWriter
import Freezeit.OperationJson
import Freezeit.StatusAges
import Freezeit.WireFrames
import Freezeit.OperationDelivery
import Freezeit.Lib.TextBytes
import Freezeit.LogText
import Freezeit.Lib.Checked
import Freezeit.RealtimeChart
