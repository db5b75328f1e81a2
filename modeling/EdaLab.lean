import EdaLab.Table
import EdaLab.Trace
import EdaLab.StoreOp
import EdaLab.Store
import EdaLab.StoreSpec
import EdaLab.Finalizers
import EdaLab.Completion
import EdaLab.HostSession
import EdaLab.RecoveryClaim
import EdaLab.Lease
import EdaLab.Service
import EdaLab.Recovery
import EdaLab.Worker
import EdaLab.System
import EdaLab.SystemSpec
import EdaLab.Absorbing
import EdaLab.Queue
import EdaLab.Holder
import EdaLab.Claims
import EdaLab.Supersession
import EdaLab.Attempts
import EdaLab.Execution
import EdaLab.Delivery
import EdaLab.Exclusive
import EdaLab.Abandoned
import EdaLab.Scan
import EdaLab.Sweep
import EdaLab.Crash
import EdaLab.Orphan
import EdaLab.Admission
import EdaLab.Submission
import EdaLab.Capacity
import EdaLab.Dispatch
import EdaLab.AcceptedMetrics
import EdaLab.Pattern
import EdaLab.PyText
import EdaLab.Report
import EdaLab.ReportSpec
import EdaLab.Trust
import EdaLab.Base64
import EdaLab.FloatRepr
import EdaLab.Numeral
import EdaLab.PyJson
import EdaLab.Cursor
import EdaLab.Keyset
import EdaLab.RunPages
import EdaLab.RunScan
import EdaLab.Transaction
import EdaLab.SqliteStore
import EdaLab.FailingCalls
import EdaLab.Subprocess
import EdaLab.Supervision
import EdaLab.Cancellation
import EdaLab.Antijoin
import EdaLab.Violations
import EdaLab.PatternRun
import EdaLab.PatternLines
import EdaLab.ReportRun
import EdaLab.ReportLabels
import EdaLab.SyntheticGrammar
import EdaLab.Arithmetic
import EdaLab.NumeralText
import EdaLab.Verdict
import EdaLab.SingleClaims
import EdaLab.ReportRows
import EdaLab.ProfileReport
import EdaLab.RoundedReport
import EdaLab.FloatOrder
import EdaLab.SyntheticReport
import EdaLab.Classification
import EdaLab.DrainAccount
import EdaLab.DrainOutcome
import EdaLab.LockTable
import EdaLab.Adapters
import EdaLab.DeviceExclusion
import EdaLab.PyStr
import EdaLab.PyValue
import EdaLab.FlatJson
import EdaLab.SpecHash
import EdaLab.JobServer
import EdaLab.JobClient
import EdaLab.OneIdentity
import EdaLab.HttpAnswers
import EdaLab.RetryLoop
import EdaLab.OrphanSignal
import EdaLab.Punctual
import EdaLab.Fifo
import EdaLab.QueueOrder
import EdaLab.Evidence
import EdaLab.Remote
import EdaLab.Conversation
import EdaLab.Agreement
import EdaLab.PublicApi
import EdaLab.DeviceHandles
import EdaLab.Relay
import EdaLab.Subscriber
import EdaLab.Outcomes
import EdaLab.Semaphore
import EdaLab.ResourceSlots
