import TimeOff.Lib.Transaction
import TimeOff.Lib.Table
import TimeOff.Lib.StableSort
import TimeOff.Lib.Runs
import TimeOff.Lib.Simulation
import TimeOff.Lib.Rounding
import TimeOff.Lib.Lockstep
import TimeOff.Lib.Newest
import TimeOff.Lib.Path
import TimeOff.Lib.Agreement
import TimeOff.Lib.Register
import TimeOff.Lib.Digits
import TimeOff.Lib.Binary64
import TimeOff.Lib.DoubleArithmetic
import TimeOff.Lib.NumberString
import TimeOff.Lib.NumberReading
import TimeOff.Lib.Json
import TimeOff.Lib.JsonReading
import TimeOff.Lib.FormEncoding
import TimeOff.Lib.Calendar
import TimeOff.Database.Schema
import TimeOff.Common.Ids
import TimeOff.Common.Audit
import TimeOff.Balances.Repository
import TimeOff.Balances.Service
import TimeOff.Balances.Doubles
import TimeOff.Requests.StateMachine
import TimeOff.Requests.Dates
import TimeOff.Requests.Repository
import TimeOff.Requests.Service
import TimeOff.Hcm.OutboxService
import TimeOff.Hcm.Webhook
import TimeOff.Hcm.Wire
import TimeOff.Hcm.MockServer
import TimeOff.Hcm.Worker
import TimeOff.Hcm.Signature
import TimeOff.System.Calls
import TimeOff.System.World
import TimeOff.System.Partnership
import TimeOff.System.Server
import TimeOff.System.Pulls
import TimeOff.System.DispatchLog
import TimeOff.Verified.Effects
import TimeOff.Verified.Outcomes
import TimeOff.Verified.Snapshots
import TimeOff.Verified.Changes
import TimeOff.Verified.AuditTrail
import TimeOff.Verified.Steps
import TimeOff.Verified.RequestStates
import TimeOff.Verified.Payloads
import TimeOff.Verified.OutboxRows
import TimeOff.Verified.SingleDebit
import TimeOff.Verified.Approvals
import TimeOff.Verified.CrashRecovery
import TimeOff.Verified.StandingApproval
import TimeOff.Verified.HcmAgreement
import TimeOff.Verified.RetryConvergence
import TimeOff.Verified.Coherence
import TimeOff.Verified.BalanceIntegrity
import TimeOff.Verified.OverCommitment
import TimeOff.Verified.NewestSnapshot
import TimeOff.Verified.Authorization
import TimeOff.Verified.Revalidation
import TimeOff.Verified.Sweep
import TimeOff.Verified.TickCompletion
import TimeOff.Verified.DoubleCountedDrift
import TimeOff.Verified.RequestStory
import TimeOff.Verified.CallSequences
import TimeOff.Verified.Permanence
import TimeOff.Verified.BalanceLedger
import TimeOff.Verified.KeyIndependence
import TimeOff.Verified.Privacy
import TimeOff.Verified.CreateOnce
import TimeOff.Verified.PulledBalances
import TimeOff.Verified.FilingReply
import TimeOff.Verified.Consistency
import TimeOff.Verified.DriftLine
import TimeOff.Verified.BatchTurns
import TimeOff.Verified.BatchEffect
import TimeOff.Verified.Recovery
import TimeOff.Verified.Redelivery
import TimeOff.Verified.Isolation
import TimeOff.Verified.RetryDiscipline
import TimeOff.Verified.BoundedWaiting
import TimeOff.Verified.CalendarDays
import TimeOff.Verified.DoubleBalances
import TimeOff.Verified.WireFormat
import TimeOff.Verified.ServerRuns
import TimeOff.Verified.Attribution
import TimeOff.Verified.KeptResponses
import TimeOff.Verified.Failures
import TimeOff.Verified.ManagerQueue
import TimeOff.Verified.MockHcm
import TimeOff.Verified.Partnership
import TimeOff.Verified.HcmLedger
import TimeOff.Verified.WebhookSignature
