import TimeOff.Hcm.Reconciliation

/-! # Calls of the service

Every operation that changes a table, with its arguments.  A call that throws
may still have committed: `handleBatch` keeps the rows it applied before the
one that threw.
-/

set_option autoImplicit false

namespace TimeOff

open TimeOff.Lib

inductive Call where
  | createRequest (clock : Clock) (ids : NewIds) (actor : Actor) (input : CreateInput)
  | approve (clock : Clock) (newExternalRequestId : String) (actor : Actor) (requestId : String)
  | reject (clock : Clock) (actor : Actor) (requestId : String) (reason : Option String)
  | cancel (clock : Clock) (actor : Actor) (requestId : String)
  | markConsumed (clock : Clock) (requestId : String)
  | markHcmFailed (clock : Clock) (requestId errorMessage : String)
  | markReviewRequired (clock : Clock) (requestId reason : String)
  | applyHcmBalanceSnapshot (clock : Clock) (snapshot : HcmSnapshot)
  | handleBatch (clocks : Nat → RowClock) (batch : Batch)
  | reconcileKey (clock : RowClock) (key : Key) (reply : Reply BalanceView)
  | claimDue (config : OutboxConfig) (now : Int)
  | markDone (now : Int) (id : Nat)
  | scheduleRetry (config : OutboxConfig) (now : Int) (random : ℚ) (id : Nat) (errorMessage : String)
  | resetToPending (id : Nat)

namespace Call

/-- The database after the call, whether it returned or threw. -/
def exec : Call → Db → Db
  | createRequest clock ids actor input, db => (TimeOffService.createRequest clock ids actor input db).2
  | approve clock newId actor requestId, db => (TimeOffService.approve clock newId actor requestId db).2
  | reject clock actor requestId reason, db => (TimeOffService.reject clock actor requestId reason db).2
  | cancel clock actor requestId, db => (TimeOffService.cancel clock actor requestId db).2
  | markConsumed clock requestId, db => (TimeOffService.markConsumed clock requestId db).2
  | markHcmFailed clock requestId errorMessage, db =>
    (TimeOffService.markHcmFailed clock requestId errorMessage db).2
  | markReviewRequired clock requestId reason, db =>
    (TimeOffService.markReviewRequired clock requestId reason db).2
  | applyHcmBalanceSnapshot clock snapshot, db =>
    (BalancesService.applyHcmBalanceSnapshot clock snapshot db).2
  | handleBatch clocks batch, db => (ReconciliationService.handleBatch clocks batch db).2
  | reconcileKey clock key reply, db => (ReconciliationService.reconcileKey clock key reply db).2
  | claimDue config now, db => (HcmOutboxService.claimDue config now db).2
  | markDone now id, db => HcmOutboxService.markDone now id db
  | scheduleRetry config now random id errorMessage, db =>
    HcmOutboxService.scheduleRetry config now random id errorMessage db
  | resetToPending id, db => HcmOutboxService.resetToPending id db

/-- The snapshot results that the call reports, those before a throw included. -/
def reports : Call → Db → List SnapshotResult
  | applyHcmBalanceSnapshot clock snapshot, db =>
    match (BalancesService.applyHcmBalanceSnapshot clock snapshot db).1 with
    | .ok result => [result]
    | .error _ => []
  | handleBatch clocks batch, db =>
    (ReconciliationService.applyRows batch.asOf clocks batch.balances db).results
  | reconcileKey clock key reply, db =>
    match (ReconciliationService.reconcileKey clock key reply db).1 with
    | .ok (.applied result) => [result]
    | _ => []
  | _, _ => []

/-- Does the call bring a balance of HCM? -/
def bringsBalance : Call → Bool
  | applyHcmBalanceSnapshot .. | handleBatch .. | reconcileKey .. => true
  | _ => false

end Call

def execAll (calls : List Call) (db : Db) : Db := calls.foldl (fun db call => call.exec db) db

def callStep (db : Db) (call : Call) : Option Db := some (call.exec db)

/-- The snapshot results that the calls report one after the other. -/
def reportsAll : List Call → Db → List SnapshotResult
  | [], _ => []
  | call :: rest, db => call.reports db ++ reportsAll rest (call.exec db)

end TimeOff
