import TimeOff.Balances.Service
import TimeOff.Hcm.Client

/-! # Drift detection

`reconciliation.service.js`: a snapshot is applied in a transaction of its own,
and when it falls below the open reservations of its key, every approved request
of the key is sent to review, each again in its own transaction.
-/

set_option autoImplicit false

namespace TimeOff

open TimeOff.Lib BalancesRepository BalancesService TimeOffRepository TimeOffService

/-- The clock readings of one row: the fallback for `asOf`, those of the snapshot and its audit
row, and those of each escalation. -/
structure RowClock where
  fallback : Int
  snapshot : Clock
  escalation : String → Clock

structure BatchRow where
  key : Key
  balance : Option ℚ
  asOf : Option Stamp

structure Batch where
  batchId : Option String
  asOf : Option Stamp
  balances : List BatchRow

structure AppliedEntry where
  key : String
  ignored : Option Bool
  negativeDrift : Bool
deriving DecidableEq, Repr

structure BatchResult where
  batchId : Option String
  appliedCount : Nat
  applied : List AppliedEntry

/-- How far the loop over a batch came: the results of the rows applied, what the next row threw
if one did, and the database. -/
structure BatchRun where
  results : List SnapshotResult
  failure : Option Failure
  db : Db

inductive ReconcileOutcome where
  | skipped (reason : String)
  | applied (result : SnapshotResult)

namespace ReconciliationService

def escalationReason : String := "HCM balance fell below open reservations"

/-- Errors of a single escalation are logged and dropped. -/
def escalateAffectedRequests (clock : String → Clock) (balance : BalanceRecord) (db : Db) : Db :=
  (listApprovedIdsForKey balance.key db).foldl
    (fun db id => (markReviewRequired (clock id) id escalationReason db).2) db

/-- Apply one snapshot and escalate if it reports drift. -/
def applyAndEscalate (clock : RowClock) (snapshot : HcmSnapshot) (db : Db) :
    Except Failure SnapshotResult × Db :=
  match applyHcmBalanceSnapshot clock.snapshot snapshot db with
  | (.error failure, db) => (.error failure, db)
  | (.ok result, db) =>
    if result.negativeDrift then
      (.ok result, escalateAffectedRequests clock.escalation result.balance db)
    else (.ok result, db)

def rowSnapshot (asOf : Option Stamp) (clock : RowClock) (row : BatchRow) : HcmSnapshot :=
  { key := row.key
    balance := row.balance
    asOf := (row.asOf.or asOf).getD (.ms clock.fallback)
    source := .hcmBatch }

def applyRows (asOf : Option Stamp) : (Nat → RowClock) → List BatchRow → Db → BatchRun
  | _, [], db => ⟨[], none, db⟩
  | clocks, row :: rest, db =>
    match applyAndEscalate (clocks 0) (rowSnapshot asOf (clocks 0) row) db with
    -- the row that throws ends the loop; the rows before it stay committed
    | (.error failure, db) => ⟨[], some failure, db⟩
    | (.ok result, db) =>
      let run := applyRows asOf (fun n => clocks (n + 1)) rest db
      { run with results := result :: run.results }

def appliedEntry (row : BatchRow) (result : SnapshotResult) : AppliedEntry :=
  ⟨row.key.employeeId ++ ":" ++ row.key.locationId ++ ":" ++ row.key.leaveType,
    result.ignored, result.negativeDrift⟩

def handleBatch (clocks : Nat → RowClock) (batch : Batch) (db : Db) :
    Except Failure BatchResult × Db :=
  let run := applyRows batch.asOf clocks batch.balances db
  match run.failure with
  | some failure => (.error failure, run.db)
  | none =>
    let applied := List.zipWith appliedEntry batch.balances run.results
    (.ok ⟨batch.batchId, applied.length, applied⟩, run.db)

/-- What `reconcileKey` does once HCM has answered. -/
def reconcileKey (clock : RowClock) (key : Key) (reply : Reply BalanceView) (db : Db) :
    Except Failure ReconcileOutcome × Db :=
  match HcmClient.getBalance key reply with
  | .error failure => (.ok (.skipped failure.message), db)            -- the fetch failed: logged
  -- an empty body or the JSON null passes the `try` and is read from outside it
  | .ok none => (.error (.typeError "Cannot read properties of null (reading 'balance')"), db)
  | .ok (some view) =>
    let snapshot : HcmSnapshot :=
      { key := key
        balance := view.balance
        asOf := view.asOf.getD (.ms clock.fallback)
        source := .hcmPull }
    match applyAndEscalate clock snapshot db with
    | (.error failure, db) => (.error failure, db)
    | (.ok result, db) => (.ok (.applied result), db)

/-- The keys over which `reconcileActive` loops, one `reconcileKey` after the other. -/
def reconcileActive (now sinceMs : Int) (limit : Nat) (db : Db) : List Key :=
  (activeKeysSince (now - sinceMs) db).take limit

end ReconciliationService

end TimeOff
