import TimeOff.Requests.Service
import TimeOff.Hcm.Client

/-! # The outbox worker

`hcm-outbox.worker.js`.  The handler of a row is cut at its two awaits and
between its transactions: `onBalance` runs when HCM has answered `getBalance`,
`onConsume` when it has answered `consumeBalance`, `settle` writes the outbox
row that either left behind.  Nothing but a crash comes between `onBalance` or
`onConsume` and the `settle` that follows.
-/

set_option autoImplicit false

namespace TimeOff

open TimeOff.Lib TimeOffService HcmOutboxService

/-- The outbox statement that ends the handling of a row.  After `done (some failure)` the
failure of `markHcmFailed` leaves `_handleRow` and ends the tick. -/
inductive Settlement where
  | done (escaping : Option Failure)
  | retry (errorMessage : String)
deriving DecidableEq, Repr

/-- Where the worker stands: between ticks, or in a tick with the row at hand and the rows of the
batch still to come. -/
inductive WorkerState where
  | idle
  | awaitBalance (row : ClaimedRow) (rest : List ClaimedRow)
  | awaitConsume (row : ClaimedRow) (rest : List ClaimedRow)
  | settling (row : ClaimedRow) (rest : List ClaimedRow) (settlement : Settlement)
deriving DecidableEq, Repr

namespace HcmOutboxWorker

/-- The next row of the batch, or the end of the tick. -/
def proceed : List ClaimedRow → WorkerState
  | [] => .idle
  | row :: rest => .awaitBalance row rest

def tick (config : OutboxConfig) (now : Int) (db : Db) : WorkerState × Db :=
  let (rows, db) := claimDue config now db
  (proceed rows, db)

/-- The `catch` of `_handleRow`. -/
def onError (clock : Clock) (row : ClaimedRow) (failure : Failure) (db : Db) : Settlement × Db :=
  if failure.isHcmPermanent then
    -- `markDone` stands in a `finally`, so the row is done either way
    match markHcmFailed clock row.requestId failure.message db with
    | (.ok _, db) => (.done none, db)
    | (.error escaping, db) => (.done (some escaping), db)
  else (.retry failure.message, db)

def reviewReason (balance days : ℚ) : String :=
  "HCM balance " ++ (Number.ofRat balance).toString ++ " < requested " ++ (Number.ofRat days).toString ++
    " at submit time"

/-- HCM's balance where it is known to be too low; an answer that cannot be read counts as none. -/
def insufficientView (row : ClaimedRow) (reply : Reply BalanceView) : Option ℚ :=
  match HcmClient.getBalance row.payload.key reply with
  | .ok (some view) => view.balance.filter fun balance => balance < row.payload.days
  | _ => none

/-- After the first await: bail out, or go on to `consumeBalance` (`none`). -/
def onBalance (clock : Clock) (row : ClaimedRow) (reply : Reply BalanceView) (db : Db) :
    Option Settlement × Db :=
  match insufficientView row reply with
  | none => (none, db)                                                -- on to `consumeBalance`
  | some balance =>
    match markReviewRequired clock row.requestId (reviewReason balance row.payload.days) db with
    | (.ok _, db) => (some (.done none), db)
    -- a request that has moved on cannot be sent to review
    | (.error failure, db) =>
      let (settlement, db) := onError clock row failure db
      (some settlement, db)

/-- After the second await. -/
def onConsume (clock : Clock) (row : ClaimedRow) (reply : Reply Unit) (db : Db) : Settlement × Db :=
  match HcmClient.consumeBalance reply with
  | .error failure => onError clock row failure db
  | .ok _ =>
    match markConsumed clock row.requestId db with
    | (.ok _, db) => (.done none, db)
    -- HCM has taken the days and the request is no longer APPROVED: the row is retried
    | (.error failure, db) => onError clock row failure db

def settle (config : OutboxConfig) (now : Int) (random : ℚ) (row : ClaimedRow)
    (settlement : Settlement) (db : Db) : Db :=
  match settlement with
  | .done _ => markDone now row.id db
  | .retry errorMessage => scheduleRetry config now random row.id errorMessage db

/-- Where the tick goes on once the row is settled. -/
def afterSettle (rest : List ClaimedRow) : Settlement → WorkerState
  | .done (some _) => .idle                                           -- the `for` loop is left
  | _ => proceed rest

end HcmOutboxWorker

end TimeOff
