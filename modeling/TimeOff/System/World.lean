import TimeOff.Hcm.Worker
import TimeOff.System.Calls

/-! # The service, its worker and HCM

The system whose runs are verified: the database, the one
outbox worker with its place in a tick, and HCM with the consume calls that
were sent to it.  HTTP handlers run whenever the worker is idle or awaits HCM.
A call that was sent can reach HCM at any later time, also when its sender has
given up on it or has crashed; HCM takes the days of an `externalRequestId`
once.  Starting the service again opens the database and the timer, and changes
no table.
-/

set_option autoImplicit false

namespace TimeOff

open TimeOff.Lib

/-- A consume call as the worker sent it, with the state that its request and the request's
reservation were in at that moment. -/
structure Consume where
  row : ClaimedRow
  state : Option State
  reservation : Option ReservationState
deriving DecidableEq

structure World where
  db : Db
  worker : WorkerState
  /-- Every consume call ever sent, the oldest first. -/
  sent : List Consume
  /-- The rows whose consume call HCM answered with 2xx. -/
  acknowledged : List ClaimedRow
  /-- The calls for which HCM took days. -/
  debits : List Consume

inductive Event where
  /-- A call of one of the HTTP routes. -/
  | call (call : Call)
  | tick (now : Int)
  | balanceReply (clock : Clock) (reply : Reply BalanceView)
  /-- The call of this number reaches HCM. -/
  | hcmHandles (number : Nat)
  | consumeReply (clock : Clock) (reply : Reply Unit)
  | settle (now : Int) (random : ℚ)
  /-- The process dies and the service starts again. -/
  | crash
  /-- The process dies while it applies snapshots: after `rows` rows of the batch, the snapshot of
  the next one and `escalations` of its escalations. -/
  | crashInBatch (clocks : Nat → RowClock) (batch : Batch) (rows escalations : Nat)

/-- The calls that HTTP routes make: the others are the worker's own or parts of these. -/
def Call.offered : Call → Bool
  | createRequest .. | approve .. | reject .. | cancel .. | handleBatch .. | reconcileKey ..
  | resetToPending .. => true
  | _ => false

/-- Is the worker between ticks or suspended at an await, so that other code can run? -/
def WorkerState.yields : WorkerState → Bool
  | settling .. => false
  | _ => true

/-- The rows of the batch that the worker has not settled. -/
def WorkerState.held : WorkerState → List ClaimedRow
  | idle => []
  | awaitBalance row rest | awaitConsume row rest | settling row rest _ => row :: rest

/-- The database at a crash inside `handleBatch`.  A crash inside `reconcileKey` is that of a batch
of one row. -/
def interruptedBatch (clocks : Nat → RowClock) (batch : Batch) (rows escalations : Nat) (db : Db) : Db :=
  let run := ReconciliationService.applyRows batch.asOf clocks (batch.balances.take rows) db
  match run.failure, batch.balances[rows]? with
  | none, some row =>
    let clock := clocks rows
    match BalancesService.applyHcmBalanceSnapshot clock.snapshot
        (ReconciliationService.rowSnapshot batch.asOf clock row) run.db with
    | (.ok result, db) =>
      if result.negativeDrift then
        ((TimeOffRepository.listApprovedIdsForKey result.balance.key db).take escalations).foldl
          (fun db id => (TimeOffService.markReviewRequired (clock.escalation id) id
            ReconciliationService.escalationReason db).2) db
      else db
    | (.error _, db) => db
  | _, _ => run.db

namespace World

def empty : World := ⟨Db.empty, .idle, [], [], []⟩

/-- The consume call for the row, sent now. -/
def consume (world : World) (row : ClaimedRow) : Consume where
  row := row
  state := (world.db.requests.find? row.requestId).map RequestRow.state
  reservation :=
    (world.db.reservations.rows.find? fun other => other.requestId = row.requestId).map
      ReservationRow.state

/-- HCM has taken the days of this `externalRequestId`. -/
def debited (world : World) (externalRequestId : String) : Bool :=
  world.debits.any fun debit => debit.row.payload.externalRequestId = externalRequestId

variable (config : OutboxConfig)

def step (world : World) : Event → Option World
  | .call call =>
    -- a handler runs to its end before any other code does
    if world.worker.yields ∧ call.offered then some { world with db := call.exec world.db } else none
  | .tick now =>
    match world.worker with
    | .idle =>
      let (worker, db) := HcmOutboxWorker.tick config now world.db
      some { world with db := db, worker := worker }
    | .settling .. => none
    -- a tick that finds the last one still draining returns at once
    | _ => some world
  | .balanceReply clock reply =>
    match world.worker with
    | .awaitBalance row rest =>
      match HcmOutboxWorker.onBalance clock row reply world.db with
      | (some settlement, db) => some { world with db := db, worker := .settling row rest settlement }
      | (none, db) =>
        some { world with db := db, worker := .awaitConsume row rest
                          sent := world.sent ++ [world.consume row] }
    | _ => none
  | .hcmHandles number =>
    match world.sent[number]? with
    | none => none
    | some call =>
      -- a repeated id is answered without taking days again
      if world.debited call.row.payload.externalRequestId then some world
      else some { world with debits := world.debits ++ [call] }
  | .consumeReply clock reply =>
    match world.worker with
    | .awaitConsume row rest =>
      let (settlement, db) := HcmOutboxWorker.onConsume clock row reply world.db
      let acknowledged := match HcmClient.consumeBalance reply with
        | .ok _ => world.acknowledged ++ [row]
        | .error _ => world.acknowledged
      some { world with db := db, worker := .settling row rest settlement, acknowledged := acknowledged }
    | _ => none
  | .settle now random =>
    match world.worker with
    | .settling row rest settlement =>
      some { world with
        db := HcmOutboxWorker.settle config now random row settlement world.db
        worker := HcmOutboxWorker.afterSettle rest settlement }
    | _ => none
  -- the database, HCM and the calls under way survive; the place in the tick does not
  | .crash => some { world with worker := .idle }
  | .crashInBatch clocks batch rows escalations =>
    if world.worker.yields then
      some { world with db := interruptedBatch clocks batch rows escalations world.db, worker := .idle }
    else none

end World

/-! ## A small office -/

namespace Office

def config : OutboxConfig := ⟨5, 10⟩

def clock : Clock := ⟨0, 0⟩

def employee : Actor := ⟨some "employee-1", ["employee"], some "manager-1"⟩

def manager : Actor := ⟨some "manager-1", ["manager"], none⟩

def key : Key := ⟨"employee-1", "HQ", "vacation"⟩

/-- HCM reports this balance of the employee as of the given time. -/
def snapshot (balance : ℚ) (asOf : Int) : Call :=
  .handleBatch (fun _ => ⟨0, clock, fun _ => clock⟩)
    ⟨none, none, [⟨key, some balance, some (.ms asOf)⟩]⟩

/-- The employee files ten days under this id. -/
def file (id : String) : Call :=
  .createRequest clock ⟨id, "trace"⟩ employee ⟨"HQ", "vacation", "2026-05-01", "2026-05-10", none⟩

def approve (id externalRequestId : String) : Call := .approve clock externalRequestId manager id

def cancel (id : String) : Call := .cancel clock employee id

/-- HCM answers `getBalance`. -/
def balance (days : ℚ) : Reply BalanceView := .response 200 "{...}" (.ok (some ⟨some days, none⟩))

/-- HCM answers `consumeBalance` with 200. -/
def accepted : Reply Unit := .response 200 "{}" (.ok (some ()))

/-- Ten of ten days filed and approved, and the worker has claimed the row. -/
def claimed : List Event :=
  [.call (snapshot 10 0), .call (file "r1"), .call (approve "r1" "x1"), .tick 0]

end Office

end TimeOff
