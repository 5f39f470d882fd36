import Mathlib.Data.List.Sort
import Mathlib.Data.Rat.Floor
import TimeOff.Database.Schema

/-! # The transactional outbox

The statements of `hcm-outbox.service.js`.  `enqueue` runs inside the
transaction of its caller, the others are transactions of their own.
-/

set_option autoImplicit false

namespace TimeOff

open TimeOff.Lib

structure OutboxConfig where
  outboxMaxAttempts : Int
  outboxBatchSize : Int

/-- The columns of a row that `claimDue` hands to the worker. -/
structure ClaimedRow where
  id : Nat
  requestId : String
  op : OutboxOp
  payload : ConsumePayload
  attempts : Nat
deriving DecidableEq, Repr

def OutboxRow.claimed (row : OutboxRow) : ClaimedRow :=
  ⟨row.id, row.requestId, row.op, row.payload, row.attempts⟩

/-- The columns that the listing shows. -/
structure OutboxEntry where
  id : Nat
  requestId : String
  op : OutboxOp
  attempts : Nat
  status : OutboxStatus
  nextAttemptAt : Int
  lastError : Option String
  createdAt : Int
  updatedAt : Int
deriving DecidableEq, Repr

def OutboxRow.entry (row : OutboxRow) : OutboxEntry where
  id := row.id
  requestId := row.requestId
  op := row.op
  attempts := row.attempts
  status := row.status
  nextAttemptAt := row.nextAttemptAt
  lastError := row.lastError
  createdAt := row.createdAt
  updatedAt := row.updatedAt

/-- The text in the column `status`. -/
def OutboxStatus.name : OutboxStatus → String
  | .pending => "PENDING"
  | .inflight => "INFLIGHT"
  | .done => "DONE"
  | .dead => "DEAD"

namespace HcmOutboxService

def enqueue (requestId : String) (op : OutboxOp) (payload : ConsumePayload) (now : Int) :
    DbTx Unit := do
  let requests ← Tx.query Db.requests
  Tx.require ((requests.find? requestId).isSome) (.sqlite "FOREIGN KEY constraint failed")
  Tx.write fun db => { db with
    hcmOutbox := db.hcmOutbox.append
      (fun id => ⟨id, requestId, op, payload, 0, now, .pending, none, now, now⟩) fun _ => rfl }

/-- Update the outbox row of this id. -/
def updateRow (id : Nat) (change : OutboxRow → OutboxRow)
    (keeps : ∀ row, (change row).id = row.id) (db : Db) : Db :=
  { db with hcmOutbox := db.hcmOutbox.update (fun row => row.id = id) change keeps }

/-- The rows of `claimDue`'s SELECT: due, in id order, at most a batch (a negative LIMIT is none). -/
def dueRows (config : OutboxConfig) (now : Int) (db : Db) : List OutboxRow :=
  let due := db.hcmOutbox.rows.filter fun row => row.status = .pending ∧ row.nextAttemptAt ≤ now
  if config.outboxBatchSize < 0 then due else due.take config.outboxBatchSize.toNat

def claimDue (config : OutboxConfig) (now : Int) (db : Db) : List ClaimedRow × Db :=
  let rows := dueRows config now db
  (rows.map OutboxRow.claimed,
    { db with
      hcmOutbox := db.hcmOutbox.update (fun row => row.id ∈ rows.map OutboxRow.id)
        (fun row => { row with status := .inflight, updatedAt := now }) fun _ => rfl })

def markDone (now : Int) (id : Nat) (db : Db) : Db :=
  updateRow id (fun row => { row with status := .done, updatedAt := now, lastError := none })
    (fun _ => rfl) db

/-- `2^attempt * 500ms`, capped at 60s, with up to ±30% jitter; `random` is in [0, 1). -/
def computeBackoffMs (attempt : Nat) (random : ℚ) : Int :=
  let base : ℚ := min 60000 (2 ^ attempt * 500)
  let jitter := base * (3 / 10) * (random * 2 - 1)
  max 100 ⌊base + jitter⌋

def scheduleRetry (config : OutboxConfig) (now : Int) (random : ℚ) (id : Nat)
    (errorMessage : String) (db : Db) : Db :=
  match db.hcmOutbox.find? id with
  | none => db
  | some row =>
    let nextAttempts := row.attempts + 1
    -- the last attempt: the row is DEAD until someone resets it
    if config.outboxMaxAttempts ≤ nextAttempts then
      updateRow id (fun row => { row with
        status := .dead, attempts := nextAttempts, updatedAt := now
        lastError := some errorMessage }) (fun _ => rfl) db
    else
      updateRow id (fun row => { row with
        status := .pending, attempts := nextAttempts, updatedAt := now
        nextAttemptAt := now + computeBackoffMs nextAttempts random
        lastError := some errorMessage }) (fun _ => rfl) db

/-- ORDER BY id DESC; a negative LIMIT is none, and an empty `status` is falsy. -/
def list (status : Option String) (limit : Int) (db : Db) : List OutboxEntry :=
  let rows : List OutboxRow :=
    match status.filter (· ≠ "") with
    | some status => db.hcmOutbox.rows.filter fun row => row.status.name = status
    | none => db.hcmOutbox.rows
  let newestFirst := (rows.insertionSort fun left right => right.id ≤ left.id).map OutboxRow.entry
  if limit < 0 then newestFirst else newestFirst.take limit.toNat

def resetToPending (id : Nat) (db : Db) : Db :=
  updateRow id (fun row => { row with
    status := .pending, nextAttemptAt := 0, attempts := 0, lastError := none }) (fun _ => rfl) db

end HcmOutboxService

end TimeOff
