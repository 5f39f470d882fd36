import Mathlib.Data.List.Sort
import TimeOff.Database.Schema

/-! # Request statements

The SQL of `time-off.repository.js`.
-/

set_option autoImplicit false

namespace TimeOff

open TimeOff.Lib

/-- The columns that `updateState` may set besides the state; an absent one is kept. -/
structure StatePatch where
  approverId : Option String := none
  approvedAt : Option Int := none
  externalRequestId : Option String := none
  hcmError : Option String := none

namespace TimeOffRepository

/-- No other request has this `external_request_id`; the column is UNIQUE, NULLs aside. -/
def externalIdFree (requests : Table RequestRow) (id : String) (externalRequestId : Option String) :
    Bool :=
  externalRequestId.isNone ||
    requests.rows.all fun other => other.id = id ∨ other.externalRequestId ≠ externalRequestId

def insert (row : RequestRow) : DbTx Unit := do
  Tx.require (0 < row.days) (.sqlite "CHECK constraint failed: days > 0")
  let requests ← Tx.query Db.requests
  Tx.require (externalIdFree requests row.id row.externalRequestId)
    (.sqlite "UNIQUE constraint failed: requests.external_request_id")
  let inserted ← Tx.orThrow (requests.insertUnique row)
    (.sqlite "UNIQUE constraint failed: requests.id")
  Tx.write fun db => { db with requests := inserted }

def findByIdOrThrow (id : String) : DbTx RequestRow := do
  let requests ← Tx.query Db.requests
  Tx.orThrow (requests.find? id) (.notFound "Request" id)

/-- ORDER BY created_at DESC; requests of the same millisecond come as they were inserted. -/
def listForEmployee (employeeId : Option String) (db : Db) : List RequestRow :=
  (db.requests.rows.filter fun row => some row.key.employeeId = employeeId).insertionSort
    fun left right => right.createdAt ≤ left.createdAt

/-- ORDER BY created_at ASC; no row has a `manager_id` that equals NULL. -/
def listPendingForManager (managerId : Option String) (db : Db) : List RequestRow :=
  (db.requests.rows.filter fun row =>
      row.managerId.isSome ∧ row.managerId = managerId ∧ row.state = .pending).insertionSort
    fun left right => left.createdAt ≤ right.createdAt

def listApprovedIdsForKey (key : Key) (db : Db) : List String :=
  (db.requests.rows.filter fun row => row.key = key ∧ row.state = .approved).map RequestRow.id

/-- The row after the UPDATE: COALESCE keeps what the patch leaves out. -/
def patched (toState : State) (now : Int) (patch : StatePatch) (row : RequestRow) : RequestRow :=
  { row with
    state := toState
    updatedAt := now
    approverId := patch.approverId.or row.approverId
    approvedAt := patch.approvedAt.or row.approvedAt
    externalRequestId := patch.externalRequestId.or row.externalRequestId
    hcmError := patch.hcmError.or row.hcmError }

/-- Move the request on if it is still in `fromState`, and say whether it was. -/
def updateState (id : String) (fromState toState : State) (now : Int) (patch : StatePatch) :
    DbTx Bool := do
  let requests ← Tx.query Db.requests
  let hit : RequestRow → Bool := fun row => row.id = id ∧ row.state = fromState
  -- a row that is not hit writes no id, so its id breaks no constraint
  Tx.require (requests.rows.any hit → externalIdFree requests id patch.externalRequestId)
    (.sqlite "UNIQUE constraint failed: requests.external_request_id")
  Tx.write fun db => { db with
    requests := db.requests.update hit (patched toState now patch) fun _ => rfl }
  return (requests.rows.filter hit).length = 1                        -- `res.changes === 1`

end TimeOffRepository

end TimeOff
