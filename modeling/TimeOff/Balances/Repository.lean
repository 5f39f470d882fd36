import Mathlib.Algebra.BigOperators.Group.List.Basic
import Mathlib.Algebra.Order.Field.Rat
import Mathlib.Data.List.Sort
import TimeOff.Database.Schema

/-! # Balance and reservation statements

The SQL of `balances.repository.js`.  A read is a function of the database, a
statement that writes is a step of a transaction.
-/

set_option autoImplicit false

namespace TimeOff.BalancesRepository

open TimeOff.Lib

def findBalance (key : Key) (db : Db) : Option BalanceRow :=
  db.balances.rows.find? fun row => row.key = key

/-- ORDER BY location_id, leave_type. -/
def listBalancesForEmployee (employeeId : Option String) (db : Db) : List BalanceRow :=
  (db.balances.rows.filter fun row => some row.key.employeeId = employeeId).insertionSort
    fun left right => left.key.locationId < right.key.locationId ∨
      left.key.locationId = right.key.locationId ∧ left.key.leaveType ≤ right.key.leaveType

/-- Does the reservation count against the balance of the key? -/
def openFor (key : Key) (row : ReservationRow) : Bool := row.key = key ∧ row.state = .open

def sumOpenReservations (key : Key) (db : Db) : ℚ :=
  ((db.reservations.rows.filter (openFor key)).map ReservationRow.days).sum

/-- The columns of the statement's row that NOT NULL and CHECK admit. -/
def balanceColumns (hcmBalance : Option ℚ) (hcmSnapshotAt : Stamp) : DbTx (ℚ × Stamp) := do
  let balance ← Tx.orThrow hcmBalance
    (.sqlite "NOT NULL constraint failed: balances.hcm_balance")
  let snapshotAt ← Tx.orThrow hcmSnapshotAt.stored
    (.sqlite "NOT NULL constraint failed: balances.hcm_snapshot_at")
  Tx.require (0 ≤ balance) (.sqlite "CHECK constraint failed: hcm_balance >= 0")
  return (balance, snapshotAt)

/-- Insert the key's balance, or overwrite it unless the snapshot is older than the cached one.
The record returned carries `asOf` as it was given, not as the column stores it. -/
def upsertBalance (key : Key) (hcmBalance : Option ℚ) (hcmSnapshotAt : Stamp) (now : Int) :
    DbTx BalanceRecord := do
  let existing ← Tx.query (findBalance key)
  match existing with
  | none =>
    let (balance, snapshotAt) ← balanceColumns hcmBalance hcmSnapshotAt
    Tx.write fun db => { db with
      balances := db.balances.append (fun id => ⟨id, key, balance, snapshotAt, now, 1⟩) fun _ => rfl }
    -- `{ ...row, version: 1, updatedAt: now }` has no id and keeps `asOf` unconverted
    return ⟨none, key, balance, hcmSnapshotAt, now, 1⟩
  | some existing =>
    -- an out-of-order snapshot: no column is written, so no constraint is checked either
    if hcmSnapshotAt.lt existing.hcmSnapshotAt then pure existing.record
    else do
      let (balance, snapshotAt) ← balanceColumns hcmBalance hcmSnapshotAt
      Tx.write fun db => { db with
        balances := db.balances.update (fun row => row.id = existing.id)
          (fun row => { row with
            hcmBalance := balance, hcmSnapshotAt := snapshotAt, updatedAt := now
            version := row.version + 1 }) fun _ => rfl }
      return { existing.record with
        hcmBalance := balance, hcmSnapshotAt := hcmSnapshotAt, updatedAt := now
        version := existing.version + 1 }

def insertReservation (requestId : String) (key : Key) (days : ℚ) (now : Int) : DbTx Unit := do
  Tx.require (0 < days) (.sqlite "CHECK constraint failed: days > 0")
  let requests ← Tx.query Db.requests
  Tx.require ((requests.find? requestId).isSome) (.sqlite "FOREIGN KEY constraint failed")
  Tx.write fun db => { db with
    reservations := db.reservations.append
      (fun id => ⟨id, requestId, key, days, .open, now, now⟩) fun _ => rfl }

/-- UPDATE reservations SET state = ? WHERE request_id = ? AND state = 'OPEN'. -/
def closeReservation (requestId : String) (closed : ReservationState) (now : Int) (db : Db) : Db :=
  { db with
    reservations := db.reservations.update
      (fun row => row.requestId = requestId ∧ row.state = .open)
      (fun row => { row with state := closed, updatedAt := now }) fun _ => rfl }

def releaseReservation (requestId : String) (now : Int) : DbTx Unit :=
  Tx.write (closeReservation requestId .released now)

def consumeReservation (requestId : String) (now : Int) : DbTx Unit :=
  Tx.write (closeReservation requestId .consumed now)

/-- The keys with a balance or a reservation that changed since.  SQL promises no order. -/
def activeKeysSince (since : Int) (db : Db) : List Key :=
  let balances := (db.balances.rows.filter fun row => since ≤ row.updatedAt).map BalanceRow.key
  let reservations :=
    (db.reservations.rows.filter fun row => since ≤ row.updatedAt).map ReservationRow.key
  (balances ++ reservations).eraseDups

end TimeOff.BalancesRepository
