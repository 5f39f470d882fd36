import TimeOff.Hcm.Reconciliation
import TimeOff.Lib.NumberString

/-! # The routes of the admin

`admin.controller.js`.  A path or query parameter is a string that `Number` reads; SQLite
compares the id with the number, and refuses a LIMIT that is no integer.
-/

set_option autoImplicit false

namespace TimeOff

open TimeOff.Lib

structure ReconcileDto where
  key : Option Key
  sinceMs : Option Int
  limit : Option Nat

namespace AdminController

/-- The keys whose balances HCM is asked for, one after the other. -/
def reconcile (now : Int) (body : ReconcileDto) (db : Db) : List Key :=
  match body.key with
  | some key => [key]
  | none =>
    ReconciliationService.reconcileActive now (body.sinceMs.getD (7 * 24 * 60 * 60 * 1000))
      (body.limit.getD 200) db

/-- `limit ? Math.min(500, Number(limit)) : 100`, as SQLite takes it. -/
def limitOf (limit : Option String) : Except Failure Int :=
  match limit.filter (· ≠ "") with
  | none => .ok 100
  | some spelling =>
    match stringToNumber spelling with
    | .infinity false => .ok 500
    | .finite number =>
      let limit := min 500 number.value
      if limit.den = 1 ∧ -2 ^ 63 < limit.num then .ok limit.num else .error (.sqlite "datatype mismatch")
    | _ => .error (.sqlite "datatype mismatch")                       -- NaN is bound as NULL

def list (status limit : Option String) (db : Db) : Except Failure (List OutboxEntry) :=
  (limitOf limit).map fun limit => HcmOutboxService.list status limit db

/-- The row that the parameter names, if it can name one. -/
def rowId (id : String) : Except Failure (Option Nat) :=
  match stringToNumber id with
  | .finite number =>
    .ok (if number.value.den = 1 ∧ 0 ≤ number.value.num then some number.value.num.toNat else none)
  | _ => .error (.validation "invalid id")

/-- The reset; the tick that follows is the worker's. -/
def retry (id : String) (db : Db) : Except Failure Db :=
  (rowId id).map fun row => row.elim db fun id => HcmOutboxService.resetToPending id db

end AdminController

end TimeOff
