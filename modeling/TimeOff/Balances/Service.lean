import TimeOff.Requests.Service

/-! # Balances and snapshots

`getEffectiveBalance` and the one entry point by which a balance of HCM enters
the cache, from `balances.service.js`.
-/

set_option autoImplicit false

namespace TimeOff

open TimeOff.Lib AuditService BalancesRepository

inductive SnapshotSource where
  | hcmBatch
  | hcmPull
deriving DecidableEq, Repr

structure EffectiveBalance where
  balance : BalanceRow
  reserved : ℚ
  effectiveBalance : ℚ

/-- The argument of `applyHcmBalanceSnapshot`; a balance that HCM left out is `none`. -/
structure HcmSnapshot where
  key : Key
  balance : Option ℚ
  asOf : Stamp
  source : SnapshotSource := .hcmBatch
  correlationId : Option String := none

/-- `ignored` is `before && asOf < before.hcmSnapshotAt`, hence null for a first snapshot. -/
structure SnapshotResult where
  balance : BalanceRecord
  ignored : Option Bool
  negativeDrift : Bool
  reserved : ℚ
  source : SnapshotSource

namespace BalancesService

def getEffectiveBalance (key : Key) (db : Db) : Except Failure EffectiveBalance :=
  match findBalance key db with
  | none => .error (.balanceNotFound (some key.employeeId) key.locationId key.leaveType)
  | some bal =>
    let reserved := sumOpenReservations key db
    .ok ⟨bal, reserved, round (bal.hcmBalance - reserved)⟩

def getEffectiveBalancesForEmployee (employeeId : Option String) (db : Db) : List EffectiveBalance :=
  (listBalancesForEmployee employeeId db).map fun bal =>
    let reserved := sumOpenReservations bal.key db
    ⟨bal, reserved, round (bal.hcmBalance - reserved)⟩

def applyHcmBalanceSnapshotBody (clock : Clock) (snapshot : HcmSnapshot) : DbTx SnapshotResult := do
  let before ← Tx.query (findBalance snapshot.key)
  let updated ← upsertBalance snapshot.key snapshot.balance snapshot.asOf clock.now
  -- the row read before the upsert decides, by the same comparison that the upsert made
  let ignored := before.map fun row => snapshot.asOf.lt row.hcmSnapshotAt
  let reserved ← Tx.query (sumOpenReservations snapshot.key)
  -- the balance of the snapshot, and neither side rounded
  let negativeDrift := ignored ≠ some true ∧ snapshot.balance.any fun balance => balance < reserved
  logInTx clock.auditNow
    { actorType := .hcm
      action :=
        if ignored = some true then .balanceSnapshotIgnoredStale
        else if negativeDrift then .balanceSnapshotNegativeDrift
        else .balanceSnapshotApplied
      targetType := .balance
      targetId := snapshot.key.employeeId ++ ":" ++ snapshot.key.locationId ++ ":" ++
        snapshot.key.leaveType
      before := before.map fun row => .balance row.record
      after := some (.balance updated)
      correlationId := snapshot.correlationId }
  return ⟨updated, ignored, negativeDrift, reserved, snapshot.source⟩

def applyHcmBalanceSnapshot (clock : Clock) (snapshot : HcmSnapshot) (db : Db) :
    Except Failure SnapshotResult × Db :=
  transaction (applyHcmBalanceSnapshotBody clock snapshot) db

end BalancesService

end TimeOff
