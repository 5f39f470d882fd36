import TimeOff.Lib.Rounding
import TimeOff.Requests.StateMachine
import TimeOff.Requests.Dates
import TimeOff.Requests.Repository
import TimeOff.Balances.Repository
import TimeOff.Hcm.OutboxService
import TimeOff.Common.Audit

/-! # The life of a request

The operations of `time-off.service.js`.  Each is one transaction; its body is
kept apart from the transaction so that what a committed body has done can be
read off the body alone.  Clock readings and generated ids are arguments.
-/

set_option autoImplicit false

namespace TimeOff

open TimeOff.Lib AuditService BalancesRepository TimeOffRepository

/-- `Math.round(n * 100) / 100`. -/
def round (n : ℚ) : ℚ := roundAt 100 n

/-- The claims of a token that the service reads. -/
structure Actor where
  sub : Option String
  roles : List String
  managerId : Option String
deriving DecidableEq, Repr

structure CreateInput where
  locationId : String
  leaveType : String
  startDate : String
  endDate : String
  reason : Option String

/-- The ids that `createRequest` generates. -/
structure NewIds where
  requestId : String
  correlationId : String

structure CreatedRequest where
  row : RequestRow
  effectiveBalanceAfter : ℚ

namespace TimeOffService

def createRequestBody (clock : Clock) (ids : NewIds) (actor : Actor) (input : CreateInput) (days : ℚ) :
    DbTx CreatedRequest := do
  let notFound := .balanceNotFound actor.sub input.locationId input.leaveType
  -- a token without a subject matches no row of the balance query
  let employeeId ← Tx.orThrow actor.sub notFound
  let key : Key := ⟨employeeId, input.locationId, input.leaveType⟩
  let found ← Tx.query (findBalance key)
  let bal ← Tx.orThrow found notFound
  let reserved ← Tx.query (sumOpenReservations key)
  let effective := round (bal.hcmBalance - reserved)
  Tx.require (days ≤ effective) (.insufficientBalance effective days)
  let row : RequestRow :=
    { id := ids.requestId
      key := key
      managerId := actor.managerId
      startDate := input.startDate
      endDate := input.endDate
      days := days
      reason := input.reason
      state := .pending
      createdAt := clock.now
      updatedAt := clock.now
      approverId := none
      approvedAt := none
      externalRequestId := none
      hcmError := none
      correlationId := ids.correlationId }
  insert row
  insertReservation ids.requestId key days clock.now
  logInTx clock.auditNow
    { actorId := actor.sub
      actorType := .user
      action := .requestCreated
      targetType := .request
      targetId := ids.requestId
      after := some (.request row)
      correlationId := some ids.correlationId }
  return ⟨row, round (effective - days)⟩

def createRequest (clock : Clock) (ids : NewIds) (actor : Actor) (input : CreateInput) (db : Db) :
    Except Failure CreatedRequest × Db :=
  match countDaysInclusive input.startDate input.endDate with
  -- thrown before the transaction begins
  | .error failure => (.error failure, db)
  | .ok days => transaction (createRequestBody clock ids actor input days) db

/-- What sets one state change apart from another. -/
structure Move where
  clock : Clock
  requestId : String
  toState : State
  patch : StatePatch := {}
  /-- Does the operation look at the result of `updateState`? -/
  checksUpdate : Bool := false
  /-- The statements between the update and the audit row. -/
  settle : DbTx Unit := pure ()
  actorId : Option String := none
  actorType : ActorType := .system
  action : AuditAction

/-- The statements every state change runs once it has read and accepted the request. -/
def move (m : Move) (before : RequestRow) : DbTx RequestRow := do
  assertTransition before.state m.toState
  let ok ← updateState m.requestId before.state m.toState m.clock.now m.patch
  -- only `approve` and `reject` look at what the update says
  Tx.require (m.checksUpdate → ok)
    (.conflict "CONCURRENT_UPDATE" "Request state changed concurrently; please retry.")
  m.settle
  let after ← findByIdOrThrow m.requestId
  logInTx m.clock.auditNow
    { actorId := m.actorId
      actorType := m.actorType
      action := m.action
      targetType := .request
      targetId := m.requestId
      before := some (.request before)
      after := some (.request after)
      correlationId := some before.correlationId }
  return after

/-- May the actor decide the request?  A request without a manager is anyone's who manages. -/
def authorizeManager (actor : Actor) (request : RequestRow) : DbTx Unit :=
  if actor.roles.contains "admin" then pure ()                        -- whatever its other roles
  else do
    Tx.require (actor.roles.contains "manager") (.forbidden "Requires manager role")
    -- `request.managerId && ...`: null and the empty string are both falsy
    let assigned := request.managerId.getD ""
    Tx.require (assigned = "" ∨ some assigned = actor.sub) (.forbidden "Not this employee's manager")

def approveBody (clock : Clock) (newExternalRequestId : String) (actor : Actor) (requestId : String) :
    DbTx RequestRow := do
  let before ← findByIdOrThrow requestId
  authorizeManager actor before
  -- a request approved again keeps the id under which HCM may know it already
  let externalRequestId := before.externalRequestId.getD newExternalRequestId
  move
    { clock := clock
      requestId := requestId
      toState := .approved
      patch := { approverId := actor.sub, approvedAt := some clock.now,
                 externalRequestId := some externalRequestId }
      checksUpdate := true
      settle := HcmOutboxService.enqueue requestId .consume
        { key := before.key
          days := before.days
          startDate := before.startDate
          endDate := before.endDate
          externalRequestId := externalRequestId
          correlationId := before.correlationId } clock.now
      actorId := actor.sub
      actorType := .user
      action := .requestApproved } before

def approve (clock : Clock) (newExternalRequestId : String) (actor : Actor) (requestId : String)
    (db : Db) : Except Failure RequestRow × Db :=
  transaction (approveBody clock newExternalRequestId actor requestId) db

def rejectBody (clock : Clock) (actor : Actor) (requestId : String) (reason : Option String) :
    DbTx RequestRow := do
  let before ← findByIdOrThrow requestId
  authorizeManager actor before
  move
    { clock := clock
      requestId := requestId
      toState := .rejected
      patch := { approverId := actor.sub, hcmError := reason }
      checksUpdate := true
      settle := releaseReservation requestId clock.now
      actorId := actor.sub
      actorType := .user
      action := .requestRejected } before

def reject (clock : Clock) (actor : Actor) (requestId : String) (reason : Option String) (db : Db) :
    Except Failure RequestRow × Db :=
  transaction (rejectBody clock actor requestId reason) db

def cancelBody (clock : Clock) (actor : Actor) (requestId : String) : DbTx RequestRow := do
  let before ← findByIdOrThrow requestId
  Tx.require (some before.key.employeeId = actor.sub ∨ actor.roles.contains "admin")
    (.forbidden "Cannot cancel another employee's request")
  move
    { clock := clock
      requestId := requestId
      toState := .cancelled
      settle := releaseReservation requestId clock.now
      actorId := actor.sub
      actorType := .user
      action := .requestCancelled } before

def cancel (clock : Clock) (actor : Actor) (requestId : String) (db : Db) :
    Except Failure RequestRow × Db :=
  transaction (cancelBody clock actor requestId) db

def markConsumedBody (clock : Clock) (requestId : String) : DbTx RequestRow := do
  let before ← findByIdOrThrow requestId
  if before.state = .consumed then pure before
  else
    move
      { clock := clock
        requestId := requestId
        toState := .consumed
        settle := consumeReservation requestId clock.now
        action := .requestConsumed } before

def markConsumed (clock : Clock) (requestId : String) (db : Db) : Except Failure RequestRow × Db :=
  transaction (markConsumedBody clock requestId) db

def markHcmFailedBody (clock : Clock) (requestId errorMessage : String) : DbTx RequestRow := do
  let before ← findByIdOrThrow requestId
  if before.state = .hcmFailed then pure before
  else
    move
      { clock := clock
        requestId := requestId
        toState := .hcmFailed
        patch := { hcmError := some errorMessage }
        settle := releaseReservation requestId clock.now
        action := .requestHcmFailed } before

def markHcmFailed (clock : Clock) (requestId errorMessage : String) (db : Db) :
    Except Failure RequestRow × Db :=
  transaction (markHcmFailedBody clock requestId errorMessage) db

def markReviewRequiredBody (clock : Clock) (requestId reason : String) : DbTx RequestRow := do
  let before ← findByIdOrThrow requestId
  if before.state = .reviewRequired then pure before
  else
    move
      { clock := clock
        requestId := requestId
        toState := .reviewRequired
        patch := { hcmError := some reason }
        action := .requestReviewRequired } before

def markReviewRequired (clock : Clock) (requestId reason : String) (db : Db) :
    Except Failure RequestRow × Db :=
  transaction (markReviewRequiredBody clock requestId reason) db

def listForEmployee (employeeId : Option String) (db : Db) : List RequestRow :=
  TimeOffRepository.listForEmployee employeeId db

def listForManager (managerId : Option String) (db : Db) : List RequestRow :=
  listPendingForManager managerId db

/-- A plain read, outside of any transaction. -/
def getById (id : String) (db : Db) : Except Failure RequestRow :=
  (findByIdOrThrow id db).map Prod.fst

end TimeOffService

end TimeOff
