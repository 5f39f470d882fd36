import Mathlib.Logic.Relation
import TimeOff.Balances.Service

/-! # What the operations do to the tables

One description for each kind of transaction that commits: `Filed` for a new
request, `Moved` for a state change.  The invariants are proved from these
descriptions, so no later proof unfolds an operation.
-/

set_option autoImplicit false

namespace TimeOff

open TimeOff.Lib AuditService BalancesRepository TimeOffRepository TimeOffService

/-- What becomes of the open reservation of a request that enters the state. -/
def State.closes : State → Option ReservationState
  | .rejected | .cancelled | .hcmFailed => some .released
  | .consumed => some .consumed
  | .pending | .approved | .reviewRequired => none

/-- The payload that an approval enqueues. -/
def RequestRow.payload (row : RequestRow) (externalRequestId : String) : ConsumePayload where
  key := row.key
  days := row.days
  startDate := row.startDate
  endDate := row.endDate
  externalRequestId := externalRequestId
  correlationId := row.correlationId

/-- The outbox row that an approval enqueues. -/
def RequestRow.outboxRow (row : RequestRow) (externalRequestId : String) (now : Int) (id : Nat) :
    OutboxRow :=
  ⟨id, row.id, .consume, row.payload externalRequestId, 0, now, .pending, none, now, now⟩

theorem RequestRow.outboxRow_key (row : RequestRow) (externalRequestId : String) (now : Int) (id : Nat) :
    rowKey (row.outboxRow externalRequestId now id) = id := rfl

/-- The rows that `updateState` hits. -/
def inState (id : String) (state : State) (row : RequestRow) : Bool := row.id = id ∧ row.state = state

/-- A request was filed together with its reservation. -/
structure Filed (row : RequestRow) (now : Int) (db after : Db) : Prop where
  fresh : db.requests.find? row.id = none
  state : row.state = .pending
  unsent : row.externalRequestId = none
  whole : ∃ n : ℕ, 0 < n ∧ row.days = n
  balance : ∃ bal, findBalance row.key db = some bal ∧
    row.days ≤ round (bal.hcmBalance - sumOpenReservations row.key db)
  requests : after.requests.rows = db.requests.rows ++ [row]
  reservations : after.reservations =
    db.reservations.append (fun id => ⟨id, row.id, row.key, row.days, .open, now, now⟩) fun _ => rfl
  hcmOutbox : after.hcmOutbox = db.hcmOutbox
  balances : after.balances = db.balances

/-- The request `before` changed its state, with the reservation and the outbox that go with it. -/
structure Moved (before : RequestRow) (toState : State) (now : Int) (patch : StatePatch)
    (db after : Db) : Prop where
  found : db.requests.find? before.id = some before
  legal : canTransition before.state toState = true
  requests : after.requests.rows = db.requests.rows.map
    (patchRow (inState before.id before.state) (patched toState now patch))
  reservations : after.reservations =
    match toState.closes with
    | none => db.reservations
    | some closed => (closeReservation before.id closed now db).reservations
  enqueued : toState = .approved → ∃ externalRequestId,
    patch.externalRequestId = some externalRequestId ∧
    (∀ kept, before.externalRequestId = some kept → externalRequestId = kept) ∧
    externalIdFree db.requests before.id (some externalRequestId) = true ∧
    after.hcmOutbox = db.hcmOutbox.append (before.outboxRow externalRequestId now)
      (before.outboxRow_key externalRequestId now)
  unqueued : toState ≠ .approved → patch.externalRequestId = none ∧ after.hcmOutbox = db.hcmOutbox
  balances : after.balances = db.balances

/-- The tables other than the audit log are as they were. -/
structure SameTables (db after : Db) : Prop where
  requests : after.requests = db.requests
  reservations : after.reservations = db.reservations
  hcmOutbox : after.hcmOutbox = db.hcmOutbox
  balances : after.balances = db.balances

/-! ## Requests after a move -/

theorem findByIdOrThrow_ok {id : String} {db : Db} {result : RequestRow × Db} :
    findByIdOrThrow id db = .ok result ↔ db.requests.find? id = some result.1 ∧ db = result.2 := by
  simp [findByIdOrThrow, Tx.bind_ok, and_comm]

theorem findByIdOrThrow_error {id : String} {db : Db} {failure : Failure} :
    findByIdOrThrow id db = .error failure ↔
      db.requests.find? id = none ∧ Failure.notFound "Request" id = failure := by
  simp [findByIdOrThrow, Tx.bind_error]

theorem updateState_ok {id : String} {fromState toState : State} {now : Int} {patch : StatePatch}
    {db after : Db} {ok : Bool}
    (ran : updateState id fromState toState now patch db = .ok (ok, after)) :
    (db.requests.rows.any (inState id fromState) = true →
      externalIdFree db.requests id patch.externalRequestId = true) ∧
    after = { db with
      requests := db.requests.update (inState id fromState) (patched toState now patch)
        fun _ => rfl } := by
  simp only [updateState, Tx.bind_ok, Tx.query_ok, Tx.require_ok, Tx.write_ok, Tx.pure_ok,
    Prod.mk.injEq] at ran
  obtain ⟨_, _, ⟨rfl, rfl⟩, _, _, ⟨free, _, rfl⟩, _, _, ⟨_, rfl⟩, _, rfl⟩ := ran
  exact ⟨free, rfl⟩

/-- What a state change writes into the audit log. -/
def TimeOffService.Move.entry (m : Move) (before after : RequestRow) : AuditEntry where
  actorId := m.actorId
  actorType := m.actorType
  action := m.action
  targetType := .request
  targetId := m.requestId
  before := some (.request before)
  after := some (.request after)
  correlationId := some before.correlationId

/-- What a committed state change has done, whatever its own statement is. -/
theorem move_ok {m : Move} {before after : RequestRow} {db final : Db}
    (found : db.requests.find? m.requestId = some before)
    (frame : ∀ working settled, m.settle working = .ok ((), settled) →
      settled.requests = working.requests)
    (ran : move m before db = .ok (after, final)) :
    canTransition before.state m.toState = true ∧
    externalIdFree db.requests m.requestId m.patch.externalRequestId = true ∧
    after = patched m.toState m.clock.now m.patch before ∧
    ∃ settled,
      m.settle { db with
        requests := db.requests.update (inState m.requestId before.state)
          (patched m.toState m.clock.now m.patch) fun _ => rfl } = .ok ((), settled) ∧
      final = logged m.clock.auditNow (m.entry before after) settled := by
  obtain ⟨beforeIn, beforeId⟩ := Table.find?_eq_some.mp found
  simp only [move, assertTransition, Tx.bind_ok, Tx.require_ok, findByIdOrThrow_ok, logInTx,
    Tx.write_ok, Tx.pure_ok, Prod.mk.injEq] at ran
  obtain ⟨_, _, ⟨legal, _, rfl⟩, _, working, updated, _, _, ⟨_, _, rfl⟩, _, settled, settledRan,
    _, _, ⟨foundAfter, rfl⟩, _, _, ⟨_, rfl⟩, rfl, rfl⟩ := ran
  obtain ⟨free, rfl⟩ := updateState_ok updated
  have hit : inState m.requestId before.state before = true := by
    simp only [inState, decide_eq_true_eq, and_true]
    exact beforeId
  refine ⟨legal, free (List.any_eq_true.mpr ⟨before, beforeIn, hit⟩), ?_, settled, settledRan, rfl⟩
  -- `settle` leaves the requests alone, so what is read back is the patched row
  rw [frame _ _ settledRan] at foundAfter
  have moved := Table.find?_update db.requests (inState m.requestId before.state)
    (patched m.toState m.clock.now m.patch) (fun _ => rfl) m.requestId
  rw [found, Option.map_some, patchRow_of_hit hit] at moved
  exact Option.some.inj (foundAfter.symm.trans moved)

/-- A state change whose own statement does no more than close the reservation, where the new state
closes it. -/
theorem move_settles {m : Move} {before after : RequestRow} {db final : Db}
    (found : db.requests.find? m.requestId = some before)
    (settles : ∀ working settled, m.settle working = .ok ((), settled) → settled =
      match m.toState.closes with
      | none => working
      | some closed => closeReservation m.requestId closed m.clock.now working)
    (unapproved : m.toState ≠ .approved) (unsent : m.patch.externalRequestId = none)
    (ran : move m before db = .ok (after, final)) :
    Moved before m.toState m.clock.now m.patch db final := by
  have beforeId : before.id = m.requestId := (Table.find?_eq_some.mp found).2
  have frame : ∀ working settled, m.settle working = .ok ((), settled) →
      settled.requests = working.requests := by
    intro working settled settledRan
    rw [settles working settled settledRan]
    split <;> rfl
  obtain ⟨legal, _, _, settled, settledRan, rfl⟩ := move_ok found frame ran
  obtain rfl := settles _ _ settledRan
  refine ⟨by rw [beforeId]; exact found, legal, ?_, ?_, ?_, fun _ => ⟨unsent, ?_⟩, ?_⟩
  · rw [beforeId]
    split <;> rfl
  · rw [beforeId]
    split <;> rfl
  · intro approved
    exact absurd approved unapproved
  · split <;> rfl
  · split <;> rfl

/-- A state change whose own statement closes the reservation. -/
theorem move_closes {m : Move} {before after : RequestRow} {db final : Db} {closed : ReservationState}
    (found : db.requests.find? m.requestId = some before)
    (settle : m.settle = Tx.write (closeReservation m.requestId closed m.clock.now))
    (closes : m.toState.closes = some closed) (unsent : m.patch.externalRequestId = none)
    (ran : move m before db = .ok (after, final)) :
    Moved before m.toState m.clock.now m.patch db final := by
  apply move_settles found _ _ unsent ran
  · intro working settled settledRan
    rw [settle, Tx.write_ok] at settledRan
    cases settledRan
    rw [closes]
  · intro approved
    rw [approved] at closes
    cases closes

/-- A state change without a statement of its own. -/
theorem move_keeps {m : Move} {before after : RequestRow} {db final : Db}
    (found : db.requests.find? m.requestId = some before) (settle : m.settle = pure ())
    (closes : m.toState.closes = none) (unapproved : m.toState ≠ .approved)
    (unsent : m.patch.externalRequestId = none) (ran : move m before db = .ok (after, final)) :
    Moved before m.toState m.clock.now m.patch db final := by
  apply move_settles found _ unapproved unsent ran
  intro working settled settledRan
  rw [settle, Tx.pure_ok] at settledRan
  cases settledRan
  rw [closes]

theorem enqueue_ok {requestId : String} {op : OutboxOp} {payload : ConsumePayload} {now : Int}
    {db after : Db} (ran : HcmOutboxService.enqueue requestId op payload now db = .ok ((), after)) :
    after = { db with
      hcmOutbox := db.hcmOutbox.append
        (fun id => ⟨id, requestId, op, payload, 0, now, .pending, none, now, now⟩) fun _ => rfl } := by
  simp only [HcmOutboxService.enqueue, Tx.bind_ok, Tx.query_ok, Tx.require_ok, Tx.write_ok,
    Prod.mk.injEq] at ran
  obtain ⟨_, _, ⟨rfl, rfl⟩, _, _, ⟨_, _, rfl⟩, _, rfl⟩ := ran
  rfl

/-! ## The operations of the request -/

/-- The actor is an admin, or manages and is not shut out by the request's manager. -/
def Decides (actor : Actor) (request : RequestRow) : Prop :=
  actor.roles.contains "admin" = true ∨
    actor.roles.contains "manager" = true ∧
      (request.managerId.getD "" = "" ∨ some (request.managerId.getD "") = actor.sub)

theorem authorizeManager_ok {actor : Actor} {request : RequestRow} {db : Db} {result : Unit × Db} :
    authorizeManager actor request db = .ok result ↔ Decides actor request ∧ ((), db) = result := by
  simp only [authorizeManager, Decides]
  split
  next admin => simp only [Tx.pure_ok, admin, true_or, true_and]
  next other =>
    simp only [Tx.bind_ok, Tx.require_ok, other, Bool.false_eq_true, false_or]
    constructor
    · rintro ⟨_, _, ⟨manages, same⟩, assigned, result⟩
      cases same
      exact ⟨⟨manages, assigned⟩, result⟩
    · rintro ⟨⟨manages, assigned⟩, result⟩
      exact ⟨(), db, ⟨manages, rfl⟩, assigned, result⟩

def approvalPatch (clock : Clock) (newExternalRequestId : String) (actor : Actor)
    (before : RequestRow) : StatePatch where
  approverId := actor.sub
  approvedAt := some clock.now
  externalRequestId := some (before.externalRequestId.getD newExternalRequestId)

theorem approve_ok {clock : Clock} {newExternalRequestId : String} {actor : Actor}
    {requestId : String} {db final : Db} {after : RequestRow}
    (ran : approve clock newExternalRequestId actor requestId db = (.ok after, final)) :
    ∃ before, db.requests.find? requestId = some before ∧ Decides actor before ∧
      Moved before .approved clock.now (approvalPatch clock newExternalRequestId actor before)
        db final := by
  rw [approve, transaction_ok] at ran
  simp only [approveBody, Tx.bind_ok, findByIdOrThrow_ok, authorizeManager_ok, Prod.mk.injEq] at ran
  obtain ⟨before, _, ⟨found, rfl⟩, _, _, ⟨decides, _, rfl⟩, ran⟩ := ran
  obtain rfl : before.id = requestId := (Table.find?_eq_some.mp found).2
  have frame : ∀ working settled, HcmOutboxService.enqueue before.id .consume
      (before.payload (before.externalRequestId.getD newExternalRequestId)) clock.now working =
        .ok ((), settled) → settled.requests = working.requests := by
    intro working settled settledRan
    rw [enqueue_ok settledRan]
  obtain ⟨legal, free, _, settled, settledRan, rfl⟩ := move_ok found frame ran
  rw [enqueue_ok settledRan]
  refine ⟨before, found, decides, found, legal, rfl, rfl, ?_, ?_, rfl⟩
  · intro _
    -- `getD` keeps the id that the request has already
    refine ⟨_, rfl, ?_, free, rfl⟩
    intro kept same
    simp [same]
  · intro unapproved
    exact absurd rfl unapproved

theorem reject_ok {clock : Clock} {actor : Actor} {requestId : String} {reason : Option String}
    {db final : Db} {after : RequestRow}
    (ran : reject clock actor requestId reason db = (.ok after, final)) :
    ∃ before, db.requests.find? requestId = some before ∧ Decides actor before ∧
      Moved before .rejected clock.now { approverId := actor.sub, hcmError := reason } db final := by
  rw [reject, transaction_ok] at ran
  simp only [rejectBody, Tx.bind_ok, findByIdOrThrow_ok, authorizeManager_ok, Prod.mk.injEq] at ran
  obtain ⟨before, _, ⟨found, rfl⟩, _, _, ⟨decides, _, rfl⟩, ran⟩ := ran
  exact ⟨before, found, decides, move_closes found rfl rfl rfl ran⟩

/-- The actor owns the request or is an admin. -/
def MayCancel (actor : Actor) (request : RequestRow) : Prop :=
  some request.key.employeeId = actor.sub ∨ actor.roles.contains "admin" = true

theorem cancel_ok {clock : Clock} {actor : Actor} {requestId : String} {db final : Db}
    {after : RequestRow} (ran : cancel clock actor requestId db = (.ok after, final)) :
    ∃ before, db.requests.find? requestId = some before ∧ MayCancel actor before ∧
      Moved before .cancelled clock.now {} db final := by
  rw [cancel, transaction_ok] at ran
  simp only [cancelBody, Tx.bind_ok, findByIdOrThrow_ok, Tx.require_ok, Prod.mk.injEq] at ran
  obtain ⟨before, _, ⟨found, rfl⟩, _, _, ⟨may, _, rfl⟩, ran⟩ := ran
  exact ⟨before, found, may, move_closes found rfl rfl rfl ran⟩

/-! ## Filing a request -/

theorem insert_ok {row : RequestRow} {db after : Db} (ran : TimeOffRepository.insert row db = .ok ((), after)) :
    0 < row.days ∧ ∃ requests, db.requests.insertUnique row = some requests ∧
      after = { db with requests := requests } := by
  simp only [TimeOffRepository.insert, Tx.bind_ok, Tx.query_ok, Tx.require_ok, Tx.orThrow_ok, Tx.write_ok,
    Prod.mk.injEq] at ran
  obtain ⟨_, _, ⟨positive, _, rfl⟩, _, _, ⟨rfl, rfl⟩, _, _, ⟨_, _, rfl⟩, requests, _,
    ⟨inserted, rfl⟩, _, rfl⟩ := ran
  exact ⟨positive, requests, inserted, rfl⟩

theorem insertReservation_ok {requestId : String} {key : Key} {days : ℚ} {now : Int} {db after : Db}
    (ran : insertReservation requestId key days now db = .ok ((), after)) :
    after = { db with
      reservations := db.reservations.append (fun id => ⟨id, requestId, key, days, .open, now, now⟩)
        fun _ => rfl } := by
  simp only [insertReservation, Tx.bind_ok, Tx.query_ok, Tx.require_ok, Tx.write_ok,
    Prod.mk.injEq] at ran
  obtain ⟨_, _, ⟨_, _, rfl⟩, _, _, ⟨rfl, rfl⟩, _, _, ⟨_, _, rfl⟩, _, rfl⟩ := ran
  rfl

/-- The row that `createRequest` inserts. -/
def newRow (clock : Clock) (ids : NewIds) (actor : Actor) (input : CreateInput) (employeeId : String)
    (days : ℚ) : RequestRow where
  id := ids.requestId
  key := ⟨employeeId, input.locationId, input.leaveType⟩
  managerId := actor.managerId
  startDate := input.startDate
  endDate := input.endDate
  days := days
  reason := input.reason
  state := .pending
  createdAt := clock.now
  updatedAt := clock.now
  approverId := none
  approvedAt := none
  externalRequestId := none
  hcmError := none
  correlationId := ids.correlationId

section Filing

variable {clock : Clock} {ids : NewIds} {actor : Actor} {input : CreateInput} {db after : Db}
  {created : CreatedRequest} (ran : createRequest clock ids actor input db = (.ok created, after))

include ran

/-- What a filing that goes through has read and checked, and all that it writes. -/
theorem createRequest_inv : ∃ days employeeId bal requests,
    countDaysInclusive input.startDate input.endDate = .ok days ∧ actor.sub = some employeeId ∧
    created.row = newRow clock ids actor input employeeId days ∧
    findBalance created.row.key db = some bal ∧
    days ≤ round (bal.hcmBalance - sumOpenReservations created.row.key db) ∧
    created.effectiveBalanceAfter =
      round (round (bal.hcmBalance - sumOpenReservations created.row.key db) - days) ∧
    db.requests.insertUnique created.row = some requests ∧
    after = logged clock.auditNow
      { actorId := actor.sub
        actorType := .user
        action := .requestCreated
        targetType := .request
        targetId := ids.requestId
        after := some (.request created.row)
        correlationId := some ids.correlationId }
      { db with
        requests := requests
        reservations := db.reservations.append
          (fun id => ⟨id, ids.requestId, created.row.key, days, .open, clock.now, clock.now⟩) fun _ => rfl } := by
  simp only [createRequest] at ran
  split at ran
  next failure counted => cases ran
  next days counted =>
    rw [transaction_ok] at ran
    simp only [createRequestBody, Tx.bind_ok, Tx.query_ok, Tx.require_ok, Tx.orThrow_ok, logInTx,
      Tx.write_ok, Tx.pure_ok, Prod.mk.injEq] at ran
    obtain ⟨employeeId, _, ⟨subject, rfl⟩, _, _, ⟨rfl, rfl⟩, bal, _, ⟨found, rfl⟩, _, _, ⟨rfl, rfl⟩,
      _, _, ⟨admitted, _, rfl⟩, _, filed, inserted, _, reserved, reservedRan, _, _, ⟨_, rfl⟩,
      rfl, rfl⟩ := ran
    obtain ⟨-, requests, taken, rfl⟩ := insert_ok inserted
    obtain rfl := insertReservation_ok reservedRan
    exact ⟨days, employeeId, bal, requests, counted, subject, rfl, found, admitted, rfl, taken, rfl⟩

theorem createRequest_ok : Filed created.row clock.now db after := by
  obtain ⟨days, employeeId, bal, requests, counted, -, row, found, admitted, -, taken, rfl⟩ :=
    createRequest_inv ran
  obtain ⟨fresh, rows⟩ := Table.insertUnique_eq_some.mp taken
  rw [row] at *
  exact ⟨fresh, rfl, rfl, countDaysInclusive_whole counted, ⟨bal, found, admitted⟩, rows, rfl, rfl, rfl⟩

/-- The row that a filing inserts. -/
theorem createRequest_row : created.row.id = ids.requestId ∧ created.row.managerId = actor.managerId ∧
    ∃ employeeId, actor.sub = some employeeId ∧
      created.row.key = ⟨employeeId, input.locationId, input.leaveType⟩ := by
  obtain ⟨days, employeeId, bal, requests, -, subject, row, -⟩ := createRequest_inv ran
  rw [row]
  exact ⟨rfl, rfl, employeeId, subject, rfl⟩

end Filing

theorem createRequest_error {clock : Clock} {ids : NewIds} {actor : Actor} {input : CreateInput}
    {db after : Db} {failure : Failure}
    (ran : createRequest clock ids actor input db = (.error failure, after)) : after = db := by
  simp only [createRequest] at ran
  split at ran
  next _ counted =>
    cases ran
    rfl
  next days counted => exact (transaction_error.mp ran).2

end TimeOff
