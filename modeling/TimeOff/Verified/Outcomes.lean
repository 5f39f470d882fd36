import TimeOff.Verified.Effects

/-! # When a state change commits

The operations that check nothing but the state graph succeed exactly on a
legal edge, and every other outcome leaves the database as it was.
-/

set_option autoImplicit false

namespace TimeOff

open TimeOff.Lib AuditService BalancesRepository TimeOffRepository TimeOffService

/-- The state of a request, if there is one with this id. -/
def requestState (id : String) (db : Db) : Option State := (db.requests.find? id).map RequestRow.state

theorem requestState_eq_some {id : String} {db : Db} {state : State} :
    requestState id db = some state ↔ ∃ row, db.requests.find? id = some row ∧ row.state = state := by
  simp [requestState]

theorem externalIdFree_none (requests : Table RequestRow) (id : String) :
    externalIdFree requests id none = true := by simp [externalIdFree]

/-- An UPDATE whose id is not taken hits the one row that was read. -/
theorem updateState_total {id : String} {before : RequestRow} {toState : State} {now : Int}
    {patch : StatePatch} {db : Db} (found : db.requests.find? id = some before)
    (free : externalIdFree db.requests id patch.externalRequestId = true) :
    updateState id before.state toState now patch db = .ok (true, { db with
      requests := db.requests.update (inState id before.state) (patched toState now patch)
        fun _ => rfl }) := by
  obtain ⟨member, rfl⟩ := Table.find?_eq_some.mp found
  have hits : db.requests.rows.filter (inState before.id before.state) = [before] := by
    have own : db.requests.rows.filter (fun row => row.id = before.id) = [before] :=
      Table.filter_key member
    have both : db.requests.rows.filter (inState before.id before.state) =
        (db.requests.rows.filter fun row => row.id = before.id).filter
          fun row => row.state = before.state := by
      rw [List.filter_filter]
      refine List.filter_congr fun row _ => ?_
      simp [inState, Bool.and_comm]
    rw [both, own]
    simp
  simp only [updateState, Tx.bind_ok, Tx.query_ok, Tx.require_ok, Tx.write_ok, Tx.pure_ok]
  refine ⟨_, _, rfl, (), db, ⟨fun _ => free, rfl⟩, (), _, rfl, ?_⟩
  have counted : (db.requests.rows.filter fun row =>
      decide (row.id = rowKey before ∧ row.state = before.state)) = [before] := hits
  simp only [counted, List.length_singleton, decide_true]
  rfl

/-- A legal move commits. -/
theorem move_total {m : Move} {before : RequestRow} {db : Db}
    (found : db.requests.find? m.requestId = some before)
    (legal : canTransition before.state m.toState = true)
    (free : externalIdFree db.requests m.requestId m.patch.externalRequestId = true)
    (settles : ∀ working : Db, (working.requests.find? m.requestId).isSome = true →
      ∃ settled, m.settle working = .ok ((), settled) ∧ settled.requests = working.requests) :
    ∃ after final, move m before db = .ok (after, final) := by
  have moved := Table.find?_update db.requests (inState m.requestId before.state)
    (patched m.toState m.clock.now m.patch) (fun _ => rfl) m.requestId
  rw [found, Option.map_some] at moved
  obtain ⟨settled, ran, requests⟩ := settles { db with
    requests := db.requests.update (inState m.requestId before.state)
      (patched m.toState m.clock.now m.patch) fun _ => rfl } (by rw [moved]; rfl)
  have foundAfter := (congrArg (fun table => table.find? m.requestId) requests).trans moved
  simp only [move, assertTransition, Tx.bind_ok, Tx.require_ok, findByIdOrThrow_ok, logInTx,
    Tx.write_ok, Tx.pure_ok]
  exact ⟨_, _, (), db, ⟨legal, rfl⟩, true, _, updateState_total found free, (), _,
    ⟨fun _ => rfl, rfl⟩, (), settled, ran, _, settled, ⟨foundAfter, rfl⟩, (), _, rfl, rfl⟩

/-- An illegal move throws. -/
theorem move_illegal {m : Move} {before : RequestRow} {db : Db}
    (illegal : canTransition before.state m.toState = false) :
    move m before db = .error (.invalidStateTransition before.state m.toState) := by
  simp [move, assertTransition, Tx.require, illegal, bind, StateT.bind, Except.bind, throw,
    throwThe, MonadExceptOf.throw, StateT.lift]

/-! ## The outcomes of each operation -/

theorem writes_settle {id : String} {change : Db → Db}
    (frame : ∀ db, (change db).requests = db.requests) (working : Db)
    (_ : (working.requests.find? id).isSome = true) : ∃ settled, (Tx.write change : DbTx Unit) working = .ok ((), settled) ∧
      settled.requests = working.requests :=
  ⟨_, rfl, frame working⟩

/-- The request of an outbox row has to exist. -/
theorem enqueue_total {requestId : String} {db : Db} (stored : (db.requests.find? requestId).isSome = true)
    (op : OutboxOp) (payload : ConsumePayload) (now : Int) :
    ∃ settled, HcmOutboxService.enqueue requestId op payload now db = .ok ((), settled) ∧
      settled.requests = db.requests := by
  simp only [HcmOutboxService.enqueue, Tx.bind_ok, Tx.query_ok, Tx.require_ok, Tx.write_ok]
  exact ⟨_, ⟨_, db, rfl, (), db, ⟨stored, rfl⟩, rfl⟩, rfl⟩

theorem cancel_total {clock : Clock} {actor : Actor} {requestId : String} {db : Db}
    {before : RequestRow} (found : db.requests.find? requestId = some before)
    (may : MayCancel actor before) (legal : canTransition before.state .cancelled = true) :
    ∃ after final, cancel clock actor requestId db = (.ok after, final) := by
  simp only [cancel, transaction_ok, cancelBody, Tx.bind_ok, findByIdOrThrow_ok, Tx.require_ok]
  obtain ⟨after, final, ran⟩ := move_total (m :=
    { clock := clock, requestId := requestId, toState := .cancelled
      settle := releaseReservation requestId clock.now, actorId := actor.sub, actorType := .user
      action := .requestCancelled }) found legal (externalIdFree_none _ _) (writes_settle fun _ => rfl)
  exact ⟨after, final, before, db, ⟨found, rfl⟩, (), db, ⟨may, rfl⟩, ran⟩

theorem reject_total {clock : Clock} {actor : Actor} {requestId : String} {reason : Option String}
    {db : Db} {before : RequestRow} (found : db.requests.find? requestId = some before)
    (decides : Decides actor before) (legal : canTransition before.state .rejected = true) :
    ∃ after final, reject clock actor requestId reason db = (.ok after, final) := by
  simp only [reject, transaction_ok, rejectBody, Tx.bind_ok, findByIdOrThrow_ok, authorizeManager_ok]
  obtain ⟨after, final, ran⟩ := move_total (m :=
    { clock := clock, requestId := requestId, toState := .rejected
      patch := { approverId := actor.sub, hcmError := reason }, checksUpdate := true
      settle := releaseReservation requestId clock.now, actorId := actor.sub, actorType := .user
      action := .requestRejected }) found legal (externalIdFree_none _ _) (writes_settle fun _ => rfl)
  exact ⟨after, final, before, db, ⟨found, rfl⟩, (), db, ⟨decides, rfl⟩, ran⟩

/-! ## When a request can be filed -/

theorem insert_total {row : RequestRow} {db : Db} (positive : 0 < row.days)
    (unsent : row.externalRequestId = none) (fresh : db.requests.find? row.id = none) :
    ∃ requests, db.requests.insertUnique row = some requests ∧
      TimeOffRepository.insert row db = .ok ((), { db with requests := requests }) := by
  obtain ⟨requests, inserted⟩ := Table.insertUnique_total fresh
  simp only [TimeOffRepository.insert, Tx.bind_ok, Tx.query_ok, Tx.require_ok, Tx.orThrow_ok, Tx.write_ok,
    unsent]
  exact ⟨requests, inserted, (), db, ⟨positive, rfl⟩, _, db, rfl, (), db, ⟨externalIdFree_none _ _, rfl⟩,
    requests, db, ⟨inserted, rfl⟩, rfl⟩

theorem insertReservation_total {requestId : String} {key : Key} {days : ℚ} {now : Int} {db : Db}
    (positive : 0 < days) (stored : (db.requests.find? requestId).isSome = true) :
    insertReservation requestId key days now db = .ok ((), { db with
      reservations := db.reservations.append (fun id => ⟨id, requestId, key, days, .open, now, now⟩)
        fun _ => rfl }) := by
  simp only [insertReservation, Tx.bind_ok, Tx.query_ok, Tx.require_ok, Tx.write_ok]
  exact ⟨(), db, ⟨positive, rfl⟩, _, db, rfl, (), db, ⟨stored, rfl⟩, rfl⟩

/-! ## The `mark` operations -/

/-- The body that the three `mark` operations share: an early return, or the move. -/
def markBody (m : Move) : DbTx RequestRow := do
  let before ← findByIdOrThrow m.requestId
  if before.state = m.toState then pure before
  else
    move m before

/-- What a `mark` operation throws: there is no such request, or no edge leads to the state. -/
inductive Refused (id : String) (toState : State) (db : Db) : Failure → Prop
  | missing (absent : db.requests.find? id = none) : Refused id toState db (.notFound "Request" id)
  | illegal (before : RequestRow) (found : db.requests.find? id = some before) :
      Refused id toState db (.invalidStateTransition before.state toState)

theorem Refused.domain {id : String} {toState : State} {db : Db} {failure : Failure}
    (refused : Refused id toState db failure) : failure.isHcmPermanent = false := by
  cases refused with
  | missing absent => rfl
  | illegal before found => rfl

/-- A `mark` operation returns early, moves an approved request, or throws a domain error. -/
inductive MarkOutcome (id : String) (toState : State) (now : Int) (patch : StatePatch) (db : Db) :
    Except Failure RequestRow × Db → Prop
  | already (row : RequestRow) (found : db.requests.find? id = some row)
      (state : row.state = toState) : MarkOutcome id toState now patch db (.ok row, db)
  | moved (before after : RequestRow) (final : Db) (found : db.requests.find? id = some before)
      (state : before.state = .approved) (moved : Moved before toState now patch db final) :
      MarkOutcome id toState now patch db (.ok after, final)
  | threw (failure : Failure) (refused : Refused id toState db failure)
      (elsewhere : requestState id db ≠ some toState)
      (unapproved : requestState id db ≠ some .approved) :
      MarkOutcome id toState now patch db (.error failure, db)

theorem mark_outcome (m : Move) (db : Db)
    (fromApproved : ∀ state, canTransition state m.toState = true ↔ state = .approved)
    (unsent : m.patch.externalRequestId = none)
    (settles : ∀ working : Db, (working.requests.find? m.requestId).isSome = true →
      ∃ settled, m.settle working = .ok ((), settled) ∧ settled.requests = working.requests)
    (describes : ∀ before after final, db.requests.find? m.requestId = some before →
      move m before db = .ok (after, final) →
      Moved before m.toState m.clock.now m.patch db final) :
    MarkOutcome m.requestId m.toState m.clock.now m.patch db (transaction (markBody m) db) := by
  cases found : db.requests.find? m.requestId with
  | none =>
    -- `findByIdOrThrow` throws
    have threw : markBody m db = .error (.notFound "Request" m.requestId) := by
      simp [markBody, findByIdOrThrow, Tx.query, Tx.orThrow, found, bind, StateT.bind, Except.bind,
        throw, throwThe, MonadExceptOf.throw, StateT.lift]
    rw [transaction, threw]
    exact .threw _ (.missing found) (by simp [requestState, found]) (by simp [requestState, found])
  | some before =>
    have read : markBody m db =
        (if before.state = m.toState then pure before else move m before : DbTx RequestRow) db := by
      simp [markBody, findByIdOrThrow, Tx.query, Tx.orThrow, found, bind, StateT.bind, Except.bind,
        Tx.pure_run]
    rw [transaction, read]
    by_cases already : before.state = m.toState
    · rw [if_pos already]
      exact .already before found already
    · rw [if_neg already]
      cases legal : canTransition before.state m.toState with
      | true =>
        obtain ⟨after, final, ran⟩ := move_total found legal (unsent ▸ externalIdFree_none _ _) settles
        have approved := (fromApproved before.state).mp legal
        have moved := describes before after final found ran
        rw [ran]
        exact .moved before after final found approved moved
      | false =>
        rw [move_illegal legal]
        -- from APPROVED the edge would have been legal
        refine .threw _ (.illegal before found) (by simpa [requestState, found] using already) ?_
        intro approved
        obtain ⟨row, foundRow, state⟩ := requestState_eq_some.mp approved
        cases found.symm.trans foundRow
        rw [(fromApproved before.state).mpr state] at legal
        cases legal

theorem markConsumed_outcome (clock : Clock) (requestId : String) (db : Db) :
    MarkOutcome requestId .consumed clock.now {} db (markConsumed clock requestId db) :=
  mark_outcome
    { clock := clock, requestId := requestId, toState := .consumed
      settle := consumeReservation requestId clock.now, action := .requestConsumed } db
    (fun _ => canTransition_consumed) rfl (writes_settle fun _ => rfl)
    fun _ _ _ found ran => move_closes found rfl rfl rfl ran

theorem markHcmFailed_outcome (clock : Clock) (requestId errorMessage : String) (db : Db) :
    MarkOutcome requestId .hcmFailed clock.now { hcmError := some errorMessage } db
      (markHcmFailed clock requestId errorMessage db) :=
  mark_outcome
    { clock := clock, requestId := requestId, toState := .hcmFailed
      patch := { hcmError := some errorMessage }
      settle := releaseReservation requestId clock.now, action := .requestHcmFailed } db
    (fun _ => canTransition_hcmFailed) rfl (writes_settle fun _ => rfl)
    fun _ _ _ found ran => move_closes found rfl rfl rfl ran

theorem markReviewRequired_outcome (clock : Clock) (requestId reason : String) (db : Db) :
    MarkOutcome requestId .reviewRequired clock.now { hcmError := some reason } db
      (markReviewRequired clock requestId reason db) :=
  mark_outcome
    { clock := clock, requestId := requestId, toState := .reviewRequired
      patch := { hcmError := some reason }, action := .requestReviewRequired } db
    (fun _ => canTransition_reviewRequired) rfl (fun working _ => ⟨working, rfl, rfl⟩)
    fun _ _ _ found ran => move_keeps found rfl rfl (by simp) rfl ran

end TimeOff
