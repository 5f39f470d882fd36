import TimeOff.Verified.Changes

/-! # What each call adds to the audit log

Every committed transaction on a request or a balance adds one row, written in
the same transaction as the change it tells of.  The outbox adds none.
-/

set_option autoImplicit false

namespace TimeOff

open TimeOff.Lib AuditService BalancesRepository BalancesService TimeOffRepository TimeOffService
  ReconciliationService HcmOutboxService

/-- The audit log grew by the one row of this entry. -/
def Enters (entry : AuditEntry) (db after : Db) : Prop :=
  ∃ auditNow, after.auditEvents.rows =
    db.auditEvents.rows ++ [auditEvent auditNow entry (db.auditEvents.lastId + 1)]

/-- The request `before` became `turned`, and the log tells so. -/
structure Turned (before turned : RequestRow) (db after : Db) : Prop where
  found : db.requests.find? before.id = some before
  legal : canTransition before.state turned.state = true
  id : turned.id = before.id
  correlationId : turned.correlationId = before.correlationId
  stored : ∀ id, after.requests.find? id = if id = before.id then some turned else db.requests.find? id
  entered : ∃ entry, Enters entry db after ∧ entry.targetType = .request ∧
    entry.targetId = before.id ∧ entry.before = some (.request before) ∧
    entry.after = some (.request turned) ∧ entry.correlationId = some before.correlationId

/-- The request was filed, and the log tells so. -/
structure FilingLogged (row : RequestRow) (db after : Db) : Prop where
  fresh : db.requests.find? row.id = none
  state : row.state = .pending
  stored : ∀ id, after.requests.find? id = if row.id = id then some row else db.requests.find? id
  entered : ∃ entry, Enters entry db after ∧ entry.action = .requestCreated ∧
    entry.targetType = .request ∧ entry.targetId = row.id ∧ entry.before = none ∧
    entry.after = some (.request row) ∧ entry.correlationId = some row.correlationId

/-- The snapshot was applied or ignored, and the log tells what it met and what it left. -/
structure SnapshotLogged (snapshot : HcmSnapshot) (result : SnapshotResult) (db after : Db) : Prop where
  requests : after.requests = db.requests
  entered : ∃ entry, Enters entry db after ∧ entry.targetType = .balance ∧
    entry.targetId = snapshot.key.employeeId ++ ":" ++ snapshot.key.locationId ++ ":" ++
      snapshot.key.leaveType ∧
    entry.before = (findBalance snapshot.key db).map (fun row => .balance row.record) ∧
    entry.after = some (.balance result.balance) ∧ entry.correlationId = snapshot.correlationId

/-- Snapshots under one correlation id, and escalations. -/
inductive Escalated (correlationId : Option String) : Db → Db → Prop
  | done (db : Db) : Escalated correlationId db db
  | snapshotted {snapshot : HcmSnapshot} {result : SnapshotResult} {db middle after : Db}
      (applied : SnapshotLogged snapshot result db middle) (under : snapshot.correlationId = correlationId)
      (rest : Escalated correlationId middle after) : Escalated correlationId db after
  | turned {before turned : RequestRow} {db middle after : Db} (review : turned.state = .reviewRequired)
      (step : Turned before turned db middle) (rest : Escalated correlationId middle after) :
      Escalated correlationId db after

/-- Neither requests nor the log changed. -/
structure Unlogged (db after : Db) : Prop where
  requests : after.requests = db.requests
  auditEvents : after.auditEvents = db.auditEvents

/-- The correlation id under which the call logs its snapshots. -/
def Call.snapshotCorrelation : Call → Option String
  | applyHcmBalanceSnapshot _ snapshot => snapshot.correlationId
  | _ => none

/-- What a call that files no request does to the requests and to the log. -/
inductive Audited (call : Call) (db after : Db) : Prop
  | unlogged (same : Unlogged db after)
  | turned {before turned : RequestRow} (step : Turned before turned db after)
  | escalated (brings : call.bringsBalance = true) (chain : Escalated call.snapshotCorrelation db after)

variable {db after final : Db}

/-! ## One transaction -/

theorem enters_logged {working : Db} (auditNow : Int) (entry : AuditEntry)
    (same : working.auditEvents = db.auditEvents) : Enters entry db (logged auditNow entry working) := by
  refine ⟨auditNow, ?_⟩
  rw [← same]
  rfl

/-- The rows of the log that are selected grow by the new one. -/
theorem Enters.selected {entry : AuditEntry} (entered : Enters entry db after)
    {select : AuditEvent → Bool} (chosen : ∀ auditNow id, select (auditEvent auditNow entry id) = true) :
    ∃ auditNow id, after.auditEvents.rows.filter select =
      db.auditEvents.rows.filter select ++ [auditEvent auditNow entry id] := by
  obtain ⟨auditNow, rows⟩ := entered
  refine ⟨auditNow, db.auditEvents.lastId + 1, ?_⟩
  rw [rows, List.filter_append, List.filter_singleton, chosen, cond_true]

/-- A selection that passes the new row over stays as it is. -/
theorem Enters.passed_over {entry : AuditEntry} (entered : Enters entry db after)
    {select : AuditEvent → Bool} (passed : ∀ auditNow id, select (auditEvent auditNow entry id) = false) :
    after.auditEvents.rows.filter select = db.auditEvents.rows.filter select := by
  obtain ⟨auditNow, rows⟩ := entered
  rw [rows, List.filter_append, List.filter_singleton, passed, cond_false, List.append_nil]

/-- The statement of the move leaves requests and log alone. -/
def TimeOffService.Move.Quiet (m : Move) : Prop :=
  ∀ working settled, m.settle working = .ok ((), settled) → Unlogged working settled

theorem quiet_closes {m : Move} {closed : ReservationState} {now : Int}
    (settle : m.settle = Tx.write (closeReservation m.requestId closed now)) : m.Quiet := by
  intro working settled settledRan
  rw [settle, Tx.write_ok] at settledRan
  cases settledRan
  exact ⟨rfl, rfl⟩

theorem quiet_pure {m : Move} (settle : m.settle = pure ()) : m.Quiet := by
  intro working settled settledRan
  rw [settle, Tx.pure_ok] at settledRan
  cases settledRan
  exact ⟨rfl, rfl⟩

theorem move_turned {m : Move} {before turned : RequestRow}
    (found : db.requests.find? m.requestId = some before) (quiet : m.Quiet)
    (ran : move m before db = .ok (turned, final)) : Turned before turned db final := by
  have beforeId : before.id = m.requestId := (Table.find?_eq_some.mp found).2
  obtain ⟨legal, _, rfl, settled, settledRan, rfl⟩ :=
    move_ok found (fun working settled ran => (quiet working settled ran).requests) ran
  obtain ⟨requests, auditEvents⟩ := quiet _ _ settledRan
  refine ⟨by rw [beforeId]; exact found, legal, rfl, rfl, ?_, _, enters_logged _ _ auditEvents,
    rfl, beforeId.symm, rfl, rfl, rfl⟩
  intro id
  have stored := Table.find?_update db.requests (inState m.requestId before.state)
    (patched m.toState m.clock.now m.patch) (fun _ => rfl) id
  show settled.requests.find? id = _
  rw [requests, beforeId]
  apply stored.trans
  by_cases own : id = m.requestId
  · subst own
    rw [found, if_pos rfl, Option.map_some, patchRow_of_hit (by simp [inState, beforeId])]
  -- the UPDATE names the id, so every other request is missed
  · rw [if_neg own]
    cases foundOther : db.requests.find? id with
    | none => rfl
    | some other =>
      have otherId : other.id = id := (Table.find?_eq_some.mp foundOther).2
      rw [Option.map_some, patchRow_of_miss (by simp [inState, otherId, own])]

theorem approve_turned {clock : Clock} {newExternalRequestId : String} {actor : Actor}
    {requestId : String} {turned : RequestRow}
    (ran : approve clock newExternalRequestId actor requestId db = (.ok turned, final)) :
    ∃ before, Turned before turned db final := by
  rw [approve, transaction_ok] at ran
  simp only [approveBody, Tx.bind_ok, findByIdOrThrow_ok, authorizeManager_ok, Prod.mk.injEq] at ran
  obtain ⟨before, _, ⟨found, rfl⟩, _, _, ⟨_, _, rfl⟩, ran⟩ := ran
  refine ⟨before, move_turned found ?_ ran⟩
  intro working settled settledRan
  rw [enqueue_ok settledRan]
  exact ⟨rfl, rfl⟩

theorem reject_turned {clock : Clock} {actor : Actor} {requestId : String} {reason : Option String}
    {turned : RequestRow} (ran : reject clock actor requestId reason db = (.ok turned, final)) :
    ∃ before, Turned before turned db final := by
  rw [reject, transaction_ok] at ran
  simp only [rejectBody, Tx.bind_ok, findByIdOrThrow_ok, authorizeManager_ok, Prod.mk.injEq] at ran
  obtain ⟨before, _, ⟨found, rfl⟩, _, _, ⟨_, _, rfl⟩, ran⟩ := ran
  exact ⟨before, move_turned found (quiet_closes rfl) ran⟩

theorem cancel_turned {clock : Clock} {actor : Actor} {requestId : String} {turned : RequestRow}
    (ran : cancel clock actor requestId db = (.ok turned, final)) :
    ∃ before, Turned before turned db final := by
  rw [cancel, transaction_ok] at ran
  simp only [cancelBody, Tx.bind_ok, findByIdOrThrow_ok, Tx.require_ok, Prod.mk.injEq] at ran
  obtain ⟨before, _, ⟨found, rfl⟩, _, _, ⟨_, _, rfl⟩, ran⟩ := ran
  exact ⟨before, move_turned found (quiet_closes rfl) ran⟩

/-- A `mark` operation writes one row with its move, and none otherwise. -/
theorem mark_turned (m : Move) (quiet : m.Quiet) (db : Db) :
    (transaction (markBody m) db).2 = db ∨
    ∃ before turned, turned.state = m.toState ∧ Turned before turned db (transaction (markBody m) db).2 := by
  refine transaction_rule (fun _ final => final = db ∨ ∃ before turned, turned.state = m.toState ∧
    Turned before turned db final) ?_ fun _ _ => .inl rfl
  intro turned final ran
  simp only [markBody, Tx.bind_ok, findByIdOrThrow_ok] at ran
  obtain ⟨before, _, ⟨found, rfl⟩, ran⟩ := ran
  split at ran
  next already =>
    cases Tx.pure_ok.mp ran
    exact .inl rfl
  next =>
    right
    obtain ⟨_, _, same, _⟩ := move_ok found (fun working settled ran => (quiet working settled ran).requests) ran
    exact ⟨before, turned, by rw [same]; rfl, move_turned found quiet ran⟩

theorem markConsumed_turned (clock : Clock) (requestId : String) (db : Db) :
    (markConsumed clock requestId db).2 = db ∨
    ∃ before turned, turned.state = .consumed ∧ Turned before turned db (markConsumed clock requestId db).2 :=
  mark_turned
    { clock := clock, requestId := requestId, toState := .consumed
      settle := consumeReservation requestId clock.now, action := .requestConsumed }
    (quiet_closes rfl) db

theorem markHcmFailed_turned (clock : Clock) (requestId errorMessage : String) (db : Db) :
    (markHcmFailed clock requestId errorMessage db).2 = db ∨
    ∃ before turned, turned.state = .hcmFailed ∧
      Turned before turned db (markHcmFailed clock requestId errorMessage db).2 :=
  mark_turned
    { clock := clock, requestId := requestId, toState := .hcmFailed
      patch := { hcmError := some errorMessage }
      settle := releaseReservation requestId clock.now, action := .requestHcmFailed }
    (quiet_closes rfl) db

theorem markReviewRequired_turned (clock : Clock) (requestId reason : String) (db : Db) :
    (markReviewRequired clock requestId reason db).2 = db ∨
    ∃ before turned, turned.state = .reviewRequired ∧
      Turned before turned db (markReviewRequired clock requestId reason db).2 :=
  mark_turned
    { clock := clock, requestId := requestId, toState := .reviewRequired
      patch := { hcmError := some reason }, action := .requestReviewRequired }
    (quiet_pure rfl) db

theorem markReviewRequired_escalated (correlationId : Option String) (clock : Clock)
    (requestId reason : String) (db : Db) :
    Escalated correlationId db (markReviewRequired clock requestId reason db).2 := by
  have outcome := markReviewRequired_turned clock requestId reason db
  cases outcome with
  | inl same =>
    rw [same]
    exact .done db
  | inr turned =>
    obtain ⟨before, turned, review, step⟩ := turned
    exact .turned review step (.done _)

theorem applyHcmBalanceSnapshot_logged {clock : Clock} {snapshot : HcmSnapshot} {result : SnapshotResult}
    (ran : applyHcmBalanceSnapshot clock snapshot db = (.ok result, after)) :
    SnapshotLogged snapshot result db after := by
  have requests := (applyHcmBalanceSnapshot_ok ran).requests
  obtain ⟨working, upserted, -, -, rfl⟩ := applyHcmBalanceSnapshot_inv ran
  have auditEvents := (upsertBalance_ok upserted).2.2.2.2.1
  exact ⟨requests, _, enters_logged _ _ auditEvents, rfl, rfl, rfl, rfl, rfl⟩

theorem createRequest_logged {clock : Clock} {ids : NewIds} {actor : Actor} {input : CreateInput}
    {created : CreatedRequest} (ran : createRequest clock ids actor input db = (.ok created, after)) :
    created.row.id = ids.requestId ∧ created.row.correlationId = ids.correlationId ∧
      FilingLogged created.row db after := by
  obtain ⟨days, employeeId, bal, requests, -, -, row, -, -, -, taken, rfl⟩ := createRequest_inv ran
  obtain ⟨fresh, -⟩ := Table.insertUnique_eq_some.mp taken
  rw [row] at *
  exact ⟨rfl, rfl, fresh, rfl, Table.find?_insert taken, _, enters_logged _ _ rfl, rfl, rfl, rfl, rfl,
    rfl, rfl⟩

/-! ## Chains of snapshots and escalations -/

variable {correlationId : Option String}

theorem Escalated.trans {middle : Db} (left : Escalated correlationId db middle)
    (right : Escalated correlationId middle after) : Escalated correlationId db after := by
  induction left with
  | done db => exact right
  | snapshotted applied under rest inductionHypothesis =>
    exact .snapshotted applied under (inductionHypothesis right)
  | turned review step rest inductionHypothesis => exact .turned review step (inductionHypothesis right)

theorem escalations_escalated (clock : String → Clock) (ids : List String) (db : Db) :
    Escalated correlationId db
      (ids.foldl (fun db id => (markReviewRequired (clock id) id escalationReason db).2) db) := by
  induction ids generalizing db with
  | nil => exact .done db
  | cons id rest inductionHypothesis =>
    exact (markReviewRequired_escalated correlationId (clock id) id escalationReason db).trans
      (inductionHypothesis _)

theorem applyAndEscalate_escalated (clock : RowClock) (snapshot : HcmSnapshot) (db : Db) :
    Escalated snapshot.correlationId db (applyAndEscalate clock snapshot db).2 := by
  obtain ⟨result, after, ran, _⟩ | ⟨failure, ran⟩ := applyHcmBalanceSnapshot_cases clock.snapshot snapshot db
  · simp only [applyAndEscalate, ran]
    split
    · exact .snapshotted (applyHcmBalanceSnapshot_logged ran) rfl (escalations_escalated _ _ _)
    · exact .snapshotted (applyHcmBalanceSnapshot_logged ran) rfl (.done after)
  · simp only [applyAndEscalate, ran]
    exact .done db

theorem applyRows_escalated (asOf : Option Stamp) (clocks : Nat → RowClock) (rows : List BatchRow)
    (db : Db) : Escalated none db (applyRows asOf clocks rows db).db := by
  induction rows generalizing clocks db with
  | nil => exact .done db
  | cons row rest inductionHypothesis =>
    have first := applyAndEscalate_escalated (clocks 0) (rowSnapshot asOf (clocks 0) row) db
    simp only [applyRows]
    split
    next failure after ran =>
      rw [ran] at first
      exact first
    next result after ran =>
      rw [ran] at first
      exact first.trans (inductionHypothesis _ after)

theorem reconcileKey_escalated (clock : RowClock) (key : Key) (reply : Reply BalanceView) (db : Db) :
    Escalated none db (reconcileKey clock key reply db).2 := by
  simp only [reconcileKey]
  split
  · exact .done db
  · exact .done db
  next view answered =>
    have first := applyAndEscalate_escalated clock
      { key := key, balance := view.balance, asOf := view.asOf.getD (.ms clock.fallback)
        source := .hcmPull } db
    split
    next failure after ran =>
      rw [ran] at first
      exact first
    next result after ran =>
      rw [ran] at first
      exact first

/-! ## Every call -/

theorem scheduleRetry_unlogged (config : OutboxConfig) (now : Int) (random : ℚ) (id : Nat)
    (errorMessage : String) (db : Db) : Unlogged db (scheduleRetry config now random id errorMessage db) := by
  obtain ⟨_, same⟩ | ⟨change, keeps, _, same⟩ := scheduleRetry_cases config now random id errorMessage db
  · rw [same]
    exact ⟨rfl, rfl⟩
  · rw [same]
    exact ⟨rfl, rfl⟩

theorem Audited.of_mark {call : Call} {toState : State} (outcome : after = db ∨
    ∃ before turned, turned.state = toState ∧ Turned before turned db after) :
    Audited call db after := by
  cases outcome with
  | inl same =>
    subst same
    exact .unlogged ⟨rfl, rfl⟩
  | inr turned =>
    obtain ⟨before, turned, _, step⟩ := turned
    exact .turned step

/-- The call is a filing that goes through and is logged, or files nothing. -/
theorem Call.audited (call : Call) (db : Db) :
    (∃ clock ids actor input row, call = .createRequest clock ids actor input ∧ row.id = ids.requestId ∧
      row.correlationId = ids.correlationId ∧ FilingLogged row db (call.exec db)) ∨
    Audited call db (call.exec db) := by
  cases call with
  | createRequest clock ids actor input =>
    cases ran : TimeOffService.createRequest clock ids actor input db with
    | mk outcome after =>
      simp only [Call.exec, ran]
      cases outcome with
      | ok created =>
        obtain ⟨id, correlation, logged⟩ := createRequest_logged ran
        exact .inl ⟨clock, ids, actor, input, created.row, rfl, id, correlation, logged⟩
      | error failure =>
        rw [createRequest_error ran]
        exact .inr (.unlogged ⟨rfl, rfl⟩)
  | approve clock newId actor requestId =>
    right
    refine transaction_rule (fun _ after => Audited _ db after) ?_ fun _ _ => .unlogged ⟨rfl, rfl⟩
    intro _ after ran
    obtain ⟨before, turned⟩ := approve_turned (transaction_ok.mpr ran)
    exact .turned turned
  | reject clock actor requestId reason =>
    right
    refine transaction_rule (fun _ after => Audited _ db after) ?_ fun _ _ => .unlogged ⟨rfl, rfl⟩
    intro _ after ran
    obtain ⟨before, turned⟩ := reject_turned (transaction_ok.mpr ran)
    exact .turned turned
  | cancel clock actor requestId =>
    right
    refine transaction_rule (fun _ after => Audited _ db after) ?_ fun _ _ => .unlogged ⟨rfl, rfl⟩
    intro _ after ran
    obtain ⟨before, turned⟩ := cancel_turned (transaction_ok.mpr ran)
    exact .turned turned
  | markConsumed clock requestId => exact .inr (.of_mark (markConsumed_turned clock requestId db))
  | markHcmFailed clock requestId errorMessage =>
    exact .inr (.of_mark (markHcmFailed_turned clock requestId errorMessage db))
  | markReviewRequired clock requestId reason =>
    exact .inr (.of_mark (markReviewRequired_turned clock requestId reason db))
  | applyHcmBalanceSnapshot clock snapshot =>
    right
    refine transaction_rule (fun _ after => Audited _ db after) ?_
      fun _ _ => .unlogged ⟨rfl, rfl⟩
    intro _ after ran
    exact .escalated rfl (.snapshotted (applyHcmBalanceSnapshot_logged (transaction_ok.mpr ran)) rfl (.done after))
  | handleBatch clocks batch =>
    right
    simp only [Call.exec, handleBatch_db]
    exact .escalated rfl (applyRows_escalated batch.asOf clocks batch.balances db)
  | reconcileKey clock key reply => exact .inr (.escalated rfl (reconcileKey_escalated clock key reply db))
  | claimDue config now => exact .inr (.unlogged ⟨rfl, rfl⟩)
  | markDone now id => exact .inr (.unlogged ⟨rfl, rfl⟩)
  | scheduleRetry config now random id errorMessage =>
    exact .inr (.unlogged (scheduleRetry_unlogged config now random id errorMessage db))
  | resetToPending id => exact .inr (.unlogged ⟨rfl, rfl⟩)

end TimeOff
