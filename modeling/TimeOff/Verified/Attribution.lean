import TimeOff.Verified.BalanceLedger
import TimeOff.Verified.ServerRuns

/-! # Who has done what

The audit log names an actor in every row.  Each row can be traced to the event that wrote it: a
user's to a request with the user's token, a row of HCM to the entry of a signed webhook or to the
answer to a pull that an admin has asked for, a row of the service to such a report or to an answer
that the worker was waiting for.
-/

set_option autoImplicit false

namespace TimeOff

open TimeOff.Lib AuditService BalancesRepository BalancesService TimeOffRepository TimeOffService
  ReconciliationService HcmOutboxService HcmOutboxWorker

/-! ## Rows of the log -/

/-- The row tells of an action on the request, by this actor. -/
structure AuditEvent.By (event : AuditEvent) (actorType : ActorType) (actorId : Option String)
    (action : AuditAction) (id : String) : Prop where
  actorType : event.actorType = actorType
  actorId : event.actorId = actorId
  action : event.action = action
  targetType : event.targetType = .request
  targetId : event.targetId = id

abbrev AuditEvent.ByUser (event : AuditEvent) (actor : Actor) : AuditAction → String → Prop :=
  event.By .user actor.sub

abbrev AuditEvent.BySystem (event : AuditEvent) : AuditAction → String → Prop := event.By .system none

/-- What a row says of a balance that HCM reported under this date: the cached one is newer and stays, or
the cached one is the reported one. -/
inductive AuditEvent.Tells (event : AuditEvent) (key : Key) (balance : Option ℚ) (dated : Stamp) : Prop
  | stale (held : BalanceRecord) (action : event.action = .balanceSnapshotIgnoredStale)
      (before : event.before = some (.balance held)) (after : event.after = event.before)
      (keyed : held.key = key) (older : dated.lt held.hcmSnapshotAt = true)
  | cached (record : BalanceRecord)
      (action : event.action = .balanceSnapshotApplied ∨ event.action = .balanceSnapshotNegativeDrift)
      (after : event.after = some (.balance record)) (keyed : record.key = key)
      (amount : balance = some record.hcmBalance) (asOf : record.hcmSnapshotAt = dated)

/-- The row tells of a balance that HCM has reported. -/
structure AuditEvent.Reports (event : AuditEvent) (key : Key) (balance : Option ℚ) (dated : Stamp) : Prop where
  actorType : event.actorType = .hcm
  actorId : event.actorId = none
  targetType : event.targetType = .balance
  targetId : event.targetId = key.targetId
  tells : event.Tells key balance dated

/-- The row tells of a request of the key that was sent to review. -/
def AuditEvent.Escalates (event : AuditEvent) (key : Key) : Prop :=
  ∃ request : RequestRow, event.BySystem .requestReviewRequired request.id ∧
    event.before = some (.request request) ∧ request.key = key

/-- The row follows from what HCM reported of the key; a report without a date gets that of a clock. -/
def AuditEvent.Follows (event : AuditEvent) (key : Key) (balance : Option ℚ) (asOf : Option Stamp) : Prop :=
  (∃ now, event.Reports key balance (asOf.getD (.ms now))) ∨ event.Escalates key

/-- The row follows from an entry of the batch. -/
def AuditEvent.FollowsFrom (event : AuditEvent) (batch : Batch) : Prop :=
  ∃ entry ∈ batch.balances, event.Follows entry.key entry.balance (entry.asOf.or batch.asOf)

/-! ## What a step writes into the log -/

/-- The rows that a call of a route may write. -/
def Call.Writes : Call → AuditEvent → Prop
  | createRequest _ ids actor _, event => event.ByUser actor .requestCreated ids.requestId
  | approve _ _ actor requestId, event => event.ByUser actor .requestApproved requestId
  | reject _ actor requestId _, event => event.ByUser actor .requestRejected requestId
  | cancel _ actor requestId, event => event.ByUser actor .requestCancelled requestId
  | handleBatch _ batch, event => event.FollowsFrom batch
  | reconcileKey _ key reply, event =>
    ∃ view, HcmClient.getBalance key reply = .ok (some view) ∧ event.Follows key view.balance view.asOf
  | _, _ => False

/-- What an answer of HCM has the waiting worker do to the request of its row. -/
inductive Answered (world : World) : Event → AuditAction → String → Prop
  | insufficient (clock : Clock) (reply : Reply BalanceView) (row : ClaimedRow) (rest : List ClaimedRow)
      (balance : ℚ) (waits : world.worker = .awaitBalance row rest)
      (known : insufficientView row reply = some balance) :
      Answered world (.balanceReply clock reply) .requestReviewRequired row.requestId
  | accepted (clock : Clock) (reply : Reply Unit) (row : ClaimedRow) (rest : List ClaimedRow)
      (body : Option Unit) (waits : world.worker = .awaitConsume row rest)
      (answer : HcmClient.consumeBalance reply = .ok body) :
      Answered world (.consumeReply clock reply) .requestConsumed row.requestId
  | refused (clock : Clock) (reply : Reply Unit) (row : ClaimedRow) (rest : List ClaimedRow)
      (failure : Failure) (waits : world.worker = .awaitConsume row rest)
      (answer : HcmClient.consumeBalance reply = .error failure)
      (permanent : failure.isHcmPermanent = true) :
      Answered world (.consumeReply clock reply) .requestHcmFailed row.requestId

/-- The rows that a step of the system may write. -/
def Event.Writes (world : World) : Event → AuditEvent → Prop
  | .call made, row => made.Writes row
  | .crashInBatch _ batch _ _, row => row.FollowsFrom batch
  | event, row => ∃ action id, Answered world event action id ∧ row.BySystem action id

/-- The log grew by rows of the kind. -/
def Logs (kind : AuditEvent → Prop) (db after : Db) : Prop :=
  ∃ added, after.auditEvents.rows = db.auditEvents.rows ++ added ∧ ∀ event ∈ added, kind event

variable {db after final : Db} {kind wider : AuditEvent → Prop}

theorem Logs.same (same : after.auditEvents = db.auditEvents) : Logs kind db after :=
  ⟨[], by rw [same, List.append_nil], by simp⟩

theorem Logs.trans {middle : Db} (left : Logs kind db middle) (right : Logs kind middle after) :
    Logs kind db after := by
  obtain ⟨earlier, earlierRows, earlierOfKind⟩ := left
  obtain ⟨later, laterRows, laterOfKind⟩ := right
  exact ⟨earlier ++ later, by rw [laterRows, earlierRows, List.append_assoc],
    List.forall_mem_append.mpr ⟨earlierOfKind, laterOfKind⟩⟩

theorem Logs.mono (logs : Logs kind db after) (widens : ∀ event, kind event → wider event) :
    Logs wider db after := by
  obtain ⟨added, rows, ofKind⟩ := logs
  exact ⟨added, rows, fun event member => widens event (ofKind event member)⟩

theorem Logs.mem (logs : Logs kind db after) {event : AuditEvent} (member : event ∈ after.auditEvents.rows) :
    event ∈ db.auditEvents.rows ∨ kind event := by
  obtain ⟨added, rows, ofKind⟩ := logs
  rw [rows, List.mem_append] at member
  exact member.imp_right (ofKind event)

theorem logs_logged {working : Db} {auditNow : Int} {entry : AuditEntry}
    (same : working.auditEvents = db.auditEvents) (ofKind : ∀ id, kind (auditEvent auditNow entry id)) :
    Logs kind db (logged auditNow entry working) := by
  refine ⟨[auditEvent auditNow entry (db.auditEvents.lastId + 1)], ?_, by simp [ofKind]⟩
  rw [← same]
  rfl

/-- A transaction that throws writes nothing. -/
theorem Logs.of_transaction {α : Type} {body : DbTx α}
    (ran : ∀ result final, body db = .ok (result, final) → Logs kind db final) :
    Logs kind db (transaction body db).2 :=
  transaction_rule (fun _ final => Logs kind db final) (fun _ _ committed => ran _ _ committed)
    fun _ _ => .same rfl

/-! ## The operations of a request -/

/-- A state change writes one row, with the actor that it was given. -/
theorem move_logs {m : Move} {before turned : RequestRow} (found : db.requests.find? m.requestId = some before)
    (quiet : m.Quiet) (ran : move m before db = .ok (turned, final)) :
    Logs (fun event => event.By m.actorType m.actorId m.action m.requestId ∧
      event.before = some (.request before)) db final := by
  obtain ⟨_, _, _, settled, settledRan, rfl⟩ :=
    move_ok found (fun working settled ran => (quiet working settled ran).requests) ran
  -- what the move settles writes nothing into the log, so its own row is the one that is new
  exact logs_logged (quiet _ _ settledRan).auditEvents fun _ => ⟨⟨rfl, rfl, rfl, rfl, rfl⟩, rfl⟩

theorem move_logs_user {m : Move} {before turned : RequestRow} {actor : Actor}
    (type : m.actorType = .user) (own : m.actorId = actor.sub)
    (found : db.requests.find? m.requestId = some before) (quiet : m.Quiet)
    (ran : move m before db = .ok (turned, final)) :
    Logs (fun event => event.ByUser actor m.action m.requestId) db final := by
  apply (move_logs found quiet ran).mono
  intro event wrote
  rw [type, own] at wrote
  exact wrote.1

theorem approve_logs (clock : Clock) (newId : String) (actor : Actor) (requestId : String) (db : Db) :
    Logs (fun event => event.ByUser actor .requestApproved requestId) db
      (approve clock newId actor requestId db).2 := by
  apply Logs.of_transaction
  intro turned final ran
  simp only [approveBody, Tx.bind_ok, findByIdOrThrow_ok, authorizeManager_ok, Prod.mk.injEq] at ran
  obtain ⟨before, _, ⟨found, rfl⟩, _, _, ⟨_, _, rfl⟩, ran⟩ := ran
  refine @move_logs_user _ _ _ _ _ actor rfl rfl found ?_ ran
  intro working settled settledRan
  rw [enqueue_ok settledRan]
  exact ⟨rfl, rfl⟩

theorem reject_logs (clock : Clock) (actor : Actor) (requestId : String) (reason : Option String) (db : Db) :
    Logs (fun event => event.ByUser actor .requestRejected requestId) db
      (reject clock actor requestId reason db).2 := by
  apply Logs.of_transaction
  intro turned final ran
  simp only [rejectBody, Tx.bind_ok, findByIdOrThrow_ok, authorizeManager_ok, Prod.mk.injEq] at ran
  obtain ⟨before, _, ⟨found, rfl⟩, _, _, ⟨_, _, rfl⟩, ran⟩ := ran
  exact @move_logs_user _ _ _ _ _ actor rfl rfl found (quiet_closes rfl) ran

theorem cancel_logs (clock : Clock) (actor : Actor) (requestId : String) (db : Db) :
    Logs (fun event => event.ByUser actor .requestCancelled requestId) db
      (cancel clock actor requestId db).2 := by
  apply Logs.of_transaction
  intro turned final ran
  simp only [cancelBody, Tx.bind_ok, findByIdOrThrow_ok, Tx.require_ok, Prod.mk.injEq] at ran
  obtain ⟨before, _, ⟨found, rfl⟩, _, _, ⟨_, _, rfl⟩, ran⟩ := ran
  exact @move_logs_user _ _ _ _ _ actor rfl rfl found (quiet_closes rfl) ran

theorem createRequest_logs (clock : Clock) (ids : NewIds) (actor : Actor) (input : CreateInput) (db : Db) :
    Logs (fun event => event.ByUser actor .requestCreated ids.requestId) db
      (createRequest clock ids actor input db).2 := by
  cases ran : createRequest clock ids actor input db with
  | mk outcome after =>
    cases outcome with
    | error failure =>
      rw [createRequest_error ran]
      exact .same rfl
    | ok created =>
      obtain ⟨_, _, _, _, _, _, _, _, _, _, _, rfl⟩ := createRequest_inv ran
      exact logs_logged rfl fun _ => ⟨rfl, rfl, rfl, rfl, rfl⟩

/-- A `mark` operation writes one row with its move, and none otherwise. -/
theorem mark_logs (m : Move) (quiet : m.Quiet) (type : m.actorType = .system) (nobody : m.actorId = none)
    (db : Db) : Logs (fun event => event.BySystem m.action m.requestId ∧
      ∃ before, db.requests.find? m.requestId = some before ∧ event.before = some (.request before)) db
      (transaction (markBody m) db).2 := by
  apply Logs.of_transaction
  intro turned final ran
  simp only [markBody, Tx.bind_ok, findByIdOrThrow_ok] at ran
  obtain ⟨before, _, ⟨found, rfl⟩, ran⟩ := ran
  split at ran
  -- a request that is in the state already is left as it is, and nothing is written
  next already =>
    cases Tx.pure_ok.mp ran
    exact .same rfl
  next =>
    apply (move_logs found quiet ran).mono
    intro event wrote
    rw [type, nobody] at wrote
    exact ⟨wrote.1, before, found, wrote.2⟩

theorem markConsumed_logs (clock : Clock) (requestId : String) (db : Db) :
    Logs (fun event => event.BySystem .requestConsumed requestId) db (markConsumed clock requestId db).2 :=
  (mark_logs
    { clock := clock, requestId := requestId, toState := .consumed
      settle := consumeReservation requestId clock.now, action := .requestConsumed }
    (quiet_closes rfl) rfl rfl db).mono fun _ wrote => wrote.1

theorem markHcmFailed_logs (clock : Clock) (requestId errorMessage : String) (db : Db) :
    Logs (fun event => event.BySystem .requestHcmFailed requestId) db
      (markHcmFailed clock requestId errorMessage db).2 :=
  (mark_logs
    { clock := clock, requestId := requestId, toState := .hcmFailed
      patch := { hcmError := some errorMessage }
      settle := releaseReservation requestId clock.now, action := .requestHcmFailed }
    (quiet_closes rfl) rfl rfl db).mono fun _ wrote => wrote.1

theorem markReviewRequired_logs (clock : Clock) (requestId reason : String) (db : Db) :
    Logs (fun event => event.BySystem .requestReviewRequired requestId ∧
      ∃ before, db.requests.find? requestId = some before ∧ event.before = some (.request before)) db
      (markReviewRequired clock requestId reason db).2 :=
  mark_logs
    { clock := clock, requestId := requestId, toState := .reviewRequired
      patch := { hcmError := some reason }, action := .requestReviewRequired }
    (quiet_pure rfl) rfl rfl db

/-! ## The worker's answers -/

/-- The error path marks the request as failed, and only for an error that is permanent. -/
theorem onError_logs (clock : Clock) (row : ClaimedRow) (failure : Failure) (db : Db) :
    Logs (fun event => failure.isHcmPermanent = true ∧ event.BySystem .requestHcmFailed row.requestId) db
      (onError clock row failure db).2 := by
  simp only [onError]
  split
  next permanent =>
    have failed := (markHcmFailed_logs clock row.requestId failure.message db).mono
      fun _ wrote => And.intro permanent wrote
    split
    next ran => rwa [ran] at failed
    next ran => rwa [ran] at failed
  next => exact .same rfl

/-- What a `mark` operation throws is no permanent error of HCM. -/
theorem onError_refused {row : ClaimedRow} {toState : State} {failure : Failure}
    (refused : Refused row.requestId toState db failure) (clock : Clock) :
    (onError clock row failure db).2 = db := by
  simp [onError, refused.domain]

theorem onBalance_logs (clock : Clock) {row : ClaimedRow} {rest : List ClaimedRow} {world : World}
    (waits : world.worker = .awaitBalance row rest) (reply : Reply BalanceView) :
    Logs (Event.Writes world (.balanceReply clock reply)) world.db (onBalance clock row reply world.db).2 := by
  simp only [onBalance]
  split
  next => exact .same rfl
  next balance known =>
    have reviewed : Logs (Event.Writes world (.balanceReply clock reply)) world.db
        (markReviewRequired clock row.requestId (reviewReason balance row.payload.days) world.db).2 :=
      (markReviewRequired_logs clock row.requestId (reviewReason balance row.payload.days) world.db).mono
        fun _ wrote => ⟨_, _, .insufficient clock reply row rest balance waits known, wrote.1⟩
    have outcome := markReviewRequired_outcome clock row.requestId
      (reviewReason balance row.payload.days) world.db
    split
    next ran => rwa [ran] at reviewed
    next failure after ran =>
      rw [ran] at outcome
      cases outcome with
      | threw failure refused elsewhere unapproved => exact .same (by rw [onError_refused refused])

theorem onConsume_logs (clock : Clock) {row : ClaimedRow} {rest : List ClaimedRow} {world : World}
    (waits : world.worker = .awaitConsume row rest) (reply : Reply Unit) :
    Logs (Event.Writes world (.consumeReply clock reply)) world.db (onConsume clock row reply world.db).2 := by
  simp only [onConsume]
  split
  next failure answer =>
    apply (onError_logs clock row failure world.db).mono
    intro event wrote
    obtain ⟨permanent, wrote⟩ := wrote
    exact ⟨_, _, .refused clock reply row rest failure waits answer permanent, wrote⟩
  next body answer =>
    have consumed : Logs (Event.Writes world (.consumeReply clock reply)) world.db
        (markConsumed clock row.requestId world.db).2 :=
      (markConsumed_logs clock row.requestId world.db).mono
        fun _ wrote => ⟨_, _, .accepted clock reply row rest body waits answer, wrote⟩
    have outcome := markConsumed_outcome clock row.requestId world.db
    split
    next ran => rwa [ran] at consumed
    next failure after ran =>
      rw [ran] at outcome
      cases outcome with
      | threw failure refused elsewhere unapproved => exact .same (by rw [onError_refused refused])

/-! ## Snapshots and escalations -/

/-- The row of a snapshot shows the balance that is reported, or the newer one that stays. -/
theorem Upserted.tells {snapshot : HcmSnapshot} {now : Int} {result : SnapshotResult} {working : Db}
    {event : AuditEvent} (upserted : Upserted snapshot now db result.balance working)
    (ignored : result.ignored = (findBalance snapshot.key db).map fun row => snapshot.asOf.lt row.hcmSnapshotAt)
    (action : event.action = result.action)
    (before : event.before = (findBalance snapshot.key db).map fun row => .balance row.record)
    (after : event.after = some (.balance result.balance)) :
    event.Tells snapshot.key snapshot.balance snapshot.asOf := by
  have applied (taken : result.ignored ≠ some true) : event.action = .balanceSnapshotApplied ∨
      event.action = .balanceSnapshotNegativeDrift := by
    rw [action, SnapshotResult.action, if_neg taken]
    by_cases drift : result.negativeDrift = true
    · simp [drift]
    · simp [drift]
  generalize recorded : result.balance = record at upserted after
  cases upserted with
  | first balance stamp absent given nonneg stored =>
    exact .cached _ (applied (by simp [ignored, absent])) after rfl given rfl
  | stale row found older =>
    rw [found, Option.map_some] at before ignored
    refine .stale row.record ?_ before (after.trans before.symm) (findBalance_key found) older
    rw [action, SnapshotResult.action, ignored, older, if_pos rfl]
  | newer row balance stamp found current given nonneg stored =>
    exact .cached _ (applied (by simp [ignored, found, current])) after (findBalance_key found) given rfl

theorem applyHcmBalanceSnapshot_logs (clock : Clock) (snapshot : HcmSnapshot) (db : Db) :
    Logs (fun event => event.Reports snapshot.key snapshot.balance snapshot.asOf) db
      (applyHcmBalanceSnapshot clock snapshot db).2 := by
  apply Logs.of_transaction
  intro result final ran
  obtain ⟨working, upserted, ignored, -, rfl⟩ := applyHcmBalanceSnapshot_inv (transaction_ok.mpr ran)
  apply logs_logged (upsertBalance_ok upserted).2.2.2.2.1
  intro id
  exact ⟨rfl, rfl, rfl, rfl, (upsertBalance_upserted upserted).tells ignored rfl rfl rfl⟩

/-- An escalation leaves the keys of the requests alone, so each of its rows is on the key. -/
theorem escalations_logs {key : Key} (clock : String → Clock) (ids : List String) (db : Db)
    (onKey : ∀ id ∈ ids, Concerns (· = key) db id) :
    Logs (fun event => event.Escalates key) db
      (ids.foldl (fun db id => (markReviewRequired (clock id) id escalationReason db).2) db) := by
  induction ids generalizing db with
  | nil => exact .same rfl
  | cons id rest inductionHypothesis =>
    obtain ⟨here, later⟩ := List.forall_mem_cons.mp onKey
    have grows := (Effect.healed (markReviewRequired_healed (clock id) id escalationReason db)).grows
    have first : Logs (fun event => event.Escalates key) db
        (markReviewRequired (clock id) id escalationReason db).2 := by
      apply (markReviewRequired_logs (clock id) id escalationReason db).mono
      intro event wrote
      obtain ⟨bySystem, before, found, shown⟩ := wrote
      obtain ⟨request, foundRequest, keyed⟩ := here
      cases found.symm.trans foundRequest
      obtain rfl : before.id = id := (Table.find?_eq_some.mp found).2
      exact ⟨before, bySystem, shown, keyed⟩
    exact first.trans (inductionHypothesis _ fun other member => (later other member).grows grows)

theorem applyAndEscalate_logs (clock : RowClock) (snapshot : HcmSnapshot) {asOf : Option Stamp} {now : Int}
    (dated : snapshot.asOf = asOf.getD (.ms now)) (db : Db) :
    Logs (fun event => event.Follows snapshot.key snapshot.balance asOf) db
      (applyAndEscalate clock snapshot db).2 := by
  have applied : Logs (fun event => event.Follows snapshot.key snapshot.balance asOf) db
      (applyHcmBalanceSnapshot clock.snapshot snapshot db).2 :=
    (applyHcmBalanceSnapshot_logs clock.snapshot snapshot db).mono
      fun _ reports => .inl ⟨now, dated ▸ reports⟩
  simp only [applyAndEscalate]
  -- a snapshot that throws has written nothing, and one without a drift its own row only
  split
  next failure working ran =>
    rw [ran] at applied
    exact applied
  next result working ran =>
    rw [ran] at applied
    split
    · apply applied.trans
      have listed : ∀ id ∈ listApprovedIdsForKey result.balance.key working,
          Concerns (· = snapshot.key) working id :=
        concerns_of_listed (applyHcmBalanceSnapshot_ok ran).key
      exact (escalations_logs clock.escalation _ _ listed).mono fun _ => .inr
    · exact applied

theorem applyRows_logs (asOf : Option Stamp) (clocks : Nat → RowClock) (rows : List BatchRow) (db : Db) :
    Logs (fun event => ∃ entry ∈ rows, event.Follows entry.key entry.balance (entry.asOf.or asOf)) db
      (applyRows asOf clocks rows db).db := by
  induction rows generalizing clocks db with
  | nil => exact .same rfl
  | cons row rest inductionHypothesis =>
    have first : Logs (fun event => ∃ entry ∈ row :: rest,
        event.Follows entry.key entry.balance (entry.asOf.or asOf)) db
        (applyAndEscalate (clocks 0) (rowSnapshot asOf (clocks 0) row) db).2 :=
      (applyAndEscalate_logs (clocks 0) (rowSnapshot asOf (clocks 0) row) rfl db).mono
        fun _ follows => ⟨row, List.mem_cons_self, follows⟩
    simp only [applyRows]
    -- an exception ends the batch; what the rows before it wrote stays
    split
    next failure working ran =>
      rw [ran] at first
      exact first
    next result working ran =>
      rw [ran] at first
      apply first.trans
      apply (inductionHypothesis _ working).mono
      intro event follows
      obtain ⟨entry, member, follows⟩ := follows
      exact ⟨entry, List.mem_cons_of_mem row member, follows⟩

theorem reconcileKey_logs (clock : RowClock) (key : Key) (reply : Reply BalanceView) (db : Db) :
    Logs (Call.reconcileKey clock key reply).Writes db
      (ReconciliationService.reconcileKey clock key reply db).2 := by
  simp only [ReconciliationService.reconcileKey]
  split
  · exact .same rfl
  · exact .same rfl
  next view answer =>
    have applied : Logs (Call.reconcileKey clock key reply).Writes db (applyAndEscalate clock
        { key := key, balance := view.balance, asOf := view.asOf.getD (.ms clock.fallback), source := .hcmPull }
        db).2 :=
      (applyAndEscalate_logs clock _ rfl db).mono fun _ follows => ⟨view, answer, follows⟩
    split
    next ran => rwa [ran] at applied
    next ran => rwa [ran] at applied

/-- A crash leaves of a batch the rows before it, a snapshot and some of its escalations. -/
theorem interruptedBatch_logs (clocks : Nat → RowClock) (batch : Batch) (rows escalations : Nat) (db : Db) :
    Logs (fun event => event.FollowsFrom batch) db (interruptedBatch clocks batch rows escalations db) := by
  have applied : Logs (fun event => event.FollowsFrom batch) db
      (applyRows batch.asOf clocks (batch.balances.take rows) db).db := by
    apply (applyRows_logs batch.asOf clocks (batch.balances.take rows) db).mono
    intro event follows
    obtain ⟨entry, member, follows⟩ := follows
    exact ⟨entry, List.mem_of_mem_take member, follows⟩
  simp only [interruptedBatch]
  split
  next row _ found =>
    have member := List.mem_of_getElem? found
    have snapshot : ∀ middle, Logs (fun event => event.FollowsFrom batch) middle (applyHcmBalanceSnapshot
        (clocks rows).snapshot (rowSnapshot batch.asOf (clocks rows) row) middle).2 := by
      intro middle
      apply (applyHcmBalanceSnapshot_logs _ (rowSnapshot batch.asOf (clocks rows) row) middle).mono
      intro event reports
      exact ⟨row, member, .inl ⟨(clocks rows).fallback, reports⟩⟩
    have upToHere := applied.trans (snapshot _)
    split
    next result working ran =>
      rw [ran] at upToHere
      split
      · apply upToHere.trans
        have listed : ∀ id ∈ listApprovedIdsForKey result.balance.key working, Concerns (· = row.key) working id :=
          concerns_of_listed (applyHcmBalanceSnapshot_ok ran).key
        apply (escalations_logs _ _ _ fun id taken => listed id (List.mem_of_mem_take taken)).mono
        intro event escalates
        exact ⟨row, member, .inr escalates⟩
      · exact upToHere
    next failure working ran => rwa [ran] at upToHere
  next => exact applied

/-! ## Every step -/

theorem Call.logs {call : Call} (offered : call.offered = true) (db : Db) : Logs call.Writes db (call.exec db) := by
  cases call with
  | createRequest clock ids actor input => exact createRequest_logs clock ids actor input db
  | approve clock newId actor requestId => exact approve_logs clock newId actor requestId db
  | reject clock actor requestId reason => exact reject_logs clock actor requestId reason db
  | cancel clock actor requestId => exact cancel_logs clock actor requestId db
  | handleBatch clocks batch =>
    simp only [Call.exec, handleBatch_db]
    exact applyRows_logs batch.asOf clocks batch.balances db
  | reconcileKey clock key reply => exact reconcileKey_logs clock key reply db
  | resetToPending id => exact .same rfl
  | markConsumed clock requestId => cases offered
  | markHcmFailed clock requestId errorMessage => cases offered
  | markReviewRequired clock requestId reason => cases offered
  | applyHcmBalanceSnapshot clock snapshot => cases offered
  | claimDue config now => cases offered
  | markDone now id => cases offered
  | scheduleRetry config now random id errorMessage => cases offered

theorem step_logs {config : OutboxConfig} {world next : World} {event : Event}
    (stepped : World.step config world event = some next) :
    Logs (Event.Writes world event) world.db next.db := by
  cases event with
  | call call =>
    simp only [World.step] at stepped
    split at stepped
    next offered =>
      cases stepped
      exact Call.logs offered.2 world.db
    next => cases stepped
  | balanceReply clock reply =>
    simp only [World.step] at stepped
    split at stepped
    next row rest waits =>
      have logs := onBalance_logs clock waits reply
      split at stepped
      next ran =>
        cases stepped
        rwa [ran] at logs
      next ran =>
        cases stepped
        rwa [ran] at logs
    next => cases stepped
  | consumeReply clock reply =>
    simp only [World.step] at stepped
    split at stepped
    next row rest waits =>
      cases stepped
      exact onConsume_logs clock waits reply
    next => cases stepped
  | crashInBatch clocks batch rows escalations =>
    simp only [World.step] at stepped
    split at stepped
    · cases stepped
      exact interruptedBatch_logs clocks batch rows escalations world.db
    · cases stepped
  -- the statements on the outbox, HCM and a crash write nothing into the log
  | tick now =>
    cases step_stepped stepped with
    | claimed now idle => exact .same rfl
    | draining now => exact .same rfl
  | hcmHandles number =>
    cases step_stepped stepped with
    | repeated number call found known => exact .same rfl
    | debits number call found unknown => exact .same rfl
  | settle now random =>
    cases step_stepped stepped with
    | done now random row rest escaping at_end => exact .same rfl
    | retries now random row rest message at_end =>
      exact .same (scheduleRetry_unlogged config now random row.id message world.db).auditEvents
  | crash =>
    cases stepped
    exact .same rfl

theorem MovesBy.logs {host : Host} {kind : Event → Prop} {world after : World}
    (moves : MovesBy host kind world after) :
    Logs (fun row => ∃ event now, kind event ∧ Event.Writes now event row) world.db after.db := by
  induction moves with
  | refl => exact .same rfl
  | @tail middle next earlier stepped inductionHypothesis =>
    obtain ⟨event, ofKind, stepped⟩ := stepped
    apply inductionHypothesis.trans
    exact (step_logs stepped).mono fun _ writes => ⟨event, middle, ofKind, writes⟩

/-! ## What vouches for a row -/

/-- What has happened: each event with the server that it found, the newest last. -/
abbrev History := List (Server × Server.Event)

def recordEvent (past : History) (server : Server) (event : Server.Event) (_ : Server) : History :=
  past ++ [(server, event)]

/-- The request carries a token of this subject, with a role that its route asks for. -/
def ApiRequest.Carries (host : Host) (request : ApiRequest) (sub : Option String) : Prop :=
  ∃ token claims, JwtAuthGuard.bearer? request.authorization = some token ∧
    host.jwtVerify request.now host.jwtSecret token = .ok claims ∧ claims.sub = sub ∧
    ∃ role ∈ request.route.roles, role ∈ claims.user.roles

/-- The signature of the delivery is that of its own timestamp and body. -/
def WebhookDelivery.Signed (host : Host) (delivery : WebhookDelivery) : Prop :=
  verify host.hmacSha256 host.hcmWebhookSecret delivery.request.timestamp
    (delivery.request.rawBody.getD delivery.request.restringified) delivery.request.signature
    delivery.now = true

/-- The body of the delivery has the entry, under this `asOf`: the entry's own string, or what
`Date.parse` makes of that of the body. -/
inductive WebhookDelivery.Lists (host : Host) (delivery : WebhookDelivery) :
    HcmBalanceEntryDto → Option Stamp → Prop
  | batch (body : HcmBatchDto) (entry : HcmBalanceEntryDto) (route : delivery.route = .batch)
      (read : host.readBatch delivery.request = .ok body) (listed : entry ∈ body.balances) :
      Lists host delivery entry
        ((entry.asOf.map Stamp.text).or (HcmWebhookController.parseAsOf host.dateParse body.asOf))
  | single (body : HcmBalanceEntryDto) (route : delivery.route = .balance)
      (read : host.readBalance delivery.request = .ok body) :
      Lists host delivery body (HcmWebhookController.parseAsOf host.dateParse body.asOf)

/-- What the route does to a request, if it does it for a user. -/
def Route.acts : Route → Option (AuditAction × String)
  | me (.postRequest _ ids _ _) => some (.requestCreated, ids.requestId)
  | me (.cancelRequest _ id) => some (.requestCancelled, id)
  | approve _ _ id => some (.requestApproved, id)
  | reject _ id _ => some (.requestRejected, id)
  | _ => none

/-- A request with an admin's token had the key reconciled, by name or among the active ones. -/
def Asked (host : Host) (past : History) (key : Key) : Prop :=
  ∃ server request now body sub, (server, .request request) ∈ past ∧ request.route = .reconcile now body ∧
    request.Carries host sub ∧ key ∈ AdminController.reconcile now body server.world.db

/-- The request of the event, whether the server lived to answer it or not. -/
def Server.Event.request? : Server.Event → Option ApiRequest
  | .request made | .crashInRequest made => some made
  | _ => none

def Server.Event.delivery? : Server.Event → Option WebhookDelivery
  | .webhook delivery | .crashInWebhook delivery _ _ => some delivery
  | _ => none

/-- HCM's answer, with the number of the pull that it is for. -/
def Server.Event.answer? : Server.Event → Option (Nat × Reply BalanceView)
  | .pullAnswered number _ reply | .crashInPull number _ reply _ => some (number, reply)
  | _ => none

/-- What in the event, at this server and after this history, vouches for the row. -/
inductive Vouches (host : Host) (past : History) (server : Server) (event : Server.Event) (row : AuditEvent) :
    Prop
  | token (request : ApiRequest) (sub : Option String) (action : AuditAction) (id : String)
      (made : event.request? = some request) (carries : request.Carries host sub)
      (acts : request.route.acts = some (action, id)) (told : row.By .user sub action id)
  | signature (delivery : WebhookDelivery) (entry : HcmBalanceEntryDto) (asOf : Option Stamp)
      (made : event.delivery? = some delivery) (signed : delivery.Signed host)
      (listed : delivery.Lists host entry asOf) (follows : row.Follows entry.key (some entry.balance) asOf)
  | pull (number : Nat) (reply : Reply BalanceView) (key : Key) (rest : List Key) (view : BalanceView)
      (made : event.answer? = some (number, reply)) (waits : server.pulls[number]? = some (key, rest))
      (asked : Asked host past key) (answer : HcmClient.getBalance key reply = .ok (some view))
      (follows : row.Follows key view.balance view.asOf)
  | worker (own : TimeOff.Event) (action : AuditAction) (id : String) (made : event = .background own)
      (answered : Answered server.world own action id) (told : row.BySystem action id)

/-- The step put the row into the log. -/
def Wrote (host : Host) (server : Server) (event : Server.Event) (row : AuditEvent) : Prop :=
  row ∉ server.world.db.auditEvents.rows ∧
    ∃ next, Server.step host server event = some next ∧ row ∈ next.world.db.auditEvents.rows

/-- An event of the history wrote the row and vouches for it. -/
def Vouched (host : Host) (past : History) (row : AuditEvent) : Prop :=
  ∃ before server event later, past = before ++ (server, event) :: later ∧
    Wrote host server event row ∧ Vouches host before server event row

variable {host : Host} {server next : Server} {past : History}

theorem Asked.mono {key : Key} (asked : Asked host past key) (happened : Server × Server.Event) :
    Asked host (past ++ [happened]) key := by
  obtain ⟨server, request, now, body, sub, made, rest⟩ := asked
  exact ⟨server, request, now, body, sub, List.mem_append_left _ made, rest⟩

theorem Vouched.mono {row : AuditEvent} (vouched : Vouched host past row) (happened : Server × Server.Event) :
    Vouched host (past ++ [happened]) row := by
  obtain ⟨before, server, event, later, rfl, justified⟩ := vouched
  exact ⟨before, server, event, later ++ [happened], by simp, justified⟩

/-! ## Guards -/

theorem canActivate_ok {now : Int} {roles : List String} {authorization : Option String} {actor : Actor}
    (admitted : JwtAuthGuard.canActivate host.jwtVerify host.jwtSecret now roles authorization = .ok actor) :
    ∃ token claims, JwtAuthGuard.bearer? authorization = some token ∧
      host.jwtVerify now host.jwtSecret token = .ok claims ∧ claims.user = actor ∧
      ∃ role ∈ roles, role ∈ claims.user.roles := by
  simp only [JwtAuthGuard.canActivate] at admitted
  split at admitted
  · cases admitted
  next token bearer =>
    cases verified : host.jwtVerify now host.jwtSecret token with
    | error message =>
      rw [JwtService.verify, verified] at admitted
      cases admitted
    | ok claims =>
      rw [JwtService.verify, verified] at admitted
      refine ⟨token, claims, bearer, verified, ?_⟩
      simp only [Except.mapError, bind, Except.bind, requireRoles] at admitted
      -- the claims are verified; the roles of the route decide
      by_cases allowed : roles.any claims.user.roles.contains = true
      · rw [if_pos allowed] at admitted
        cases admitted
        obtain ⟨role, required, held⟩ := List.any_eq_true.mp allowed
        exact ⟨rfl, role, required, List.contains_iff_mem.mp held⟩
      · rw [if_neg allowed] at admitted
        cases admitted

theorem actorOf_ok {request : ApiRequest} {actor : Actor} (admitted : Server.actorOf host request = .ok actor) :
    request.Carries host actor.sub := by
  obtain ⟨token, claims, bearer, verified, rfl, role⟩ := canActivate_ok admitted
  exact ⟨token, claims, bearer, verified, rfl, role⟩

/-- What is taken in of a delivery is what its signed body lists. -/
theorem receive_ok {delivery : WebhookDelivery} {batch : Batch}
    (received : Server.receive host delivery = .ok batch) : delivery.Signed host ∧
      ∀ row ∈ batch.balances, ∃ entry, delivery.Lists host entry (row.asOf.or batch.asOf) ∧
        row.key = entry.key ∧ row.balance = some entry.balance := by
  simp only [Server.receive, HcmSignatureGuard.canActivate] at received
  by_cases signed : delivery.Signed host
  case neg =>
    rw [WebhookDelivery.Signed] at signed
    rw [if_neg signed] at received
    cases received
  refine ⟨signed, ?_⟩
  rw [WebhookDelivery.Signed] at signed
  rw [if_pos signed] at received
  cases route : delivery.route with
  | batch =>
    simp only [route] at received
    split at received
    next body read =>
      cases received
      intro row member
      obtain ⟨entry, listed, rfl⟩ := List.mem_map.mp member
      exact ⟨entry, .batch body entry route read listed, rfl, rfl⟩
    next => cases received
  | balance =>
    simp only [route] at received
    split at received
    next body read =>
      cases received
      intro row member
      rw [HcmWebhookController.singleOf, List.mem_singleton] at member
      subst member
      -- the one row has the date of its delivery
      have own := WebhookDelivery.Lists.single body route read
      exact ⟨body, by simpa [HcmWebhookController.singleOf] using own, rfl, rfl⟩
    next => cases received

/-! ## The reconcile loops -/

/-- Every key that a loop asks HCM for, an admin has had reconciled. -/
def PullsAsked (host : Host) (past : History) (pulls : List (Key × List Key)) : Prop :=
  ∀ pull ∈ pulls, ∀ key ∈ pull.1 :: pull.2, Asked host past key

theorem PullsAsked.withPull {keys : List Key} (asked : PullsAsked host past server.pulls)
    (new : ∀ key ∈ keys, Asked host past key) : PullsAsked host past (server.withPull keys).pulls := by
  cases keys with
  | nil => exact asked
  | cons key rest =>
    show PullsAsked host past (server.pulls ++ [(key, rest)])
    rw [PullsAsked, List.forall_mem_append, List.forall_mem_singleton]
    exact ⟨asked, new⟩

theorem PullsAsked.advance {pulls : List (Key × List Key)} (asked : PullsAsked host past pulls) {number : Nat}
    {key : Key} {rest : List Key} (found : pulls[number]? = some (key, rest))
    (outcome : Except Failure ReconcileOutcome) :
    PullsAsked host past (Server.advance pulls number rest outcome) := by
  have erased : PullsAsked host past (pulls.eraseIdx number) :=
    fun pull member => asked pull (List.mem_of_mem_eraseIdx member)
  -- an exception ends the loop, and so does its last key; otherwise it asks for the next
  cases outcome with
  | error failure => exact erased
  | ok result =>
    cases rest with
    | nil => exact erased
    | cons following rest =>
      intro pull member
      cases List.mem_or_eq_of_mem_set member with
      | inl old => exact asked pull old
      | inr new =>
        subst new
        intro other among
        exact asked _ (List.mem_of_getElem? found) other (List.mem_cons_of_mem key among)

/-- Only the reconcile route begins a loop, and only for an admin. -/
theorem PullsAsked.serve {request : ApiRequest} (asked : PullsAsked host past server.pulls)
    (made : (server, .request request) ∈ past) :
    PullsAsked host past (Server.serve host request server).2.pulls := by
  simp only [Server.serve]
  split
  · exact asked
  next actor admitted =>
    cases ofRoute : request.route with
    | reconcile now body =>
      apply asked.withPull
      intro key member
      exact ⟨server, request, now, body, actor.sub, made, ofRoute, actorOf_ok admitted, member⟩
    | retry now id =>
      simp only [Server.handle]
      split
      · exact asked
      · exact asked
    | listOutbox status limit =>
      simp only [Server.handle]
      split
      · exact asked
      · exact asked
    | me call => exact asked
    | listForManager => exact asked
    | approve clock newId id => exact asked
    | reject clock id reason => exact asked
    | drain now => exact asked

theorem PullsAsked.deliver {delivery : WebhookDelivery} (asked : PullsAsked host past server.pulls) :
    PullsAsked host past (Server.deliver host delivery server).2.pulls := by
  simp only [Server.deliver]
  split
  · exact asked
  · split
    · exact asked
    · exact asked

theorem PullsAsked.step {event : Server.Event} (asked : PullsAsked host past server.pulls)
    (stepped : Server.Stepped host server event next) (made : (server, event) ∈ past) :
    PullsAsked host past next.pulls := by
  -- a crash leaves no loop behind
  have restarted : PullsAsked host past [] := by simp [PullsAsked]
  cases stepped with
  | request request yields => exact asked.serve made
  | webhook delivery yields => exact asked.deliver
  | pullAnswered number clock reply key rest found yields => exact asked.advance found _
  | background own world inBackground ran => exact asked
  | crash => exact restarted
  | crashInRequest request actor cut admitted ran yields => exact restarted
  | crashInWebhook delivery rows escalations batch received yields => exact restarted
  | crashInPull number clock reply escalations key rest view found answer yields => exact restarted

/-! ## The rows of the log -/

/-- What the handler of a route writes is the route's own action, by the actor that was let in. -/
theorem Route.Amounts.writes {actor : Actor} {route : Route} {event : Event} {now : World} {row : AuditEvent}
    (amounts : route.Amounts actor event) (writes : Event.Writes now event row) :
    ∃ action id, route.acts = some (action, id) ∧ row.ByUser actor action id := by
  cases route with
  | me call =>
    cases call with
    | postRequest clock ids input idemKey =>
      cases amounts
      exact ⟨_, _, rfl, writes⟩
    | cancelRequest clock id =>
      cases amounts
      exact ⟨_, _, rfl, writes⟩
    | getBalances => exact amounts.elim
    | getRequests => exact amounts.elim
    | getRequest id => exact amounts.elim
  | approve clock newId id =>
    cases amounts
    exact ⟨_, _, rfl, writes⟩
  | reject clock id reason =>
    cases amounts
    exact ⟨_, _, rfl, writes⟩
  -- a row is reset and a tick begins without a trace in the log
  | retry now id =>
    obtain ⟨number, rfl⟩ | rfl := amounts
    · exact writes.elim
    · obtain ⟨action, id, answered, told⟩ := writes
      cases answered
  | drain now =>
    cases amounts
    obtain ⟨action, id, answered, told⟩ := writes
    cases answered
  | listForManager => exact amounts.elim
  | reconcile now body => exact amounts.elim
  | listOutbox status limit => exact amounts.elim

variable {event : Server.Event} {row : AuditEvent}

/-- A row that an admitted request writes is vouched for by its token. -/
theorem vouches_request {request : ApiRequest} {actor : Actor} {inner : TimeOff.Event} {now : World}
    (made : event.request? = some request) (admitted : Server.actorOf host request = .ok actor)
    (amounts : request.route.Amounts actor inner) (writes : Event.Writes now inner row) :
    Vouches host past server event row := by
  obtain ⟨action, id, acts, told⟩ := amounts.writes writes
  exact .token request actor.sub action id made (actorOf_ok admitted) acts told

/-- Rows that follow from a batch are vouched for by the signature it came with. -/
theorem vouches_delivery {delivery : WebhookDelivery} {batch : Batch}
    (made : event.delivery? = some delivery) (received : Server.receive host delivery = .ok batch)
    (follows : row.FollowsFrom batch) : Vouches host past server event row := by
  obtain ⟨signed, lists⟩ := receive_ok received
  obtain ⟨reported, member, follows⟩ := follows
  obtain ⟨entry, listed, keyed, amount⟩ := lists reported member
  rw [keyed, amount] at follows
  exact .signature delivery entry _ made signed listed follows

/-- Rows that follow from the answer to a pull are vouched for by the admin who had it made. -/
theorem vouches_pull {number : Nat} {reply : Reply BalanceView} {key : Key} {rest : List Key}
    (asked : PullsAsked host past server.pulls) (made : event.answer? = some (number, reply))
    (found : server.pulls[number]? = some (key, rest)) {view : BalanceView}
    (answer : HcmClient.getBalance key reply = .ok (some view))
    (follows : row.Follows key view.balance view.asOf) :
    Vouches host past server event row :=
  .pull number reply key rest view made found
    (asked _ (List.mem_of_getElem? found) key List.mem_cons_self) answer follows

/-- What is left of the snapshot of an answer in which the process dies. -/
theorem AuditEvent.FollowsFrom.pulled {key : Key} {view : BalanceView}
    (follows : row.FollowsFrom (Server.pulledBatch key view)) : row.Follows key view.balance view.asOf := by
  obtain ⟨entry, member, follows⟩ := follows
  rw [Server.pulledBatch, List.mem_singleton] at member
  subst member
  simpa [Server.pulledBatch] using follows

theorem Server.Amounts.vouches {inner : TimeOff.Event} {now : World}
    (amounts : Server.Amounts host server event inner) (writes : Event.Writes now inner row)
    (foreground : ∀ own, event ≠ .background own) (asked : PullsAsked host past server.pulls) :
    Vouches host past server event row := by
  cases event with
  | request request =>
    obtain ⟨actor, admitted, amounts⟩ := amounts
    exact vouches_request rfl admitted amounts writes
  | webhook delivery =>
    obtain ⟨batch, received, rfl⟩ := amounts
    exact vouches_delivery rfl received writes
  | pullAnswered number clock reply =>
    obtain ⟨key, rest, found, rfl⟩ := amounts
    obtain ⟨view, answer, follows⟩ := writes
    exact vouches_pull asked rfl found answer follows
  | background own => exact absurd rfl (foreground own)
  | crash =>
    cases amounts
    obtain ⟨action, id, answered, told⟩ := writes
    cases answered
  | crashInRequest request =>
    obtain rfl | ⟨actor, admitted, amounts⟩ := amounts
    · obtain ⟨action, id, answered, told⟩ := writes
      cases answered
    · exact vouches_request rfl admitted amounts writes
  | crashInWebhook delivery rows escalations =>
    obtain ⟨batch, received, rfl⟩ := amounts
    exact vouches_delivery rfl received writes
  | crashInPull number clock reply escalations =>
    obtain ⟨key, rest, view, found, answer, rfl⟩ := amounts
    exact vouches_pull asked rfl found answer (AuditEvent.FollowsFrom.pulled writes)

/-- What the worker writes, HCM's answer to it has asked for. -/
theorem vouches_background {own : TimeOff.Event} (inBackground : Server.inBackground own = true)
    (writes : Event.Writes server.world own row) : Vouches host past server (.background own) row := by
  have answered : ∃ action id, Answered server.world own action id ∧ row.BySystem action id := by
    cases own with
    | call call => cases inBackground
    | crashInBatch clocks batch rows escalations => cases inBackground
    | crash => cases inBackground
    | tick now => exact writes
    | balanceReply clock reply => exact writes
    | hcmHandles number => exact writes
    | consumeReply clock reply => exact writes
    | settle now random => exact writes
  obtain ⟨action, id, answered, told⟩ := answered
  exact .worker own action id rfl answered told

/-- The rows that a step adds are vouched for by its event. -/
theorem Server.Stepped.vouches (stepped : Server.Stepped host server event next)
    (asked : PullsAsked host past server.pulls) (new : row ∉ server.world.db.auditEvents.rows)
    (member : row ∈ next.world.db.auditEvents.rows) : Vouches host past server event row := by
  by_cases background : ∃ own, event = .background own
  case pos =>
    obtain ⟨own, rfl⟩ := background
    cases stepped with
    | background own world inBackground ran =>
      exact vouches_background inBackground (((step_logs ran).mem member).resolve_left new)
  case neg =>
    obtain ⟨inner, now, amounts, writes⟩ := (stepped.moves.logs.mem member).resolve_left new
    exact amounts.vouches writes (fun own same => background ⟨own, same⟩) asked

/-! ## Every run -/

structure Attributed (host : Host) (server : Server) (past : History) : Prop where
  rows : ∀ row ∈ server.world.db.auditEvents.rows, Vouched host past row
  pulls : PullsAsked host past server.pulls

theorem Attributed.step {event : Server.Event} (attributed : Attributed host server past)
    (ran : Server.step host server event = some next) : Attributed host next (past ++ [(server, event)]) := by
  have stepped := Server.step_stepped ran
  constructor
  case rows =>
    intro row member
    -- a row that was there keeps who vouches for it; a new one is of this step
    by_cases old : row ∈ server.world.db.auditEvents.rows
    · exact (attributed.rows row old).mono _
    · exact ⟨past, server, event, [], rfl, ⟨old, next, ran, member⟩, stepped.vouches attributed.pulls old member⟩
  case pulls =>
    have asked : PullsAsked host (past ++ [(server, event)]) server.pulls :=
      fun pull member key among => (attributed.pulls pull member key among).mono _
    exact asked.step stepped (List.mem_append_right past List.mem_cons_self)

/-- Every row of the audit log can be attributed in every run, to the event that wrote it: a user's row to
a request whose token names the user and has a role of the route; a row of HCM to an entry of a signed
webhook or to the answer to a pull that an admin has asked for, of which it tells the amount and the date;
a row of the service to such a report on the key of its request, or to the answer for which the worker was
waiting. -/
theorem log_vouched (host : Host) (events : List Server.Event) :
    Always (withHistory (Server.step host) recordEvent)
      (fun state => ∀ row ∈ state.1.world.db.auditEvents.rows, Vouched host state.2 row)
      (Server.empty, []) events := by
  have attributed : Always (withHistory (Server.step host) recordEvent)
      (fun state => Attributed host state.1 state.2) (Server.empty, []) events := by
    apply always_of_invariant
    · rintro ⟨server, past⟩ event ⟨next, recorded⟩ attributed stepped
      obtain ⟨ran, history⟩ := withHistory_eq_some.mp stepped
      rw [history]
      exact attributed.step ran
    · exact ⟨by simp [Server.empty, World.empty, Db.empty, SerialTable.rows_empty],
        by simp [PullsAsked, Server.empty]⟩
  exact attributed.mono fun _ holds => holds.rows

end TimeOff
