import TimeOff.Verified.AuditTrail
import TimeOff.Verified.CallSequences
import TimeOff.Verified.Coherence

/-! # What the tables remember

No row is ever deleted.  A request, a reservation and an outbox row keep what they were
made with, the log keeps all of its rows, a request in a final state and a reservation
that was closed never change again, and a balance that changes has a new version.
-/

set_option autoImplicit false

namespace TimeOff

open TimeOff.Lib TimeOffRepository TimeOffService BalancesRepository HcmOutboxService AuditService

/-! ## Rows as they were made -/

/-- The row that `createRequest` inserted. -/
def RequestRow.asFiled (row : RequestRow) : RequestRow :=
  { row with
    state := .pending, updatedAt := row.createdAt, approverId := none, approvedAt := none
    externalRequestId := none, hcmError := none }

def ReservationRow.asMade (row : ReservationRow) : ReservationRow :=
  { row with state := .open, updatedAt := row.createdAt }

def OutboxRow.asEnqueued (row : OutboxRow) : OutboxRow :=
  { row with
    attempts := 0, nextAttemptAt := row.createdAt, status := .pending, lastError := none
    updatedAt := row.createdAt }

/-- Nothing leads out of the state. -/
def State.final (state : State) : Bool := (transitions state).isEmpty

/-- The later row is the earlier one, or a newer version of it. -/
def BalanceRow.Succeeds (later earlier : BalanceRow) : Prop :=
  later = earlier ∨ later.id = earlier.id ∧ later.key = earlier.key ∧ earlier.version < later.version

theorem BalanceRow.Succeeds.trans {first second third : BalanceRow} (right : third.Succeeds second)
    (left : second.Succeeds first) : third.Succeeds first := by
  obtain rfl | ⟨id, key, newer⟩ := right
  · exact left
  · obtain rfl | ⟨idBefore, keyBefore, newerBefore⟩ := left
    · exact .inr ⟨id, key, newer⟩
    · exact .inr ⟨id.trans idBefore, key.trans keyBefore, newerBefore.trans newer⟩

/-- A row of the outbox keeps what it was enqueued with, and no row is removed. -/
def RemembersOutbox (db after : Db) : Prop :=
  db.hcmOutbox.rows.map OutboxRow.asEnqueued <+: after.hcmOutbox.rows.map OutboxRow.asEnqueued

/-- The later requests, reservations and balances remember the earlier ones. -/
structure RemembersLedger (db after : Db) : Prop where
  requests : db.requests.rows.map RequestRow.asFiled <+: after.requests.rows.map RequestRow.asFiled
  reservations : db.reservations.rows.map ReservationRow.asMade <+:
    after.reservations.rows.map ReservationRow.asMade
  finished : ∀ row ∈ db.requests.rows, row.state.final = true → row ∈ after.requests.rows
  closed : ∀ row ∈ db.reservations.rows, row.state ≠ .open → row ∈ after.reservations.rows
  versions : ∀ row ∈ db.balances.rows, ∃ later ∈ after.balances.rows, later.Succeeds row

/-- The later tables remember the earlier ones. -/
structure Remembers (db after : Db) : Prop extends RemembersLedger db after where
  auditEvents : db.auditEvents.rows <+: after.auditEvents.rows
  hcmOutbox : RemembersOutbox db after

theorem RemembersLedger.refl (db : Db) : RemembersLedger db db :=
  ⟨List.prefix_rfl, List.prefix_rfl, fun _ member _ => member, fun _ member _ => member,
    fun row member => ⟨row, member, .inl rfl⟩⟩

theorem RemembersLedger.trans {db middle after : Db} (left : RemembersLedger db middle)
    (right : RemembersLedger middle after) : RemembersLedger db after := by
  refine ⟨left.requests.trans right.requests, left.reservations.trans right.reservations, ?_, ?_, ?_⟩
  · intro row member final
    exact right.finished row (left.finished row member final) final
  · intro row member closed
    exact right.closed row (left.closed row member closed) closed
  · intro row member
    obtain ⟨between, betweenIn, succeeds⟩ := left.versions row member
    obtain ⟨later, laterIn, succeedsOn⟩ := right.versions between betweenIn
    exact ⟨later, laterIn, succeedsOn.trans succeeds⟩

theorem Remembers.refl (db : Db) : Remembers db db :=
  ⟨.refl db, List.prefix_rfl, List.prefix_rfl⟩

theorem Remembers.trans {db middle after : Db} (left : Remembers db middle) (right : Remembers middle after) :
    Remembers db after :=
  ⟨left.toRemembersLedger.trans right.toRemembersLedger, left.auditEvents.trans right.auditEvents,
    List.IsPrefix.trans left.hcmOutbox right.hcmOutbox⟩

/-- Rows that keep what they were made with are a prefix of themselves. -/
theorem map_prefix_map {α β : Type} {made : α → β} {change : α → α} (rows : List α)
    (keeps : ∀ row, made (change row) = made row) : rows.map made <+: (rows.map change).map made := by
  have same : rows.map (made ∘ change) = rows.map made := List.map_congr_left fun row _ => keeps row
  rw [List.map_map, same]

/-! ## Requests, reservations and balances -/

theorem Filed.remembers {row : RequestRow} {now : Int} {db after : Db} (filed : Filed row now db after) :
    RemembersLedger db after := by
  refine ⟨?_, ?_, ?_, ?_, ?_⟩
  · rw [filed.requests, List.map_append]
    exact List.prefix_append _ _
  · rw [filed.reservations, SerialTable.rows_append, List.map_append]
    exact List.prefix_append _ _
  · intro other member _
    rw [filed.requests]
    exact List.mem_append_left _ member
  · intro other member _
    rw [filed.reservations]
    exact List.mem_append_left _ member
  · intro other member
    rw [filed.balances]
    exact ⟨other, member, .inl rfl⟩

theorem asFiled_patchRow (hit : RequestRow → Bool) (toState : State) (now : Int) (patch : StatePatch)
    (row : RequestRow) : (patchRow hit (patched toState now patch) row).asFiled = row.asFiled := by
  unfold patchRow
  split <;> rfl

theorem asMade_settledReservation (id : String) (closes : Option ReservationState) (now : Int)
    (row : ReservationRow) : (settledReservation id closes now row).asMade = row.asMade := by
  cases closes with
  | none => rfl
  | some closed =>
    simp only [settledReservation, patchRow]
    split <;> rfl

theorem not_final_of_canTransition {fromState toState : State}
    (legal : canTransition fromState toState = true) : fromState.final = false := by
  cases fromState <;> first | rfl | cases toState <;> cases legal

theorem Moved.remembers {before : RequestRow} {toState : State} {now : Int} {patch : StatePatch}
    {db after : Db} (moved : Moved before toState now patch db after) : RemembersLedger db after := by
  refine ⟨?_, ?_, ?_, ?_, ?_⟩
  · rw [moved.requests]
    exact map_prefix_map _ (asFiled_patchRow _ toState now patch)
  · rw [moved.reservations_rows]
    exact map_prefix_map _ (asMade_settledReservation before.id toState.closes now)
  · intro row member final
    rw [moved.requests]
    -- a request that moves has a way out of its state
    have missed : inState before.id before.state row = false := by
      apply Bool.eq_false_iff.mpr
      intro hit
      simp only [inState, decide_eq_true_eq] at hit
      rw [hit.2, not_final_of_canTransition moved.legal] at final
      cases final
    exact List.mem_map.mpr ⟨row, member, patchRow_of_miss missed⟩
  · intro row member closed
    rw [moved.reservations_rows]
    refine List.mem_map.mpr ⟨row, member, ?_⟩
    -- only an open reservation is closed
    cases closes : toState.closes with
    | none => rfl
    | some state =>
      simp only [settledReservation]
      apply patchRow_of_miss
      simp [closed]
  · intro row member
    rw [moved.balances]
    exact ⟨row, member, .inl rfl⟩

theorem Cached.versions {snapshot : HcmSnapshot} {now : Int} {db : Db} {balances : SerialTable BalanceRow}
    {ignored : Option Bool} (cached : Cached snapshot now db balances ignored) :
    ∀ row ∈ db.balances.rows, ∃ later ∈ balances.rows, later.Succeeds row := by
  intro row member
  cases cached with
  | first balance stamp absent given nonneg stored appended =>
    rw [appended]
    exact ⟨row, List.mem_append_left _ member, .inl rfl⟩
  | stale other found older same =>
    rw [same]
    exact ⟨row, member, .inl rfl⟩
  | newer other balance stamp found current given nonneg stored updated =>
    rw [updated, SerialTable.rows_update]
    refine ⟨_, List.mem_map_of_mem member, ?_⟩
    -- the row of the key has its version counted up, and the others stay
    unfold patchRow
    split
    · exact .inr ⟨rfl, rfl, Nat.lt_succ_self _⟩
    · exact .inl rfl

theorem Healed.remembers {db after : Db} {results : List SnapshotResult}
    (healed : Healed db results after) : RemembersLedger db after := by
  induction healed with
  | done db => exact .refl db
  | snapshotted applied rest inductionHypothesis =>
    refine RemembersLedger.trans ⟨?_, ?_, ?_, ?_, applied.cached.versions⟩ inductionHypothesis
    · rw [applied.requests]
    · rw [applied.reservations]
    · rw [applied.requests]
      exact fun _ member _ => member
    · rw [applied.reservations]
      exact fun _ member _ => member
  | escalated moved rest inductionHypothesis => exact moved.remembers.trans inductionHypothesis

theorem Effect.remembers {db after : Db} {results : List SnapshotResult}
    (effect : Effect db results after) : RemembersLedger db after := by
  cases effect with
  | filed filed => exact filed.remembers
  | moved moved => exact moved.remembers
  | healed healed => exact healed.remembers
  | requeued requeued =>
    refine ⟨?_, ?_, ?_, ?_, ?_⟩
    · rw [requeued.requests]
    · rw [requeued.reservations]
    · rw [requeued.requests]
      exact fun _ member _ => member
    · rw [requeued.reservations]
      exact fun _ member _ => member
    · rw [requeued.balances]
      exact fun row member => ⟨row, member, .inl rfl⟩

/-! ## The log -/

theorem Enters.remembers {entry : AuditEntry} {db after : Db} (entered : Enters entry db after) :
    db.auditEvents.rows <+: after.auditEvents.rows := by
  obtain ⟨auditNow, rows⟩ := entered
  rw [rows]
  exact List.prefix_append _ _

theorem Escalated.remembers {correlationId : Option String} {db after : Db}
    (chain : Escalated correlationId db after) : db.auditEvents.rows <+: after.auditEvents.rows := by
  induction chain with
  | done db => exact List.prefix_rfl
  | snapshotted applied under rest inductionHypothesis =>
    obtain ⟨entry, entered, -⟩ := applied.entered
    exact entered.remembers.trans inductionHypothesis
  | turned review step rest inductionHypothesis =>
    obtain ⟨entry, entered, -⟩ := step.entered
    exact entered.remembers.trans inductionHypothesis

theorem Call.remembers_audit (call : Call) (db : Db) :
    db.auditEvents.rows <+: (call.exec db).auditEvents.rows := by
  obtain ⟨_, _, _, _, _, _, _, _, filing⟩ | audited := call.audited db
  · obtain ⟨entry, entered, -⟩ := filing.entered
    exact entered.remembers
  · cases audited with
    | unlogged same => rw [same.auditEvents]
    | turned step =>
      obtain ⟨entry, entered, -⟩ := step.entered
      exact entered.remembers
    | escalated brings chain => exact chain.remembers

/-! ## The outbox -/

theorem RemembersOutbox.same {db after : Db} (same : after.hcmOutbox = db.hcmOutbox) :
    RemembersOutbox db after := by
  rw [RemembersOutbox, same]

theorem remembers_update {db : Db} {hit : OutboxRow → Bool} {change : OutboxRow → OutboxRow}
    {keeps : ∀ row, rowKey (change row) = rowKey row}
    (same : ∀ row : OutboxRow, (change row).asEnqueued = row.asEnqueued) :
    RemembersOutbox db { db with hcmOutbox := db.hcmOutbox.update hit change keeps } := by
  simp only [RemembersOutbox, SerialTable.rows_update]
  apply map_prefix_map
  intro row
  unfold patchRow
  split
  · exact same row
  · rfl

theorem Moved.remembersOutbox {before : RequestRow} {toState : State} {now : Int} {patch : StatePatch}
    {db after : Db} (moved : Moved before toState now patch db after) :
    RemembersOutbox db after := by
  by_cases approved : toState = .approved
  · obtain ⟨externalRequestId, -, -, -, enqueued⟩ := moved.enqueued approved
    rw [RemembersOutbox, enqueued, SerialTable.rows_append, List.map_append]
    exact List.prefix_append _ _
  · exact .same (moved.unqueued approved).2

theorem scheduleRetry_remembers (config : OutboxConfig) (now : Int) (random : ℚ) (id : Nat)
    (errorMessage : String) (db : Db) :
    RemembersOutbox db (scheduleRetry config now random id errorMessage db) := by
  simp only [scheduleRetry]
  split
  · exact List.prefix_rfl
  · split
    · exact remembers_update fun _ => rfl
    · exact remembers_update fun _ => rfl

theorem MarkOutcome.remembersOutbox {id : String} {toState : State} {now : Int} {patch : StatePatch}
    {db : Db} {result : Except Failure RequestRow × Db}
    (outcome : MarkOutcome id toState now patch db result) : RemembersOutbox db result.2 := by
  cases outcome with
  | already row found state => exact .same rfl
  | moved before after final found state moved => exact moved.remembersOutbox
  | threw failure refused elsewhere unapproved => exact .same rfl

theorem Call.remembersOutbox (call : Call) (db : Db) : RemembersOutbox db (call.exec db) := by
  cases call with
  | claimDue config now => exact remembers_update fun _ => rfl
  | markDone now id => exact remembers_update fun _ => rfl
  | scheduleRetry config now random id message => exact scheduleRetry_remembers config now random id message db
  | resetToPending id => exact remembers_update fun _ => rfl
  | createRequest clock ids actor input =>
    simp only [Call.exec]
    cases ran : TimeOffService.createRequest clock ids actor input db with
    | mk outcome after =>
      cases outcome with
      | ok created => exact .same (createRequest_ok ran).hcmOutbox
      | error failure => exact .same (congrArg Db.hcmOutbox (createRequest_error ran))
  | approve clock newId actor requestId =>
    refine transaction_rule (fun _ after => RemembersOutbox db after) ?_ fun _ _ => .same rfl
    intro _ after ran
    obtain ⟨_, _, _, moved⟩ := approve_ok (transaction_ok.mpr ran)
    exact moved.remembersOutbox
  | reject clock actor requestId reason =>
    refine transaction_rule (fun _ after => RemembersOutbox db after) ?_ fun _ _ => .same rfl
    intro _ after ran
    obtain ⟨_, _, _, moved⟩ := reject_ok (transaction_ok.mpr ran)
    exact moved.remembersOutbox
  | cancel clock actor requestId =>
    refine transaction_rule (fun _ after => RemembersOutbox db after) ?_ fun _ _ => .same rfl
    intro _ after ran
    obtain ⟨_, _, _, moved⟩ := cancel_ok (transaction_ok.mpr ran)
    exact moved.remembersOutbox
  | markConsumed clock requestId => exact (markConsumed_outcome clock requestId db).remembersOutbox
  | markHcmFailed clock requestId message =>
    exact (markHcmFailed_outcome clock requestId message db).remembersOutbox
  | markReviewRequired clock requestId reason =>
    exact .same (markReviewRequired_healed clock requestId reason db).hcmOutbox
  | applyHcmBalanceSnapshot clock snapshot =>
    exact .same (applyHcmBalanceSnapshot_healed clock snapshot db).hcmOutbox
  | handleBatch clocks batch => exact .same (handleBatch_healed clocks batch db).hcmOutbox
  | reconcileKey clock key reply => exact .same (reconcileKey_healed clock key reply db).hcmOutbox

/-! ## The whole system -/

theorem Call.remembers (call : Call) (db : Db) : Remembers db (call.exec db) :=
  ⟨(call.effect db).remembers, call.remembers_audit db, call.remembersOutbox db⟩

theorem execAll_remembers (calls : List Call) (db : Db) : Remembers db (execAll calls db) := by
  induction calls generalizing db with
  | nil => exact .refl db
  | cons call rest inductionHypothesis => exact (call.remembers db).trans (inductionHypothesis _)

/-- From any state of any run, crashes included, every later state of the tables remembers it. -/
theorem tables_remember (config : OutboxConfig) (world : World) (events : List Event) :
    Always (World.step config) (fun later => Remembers world.db later.db) world events := by
  apply (tables_called config world events).mono
  intro later reached
  obtain ⟨calls, same⟩ := reached
  rw [same]
  exact execAll_remembers calls world.db

end TimeOff
