import TimeOff.Verified.Outcomes
import TimeOff.Verified.Snapshots
import TimeOff.System.Calls

/-! # What a call does to the tables

A call files a request, moves one, works on the outbox, or heals drift by a
chain of snapshots and escalations.  `Effect.preserves` proves an invariant of
the tables from these four kinds of step.
-/

set_option autoImplicit false

namespace TimeOff

open TimeOff.Lib TimeOffService BalancesService ReconciliationService HcmOutboxService

/-- Snapshots and the escalations that follow them, with the results reported on the way. -/
inductive Healed : Db → List SnapshotResult → Db → Prop
  | done (db : Db) : Healed db [] db
  | snapshotted {snapshot : HcmSnapshot} {now : Int} {result : SnapshotResult}
      {results : List SnapshotResult} {db middle after : Db}
      (applied : Snapshotted snapshot now result db middle) (rest : Healed middle results after) :
      Healed db (result :: results) after
  | escalated {before : RequestRow} {now : Int} {patch : StatePatch} {results : List SnapshotResult}
      {db middle after : Db} (moved : Moved before .reviewRequired now patch db middle)
      (rest : Healed middle results after) : Healed db results after

/-- The outbox rows still say what they said; only how far they are delivered has changed. -/
structure Requeued (db after : Db) : Prop where
  hcmOutbox : ∃ hit change keeps,
    (∀ row, (change row).requestId = row.requestId ∧ (change row).payload = row.payload) ∧
    after.hcmOutbox = db.hcmOutbox.update hit change keeps
  requests : after.requests = db.requests
  reservations : after.reservations = db.reservations
  balances : after.balances = db.balances

theorem Healed.trans {db middle after : Db} {first second : List SnapshotResult}
    (left : Healed db first middle) (right : Healed middle second after) :
    Healed db (first ++ second) after := by
  induction left with
  | done db => exact right
  | snapshotted applied rest inductionHypothesis => exact .snapshotted applied (inductionHypothesis right)
  | escalated moved rest inductionHypothesis => exact .escalated moved (inductionHypothesis right)

/-- Without a snapshot, healing leaves the cached balances alone. -/
theorem Healed.balances {db after : Db} (healed : Healed db [] after) : after.balances = db.balances := by
  generalize none : [] = results at healed
  induction healed with
  | done db => rfl
  | snapshotted applied rest inductionHypothesis => cases none
  | escalated moved rest inductionHypothesis => exact (inductionHypothesis none).trans moved.balances

/-! ## The healing chain of each entry point -/

theorem markReviewRequired_healed (clock : Clock) (requestId reason : String) (db : Db) :
    Healed db [] (markReviewRequired clock requestId reason db).2 := by
  have outcome := markReviewRequired_outcome clock requestId reason db
  generalize markReviewRequired clock requestId reason db = result at outcome ⊢
  cases outcome with
  | already row found state => exact .done db
  | moved before after final found state moved => exact .escalated moved (.done final)
  | threw failure refused elsewhere unapproved => exact .done db

theorem escalations_healed (clock : String → Clock) (ids : List String) (db : Db) :
    Healed db [] (ids.foldl (fun db id => (markReviewRequired (clock id) id escalationReason db).2) db) := by
  induction ids generalizing db with
  | nil => exact .done db
  | cons id rest inductionHypothesis =>
    exact (markReviewRequired_healed (clock id) id escalationReason db).trans (inductionHypothesis _)

theorem applyHcmBalanceSnapshot_healed (clock : Clock) (snapshot : HcmSnapshot) (db : Db) :
    Healed db ((Call.applyHcmBalanceSnapshot clock snapshot).reports db)
      ((Call.applyHcmBalanceSnapshot clock snapshot).exec db) := by
  simp only [Call.reports, Call.exec]
  obtain ⟨result, after, ran, applied⟩ | ⟨failure, ran⟩ := applyHcmBalanceSnapshot_cases clock snapshot db
  · simp only [ran]
    exact .snapshotted applied (.done after)
  · simp only [ran]
    exact .done db

/-- A snapshot with its escalations reports what it applied, or throws and leaves no trace. -/
theorem applyAndEscalate_healed (clock : RowClock) (snapshot : HcmSnapshot) (db : Db) :
    (∃ result after, applyAndEscalate clock snapshot db = (.ok result, after) ∧
      Healed db [result] after) ∨
    ∃ failure, applyAndEscalate clock snapshot db = (.error failure, db) := by
  simp only [applyAndEscalate]
  obtain ⟨result, after, ran, applied⟩ | ⟨failure, ran⟩ :=
    applyHcmBalanceSnapshot_cases clock.snapshot snapshot db
  · rw [ran]
    left
    by_cases drift : result.negativeDrift = true
    · simp only [drift, if_true]
      exact ⟨result, _, rfl, .snapshotted applied (escalations_healed _ _ _)⟩
    · simp only [drift]
      exact ⟨result, _, rfl, .snapshotted applied (.done after)⟩
  · rw [ran]
    exact .inr ⟨failure, rfl⟩

theorem escalateAffectedRequests_balances (clock : String → Clock) (balance : BalanceRecord) (db : Db) :
    (escalateAffectedRequests clock balance db).balances = db.balances :=
  (escalations_healed clock _ db).balances

/-- The result that is reported is that of the snapshot, and its escalations leave the cache alone. -/
theorem applyAndEscalate_result {clock : RowClock} {snapshot : HcmSnapshot} {result : SnapshotResult}
    {db after : Db} (ran : applyAndEscalate clock snapshot db = (.ok result, after)) :
    ∃ middle, applyHcmBalanceSnapshot clock.snapshot snapshot db = (.ok result, middle) ∧
      after.balances = middle.balances := by
  simp only [applyAndEscalate] at ran
  split at ran
  · cases ran
  next applied middle went =>
    split at ran
    · cases ran
      exact ⟨middle, went, escalateAffectedRequests_balances _ _ _⟩
    · cases ran
      exact ⟨_, went, rfl⟩

theorem applyAndEscalate_of_applied {clock : RowClock} {snapshot : HcmSnapshot}
    {result : SnapshotResult} {db middle : Db}
    (went : applyHcmBalanceSnapshot clock.snapshot snapshot db = (.ok result, middle)) :
    ∃ after, applyAndEscalate clock snapshot db = (.ok result, after) := by
  simp only [applyAndEscalate, went]
  split
  · exact ⟨_, rfl⟩
  · exact ⟨_, rfl⟩

theorem applyAndEscalate_cached {clock : RowClock} {snapshot : HcmSnapshot} {result : SnapshotResult}
    {db after : Db} (ran : applyAndEscalate clock snapshot db = (.ok result, after)) :
    Cached snapshot clock.snapshot.now db after.balances result.ignored := by
  obtain ⟨middle, went, same⟩ := applyAndEscalate_result ran
  rw [same]
  exact (applyHcmBalanceSnapshot_ok went).cached

theorem applyRows_healed (asOf : Option Stamp) (clocks : Nat → RowClock) (rows : List BatchRow)
    (db : Db) :
    Healed db (applyRows asOf clocks rows db).results (applyRows asOf clocks rows db).db := by
  induction rows generalizing clocks db with
  | nil => exact .done db
  | cons row rest inductionHypothesis =>
    simp only [applyRows]
    obtain ⟨result, after, ran, healed⟩ | ⟨failure, ran⟩ :=
      applyAndEscalate_healed (clocks 0) (rowSnapshot asOf (clocks 0) row) db
    · simp only [ran]
      exact healed.trans (inductionHypothesis _ after)
    -- the row that threw was rolled back
    · simp only [ran]
      exact .done db

theorem handleBatch_db (clocks : Nat → RowClock) (batch : Batch) (db : Db) :
    (handleBatch clocks batch db).2 = (applyRows batch.asOf clocks batch.balances db).db := by
  cases failed : (applyRows batch.asOf clocks batch.balances db).failure with
  | none => simp only [handleBatch, failed]
  | some failure => simp only [handleBatch, failed]

theorem handleBatch_healed (clocks : Nat → RowClock) (batch : Batch) (db : Db) :
    Healed db ((Call.handleBatch clocks batch).reports db)
      ((Call.handleBatch clocks batch).exec db) := by
  simp only [Call.reports, Call.exec, handleBatch_db]
  exact applyRows_healed batch.asOf clocks batch.balances db

/-- The balance that can be read off HCM's answer to `getBalance`. -/
def readable (key : Key) (reply : Reply BalanceView) : Option ℚ :=
  match HcmClient.getBalance key reply with
  | .ok (some view) => view.balance
  | _ => none

theorem reconcileKey_healed (clock : RowClock) (key : Key) (reply : Reply BalanceView) (db : Db) :
    Healed db ((Call.reconcileKey clock key reply).reports db)
      ((Call.reconcileKey clock key reply).exec db) := by
  simp only [Call.reports, Call.exec, reconcileKey]
  cases answered : HcmClient.getBalance key reply with
  | error failure => exact .done db
  | ok value =>
    cases value with
    | none => exact .done db
    | some view =>
      obtain ⟨result, after, ran, healed⟩ | ⟨failure, ran⟩ := applyAndEscalate_healed clock
        { key := key, balance := view.balance, asOf := view.asOf.getD (.ms clock.fallback)
          source := .hcmPull } db
      · simp only [ran]
        exact healed
      · simp only [ran]
        exact .done db

/-! ## The effect of every call -/

inductive Effect : Db → List SnapshotResult → Db → Prop
  | filed {row : RequestRow} {now : Int} {db after : Db} (filed : Filed row now db after) :
      Effect db [] after
  | moved {before : RequestRow} {toState : State} {now : Int} {patch : StatePatch} {db after : Db}
      (moved : Moved before toState now patch db after) : Effect db [] after
  | healed {results : List SnapshotResult} {db after : Db} (healed : Healed db results after) :
      Effect db results after
  | requeued {db after : Db} (requeued : Requeued db after) : Effect db [] after

theorem Effect.none (db : Db) : Effect db [] db := .healed (.done db)

theorem requeued_of_update (db : Db) (hit : OutboxRow → Bool) (change : OutboxRow → OutboxRow)
    (keeps : ∀ row, rowKey (change row) = rowKey row)
    (keepsWork : ∀ row, (change row).requestId = row.requestId ∧ (change row).payload = row.payload) :
    Requeued db { db with hcmOutbox := db.hcmOutbox.update hit change keeps } :=
  ⟨⟨hit, change, keeps, keepsWork, rfl⟩, rfl, rfl, rfl⟩

/-- The row waits for its next attempt, or is given up. -/
structure OutboxRow.Rescheduled (before after : OutboxRow) : Prop where
  requestId : after.requestId = before.requestId
  payload : after.payload = before.payload
  status : after.status = .pending ∨ after.status = .dead

/-- Everything that `scheduleRetry` can do. -/
theorem scheduleRetry_cases (config : OutboxConfig) (now : Int) (random : ℚ) (id : Nat)
    (errorMessage : String) (db : Db) :
    db.hcmOutbox.find? id = none ∧ scheduleRetry config now random id errorMessage db = db ∨
    ∃ change keeps, (∀ row : OutboxRow, row.Rescheduled (change row)) ∧
      scheduleRetry config now random id errorMessage db = updateRow id change keeps db := by
  unfold scheduleRetry
  split
  next absent => exact .inl ⟨absent, rfl⟩
  next row found =>
    right
    dsimp only
    split
    · refine ⟨_, ?_, ?_, rfl⟩
      · exact fun _ => rfl
      · exact fun _ => ⟨rfl, rfl, .inr rfl⟩
    · refine ⟨_, ?_, ?_, rfl⟩
      · exact fun _ => rfl
      · exact fun _ => ⟨rfl, rfl, .inl rfl⟩

/-- What a call does that files no request. -/
inductive Change : Db → List SnapshotResult → Db → Prop
  | moved {before : RequestRow} {toState : State} {now : Int} {patch : StatePatch} {db after : Db}
      (moved : Moved before toState now patch db after) : Change db [] after
  | healed {results : List SnapshotResult} {db after : Db} (healed : Healed db results after) :
      Change db results after
  | requeued {db after : Db} (requeued : Requeued db after) : Change db [] after

theorem Change.none (db : Db) : Change db [] db := .healed (.done db)

theorem Change.effect {db after : Db} {results : List SnapshotResult} (change : Change db results after) :
    Effect db results after := by
  cases change with
  | moved moved => exact .moved moved
  | healed healed => exact .healed healed
  | requeued requeued => exact .requeued requeued

theorem scheduleRetry_change (config : OutboxConfig) (now : Int) (random : ℚ) (id : Nat)
    (errorMessage : String) (db : Db) :
    Change db [] (scheduleRetry config now random id errorMessage db) := by
  obtain ⟨_, same⟩ | ⟨change, keeps, rescheduled, same⟩ :=
    scheduleRetry_cases config now random id errorMessage db
  · rw [same]
    exact .none db
  · rw [same]
    apply Change.requeued
    exact requeued_of_update db _ _ _ fun row => ⟨(rescheduled row).requestId, (rescheduled row).payload⟩

theorem MarkOutcome.change {id : String} {toState : State} {now : Int} {patch : StatePatch} {db : Db}
    {result : Except Failure RequestRow × Db} (outcome : MarkOutcome id toState now patch db result) :
    Change db [] result.2 := by
  cases outcome with
  | already row found state => exact .none db
  | moved before after final found state moved => exact .moved moved
  | threw failure refused elsewhere unapproved => exact .none db

/-- The call is a filing that goes through, or files nothing. -/
theorem Call.change (call : Call) (db : Db) :
    (∃ clock ids actor input created, call = .createRequest clock ids actor input ∧
      TimeOffService.createRequest clock ids actor input db = (.ok created, call.exec db)) ∨
    Change db (call.reports db) (call.exec db) := by
  cases call with
  | createRequest clock ids actor input =>
    cases ran : TimeOffService.createRequest clock ids actor input db with
    | mk outcome after =>
      simp only [Call.reports, Call.exec, ran]
      cases outcome with
      | ok created => exact .inl ⟨clock, ids, actor, input, created, rfl, ran⟩
      | error failure =>
        rw [createRequest_error ran]
        exact .inr (.none db)
  | approve clock newId actor requestId =>
    right
    refine transaction_rule (fun _ after => Change db [] after) ?_ fun _ _ => .none db
    intro _ after ran
    obtain ⟨_, _, _, moved⟩ := approve_ok (transaction_ok.mpr ran)
    exact .moved moved
  | reject clock actor requestId reason =>
    right
    refine transaction_rule (fun _ after => Change db [] after) ?_ fun _ _ => .none db
    intro _ after ran
    obtain ⟨_, _, _, moved⟩ := reject_ok (transaction_ok.mpr ran)
    exact .moved moved
  | cancel clock actor requestId =>
    right
    refine transaction_rule (fun _ after => Change db [] after) ?_ fun _ _ => .none db
    intro _ after ran
    obtain ⟨_, _, _, moved⟩ := cancel_ok (transaction_ok.mpr ran)
    exact .moved moved
  | markConsumed clock requestId => exact .inr (markConsumed_outcome clock requestId db).change
  | markHcmFailed clock requestId errorMessage =>
    exact .inr (markHcmFailed_outcome clock requestId errorMessage db).change
  | markReviewRequired clock requestId reason =>
    exact .inr (.healed (markReviewRequired_healed clock requestId reason db))
  | applyHcmBalanceSnapshot clock snapshot =>
    exact .inr (.healed (applyHcmBalanceSnapshot_healed clock snapshot db))
  | handleBatch clocks batch => exact .inr (.healed (handleBatch_healed clocks batch db))
  | reconcileKey clock key reply => exact .inr (.healed (reconcileKey_healed clock key reply db))
  | claimDue config now => exact .inr (.requeued (requeued_of_update db _ _ _ fun _ => ⟨rfl, rfl⟩))
  | markDone now id => exact .inr (.requeued (requeued_of_update db _ _ _ fun _ => ⟨rfl, rfl⟩))
  | scheduleRetry config now random id errorMessage =>
    exact .inr (scheduleRetry_change config now random id errorMessage db)
  | resetToPending id => exact .inr (.requeued (requeued_of_update db _ _ _ fun _ => ⟨rfl, rfl⟩))

theorem Call.effect (call : Call) (db : Db) : Effect db (call.reports db) (call.exec db) := by
  obtain ⟨clock, ids, actor, input, created, rfl, ran⟩ | change := call.change db
  · exact .filed (createRequest_ok ran)
  · exact change.effect

/-- A call that brings no balance leaves the cached ones alone. -/
theorem Call.balances {call : Call} (silent : call.bringsBalance = false) (db : Db) :
    (call.exec db).balances = db.balances := by
  have none : call.reports db = [] := by
    cases call with
    | applyHcmBalanceSnapshot => cases silent
    | handleBatch => cases silent
    | reconcileKey => cases silent
    | _ => rfl
  obtain ⟨clock, ids, actor, input, created, rfl, ran⟩ | change := call.change db
  · exact (createRequest_ok ran).balances
  · rw [none] at change
    generalize noResults : [] = results at change
    cases change with
    | moved moved => exact moved.balances
    | healed healed =>
      subst noResults
      exact healed.balances
    | requeued requeued => exact requeued.balances

/-! ## Invariants of the tables -/

section Invariant

variable {invariant : Db → Prop}
  (filed : ∀ row now db after, invariant db → Filed row now db after → invariant after)
  (moved : ∀ before toState now patch db after, invariant db →
    Moved before toState now patch db after → invariant after)
  (snapshotted : ∀ snapshot now result db after, invariant db →
    Snapshotted snapshot now result db after → invariant after)
  (requeued : ∀ db after, invariant db → Requeued db after → invariant after)

include moved snapshotted in
theorem Healed.preserves {db after : Db} {results : List SnapshotResult}
    (healed : Healed db results after) (holds : invariant db) : invariant after := by
  induction healed with
  | done db => exact holds
  | snapshotted applied rest inductionHypothesis =>
    exact inductionHypothesis (snapshotted _ _ _ _ _ holds applied)
  | escalated escalation rest inductionHypothesis =>
    exact inductionHypothesis (moved _ _ _ _ _ _ holds escalation)

include filed moved snapshotted requeued in
theorem Effect.preserves {db after : Db} {results : List SnapshotResult}
    (effect : Effect db results after) (holds : invariant db) : invariant after := by
  cases effect with
  | filed effect => exact filed _ _ _ _ holds effect
  | moved effect => exact moved _ _ _ _ _ _ holds effect
  | healed effect => exact effect.preserves moved snapshotted holds
  | requeued effect => exact requeued _ _ holds effect

end Invariant

theorem execAll_invariant {invariant : Db → Prop}
    (kept : ∀ (call : Call) db, invariant db → invariant (call.exec db)) (calls : List Call) {db : Db}
    (holds : invariant db) : invariant (execAll calls db) := by
  induction calls generalizing db with
  | nil => exact holds
  | cons call rest inductionHypothesis => exact inductionHypothesis (kept call db holds)

end TimeOff
