import TimeOff.Verified.RequestStory
import TimeOff.Verified.RequestStates

/-! # The system as a sequence of calls

Whatever the worker, HCM and crashes do to the tables, whole calls of the service have
done: a step of the system is a sequence of calls, a crash in the middle of a batch
included.  What holds after every sequence of calls so holds in the system too.
-/

set_option autoImplicit false

namespace TimeOff

open TimeOff.Lib TimeOffService BalancesService ReconciliationService HcmOutboxService HcmOutboxWorker

/-- Calls of the given kind lead from one database to the other. -/
def CalledTo (kind : Call → Prop) (db after : Db) : Prop :=
  ∃ calls, (∀ call ∈ calls, kind call) ∧ after = execAll calls db

/-- The calls that the worker makes on its own account. -/
def Call.internal : Call → Bool
  | markConsumed .. | markHcmFailed .. | markReviewRequired .. | claimDue .. | markDone .. | scheduleRetry .. =>
    true
  | _ => false

/-- The call applies nothing but rows of the batch. -/
def Call.Within (batch : Batch) : Call → Prop
  | handleBatch _ part => ∀ row ∈ part.balances, row ∈ batch.balances
  | applyHcmBalanceSnapshot _ snapshot => ∃ row ∈ batch.balances, row.key = snapshot.key
  | _ => False

/-- The calls that a step of the system amounts to. -/
def Event.Makes : Event → Call → Prop
  | .call offered, made => made = offered
  | .crashInBatch _ batch _ _, made => made.internal = true ∨ made.Within batch
  | _, made => made.internal = true

variable {kind : Call → Prop}

theorem CalledTo.refl (db : Db) : CalledTo kind db db := ⟨[], by simp, rfl⟩

theorem CalledTo.once (call : Call) (ofKind : kind call) (db : Db) : CalledTo kind db (call.exec db) :=
  ⟨[call], by simpa using ofKind, rfl⟩

theorem CalledTo.trans {db middle after : Db} (left : CalledTo kind db middle)
    (right : CalledTo kind middle after) : CalledTo kind db after := by
  obtain ⟨earlier, earlierOfKind, rfl⟩ := left
  obtain ⟨later, laterOfKind, rfl⟩ := right
  exact ⟨earlier ++ later, List.forall_mem_append.mpr ⟨earlierOfKind, laterOfKind⟩,
    (execAll_append earlier later db).symm⟩

theorem CalledTo.mono {wider : Call → Prop} {db after : Db} (called : CalledTo kind db after)
    (widens : ∀ call, kind call → wider call) : CalledTo wider db after := by
  obtain ⟨calls, ofKind, reached⟩ := called
  exact ⟨calls, fun call member => widens call (ofKind call member), reached⟩

theorem CalledTo.reached {db after : Db} (called : CalledTo kind db after) :
    ∃ calls, after = execAll calls db := by
  obtain ⟨calls, _, reached⟩ := called
  exact ⟨calls, reached⟩

/-- The worker's own calls lead from one database to the other. -/
abbrev WorkedTo : Db → Db → Prop := CalledTo fun call => call.internal = true

theorem WorkedTo.once (call : Call) (internal : call.internal = true) (db : Db) : WorkedTo db (call.exec db) :=
  CalledTo.once call internal db

/-! ## The handlers of a row -/

/-- The error path changes the tables by `markHcmFailed` if at all. -/
theorem onError_calledTo (clock : Clock) (row : ClaimedRow) (failure : Failure) (db : Db) :
    WorkedTo db (onError clock row failure db).2 := by
  simp only [onError]
  split
  · have failed := WorkedTo.once (.markHcmFailed clock row.requestId failure.message) rfl db
    simp only [Call.exec] at failed
    split
    next ran => rwa [ran] at failed
    next ran => rwa [ran] at failed
  · exact .refl db

theorem onBalance_calledTo (clock : Clock) (row : ClaimedRow) (reply : Reply BalanceView) (db : Db) :
    WorkedTo db (onBalance clock row reply db).2 := by
  simp only [onBalance]
  split
  · exact .refl db
  next balance _ =>
    have reviewed := WorkedTo.once
      (.markReviewRequired clock row.requestId (reviewReason balance row.payload.days)) rfl db
    simp only [Call.exec] at reviewed
    split
    next ran => rwa [ran] at reviewed
    next failure after ran =>
      rw [ran] at reviewed
      exact reviewed.trans (onError_calledTo clock row failure after)

theorem onConsume_calledTo (clock : Clock) (row : ClaimedRow) (reply : Reply Unit) (db : Db) :
    WorkedTo db (onConsume clock row reply db).2 := by
  simp only [onConsume]
  split
  next failure _ => exact onError_calledTo clock row failure db
  next =>
    have consumed := WorkedTo.once (.markConsumed clock row.requestId) rfl db
    simp only [Call.exec] at consumed
    split
    next ran => rwa [ran] at consumed
    next failure after ran =>
      rw [ran] at consumed
      exact consumed.trans (onError_calledTo clock row failure after)

theorem settle_calledTo (config : OutboxConfig) (now : Int) (random : ℚ) (row : ClaimedRow)
    (settlement : Settlement) (db : Db) :
    WorkedTo db (HcmOutboxWorker.settle config now random row settlement db) := by
  cases settlement with
  | done escaping => exact WorkedTo.once (.markDone now row.id) rfl db
  | retry message => exact WorkedTo.once (.scheduleRetry config now random row.id message) rfl db

/-! ## A crash in a batch -/

theorem escalations_calledTo (clock : String → Clock) (ids : List String) (db : Db) :
    WorkedTo db (ids.foldl (fun db id => (markReviewRequired (clock id) id escalationReason db).2) db) := by
  induction ids generalizing db with
  | nil => exact .refl db
  | cons id rest inductionHypothesis =>
    exact (WorkedTo.once (.markReviewRequired (clock id) id escalationReason) rfl db).trans
      (inductionHypothesis _)

/-- What a crash leaves of a batch is a shorter batch, a snapshot and some escalations. -/
theorem interruptedBatch_calledTo (clocks : Nat → RowClock) (batch : Batch) (rows escalations : Nat)
    (db : Db) : CalledTo (Event.crashInBatch clocks batch rows escalations).Makes db
      (interruptedBatch clocks batch rows escalations db) := by
  have shorter : (Event.crashInBatch clocks batch rows escalations).Makes
      (.handleBatch clocks { batch with balances := batch.balances.take rows }) :=
    .inr fun _ member => List.mem_of_mem_take member
  have applied := CalledTo.once _ shorter db
  simp only [Call.exec, handleBatch_db] at applied
  unfold interruptedBatch
  dsimp only
  split
  next row _ found =>
    have own : (Event.crashInBatch clocks batch rows escalations).Makes (.applyHcmBalanceSnapshot
        (clocks rows).snapshot (rowSnapshot batch.asOf (clocks rows) row)) :=
      .inr ⟨row, List.mem_of_getElem? found, rfl⟩
    have snapshot := applied.trans (.once _ own _)
    simp only [Call.exec] at snapshot
    split
    next result middle ran =>
      rw [ran] at snapshot
      split
      · exact snapshot.trans ((escalations_calledTo _ _ _).mono fun _ => .inl)
      · exact snapshot
    next failure middle ran => rwa [ran] at snapshot
  next => exact applied

/-! ## Steps and runs -/

theorem step_calledTo {config : OutboxConfig} {world next : World} {event : Event}
    (stepped : World.step config world event = some next) : CalledTo event.Makes world.db next.db := by
  cases event with
  | call call =>
    simp only [World.step] at stepped
    split at stepped
    · cases stepped
      have offered : (Event.call call).Makes call := rfl
      exact .once call offered world.db
    · cases stepped
  | tick now =>
    simp only [World.step] at stepped
    split at stepped
    · cases stepped
      exact WorkedTo.once (.claimDue config now) rfl world.db
    · cases stepped
    · cases stepped
      exact .refl _
  | balanceReply clock reply =>
    simp only [World.step] at stepped
    split at stepped
    next row rest _ =>
      have reached := onBalance_calledTo clock row reply world.db
      split at stepped
      next ran =>
        cases stepped
        rwa [ran] at reached
      next ran =>
        cases stepped
        rwa [ran] at reached
    next => cases stepped
  | hcmHandles number =>
    simp only [World.step] at stepped
    split at stepped
    · cases stepped
    · split at stepped
      · cases stepped
        exact .refl _
      · cases stepped
        exact .refl _
  | consumeReply clock reply =>
    simp only [World.step] at stepped
    split at stepped
    next row rest _ =>
      cases stepped
      exact onConsume_calledTo clock row reply world.db
    next => cases stepped
  | settle now random =>
    simp only [World.step] at stepped
    split at stepped
    next row rest settlement _ =>
      cases stepped
      exact settle_calledTo config now random row settlement world.db
    next => cases stepped
  | crash =>
    cases stepped
    exact .refl _
  | crashInBatch clocks batch rows escalations =>
    simp only [World.step] at stepped
    split at stepped
    · cases stepped
      exact interruptedBatch_calledTo clocks batch rows escalations world.db
    · cases stepped

/-- In every state of every run, crashes included, the tables are what whole calls have made of them. -/
theorem tables_called (config : OutboxConfig) (world : World) (events : List Event) :
    Always (World.step config) (fun later => ∃ calls, later.db = execAll calls world.db) world events := by
  apply always_of_invariant
  · rintro earlier event next ⟨calls, reached⟩ stepped
    obtain ⟨later, reachedNext⟩ := (step_calledTo stepped).reached
    exact ⟨calls ++ later, by rw [execAll_append, ← reached, reachedNext]⟩
  · exact ⟨[], rfl⟩

/-- What every call preserves holds throughout every run of the system. -/
theorem always_of_calls {config : OutboxConfig} {invariant : Db → Prop}
    (kept : ∀ (call : Call) db, invariant db → invariant (call.exec db)) {world : World}
    (start : invariant world.db) (events : List Event) :
    Always (World.step config) (fun later => invariant later.db) world events := by
  apply (tables_called config world events).mono
  rintro later ⟨calls, reached⟩
  rw [reached]
  exact execAll_invariant kept calls start

end TimeOff
