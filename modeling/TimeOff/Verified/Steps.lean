import TimeOff.System.World
import TimeOff.Verified.Changes

/-! # The steps of the system

`Stepped` lists what a step can do, `step_stepped` shows that it lists
everything.  The invariants of runs are proved from `Stepped`, case by case,
and never from the definition of the step.
-/

set_option autoImplicit false

namespace TimeOff

open TimeOff.Lib TimeOffService HcmOutboxService HcmOutboxWorker ReconciliationService

/-- What the worker does for the row at hand once the answer of HCM asks for a state change: the
approved request moves, it is there already, or the change is illegal.  Only a refused consume whose
request is elsewhere ends the tick. -/
inductive Reaction (row : ClaimedRow) (db : Db) (toState : State) : Settlement → Db → Prop
  | moved (before : RequestRow) (now : Int) (patch : StatePatch) (final : Db)
      (found : db.requests.find? row.requestId = some before) (state : before.state = .approved)
      (moved : Moved before toState now patch db final) : Reaction row db toState (.done none) final
  | already (state : requestState row.requestId db = some toState) :
      Reaction row db toState (.done none) db
  | elsewhere (settlement : Settlement)
      (ends : (∃ message, settlement = .retry message) ∨
        toState = .hcmFailed ∧ ∃ failure, settlement = .done (some failure) ∧
          Refused row.requestId toState db failure)
      (different : requestState row.requestId db ≠ some toState)
      (unapproved : requestState row.requestId db ≠ some .approved) :
      Reaction row db toState settlement db

/-- A `mark` operation returns with the request in the state asked for, or throws a domain error when
the request is elsewhere. -/
theorem MarkOutcome.reaction {row : ClaimedRow} {toState : State} {now : Int} {patch : StatePatch}
    {db : Db} {result : Except Failure RequestRow × Db}
    (outcome : MarkOutcome row.requestId toState now patch db result) :
    (∃ after final, result = (.ok after, final) ∧ Reaction row db toState (.done none) final) ∨
    ∃ failure, result = (.error failure, db) ∧ Refused row.requestId toState db failure ∧
      requestState row.requestId db ≠ some toState ∧ requestState row.requestId db ≠ some .approved := by
  cases outcome with
  | already other found state =>
    exact .inl ⟨other, db, rfl, .already (requestState_eq_some.mpr ⟨other, found, state⟩)⟩
  | moved before after final found state moved =>
    exact .inl ⟨after, final, rfl, .moved before now patch final found state moved⟩
  | threw failure refused elsewhere unapproved =>
    exact .inr ⟨failure, rfl, refused, elsewhere, unapproved⟩

theorem onBalance_reaction (clock : Clock) {row : ClaimedRow} {reply : Reply BalanceView} (db : Db)
    {balance : ℚ} (insufficient : insufficientView row reply = some balance) :
    ∃ settlement final, onBalance clock row reply db = (some settlement, final) ∧
      Reaction row db .reviewRequired settlement final := by
  simp only [onBalance, insufficient]
  obtain ⟨after, final, ran, reaction⟩ | ⟨failure, ran, refused, elsewhere, unapproved⟩ :=
    (markReviewRequired_outcome clock row.requestId (reviewReason balance row.payload.days) db).reaction
  · rw [ran]
    exact ⟨_, _, rfl, reaction⟩
  · refine ⟨.retry failure.message, db, ?_, .elsewhere _ (.inl ⟨_, rfl⟩) elsewhere unapproved⟩
    simp [ran, onError, refused.domain]

theorem onConsume_accepted (clock : Clock) {row : ClaimedRow} {reply : Reply Unit} {db : Db}
    {body : Option Unit} (accepted : HcmClient.consumeBalance reply = .ok body) :
    ∃ settlement final, onConsume clock row reply db = (settlement, final) ∧
      Reaction row db .consumed settlement final := by
  simp only [onConsume, accepted]
  obtain ⟨after, final, ran, reaction⟩ | ⟨failure, ran, refused, elsewhere, unapproved⟩ :=
    (markConsumed_outcome clock row.requestId db).reaction
  · rw [ran]
    exact ⟨_, _, rfl, reaction⟩
  · refine ⟨.retry failure.message, db, ?_, .elsewhere _ (.inl ⟨_, rfl⟩) elsewhere unapproved⟩
    simp [ran, onError, refused.domain]

theorem onConsume_refused (clock : Clock) {row : ClaimedRow} {reply : Reply Unit} {db : Db}
    {failure : Failure} (refused : HcmClient.consumeBalance reply = .error failure)
    (permanent : failure.isHcmPermanent = true) :
    ∃ settlement final, onConsume clock row reply db = (settlement, final) ∧
      Reaction row db .hcmFailed settlement final := by
  simp only [onConsume, refused, onError, permanent, if_true]
  obtain ⟨after, final, ran, reaction⟩ | ⟨escaping, ran, escapes, elsewhere, unapproved⟩ :=
    (markHcmFailed_outcome clock row.requestId failure.message db).reaction
  · rw [ran]
    exact ⟨_, _, rfl, reaction⟩
  · rw [ran]
    exact ⟨_, _, rfl, .elsewhere _ (.inr ⟨rfl, escaping, rfl, escapes⟩) elsewhere unapproved⟩

theorem interruptedBatch_healed (clocks : Nat → RowClock) (batch : Batch) (rows escalations : Nat)
    (db : Db) : ∃ results, Healed db results (interruptedBatch clocks batch rows escalations db) := by
  have healed := applyRows_healed batch.asOf clocks (batch.balances.take rows) db
  unfold interruptedBatch
  dsimp only
  split
  next row _ _ =>
    have snapshot := applyHcmBalanceSnapshot_healed (clocks rows).snapshot
      (rowSnapshot batch.asOf (clocks rows) row)
      (applyRows batch.asOf clocks (batch.balances.take rows) db).db
    simp only [Call.exec] at snapshot
    have upToHere := healed.trans snapshot
    split
    next result middle ran =>
      rw [ran] at upToHere
      split
      · exact ⟨_, upToHere.trans (escalations_healed _ _ _)⟩
      · exact ⟨_, upToHere⟩
    next failure middle ran =>
      rw [ran] at upToHere
      exact ⟨_, upToHere⟩
  next => exact ⟨_, healed⟩

/-- Everything that a step of the system can do. -/
inductive Stepped (config : OutboxConfig) (world : World) : Event → World → Prop
  | call (call : Call) (yields : world.worker.yields = true) (offered : call.offered = true) :
      Stepped config world (.call call) { world with db := call.exec world.db }
  | claimed (now : Int) (idle : world.worker = .idle) :
      Stepped config world (.tick now) { world with
        db := (claimDue config now world.db).2
        worker := proceed ((dueRows config now world.db).map OutboxRow.claimed) }
  | draining (now : Int) : Stepped config world (.tick now) world
  | sends (clock : Clock) (reply : Reply BalanceView) (row : ClaimedRow) (rest : List ClaimedRow)
      (at_await : world.worker = .awaitBalance row rest) (unknown : insufficientView row reply = none) :
      Stepped config world (.balanceReply clock reply) { world with
        worker := .awaitConsume row rest, sent := world.sent ++ [world.consume row] }
  | reviews (clock : Clock) (reply : Reply BalanceView) (row : ClaimedRow) (rest : List ClaimedRow)
      (balance : ℚ) (settlement : Settlement) (final : Db)
      (at_await : world.worker = .awaitBalance row rest)
      (insufficient : insufficientView row reply = some balance)
      (reaction : Reaction row world.db .reviewRequired settlement final) :
      Stepped config world (.balanceReply clock reply) { world with
        db := final, worker := .settling row rest settlement }
  | repeated (number : Nat) (call : Consume) (found : world.sent[number]? = some call)
      (known : world.debited call.row.payload.externalRequestId = true) :
      Stepped config world (.hcmHandles number) world
  | debits (number : Nat) (call : Consume) (found : world.sent[number]? = some call)
      (unknown : world.debited call.row.payload.externalRequestId = false) :
      Stepped config world (.hcmHandles number) { world with debits := world.debits ++ [call] }
  | accepted (clock : Clock) (reply : Reply Unit) (body : Option Unit) (row : ClaimedRow)
      (rest : List ClaimedRow) (settlement : Settlement) (final : Db)
      (at_await : world.worker = .awaitConsume row rest)
      (answer : HcmClient.consumeBalance reply = .ok body)
      (reaction : Reaction row world.db .consumed settlement final) :
      Stepped config world (.consumeReply clock reply) { world with
        db := final, worker := .settling row rest settlement
        acknowledged := world.acknowledged ++ [row] }
  | refused (clock : Clock) (reply : Reply Unit) (failure : Failure) (row : ClaimedRow)
      (rest : List ClaimedRow) (settlement : Settlement) (final : Db)
      (at_await : world.worker = .awaitConsume row rest)
      (answer : HcmClient.consumeBalance reply = .error failure)
      (permanent : failure.isHcmPermanent = true)
      (reaction : Reaction row world.db .hcmFailed settlement final) :
      Stepped config world (.consumeReply clock reply) { world with
        db := final, worker := .settling row rest settlement }
  | lost (clock : Clock) (reply : Reply Unit) (failure : Failure) (row : ClaimedRow)
      (rest : List ClaimedRow) (at_await : world.worker = .awaitConsume row rest)
      (answer : HcmClient.consumeBalance reply = .error failure)
      (transient : failure.isHcmPermanent = false) :
      Stepped config world (.consumeReply clock reply) { world with
        worker := .settling row rest (.retry failure.message) }
  | done (now : Int) (random : ℚ) (row : ClaimedRow) (rest : List ClaimedRow)
      (escaping : Option Failure) (at_end : world.worker = .settling row rest (.done escaping)) :
      Stepped config world (.settle now random) { world with
        db := markDone now row.id world.db, worker := afterSettle rest (.done escaping) }
  | retries (now : Int) (random : ℚ) (row : ClaimedRow) (rest : List ClaimedRow) (message : String)
      (at_end : world.worker = .settling row rest (.retry message)) :
      Stepped config world (.settle now random) { world with
        db := scheduleRetry config now random row.id message world.db, worker := proceed rest }
  | crash : Stepped config world .crash { world with worker := .idle }
  | crashInBatch (clocks : Nat → RowClock) (batch : Batch) (rows escalations : Nat)
      (yields : world.worker.yields = true) :
      Stepped config world (.crashInBatch clocks batch rows escalations) { world with
        db := interruptedBatch clocks batch rows escalations world.db, worker := .idle }

theorem step_stepped {config : OutboxConfig} {world next : World} {event : Event}
    (stepped : World.step config world event = some next) : Stepped config world event next := by
  cases event with
  | call call =>
    simp only [World.step] at stepped
    split at stepped
    next enabled =>
      cases stepped
      exact .call call enabled.1 enabled.2
    next => cases stepped
  | tick now =>
    simp only [World.step] at stepped
    split at stepped
    next idle =>
      cases stepped
      exact .claimed now idle
    next => cases stepped
    next =>
      cases stepped
      exact .draining now
  | balanceReply clock reply =>
    simp only [World.step] at stepped
    split at stepped
    next row rest awaiting =>
      cases known : insufficientView row reply with
      | none =>
        simp only [onBalance, known, Option.some.injEq] at stepped
        cases stepped
        exact .sends clock reply row rest awaiting known
      | some balance =>
        obtain ⟨settlement, final, ran, reaction⟩ := onBalance_reaction clock world.db known
        rw [ran] at stepped
        cases stepped
        exact .reviews clock reply row rest balance settlement final awaiting known reaction
    next => cases stepped
  | hcmHandles number =>
    simp only [World.step] at stepped
    split at stepped
    next => cases stepped
    next call found =>
      split at stepped
      next known =>
        cases stepped
        exact .repeated number call found known
      next unknown =>
        cases stepped
        exact .debits number call found (by simpa using unknown)
  | consumeReply clock reply =>
    simp only [World.step] at stepped
    split at stepped
    next row rest awaiting =>
      cases answer : HcmClient.consumeBalance reply with
      | ok body =>
        obtain ⟨settlement, final, ran, reaction⟩ := onConsume_accepted clock answer
        simp only [answer, Option.some.injEq] at stepped
        cases stepped
        rw [ran]
        exact .accepted clock reply body row rest settlement final awaiting answer reaction
      | error failure =>
        cases permanent : failure.isHcmPermanent with
        | true =>
          obtain ⟨settlement, final, ran, reaction⟩ :=
            onConsume_refused clock answer permanent
          simp only [answer, Option.some.injEq] at stepped
          cases stepped
          rw [ran]
          exact .refused clock reply failure row rest settlement final awaiting answer permanent reaction
        | false =>
          have ran : onConsume clock row reply world.db = (.retry failure.message, world.db) := by
            simp [onConsume, answer, onError, permanent]
          simp only [ran, answer, Option.some.injEq] at stepped
          cases stepped
          exact .lost clock reply failure row rest awaiting answer permanent
    next => cases stepped
  | settle now random =>
    simp only [World.step] at stepped
    split at stepped
    next row rest settlement ending =>
      cases stepped
      cases settlement with
      | done escaping => exact .done now random row rest escaping ending
      | retry message => exact .retries now random row rest message ending
    next => cases stepped
  | crash =>
    cases stepped
    exact .crash
  | crashInBatch clocks batch rows escalations =>
    simp only [World.step] at stepped
    split at stepped
    next yields =>
      cases stepped
      exact .crashInBatch clocks batch rows escalations yields
    next => cases stepped

/-! ## The effect of a step on the tables -/

theorem Reaction.effect {row : ClaimedRow} {db final : Db} {toState : State} {settlement : Settlement}
    (reaction : Reaction row db toState settlement final) : Effect db [] final := by
  cases reaction with
  | moved before now patch final found state moved => exact .moved moved
  | already state => exact .none db
  | elsewhere settlement ends different unapproved => exact .none db

theorem Stepped.effect {config : OutboxConfig} {world next : World} {event : Event}
    (stepped : Stepped config world event next) : ∃ results, Effect world.db results next.db := by
  cases stepped with
  | call call yields offered => exact ⟨_, call.effect world.db⟩
  | claimed now idle => exact ⟨_, (Call.claimDue config now).effect world.db⟩
  | draining now => exact ⟨_, .none _⟩
  | sends clock reply row rest at_await unknown => exact ⟨_, .none _⟩
  | reviews clock reply row rest balance settlement final at_await insufficient reaction =>
    exact ⟨_, reaction.effect⟩
  | repeated number call found known => exact ⟨_, .none _⟩
  | debits number call found unknown => exact ⟨_, .none _⟩
  | accepted clock reply body row rest settlement final at_await answer reaction =>
    exact ⟨_, reaction.effect⟩
  | refused clock reply failure row rest settlement final at_await answer permanent reaction =>
    exact ⟨_, reaction.effect⟩
  | lost clock reply failure row rest at_await answer transient => exact ⟨_, .none _⟩
  | done now random row rest escaping at_end => exact ⟨_, (Call.markDone now row.id).effect world.db⟩
  | retries now random row rest message at_end =>
    exact ⟨_, (scheduleRetry_change config now random row.id message world.db).effect⟩
  | crash => exact ⟨_, .none _⟩
  | crashInBatch clocks batch rows escalations yields =>
    obtain ⟨results, healed⟩ := interruptedBatch_healed clocks batch rows escalations world.db
    exact ⟨results, .healed healed⟩

end TimeOff
