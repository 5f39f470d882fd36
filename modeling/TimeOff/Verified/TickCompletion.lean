import TimeOff.Verified.CrashRecovery
import TimeOff.Verified.HcmAgreement

/-! # A tick and the rows it claimed

The worker takes the rows of a batch one after the other and settles each with
`markDone` or `scheduleRetry`.  Only one failure leaves the loop: that of
`markHcmFailed`, when HCM refuses for good the consume of a request that has
moved on.  The rows behind it then stay INFLIGHT.
-/

set_option autoImplicit false

namespace TimeOff

open TimeOff.Lib HcmOutboxService HcmOutboxWorker TimeOffService

/-- The row is DONE, PENDING with one more attempt, or DEAD. -/
def RowSettled (row : ClaimedRow) (db : Db) : Prop :=
  ∃ stored ∈ db.hcmOutbox.rows, stored.id = row.id ∧
    (stored.status = .done ∨ stored.status = .pending ∧ stored.attempts = row.attempts + 1 ∨
      stored.status = .dead)

instance (row : ClaimedRow) (db : Db) : Decidable (RowSettled row db) :=
  inferInstanceAs (Decidable (∃ stored ∈ db.hcmOutbox.rows, _))

/-- The tick is still going on; the process does not die, and nobody resets a row of the batch. -/
def DuringTick (batch : List ClaimedRow) (world : World) : Event → Prop
  | .crash | .crashInBatch .. => False
  | .call (.resetToPending id) => world.worker ≠ .idle ∧ ∀ row ∈ batch, row.id ≠ id
  | _ => world.worker ≠ .idle

instance (batch : List ClaimedRow) (world : World) : (event : Event) → Decidable (DuringTick batch world event)
  | .crash | .crashInBatch .. => isFalse id
  | .call (.resetToPending id) => inferInstanceAs (Decidable (_ ∧ ∀ row ∈ batch, row.id ≠ id))
  | .call (.createRequest ..) | .call (.approve ..) | .call (.reject ..) | .call (.cancel ..)
  | .call (.markConsumed ..) | .call (.markHcmFailed ..) | .call (.markReviewRequired ..)
  | .call (.applyHcmBalanceSnapshot ..) | .call (.handleBatch ..) | .call (.reconcileKey ..)
  | .call (.claimDue ..) | .call (.markDone ..) | .call (.scheduleRetry ..) | .tick _ | .balanceReply ..
  | .hcmHandles _ | .consumeReply .. | .settle .. => inferInstanceAs (Decidable (world.worker ≠ .idle))

/-- HCM refuses for good the consume of a request that is neither APPROVED nor HCM_FAILED, and rows of
the batch are still to come. -/
def Aborts (world : World) : Event → Prop
  | .consumeReply _ reply =>
    match world.worker with
    | .awaitConsume row rest => rest ≠ [] ∧ refuses reply = true ∧
        requestState row.requestId world.db ≠ some .approved ∧
        requestState row.requestId world.db ≠ some .hcmFailed
    | _ => False
  | _ => False

instance (world : World) : (event : Event) → Decidable (Aborts world event)
  | .consumeReply _ reply => by
    simp only [Aborts]
    split
    · infer_instance
    · exact isFalse id
  | .call _ | .tick _ | .balanceReply .. | .hcmHandles _ | .settle .. | .crash | .crashInBatch .. =>
    isFalse id

variable {config : OutboxConfig} {world next : World} {event : Event} {db after : Db}
  {batch : List ClaimedRow}

theorem DuringTick.busy (during : DuringTick batch world event) : world.worker ≠ .idle := by
  simp only [DuringTick] at during
  split at during
  · cases during
  · cases during
  · exact during.1
  · exact during

/-! ## Rows that a step leaves alone -/

theorem updateRow_other {id : Nat} {change : OutboxRow → OutboxRow} {keeps : ∀ row, (change row).id = row.id}
    {stored : OutboxRow} (member : stored ∈ db.hcmOutbox.rows) (other : stored.id ≠ id) :
    stored ∈ (updateRow id change keeps db).hcmOutbox.rows :=
  SerialTable.mem_update_of_miss member (decide_eq_false other)

theorem scheduleRetry_other {now : Int} {random : ℚ} {id : Nat} {message : String} {stored : OutboxRow}
    (member : stored ∈ db.hcmOutbox.rows) (other : stored.id ≠ id) :
    stored ∈ (scheduleRetry config now random id message db).hcmOutbox.rows := by
  obtain ⟨_, same⟩ | ⟨change, keeps, _, same⟩ := scheduleRetry_cases config now random id message db
  · rwa [same]
  · rw [same]
    exact updateRow_other member other

/-- A call of a route that does not reset the row keeps it. -/
theorem Offered.keeps_row {call : Call} (offered : Offered db call after) {stored : OutboxRow}
    (member : stored ∈ db.hcmOutbox.rows) (unreset : call ≠ .resetToPending stored.id) :
    stored ∈ after.hcmOutbox.rows := by
  cases offered with
  | filed clock ids actor input row after filed => rwa [filed.hcmOutbox]
  | approved clock newId actor requestId before patch after found moved =>
    obtain ⟨_, _, _, _, enqueued⟩ := moved.enqueued rfl
    rw [enqueued, SerialTable.rows_append]
    exact List.mem_append_left _ member
  | rejected clock actor requestId reason before patch after found decides moved =>
    rwa [(moved.unqueued (by simp)).2]
  | cancelled clock actor requestId before patch after found may moved =>
    rwa [(moved.unqueued (by simp)).2]
  | healed call after healed => rwa [healed.hcmOutbox]
  | reset id =>
    apply updateRow_other member
    intro same
    exact unreset (by rw [same])
  | unchanged call => exact member

/-! ## How a row is settled -/

theorem markDone_settles {stored : OutboxRow} {row : ClaimedRow} (member : stored ∈ db.hcmOutbox.rows)
    (own : stored.id = row.id) (now : Int) : RowSettled row (markDone now row.id db) :=
  ⟨_, SerialTable.mem_update_of_hit member (decide_eq_true own), own, .inl rfl⟩

theorem scheduleRetry_settles {stored : OutboxRow} {row : ClaimedRow}
    (member : stored ∈ db.hcmOutbox.rows) (own : stored.id = row.id)
    (attempts : stored.attempts = row.attempts) (now : Int) (random : ℚ) (message : String) :
    RowSettled row (scheduleRetry config now random row.id message db) := by
  have found : db.hcmOutbox.find? row.id = some stored := Table.find?_eq_some.mpr ⟨member, own⟩
  simp only [scheduleRetry, found]
  split
  · exact ⟨_, SerialTable.mem_update_of_hit member (decide_eq_true own), own, .inr (.inr rfl)⟩
  · refine ⟨_, SerialTable.mem_update_of_hit member (decide_eq_true own), own, .inr (.inl ⟨rfl, ?_⟩)⟩
    rw [attempts]

/-! ## What holds while the tick goes on -/

/-- The claimed row is INFLIGHT and has the attempts it was claimed with. -/
def AtWork (row : ClaimedRow) (db : Db) : Prop :=
  ∃ stored ∈ db.hcmOutbox.rows, stored.id = row.id ∧ stored.status = .inflight ∧
    stored.attempts = row.attempts

/-- The rows behind the worker are settled, those before it are INFLIGHT. -/
structure InTick (batch : List ClaimedRow) (world : World) : Prop where
  distinct : (batch.map ClaimedRow.id).Nodup
  split : ∃ handled, batch = handled ++ world.worker.held ∧ ∀ row ∈ handled, RowSettled row world.db
  atWork : ∀ row ∈ world.worker.held, AtWork row world.db

/-- The failure that ends the tick, if one is under way, costs no other row its turn. -/
def EndsClean (world : World) : Prop :=
  ∀ row rest failure, world.worker = .settling row rest (.done (some failure)) → rest = []

theorem RowSettled.kept {row : ClaimedRow} (settled : RowSettled row db)
    (kept : ∀ stored ∈ db.hcmOutbox.rows, stored.id = row.id → stored ∈ after.hcmOutbox.rows) :
    RowSettled row after := by
  obtain ⟨stored, member, own, status⟩ := settled
  exact ⟨stored, kept stored member own, own, status⟩

theorem AtWork.kept {row : ClaimedRow} (atWork : AtWork row db)
    (kept : ∀ stored ∈ db.hcmOutbox.rows, stored.id = row.id → stored ∈ after.hcmOutbox.rows) :
    AtWork row after := by
  obtain ⟨stored, member, own, status⟩ := atWork
  exact ⟨stored, kept stored member own, own, status⟩

/-- A step that keeps the rows of the batch and the worker's place in it. -/
theorem InTick.kept (inTick : InTick batch world) (sameHeld : next.worker.held = world.worker.held)
    (kept : ∀ stored ∈ world.db.hcmOutbox.rows, (∃ row ∈ batch, row.id = stored.id) →
      stored ∈ next.db.hcmOutbox.rows) : InTick batch next := by
  obtain ⟨handled, split, settled⟩ := inTick.split
  refine ⟨inTick.distinct, ⟨handled, by rw [sameHeld]; exact split, ?_⟩, ?_⟩
  · intro row member
    apply (settled row member).kept
    intro stored storedIn own
    exact kept stored storedIn ⟨row, by rw [split]; exact List.mem_append_left _ member, own.symm⟩
  · intro row member
    rw [sameHeld] at member
    apply (inTick.atWork row member).kept
    intro stored storedIn own
    exact kept stored storedIn ⟨row, by rw [split]; exact List.mem_append_right _ member, own.symm⟩

/-- No other row of the batch has the id of the row at hand. -/
theorem InTick.another (inTick : InTick batch world) {handled rest : List ClaimedRow} {row : ClaimedRow}
    (split : batch = handled ++ row :: rest) :
    ∀ other, other ∈ handled ∨ other ∈ rest → other.id ≠ row.id := by
  have distinct := inTick.distinct
  rw [split, List.map_append, List.map_cons, List.nodup_middle, List.nodup_cons] at distinct
  intro other member same
  apply distinct.1
  rw [← same, List.mem_append]
  exact member.imp List.mem_map_of_mem List.mem_map_of_mem

/-- A step that settles the row at hand and leaves the other rows alone. -/
theorem InTick.settled (inTick : InTick batch world) {row : ClaimedRow} {rest : List ClaimedRow}
    (held : world.worker.held = row :: rest) (nextHeld : next.worker.held = rest)
    (settled : RowSettled row next.db)
    (kept : ∀ stored ∈ world.db.hcmOutbox.rows, stored.id ≠ row.id → stored ∈ next.db.hcmOutbox.rows) :
    InTick batch next := by
  obtain ⟨handled, split, earlier⟩ := inTick.split
  rw [held] at split
  have another := inTick.another split
  refine ⟨inTick.distinct, ⟨handled ++ [row], by rw [nextHeld, split]; simp, ?_⟩, ?_⟩
  · intro other member
    cases List.mem_append.mp member with
    | inl before =>
      apply (earlier other before).kept
      intro stored storedIn own
      exact kept stored storedIn (own ▸ another other (.inl before))
    | inr last =>
      rw [List.mem_singleton.mp last]
      exact settled
  · intro other member
    rw [nextHeld] at member
    apply (inTick.atWork other (by rw [held]; exact List.mem_cons_of_mem _ member)).kept
    intro stored storedIn own
    exact kept stored storedIn (own ▸ another other (.inr member))

/-! ## One step of a tick -/

theorem InTick.step (inTick : InTick batch world) (clean : EndsClean world)
    (during : DuringTick batch world event) (stepped : Stepped config world event next) :
    InTick batch next := by
  cases stepped with
  | call call yields offered =>
    refine inTick.kept rfl ?_
    intro stored member inBatch
    apply (call.offered_exec offered world.db).keeps_row member
    rintro rfl
    obtain ⟨row, rowIn, same⟩ := inBatch
    exact during.2 row rowIn same
  | claimed now idle => exact absurd idle during.busy
  | draining now => exact inTick
  | sends clock reply row rest at_await unknown =>
    exact inTick.kept (by rw [at_await]; rfl) fun _ member _ => member
  | reviews clock reply row rest balance settlement final at_await insufficient reaction =>
    apply inTick.kept (by rw [at_await]; rfl)
    intro stored member _
    rwa [reaction.hcmOutbox (by simp)]
  | repeated number call found known => exact inTick
  | debits number call found unknown => exact inTick.kept rfl fun _ member _ => member
  | accepted clock reply body row rest settlement final at_await answer reaction =>
    apply inTick.kept (by rw [at_await]; rfl)
    intro stored member _
    rwa [reaction.hcmOutbox (by simp)]
  | refused clock reply failure row rest settlement final at_await answer permanent reaction =>
    apply inTick.kept (by rw [at_await]; rfl)
    intro stored member _
    rwa [reaction.hcmOutbox (by simp)]
  | lost clock reply failure row rest at_await answer transient =>
    exact inTick.kept (by rw [at_await]; rfl) fun _ member _ => member
  | done now random row rest escaping at_end =>
    have held : world.worker.held = row :: rest := by rw [at_end]; rfl
    obtain ⟨stored, member, own, _⟩ := inTick.atWork row (by rw [held]; exact List.mem_cons_self)
    apply inTick.settled held _ (markDone_settles member own now) fun _ => updateRow_other
    cases escaping with
    | none => exact held_proceed rest
    | some failure =>
      -- the loop is left, with nothing behind the row
      rw [clean row rest failure at_end]
      rfl
  | retries now random row rest message at_end =>
    have held : world.worker.held = row :: rest := by rw [at_end]; rfl
    obtain ⟨stored, member, own, _, attempts⟩ :=
      inTick.atWork row (by rw [held]; exact List.mem_cons_self)
    exact inTick.settled held (held_proceed rest)
      (scheduleRetry_settles member own attempts now random message) fun _ => scheduleRetry_other
  | crash => cases during
  | crashInBatch clocks batch rows escalations yields => cases during

/-- Only `markHcmFailed` lets a failure escape. -/
theorem Reaction.escapes {row : ClaimedRow} {final : Db} {toState : State} {failure : Failure}
    (reaction : Reaction row db toState (.done (some failure)) final) :
    toState = .hcmFailed ∧ requestState row.requestId db ≠ some .hcmFailed ∧
      requestState row.requestId db ≠ some .approved ∧ Refused row.requestId toState db failure := by
  cases reaction with
  | elsewhere settlement ends different unapproved =>
    cases ends with
    | inl retry =>
      obtain ⟨message, same⟩ := retry
      cases same
    | inr failed =>
      obtain ⟨rfl, escaping, same, refused⟩ := failed
      cases same
      exact ⟨rfl, different, unapproved, refused⟩

theorem EndsClean.step (clean : EndsClean world) (spared : ¬ Aborts world event)
    (stepped : Stepped config world event next) : EndsClean next := by
  intro row rest failure settling
  cases stepped with
  | call | draining | repeated | debits => exact clean row rest failure settling
  | claimed now idle => exact absurd settling proceed_not_settling
  | reviews clock reply row rest balance settlement final at_await insufficient reaction =>
    cases settling
    cases reaction.escapes.1
  | accepted clock reply body row rest settlement final at_await answer reaction =>
    cases settling
    cases reaction.escapes.1
  | refused clock reply failure row rest settlement final at_await answer permanent reaction =>
    cases settling
    obtain ⟨_, unfailed, unapproved, _⟩ := reaction.escapes
    by_contra others
    apply spared
    simp only [Aborts, at_await]
    exact ⟨others, by simp [refuses, answer, permanent], unapproved, unfailed⟩
  | done now random row rest escaping at_end => exact absurd settling afterSettle_not_settling
  | retries now random row rest message at_end => exact absurd settling proceed_not_settling
  | sends | lost | crash | crashInBatch => cases settling

/-! ## A tick that is cut short -/

theorem AtWork.unsettled {row : ClaimedRow} (atWork : AtWork row db) : ¬ RowSettled row db := by
  intro settled
  obtain ⟨stored, member, own, inflight, _⟩ := atWork
  obtain ⟨other, otherIn, otherOwn, status⟩ := settled
  obtain rfl := db.hcmOutbox.eq_of_key otherIn member (otherOwn.trans own.symm)
  simp [inflight] at status

/-- The failure of `markHcmFailed` leaves `_handleRow` with rows of the batch still to come. -/
theorem Aborts.escapes (aborts : Aborts world event)
    (stepped : World.step config world event = some next) :
    ∃ row rest failure, world.worker = .awaitConsume row rest ∧ rest ≠ [] ∧
      next.worker = .settling row rest (.done (some failure)) ∧ next.db.hcmOutbox = world.db.hcmOutbox := by
  cases event with
  | consumeReply clock reply =>
    simp only [Aborts] at aborts
    split at aborts
    next row rest awaiting =>
      obtain ⟨others, refused, unapproved, unfailed⟩ := aborts
      simp only [World.step, awaiting, Option.some.injEq] at stepped
      cases answer : HcmClient.consumeBalance reply with
      | ok body => simp [refuses, answer] at refused
      | error failure =>
        have permanent : failure.isHcmPermanent = true := by simpa [refuses, answer] using refused
        simp only [onConsume, answer, onError, permanent, if_true] at stepped
        have outcome := markHcmFailed_outcome clock row.requestId failure.message world.db
        generalize markHcmFailed clock row.requestId failure.message world.db = result at outcome stepped
        cases outcome with
        | already other found state =>
          exact absurd (requestState_eq_some.mpr ⟨other, found, state⟩) unfailed
        | moved before after final found state moved =>
          exact absurd (requestState_eq_some.mpr ⟨before, found, state⟩) unapproved
        | threw escaping domain elsewhere elsewhere' =>
          subst stepped
          exact ⟨row, rest, escaping, awaiting, others, rfl, rfl⟩
    next => cases aborts
  | _ => cases aborts

/-- Once the failure is on its way out, the tick ends with the rest of the batch INFLIGHT. -/
theorem left_inflight {events : List Event} {final : World} {row other : ClaimedRow}
    {rest : List ClaimedRow} {failure : Failure}
    (settling : world.worker = .settling row rest (.done (some failure)))
    (atWork : AtWork other world.db) (another : other.id ≠ row.id)
    (during : StepsMeet (World.step config) (DuringTick batch) world events)
    (ran : run (World.step config) world events = some final) (ended : final.worker = .idle) :
    AtWork other final.db := by
  induction events generalizing world with
  | nil =>
    cases ran
    rw [settling] at ended
    cases ended
  | cons event later inductionHypothesis =>
    obtain ⟨next, stepped, ranLater⟩ := run_cons.mp ran
    have duringLater := during.2 next stepped
    cases step_stepped stepped with
    | draining | repeated => exact inductionHypothesis settling atWork duringLater ranLater
    | debits number call found unknown =>
      refine inductionHypothesis ?_ ?_ duringLater ranLater
      · exact settling
      · exact atWork
    | done now random current others escaping at_end =>
      cases settling.symm.trans at_end
      have kept : AtWork other (markDone now row.id world.db) :=
        atWork.kept fun stored member own => updateRow_other member (own ▸ another)
      cases later with
      | nil =>
        cases ranLater
        exact kept
      -- the worker is idle, so the tick is over
      | cons following _ => exact absurd rfl duringLater.1.busy
    | call call yields offered =>
      rw [settling] at yields
      cases yields
    | claimed now idle => cases settling.symm.trans idle
    | sends clock reply current others at_await unknown => cases settling.symm.trans at_await
    | reviews clock reply current others balance settlement final at_await insufficient reaction =>
      cases settling.symm.trans at_await
    | accepted clock reply body current others settlement final at_await answer reaction =>
      cases settling.symm.trans at_await
    | refused clock reply refusal current others settlement final at_await answer permanent reaction =>
      cases settling.symm.trans at_await
    | lost clock reply refusal current others at_await answer transient =>
      cases settling.symm.trans at_await
    | retries now random current others message at_end => cases settling.symm.trans at_end
    | crash => cases during.1
    | crashInBatch clocks rows applied escalations yields => cases during.1

/-- From any point of a tick on: all rows end settled exactly when nothing aborts it. -/
theorem InTick.settles_iff {events : List Event} {final : World} (inTick : InTick batch world)
    (clean : EndsClean world)
    (during : StepsMeet (World.step config) (DuringTick batch) world events)
    (ran : run (World.step config) world events = some final) (ended : final.worker = .idle) :
    (∀ row ∈ batch, RowSettled row final.db) ↔
      StepsMeet (World.step config) (fun world event => ¬ Aborts world event) world events := by
  induction events generalizing world with
  | nil =>
    cases ran
    obtain ⟨handled, split, settled⟩ := inTick.split
    -- the worker holds no row any more
    rw [ended, WorkerState.held, List.append_nil] at split
    simpa [StepsMeet, split] using settled
  | cons event later inductionHypothesis =>
    obtain ⟨next, stepped, ranLater⟩ := run_cons.mp ran
    by_cases aborts : Aborts world event
    · apply iff_of_false
      · obtain ⟨row, rest, failure, awaiting, others, settling, sameOutbox⟩ := aborts.escapes stepped
        have held : world.worker.held = row :: rest := by rw [awaiting]; rfl
        obtain ⟨other, otherIn⟩ := List.exists_mem_of_ne_nil rest others
        obtain ⟨handled, split, _⟩ := inTick.split
        rw [held] at split
        have another : other.id ≠ row.id := inTick.another split other (.inr otherIn)
        have atWork : AtWork other next.db := by
          apply (inTick.atWork other (by rw [held]; exact List.mem_cons_of_mem _ otherIn)).kept
          intro stored member _
          rwa [sameOutbox]
        intro settles
        apply (left_inflight settling atWork another (during.2 next stepped) ranLater ended).unsettled
        apply settles
        rw [split]
        exact List.mem_append_right _ (List.mem_cons_of_mem _ otherIn)
      · intro spared
        exact spared.1 aborts
    · have steps := step_stepped stepped
      have onward := inductionHypothesis (inTick.step clean during.1 steps) (clean.step aborts steps)
        (during.2 next stepped) ranLater
      rw [onward]
      constructor
      · intro spared
        refine ⟨aborts, ?_⟩
        intro other otherStep
        cases stepped.symm.trans otherStep
        exact spared
      · intro spared
        exact spared.2 next stepped

/-! ## The tick as a whole -/

theorem inTick_claimed (now : Int) (idle : world.worker = .idle)
    (claims : World.step config world (.tick now) = some next) :
    InTick next.worker.held next ∧ EndsClean next := by
  simp only [World.step, idle, Option.some.injEq] at claims
  subst claims
  have held : (HcmOutboxWorker.tick config now world.db).1.held =
      (dueRows config now world.db).map OutboxRow.claimed := held_proceed _
  refine ⟨⟨?_, ⟨[], rfl, by simp⟩, ?_⟩, ?_⟩
  · rw [held, List.map_map]
    exact ((dueRows_sublist world.db).map OutboxRow.id).nodup world.db.hcmOutbox.unique
  · intro row member
    rw [held] at member
    obtain ⟨stored, due, rfl⟩ := List.mem_map.mp member
    refine ⟨_, SerialTable.mem_update_of_hit (mem_dueRows due).1 ?_, rfl, rfl, rfl⟩
    exact decide_eq_true (List.mem_map_of_mem due)
  · intro row rest failure settling
    exact absurd settling proceed_not_settling

/-- When a tick has come to its end, every row it claimed is DONE, PENDING with one more attempt or
DEAD exactly if HCM never refused for good, with rows still to come, the consume of a request that
was neither APPROVED nor HCM_FAILED. -/
theorem tick_settles_iff (config : OutboxConfig) (world claimed final : World) (now : Int)
    (events : List Event) (idle : world.worker = .idle)
    (claims : World.step config world (.tick now) = some claimed)
    (during : StepsMeet (World.step config) (DuringTick claimed.worker.held) claimed events)
    (ran : run (World.step config) claimed events = some final) (ended : final.worker = .idle) :
    (∀ row ∈ claimed.worker.held, RowSettled row final.db) ↔
      StepsMeet (World.step config) (fun world event => ¬ Aborts world event) claimed events := by
  obtain ⟨inTick, clean⟩ := inTick_claimed now idle claims
  exact inTick.settles_iff clean during ran ended

namespace Office

/-- Two requests are approved, and the next tick claims both rows. -/
def twoApproved : List Event :=
  [.call (snapshot 20 0), .call (file "r1"), .call (file "r2"), .call (approve "r1" "x1"),
    .call (approve "r2" "x2")]

/-- HCM answers `consumeBalance` with 409. -/
def conflict : Reply Unit := .response 409 "conflict" (.error "")

end Office

/-- The employee cancels the first request before HCM refuses its consume: the second row of the batch
is never handled. -/
theorem refusal_of_cancelled_request_ends_tick :
    ∃ world ∈ run (World.step Office.config) World.empty Office.twoApproved,
      world.worker = .idle ∧
      ∃ claimed ∈ World.step Office.config world (.tick 0),
        let events : List Event := [.balanceReply Office.clock (Office.balance 20),
          .call (Office.cancel "r1"), .consumeReply Office.clock Office.conflict, .settle 0 0]
        StepsMeet (World.step Office.config) (DuringTick claimed.worker.held) claimed events ∧
        ∃ final ∈ run (World.step Office.config) claimed events, final.worker = .idle ∧
          ¬ ∀ row ∈ claimed.worker.held, RowSettled row final.db := by
  decide +kernel

/-- HCM accepts the first consume and refuses the second, whose request is APPROVED. -/
theorem tick_settles_office :
    ∃ claimed final : World, claimed.worker.held.length = 2 ∧
      ∀ row ∈ claimed.worker.held, RowSettled row final.db := by
  let events : List Event := [.balanceReply Office.clock (Office.balance 20),
    .consumeReply Office.clock Office.accepted, .settle 0 0,
    .balanceReply Office.clock (Office.balance 20), .consumeReply Office.clock Office.conflict,
    .settle 0 0]
  have start : ∃ world ∈ run (World.step Office.config) World.empty Office.twoApproved,
      world.worker = .idle ∧ ∃ claimed ∈ World.step Office.config world (.tick 0),
        claimed.worker.held.length = 2 ∧
        StepsMeet (World.step Office.config) (DuringTick claimed.worker.held) claimed events ∧
        StepsMeet (World.step Office.config) (fun world event => ¬ Aborts world event) claimed events ∧
        ∃ final ∈ run (World.step Office.config) claimed events, final.worker = .idle := by
    decide +kernel
  obtain ⟨world, _, idle, claimed, claims, two, during, spared, final, ran, ended⟩ := start
  exact ⟨claimed, final, two, (tick_settles_iff Office.config world claimed final 0 events idle claims
    during ran ended).mpr spared⟩

end TimeOff
