import TimeOff.Lib.Runs
import TimeOff.Verified.OutboxRows

/-! # Crash and restart

Starting the service again claims and frees nothing: a row that was INFLIGHT
when the process died stays INFLIGHT, and no statement selects it.  So the
outbox recovers exactly when no row was INFLIGHT.
-/

set_option autoImplicit false

namespace TimeOff

open TimeOff.Lib HcmOutboxService HcmOutboxWorker

/-- Every row that is INFLIGHT is in the hands of the worker. -/
def NoneStranded (world : World) : Prop :=
  ∀ stored ∈ world.db.hcmOutbox.rows, stored.status = .inflight →
    ∃ row ∈ world.worker.held, row.id = stored.id

instance : DecidablePred NoneStranded := fun world =>
  inferInstanceAs (Decidable (∀ stored ∈ world.db.hcmOutbox.rows, _))

def NoneInflight (world : World) : Prop :=
  ∀ stored ∈ world.db.hcmOutbox.rows, stored.status ≠ .inflight

instance : DecidablePred NoneInflight := fun world =>
  inferInstanceAs (Decidable (∀ stored ∈ world.db.hcmOutbox.rows, _))

/-- Every row of `world` that is neither DONE nor DEAD is PENDING in `restarted`. -/
def LiveRowsPending (world restarted : World) : Prop :=
  ∀ stored ∈ world.db.hcmOutbox.rows, stored.status ≠ .done → stored.status ≠ .dead →
    ∃ later ∈ restarted.db.hcmOutbox.rows, later.id = stored.id ∧ later.status = .pending

instance (world restarted : World) : Decidable (LiveRowsPending world restarted) :=
  inferInstanceAs (Decidable (∀ stored ∈ world.db.hcmOutbox.rows, _))

/-- No process dies while a row is INFLIGHT, and no failure ends a tick while another row of its batch
is. -/
def StopsClean (world : World) : Event → Prop
  | .crash => NoneInflight world
  | .crashInBatch .. => world.worker.yields = true → NoneInflight world
  | .settle .. =>
    match world.worker with
    | .settling row _ (.done (some _)) =>
      ∀ stored ∈ world.db.hcmOutbox.rows, stored.status = .inflight → stored.id = row.id
    | _ => True
  | _ => True

variable {config : OutboxConfig} {world next : World} {event : Event} {db after : Db}

/-! ## Where INFLIGHT rows come from -/

/-- A row that is INFLIGHT after an update which leaves none so is one that the update missed. -/
theorem updateRow_inflight {id : Nat} {change : OutboxRow → OutboxRow}
    {keeps : ∀ row, (change row).id = row.id} {stored : OutboxRow}
    (lands : ∀ row, (change row).status ≠ .inflight)
    (member : stored ∈ (updateRow id change keeps db).hcmOutbox.rows)
    (inflight : stored.status = .inflight) : stored ∈ db.hcmOutbox.rows ∧ stored.id ≠ id := by
  obtain ⟨old, oldIn, ⟨_, rfl⟩ | ⟨missed, rfl⟩⟩ := SerialTable.exists_of_mem_update member
  · exact absurd inflight (lands old)
  · exact ⟨oldIn, of_decide_eq_false missed⟩

theorem Offered.inflight {call : Call} (offered : Offered db call after) {stored : OutboxRow}
    (member : stored ∈ after.hcmOutbox.rows) (inflight : stored.status = .inflight) :
    stored ∈ db.hcmOutbox.rows := by
  cases offered with
  | filed clock ids actor input row after filed =>
    rw [filed.hcmOutbox] at member
    exact member
  | approved clock newId actor requestId before patch after found moved =>
    obtain ⟨_, _, _, _, enqueued⟩ := moved.enqueued rfl
    rw [enqueued] at member
    cases List.mem_append.mp member with
    | inl old => exact old
    | inr new =>
      rw [List.mem_singleton.mp new] at inflight
      cases inflight
  | rejected clock actor requestId reason before patch after found decides moved =>
    rw [(moved.unqueued (by simp)).2] at member
    exact member
  | cancelled clock actor requestId before patch after found may moved =>
    rw [(moved.unqueued (by simp)).2] at member
    exact member
  | healed call after healed =>
    rw [healed.hcmOutbox] at member
    exact member
  | reset id => exact (updateRow_inflight (by simp) member inflight).1
  | unchanged call => exact member

theorem Reaction.hcmOutbox {row : ClaimedRow} {final : Db} {toState : State} {settlement : Settlement}
    (reaction : Reaction row db toState settlement final) (unapproved : toState ≠ .approved) :
    final.hcmOutbox = db.hcmOutbox := by
  cases reaction with
  | moved before now patch final found state moved => exact (moved.unqueued unapproved).2
  | already state => rfl
  | elsewhere settlement ends different elsewhere => rfl

theorem markDone_inflight {now : Int} {id : Nat} {stored : OutboxRow}
    (member : stored ∈ (markDone now id db).hcmOutbox.rows) (inflight : stored.status = .inflight) :
    stored ∈ db.hcmOutbox.rows ∧ stored.id ≠ id :=
  updateRow_inflight (by simp) member inflight

theorem scheduleRetry_inflight {now : Int} {random : ℚ} {id : Nat} {message : String}
    {stored : OutboxRow}
    (member : stored ∈ (scheduleRetry config now random id message db).hcmOutbox.rows)
    (inflight : stored.status = .inflight) : stored ∈ db.hcmOutbox.rows ∧ stored.id ≠ id := by
  obtain ⟨absent, same⟩ | ⟨change, keeps, rescheduled, same⟩ :=
    scheduleRetry_cases config now random id message db
  · rw [same] at member
    exact ⟨member, Table.find?_eq_none.mp absent stored member⟩
  · rw [same] at member
    refine updateRow_inflight ?_ member inflight
    intro row
    cases (rescheduled row).status with
    | inl pending => simp [pending]
    | inr dead => simp [dead]

/-! ## One step -/

theorem NoneStranded.rest {row : ClaimedRow} {rest : List ClaimedRow} {settlement : Settlement}
    {stored : OutboxRow} (none : NoneStranded world)
    (settling : world.worker = .settling row rest settlement)
    (member : stored ∈ world.db.hcmOutbox.rows) (inflight : stored.status = .inflight)
    (another : stored.id ≠ row.id) : ∃ other ∈ rest, other.id = stored.id := by
  obtain ⟨other, held, same⟩ := none stored member inflight
  rw [settling] at held
  obtain rfl | later := List.mem_cons.mp held
  · exact absurd same.symm another
  · exact ⟨other, later, same⟩

theorem NoneStranded.step (none : NoneStranded world) (clean : StopsClean world event)
    (stepped : Stepped config world event next) : NoneStranded next := by
  intro stored member inflight
  cases stepped with
  | call call yields offered =>
    exact none stored ((call.offered_exec offered world.db).inflight member inflight) inflight
  | claimed now idle =>
    rw [held_proceed]
    obtain ⟨old, oldIn, ⟨selected, rfl⟩ | ⟨_, rfl⟩⟩ := SerialTable.exists_of_mem_update member
    · obtain ⟨due, dueIn, same⟩ := List.mem_map.mp (of_decide_eq_true selected)
      exact ⟨due.claimed, List.mem_map_of_mem dueIn, same⟩
    · obtain ⟨row, held, _⟩ := none stored oldIn inflight
      rw [idle] at held
      cases held
  | draining | repeated | debits => exact none stored member inflight
  | sends clock reply row rest at_await unknown =>
    have held := none stored member inflight
    rwa [at_await] at held
  | reviews clock reply row rest balance settlement final at_await insufficient reaction =>
    have held := none stored (reaction.hcmOutbox (by simp) ▸ member) inflight
    rwa [at_await] at held
  | accepted clock reply body row rest settlement final at_await answer reaction =>
    have held := none stored (reaction.hcmOutbox (by simp) ▸ member) inflight
    rwa [at_await] at held
  | refused clock reply failure row rest settlement final at_await answer permanent reaction =>
    have held := none stored (reaction.hcmOutbox (by simp) ▸ member) inflight
    rwa [at_await] at held
  | lost clock reply failure row rest at_await answer transient =>
    have held := none stored member inflight
    rwa [at_await] at held
  | done now random row rest escaping at_end =>
    obtain ⟨old, another⟩ := markDone_inflight member inflight
    cases escaping with
    -- the tick goes on with the rest of the batch
    | none =>
      obtain ⟨other, later, same⟩ := none.rest at_end old inflight another
      refine ⟨other, ?_, same⟩
      change other ∈ (proceed rest).held
      rwa [held_proceed]
    -- the tick ends here, and the rest of the batch is let go
    | some failure =>
      simp only [StopsClean, at_end] at clean
      exact absurd (clean stored old inflight) another
  | retries now random row rest message at_end =>
    obtain ⟨old, another⟩ := scheduleRetry_inflight member inflight
    rw [held_proceed]
    exact none.rest at_end old inflight another
  | crash => exact absurd inflight (clean stored member)
  | crashInBatch clocks batch rows escalations yields =>
    obtain ⟨_, healed⟩ := interruptedBatch_healed clocks batch rows escalations world.db
    exact absurd inflight (clean yields stored (healed.hcmOutbox ▸ member))

theorem noneStranded_idle {db : Db} {sent : List Consume} {acknowledged : List ClaimedRow}
    {debits : List Consume} : NoneStranded ⟨db, .idle, sent, acknowledged, debits⟩ ↔
      ∀ stored ∈ db.hcmOutbox.rows, stored.status ≠ .inflight := by
  simp [NoneStranded, WorkerState.held]

/-- A step strands no row exactly if it is no unclean stop. -/
theorem noneStranded_step_iff (none : NoneStranded world) :
    (∀ next, World.step config world event = some next → NoneStranded next) ↔
      StopsClean world event := by
  constructor
  · intro kept
    cases event with
    | crash => exact noneStranded_idle.mp (kept _ rfl)
    | crashInBatch clocks batch rows escalations =>
      intro yields stored member
      have clean := noneStranded_idle.mp (kept _ (if_pos yields))
      obtain ⟨_, healed⟩ := interruptedBatch_healed clocks batch rows escalations world.db
      exact clean stored (healed.hcmOutbox.symm ▸ member)
    | settle now random =>
      unfold StopsClean
      dsimp only
      split
      next row rest failure settling =>
        intro stored member inflight
        -- the worker is idle after the step, so another INFLIGHT row would be in nobody's hands
        by_contra another
        have stays : stored ∈ (markDone now row.id world.db).hcmOutbox.rows :=
          SerialTable.mem_update_of_miss member (decide_eq_false another)
        have clean := noneStranded_idle.mp (kept _ (by simp only [World.step, settling]; rfl))
        exact clean stored stays inflight
      next => trivial
    | _ => trivial
  · intro clean next stepped
    exact none.step clean (step_stepped stepped)

/-! ## Crash, restart and what follows -/

theorem liveRowsPending_iff {worker : WorkerState} :
    LiveRowsPending world { world with worker := worker } ↔ NoneInflight world := by
  constructor
  · intro pending stored member inflight
    obtain ⟨later, laterIn, same, isPending⟩ :=
      pending stored member (by simp [inflight]) (by simp [inflight])
    rw [world.db.hcmOutbox.eq_of_key laterIn member same, inflight] at isPending
    cases isPending
  · intro none stored member unfinished alive
    refine ⟨stored, member, rfl, ?_⟩
    cases status : stored.status with
    | pending => rfl
    | inflight => exact absurd status (none stored member)
    | done => exact absurd status unfinished
    | dead => exact absurd status alive

/-- After a crash and a restart all live rows are PENDING, and no row is stranded from then on, exactly
when no row was INFLIGHT at the crash and nothing later stops uncleanly. -/
theorem crash_recovers_iff (config : OutboxConfig) (world : World) (later : List Event) :
    (∀ restarted, World.step config world .crash = some restarted →
      LiveRowsPending world restarted ∧ Always (World.step config) NoneStranded restarted later) ↔
    NoneInflight world ∧
      StepsMeet (World.step config) StopsClean { world with worker := .idle } later := by
  have run : NoneInflight world → (Always (World.step config) NoneStranded
      { world with worker := .idle } later ↔
        StepsMeet (World.step config) StopsClean { world with worker := .idle } later) := by
    intro none
    exact always_iff_stepsMeet (fun _ => True) NoneStranded (fun _ _ _ _ _ => trivial)
      (fun _ _ _ holds => noneStranded_step_iff holds) trivial (noneStranded_idle.mpr none)
  constructor
  · intro recovers
    obtain ⟨pending, always⟩ := recovers _ rfl
    have none := liveRowsPending_iff.mp pending
    exact ⟨none, (run none).mp always⟩
  · rintro ⟨none, clean⟩ restarted stepped
    cases stepped
    exact ⟨liveRowsPending_iff.mpr none, (run none).mpr clean⟩

/-- A crash right after `claimDue` strands the row: it is INFLIGHT ever after. -/
theorem crash_strands_claimed_row : ∃ world restarted,
    run (World.step Office.config) World.empty Office.claimed = some world ∧
    World.step Office.config world .crash = some restarted ∧ ¬ LiveRowsPending world restarted := by
  have stranded : (run (World.step Office.config) World.empty Office.claimed).any
      (fun world => !decide (LiveRowsPending world { world with worker := .idle })) = true := by
    decide +kernel
  obtain ⟨world, ran, fails⟩ := (Option.any_eq_true _ _).mp stranded
  exact ⟨world, { world with worker := .idle }, ran, rfl, by simpa using fails⟩

end TimeOff
