import TimeOff.Verified.Payloads

/-! # The rows of the outbox

No row is lost and none changes what it is about.  A row enters the outbox
only with an approval, and is completed only when the worker settles it.
-/

set_option autoImplicit false

namespace TimeOff

open TimeOff.Lib HcmOutboxService HcmOutboxWorker

/-- The later row is the earlier one, delivered further. -/
structure OutboxRow.Continues (before after : OutboxRow) : Prop where
  id : after.id = before.id
  requestId : after.requestId = before.requestId
  payload : after.payload = before.payload

theorem OutboxRow.Continues.refl (row : OutboxRow) : row.Continues row := ⟨rfl, rfl, rfl⟩

theorem OutboxRow.Continues.patched {hit : OutboxRow → Bool} {change : OutboxRow → OutboxRow}
    (continues : ∀ row : OutboxRow, row.Continues (change row)) (stored : OutboxRow) :
    stored.Continues (patchRow hit change stored) := by
  cases selected : hit stored with
  | true =>
    rw [patchRow_of_hit selected]
    exact continues stored
  | false =>
    rw [patchRow_of_miss selected]
    exact .refl stored

/-! ## What a step does to the outbox -/

/-- The outbox after a step that completes no row: as it was, longer by the row of an approval, or
with rows claimed, rescheduled, given up or reset. -/
inductive OutboxStep (db after : Db) : Prop
  | kept (hcmOutbox : after.hcmOutbox = db.hcmOutbox)
      (approvals : ∀ id, requestState id after = some .approved → requestState id db = some .approved)
  | enqueued (before : RequestRow) (now : Int) (patch : StatePatch)
      (moved : Moved before .approved now patch db after)
  | requeued (hit : OutboxRow → Bool) (change : OutboxRow → OutboxRow)
      (keeps : ∀ row, rowKey (change row) = rowKey row)
      (continues : ∀ row : OutboxRow, row.Continues (change row))
      (unfinished : ∀ row, (change row).status ≠ .done)
      (hcmOutbox : after.hcmOutbox = db.hcmOutbox.update hit change keeps)
      (requests : after.requests = db.requests)

variable {config : OutboxConfig} {world next : World} {event : Event} {db after : Db}

theorem OutboxStep.same (db : Db) : OutboxStep db db := .kept rfl fun _ approved => approved

theorem outboxStep_update (db : Db) (hit : OutboxRow → Bool) (change : OutboxRow → OutboxRow)
    (keeps : ∀ row, rowKey (change row) = rowKey row)
    (continues : ∀ row : OutboxRow, row.Continues (change row))
    (unfinished : ∀ row, (change row).status ≠ .done) :
    OutboxStep db { db with hcmOutbox := db.hcmOutbox.update hit change keeps } :=
  .requeued hit change keeps continues unfinished rfl rfl

theorem Healed.outboxStep {results : List SnapshotResult} (healed : Healed db results after) :
    OutboxStep db after := by
  refine .kept healed.hcmOutbox ?_
  intro id approved
  obtain same | ⟨_, reviewed⟩ := healed.requestState_after id
  · exact same.symm.trans approved
  · cases reviewed.symm.trans approved

/-- A move to another state than APPROVED leaves the outbox alone. -/
theorem Moved.outboxStep {before : RequestRow} {toState : State} {now : Int} {patch : StatePatch}
    (moved : Moved before toState now patch db after) (unapproved : toState ≠ .approved) :
    OutboxStep db after := by
  refine .kept (moved.unqueued unapproved).2 ?_
  intro id approved
  rw [moved.requestState_after id] at approved
  split at approved
  · exact absurd (Option.some.inj approved) unapproved
  · exact approved

theorem Reaction.outboxStep {row : ClaimedRow} {final : Db} {toState : State} {settlement : Settlement}
    (reaction : Reaction row db toState settlement final) (unapproved : toState ≠ .approved) :
    OutboxStep db final := by
  cases reaction with
  | moved before now patch final found state moved => exact moved.outboxStep unapproved
  | already state => exact .same db
  | elsewhere settlement ends different elsewhere => exact .same db

theorem Offered.outboxStep {call : Call} (offered : Offered db call after) : OutboxStep db after := by
  cases offered with
  | filed clock ids actor input row after filed =>
    refine .kept filed.hcmOutbox ?_
    intro id approved
    rw [filed.requestState_after id] at approved
    split at approved
    · cases approved
    · exact approved
  | approved clock newId actor requestId before patch after found moved =>
    exact .enqueued before clock.now patch moved
  | rejected clock actor requestId reason before patch after found decides moved =>
    exact moved.outboxStep (by simp)
  | cancelled clock actor requestId before patch after found may moved =>
    exact moved.outboxStep (by simp)
  | healed call after healed => exact healed.outboxStep
  | reset id =>
    exact outboxStep_update _ _ _ _ (fun _ => ⟨rfl, rfl, rfl⟩) fun _ => by simp
  | unchanged call => exact .same db

theorem scheduleRetry_outboxStep (now : Int) (random : ℚ) (id : Nat) (message : String) (db : Db) :
    OutboxStep db (scheduleRetry config now random id message db) := by
  obtain ⟨_, same⟩ | ⟨change, keeps, rescheduled, same⟩ := scheduleRetry_cases config now random id message db
  · rw [same]
    exact .same db
  · rw [same]
    apply outboxStep_update
    · intro row
      exact ⟨keeps row, (rescheduled row).requestId, (rescheduled row).payload⟩
    · intro row
      cases (rescheduled row).status with
      | inl pending => simp [pending]
      | inr dead => simp [dead]

/-- Only the worker completes a row, the one at hand when it settles it as done. -/
theorem Stepped.outboxStep (stepped : Stepped config world event next) :
    OutboxStep world.db next.db ∨ ∃ row rest escaping now,
      world.worker = .settling row rest (.done escaping) ∧ next.db = markDone now row.id world.db := by
  cases stepped with
  | done now random row rest escaping at_end => exact .inr ⟨row, rest, escaping, now, at_end, rfl⟩
  | call call yields offered => exact .inl (call.offered_exec offered world.db).outboxStep
  | claimed now idle =>
    exact .inl (outboxStep_update _ _ _ _ (fun _ => ⟨rfl, rfl, rfl⟩) fun _ => by simp)
  | reviews clock reply row rest balance settlement final at_await insufficient reaction =>
    exact .inl (reaction.outboxStep (by simp))
  | accepted clock reply body row rest settlement final at_await answer reaction =>
    exact .inl (reaction.outboxStep (by simp))
  | refused clock reply failure row rest settlement final at_await answer permanent reaction =>
    exact .inl (reaction.outboxStep (by simp))
  | retries now random row rest message at_end =>
    exact .inl (scheduleRetry_outboxStep now random row.id message world.db)
  | crashInBatch clocks batch rows escalations yields =>
    obtain ⟨_, healed⟩ := interruptedBatch_healed clocks batch rows escalations world.db
    exact .inl healed.outboxStep
  | draining | sends | repeated | debits | lost | crash => exact .inl (.same world.db)

theorem mem_update {hit : OutboxRow → Bool} {change : OutboxRow → OutboxRow}
    {keeps : ∀ row, rowKey (change row) = rowKey row} {stored : OutboxRow}
    (member : stored ∈ db.hcmOutbox.rows)
    (hcmOutbox : after.hcmOutbox = db.hcmOutbox.update hit change keeps) :
    patchRow hit change stored ∈ after.hcmOutbox.rows := by
  rw [hcmOutbox]
  exact List.mem_map_of_mem member

/-- A row that is not done goes on and is still not done. -/
theorem OutboxStep.unfinished (outboxStep : OutboxStep db after) {stored : OutboxRow}
    (member : stored ∈ db.hcmOutbox.rows) :
    ∃ later ∈ after.hcmOutbox.rows, stored.Continues later ∧
      (stored.status ≠ .done → later.status ≠ .done) := by
  cases outboxStep with
  | kept hcmOutbox approvals =>
    exact ⟨stored, by rw [hcmOutbox]; exact member, .refl stored, fun unfinished => unfinished⟩
  | enqueued before now patch moved =>
    obtain ⟨_, _, _, _, enqueued⟩ := moved.enqueued rfl
    exact ⟨stored, by rw [enqueued]; exact List.mem_append_left _ member, .refl stored,
      fun unfinished => unfinished⟩
  | requeued hit change keeps continues unfinished hcmOutbox requests =>
    refine ⟨_, mem_update member hcmOutbox, .patched continues stored, ?_⟩
    intro notDone
    cases selected : hit stored with
    | true =>
      rw [patchRow_of_hit selected]
      exact unfinished stored
    | false =>
      rw [patchRow_of_miss selected]
      exact notDone

theorem Stepped.continues (stepped : Stepped config world event next) {stored : OutboxRow}
    (member : stored ∈ world.db.hcmOutbox.rows) :
    ∃ later ∈ next.db.hcmOutbox.rows, stored.Continues later := by
  obtain outboxStep | ⟨row, _, _, now, _, same⟩ := stepped.outboxStep
  · obtain ⟨later, laterIn, continues, _⟩ := outboxStep.unfinished member
    exact ⟨later, laterIn, continues⟩
  · rw [same]
    exact ⟨_, mem_update member rfl, .patched (by exact fun _ => ⟨rfl, rfl, rfl⟩) stored⟩

/-! ## The rows that the worker holds -/

theorem mem_dueRows {now : Int} {row : OutboxRow} (due : row ∈ dueRows config now db) :
    row ∈ db.hcmOutbox.rows ∧ row.status = .pending ∧ row.nextAttemptAt ≤ now := by
  simp only [dueRows] at due
  have filtered : row ∈ db.hcmOutbox.rows.filter
      fun row => row.status = .pending ∧ row.nextAttemptAt ≤ now := by
    split at due
    · exact due
    · exact List.mem_of_mem_take due
  obtain ⟨member, selected⟩ := List.mem_filter.mp filtered
  exact ⟨member, of_decide_eq_true selected⟩

theorem dueRows_sublist {now : Int} (db : Db) : (dueRows config now db).Sublist db.hcmOutbox.rows := by
  unfold dueRows
  dsimp only
  split
  · exact List.filter_sublist
  · exact (List.take_sublist _ _).trans List.filter_sublist

@[simp] theorem held_proceed (rows : List ClaimedRow) : (proceed rows).held = rows := by
  cases rows with
  | nil => rfl
  | cons row rest => rfl

theorem afterSettle_held (rest : List ClaimedRow) (settlement : Settlement) :
    (afterSettle rest settlement).held.Sublist rest := by
  simp only [afterSettle]
  split
  · exact List.nil_sublist _
  · rw [held_proceed]

theorem proceed_not_settling {rows rest : List ClaimedRow} {row : ClaimedRow} {settlement : Settlement} :
    proceed rows ≠ .settling row rest settlement := by
  cases rows <;> simp [proceed]

theorem afterSettle_not_settling {rows rest : List ClaimedRow} {row : ClaimedRow}
    {ended settlement : Settlement} : afterSettle rows ended ≠ .settling row rest settlement := by
  simp only [afterSettle]
  split
  · simp
  · exact proceed_not_settling

/-- The worker holds rows that it held, or has just claimed from the outbox. -/
theorem Stepped.held (stepped : Stepped config world event next) {row : ClaimedRow}
    (member : row ∈ next.worker.held) :
    row ∈ world.worker.held ∨ ∃ stored ∈ world.db.hcmOutbox.rows, row = stored.claimed := by
  cases stepped with
  | call | draining | repeated | debits => exact .inl member
  | claimed now idle =>
    rw [held_proceed] at member
    obtain ⟨stored, due, rfl⟩ := List.mem_map.mp member
    exact .inr ⟨stored, (mem_dueRows due).1, rfl⟩
  | sends clock reply row rest at_await unknown =>
    rw [at_await]
    exact .inl member
  | reviews clock reply row rest balance settlement final at_await insufficient reaction =>
    rw [at_await]
    exact .inl member
  | accepted clock reply body row rest settlement final at_await answer reaction =>
    rw [at_await]
    exact .inl member
  | refused clock reply failure row rest settlement final at_await answer permanent reaction =>
    rw [at_await]
    exact .inl member
  | lost clock reply failure row rest at_await answer transient =>
    rw [at_await]
    exact .inl member
  | done now random row rest escaping at_end =>
    rw [at_end]
    exact .inl (List.mem_cons_of_mem _ ((afterSettle_held rest _).subset member))
  | retries now random row rest message at_end =>
    rw [held_proceed] at member
    rw [at_end]
    exact .inl (List.mem_cons_of_mem _ member)
  | crash | crashInBatch => cases member

/-- The claimed row is a copy of the stored one. -/
structure ClaimedRow.Of (row : ClaimedRow) (stored : OutboxRow) : Prop where
  id : stored.id = row.id
  requestId : stored.requestId = row.requestId
  payload : stored.payload = row.payload

/-- Every row that the worker holds is stored. -/
def HeldStored (world : World) : Prop :=
  ∀ row ∈ world.worker.held, ∃ stored ∈ world.db.hcmOutbox.rows, row.Of stored

theorem HeldStored.empty : HeldStored World.empty := by
  simp [HeldStored, World.empty, WorkerState.held]

theorem HeldStored.step (heldStored : HeldStored world) (stepped : Stepped config world event next) :
    HeldStored next := by
  have goesOn : ∀ (row : ClaimedRow) (stored : OutboxRow), stored ∈ world.db.hcmOutbox.rows →
      row.Of stored → ∃ later ∈ next.db.hcmOutbox.rows, row.Of later := by
    intro row stored member copy
    obtain ⟨later, laterIn, continues⟩ := stepped.continues member
    exact ⟨later, laterIn, continues.id.trans copy.id, continues.requestId.trans copy.requestId,
      continues.payload.trans copy.payload⟩
  intro row member
  -- a row held before has gone on in the table; a row just claimed is a copy of one that has
  obtain old | ⟨stored, storedIn, rfl⟩ := stepped.held member
  · obtain ⟨stored, storedIn, copy⟩ := heldStored row old
    exact goesOn row stored storedIn copy
  · exact goesOn _ stored storedIn ⟨rfl, rfl, rfl⟩

end TimeOff
