import TimeOff.Lib.Runs
import TimeOff.Verified.OutboxRows

/-! # Approvals and their outbox rows

A history variable counts how often each request entered APPROVED and keeps the
outbox row of the latest time.  Rows and approvals correspond one to one, and
the worker settles a row as done only when its request has left APPROVED.
-/

set_option autoImplicit false

namespace TimeOff

open TimeOff.Lib HcmOutboxService HcmOutboxWorker

/-- How often a request entered APPROVED, and the id of the row enqueued by the latest time. -/
structure Approvals where
  entered : Nat
  latest : Option Nat
deriving DecidableEq

def noApprovals (_ : String) : Approvals := ⟨0, none⟩

/-- The newest row of the outbox. -/
def newestRow (db : Db) : Option Nat := db.hcmOutbox.rows.getLast?.map OutboxRow.id

def recordApprovals (approvals : String → Approvals) (world : World) (_ : Event) (next : World)
    (id : String) : Approvals :=
  if requestState id world.db ≠ some .approved ∧ requestState id next.db = some .approved then
    ⟨(approvals id).entered + 1, newestRow next.db⟩
  else approvals id

/-- The outbox rows of the request. -/
def rowsOf (id : String) (db : Db) : List OutboxRow :=
  db.hcmOutbox.rows.filter fun row => row.requestId = id

variable {config : OutboxConfig} {world next : World} {event : Event} {db after : Db}

/-! ## When the worker settles a row as done -/

/-- The request whose row is about to be done is not waiting in APPROVED. -/
def Resolved (world : World) : Prop :=
  ∀ row rest escaping, world.worker = .settling row rest (.done escaping) →
    requestState row.requestId world.db ≠ some .approved

theorem Resolved.step (resolved : Resolved world) (stepped : Stepped config world event next) :
    Resolved next := by
  intro row rest escaping settling
  cases stepped with
  | call call yields offered =>
    dsimp only at settling
    rw [settling] at yields
    cases yields
  | claimed now idle => exact absurd settling proceed_not_settling
  | reviews clock reply held rest balance settlement final at_await insufficient reaction =>
    cases settling
    exact reaction.resolved (by simp)
  | accepted clock reply body held rest settlement final at_await answer reaction =>
    cases settling
    exact reaction.resolved (by simp)
  | refused clock reply failure held rest settlement final at_await answer permanent reaction =>
    cases settling
    exact reaction.resolved (by simp)
  | done => exact absurd settling afterSettle_not_settling
  | retries => exact absurd settling proceed_not_settling
  | draining | repeated | debits => exact resolved row rest escaping settling
  | sends | lost | crash | crashInBatch => cases settling

/-! ## Counting rows -/

theorem rowsOf_kept (same : after.hcmOutbox = db.hcmOutbox) (id : String) :
    rowsOf id after = rowsOf id db := by
  simp only [rowsOf]
  rw [same]

theorem rowsOf_enqueued {before : RequestRow} {now : Int} {patch : StatePatch}
    (moved : Moved before .approved now patch db after) (id : String) :
    (rowsOf id after).length = (rowsOf id db).length + if before.id = id then 1 else 0 := by
  obtain ⟨externalRequestId, _, _, _, enqueued⟩ := moved.enqueued rfl
  simp only [rowsOf]
  rw [enqueued, SerialTable.rows_append, List.filter_append, List.length_append]
  congr 1
  by_cases own : before.id = id
  · simp [RequestRow.outboxRow, own]
  · simp [RequestRow.outboxRow, own]

theorem rowsOf_updated {hit : OutboxRow → Bool} {change : OutboxRow → OutboxRow}
    {keeps : ∀ row, rowKey (change row) = rowKey row}
    (continues : ∀ row : OutboxRow, row.Continues (change row))
    (hcmOutbox : after.hcmOutbox = db.hcmOutbox.update hit change keeps) (id : String) :
    (rowsOf id after).length = (rowsOf id db).length := by
  simp only [rowsOf]
  rw [hcmOutbox, SerialTable.rows_update, List.filter_map, List.length_map]
  congr 1
  refine List.filter_congr fun row _ => ?_
  unfold Function.comp patchRow
  dsimp only
  split
  · rw [(continues row).requestId]
  · rfl

/-! ## The invariant -/

/-- The request's rows are its approvals, and while it is APPROVED the row of the latest is not
done. -/
def ApprovalKept (world : World) (approvals : String → Approvals) (id : String) : Prop :=
  (rowsOf id world.db).length = (approvals id).entered ∧
    (requestState id world.db = some .approved → ∃ row ∈ world.db.hcmOutbox.rows,
      (approvals id).latest = some row.id ∧ row.requestId = id ∧ row.status ≠ .done)

/-- An approval adds the request's row. -/
theorem ApprovalKept.enqueued {approvals : String → Approvals} {before : RequestRow} {now : Int}
    {patch : StatePatch} {id : String} (kept : ApprovalKept world approvals id)
    (moved : Moved before .approved now patch world.db next.db) :
    ApprovalKept next (recordApprovals approvals world event next) id := by
  obtain ⟨count, latest⟩ := kept
  obtain ⟨externalRequestId, _, _, _, enqueued⟩ := moved.enqueued rfl
  have wasNot : before.state ≠ .approved := by
    cases canTransition_approved.mp moved.legal with
    | inl pending => simp [pending]
    | inr review => simp [review]
  simp only [ApprovalKept, recordApprovals]
  rw [rowsOf_enqueued moved id, moved.requestState_after id]
  by_cases own : id = before.id
  -- the request itself: one more approval and one more row, the newest
  · have entered : requestState id world.db ≠ some .approved := by
      rw [own, moved.requestState_before]
      exact fun same => wasNot (Option.some.inj same)
    rw [if_pos own.symm, if_pos own, if_pos ⟨entered, rfl⟩, count]
    refine ⟨rfl, fun _ => ⟨before.outboxRow externalRequestId now (world.db.hcmOutbox.lastId + 1), ?_⟩⟩
    refine ⟨by rw [enqueued]; simp, ?_, own.symm, by simp [RequestRow.outboxRow]⟩
    simp only [newestRow]
    rw [enqueued, SerialTable.rows_append, List.getLast?_append]
    simp
  -- any other request keeps its rows, and its history
  · rw [if_neg (Ne.symm own), if_neg own, if_neg (fun both => both.1 both.2), count]
    refine ⟨rfl, fun approved => ?_⟩
    obtain ⟨row, member, isLatest, rowOwn, unfinished⟩ := latest approved
    exact ⟨row, by rw [enqueued]; exact List.mem_append_left _ member, isLatest, rowOwn, unfinished⟩

/-- Where no request is newly approved, its history is unchanged. -/
theorem recordApprovals_same {approvals : String → Approvals} {id : String}
    (approvedBefore : requestState id next.db = some .approved →
      requestState id world.db = some .approved) :
    recordApprovals approvals world event next id = approvals id := by
  simp only [recordApprovals]
  rw [if_neg]
  rintro ⟨entered, approved⟩
  exact entered (approvedBefore approved)

theorem ApprovalKept.step {approvals : String → Approvals} {id : String}
    (kept : ApprovalKept world approvals id) (resolved : Resolved world) (heldStored : HeldStored world)
    (stepped : Stepped config world event next) :
    ApprovalKept next (recordApprovals approvals world event next) id := by
  obtain outboxStep | ⟨settled, rest, escaping, now, settling, same⟩ := stepped.outboxStep
  · have goesOn : ∀ row ∈ world.db.hcmOutbox.rows, ∃ later ∈ next.db.hcmOutbox.rows,
        row.Continues later ∧ (row.status ≠ .done → later.status ≠ .done) :=
      fun row member => outboxStep.unfinished member
    cases outboxStep with
    | kept hcmOutbox unchanged =>
      rw [ApprovalKept, recordApprovals_same (unchanged id), rowsOf_kept hcmOutbox, hcmOutbox]
      exact ⟨kept.1, fun approved => kept.2 (unchanged id approved)⟩
    | enqueued before now patch moved => exact kept.enqueued moved
    | requeued hit change keeps continues unfinished hcmOutbox requests =>
      have unchanged : requestState id next.db = requestState id world.db :=
        requestState_congr requests id
      rw [ApprovalKept, recordApprovals_same (fun approved => unchanged ▸ approved),
        rowsOf_updated continues hcmOutbox, unchanged]
      refine ⟨kept.1, fun approved => ?_⟩
      obtain ⟨row, member, isLatest, own, unfinishedRow⟩ := kept.2 approved
      obtain ⟨later, laterIn, same, stillUnfinished⟩ := goesOn row member
      exact ⟨later, laterIn, by rw [same.id]; exact isLatest, same.requestId.trans own,
        stillUnfinished unfinishedRow⟩
  · have unchanged : requestState id next.db = requestState id world.db := by
      rw [same]
      rfl
    rw [ApprovalKept, recordApprovals_same (fun approved => unchanged ▸ approved), unchanged, same]
    refine ⟨(rowsOf_updated (by exact fun _ => ⟨rfl, rfl, rfl⟩) rfl id).trans kept.1, fun approved => ?_⟩
    obtain ⟨row, member, isLatest, own, unfinished⟩ := kept.2 approved
    -- the row settled belongs to a request that is not waiting, so it is another one
    have another : row.id ≠ settled.id := by
      intro sameId
      obtain ⟨stored, storedIn, copy⟩ := heldStored settled (by simp [settling, WorkerState.held])
      have rowStored : row = stored :=
        world.db.hcmOutbox.eq_of_key member storedIn (sameId.trans copy.id.symm)
      rw [← own, rowStored, copy.requestId] at approved
      exact resolved settled rest escaping settling approved
    exact ⟨row, SerialTable.mem_update_of_miss member (decide_eq_false another), isLatest, own, unfinished⟩

/-- What the count of the rows rests on. -/
structure Counted (state : World × (String → Approvals)) : Prop where
  kept : ∀ id, ApprovalKept state.1 state.2 id
  resolved : Resolved state.1
  heldStored : HeldStored state.1

theorem Counted.empty : Counted (World.empty, noApprovals) := by
  refine ⟨?_, ?_, .empty⟩
  · intro id
    exact ⟨rfl, fun approved => by cases approved⟩
  · intro row rest escaping settling
    cases settling

theorem Counted.step {approvals : String → Approvals} (counted : Counted (world, approvals))
    (stepped : Stepped config world event next) :
    Counted (next, recordApprovals approvals world event next) where
  kept id := (counted.kept id).step counted.resolved counted.heldStored stepped
  resolved := counted.resolved.step stepped
  heldStored := counted.heldStored.step stepped

/-- In every state of every run, the outbox rows of a request are as many as its approvals, while the
request is APPROVED the row of its latest approval is not DONE, and a row that the worker is about to
make DONE is of a request that is not APPROVED. -/
theorem approvals_kept (config : OutboxConfig) (events : List Event) :
    Always (withHistory (World.step config) recordApprovals)
      (fun state => (∀ id, ApprovalKept state.1 state.2 id) ∧ Resolved state.1)
      (World.empty, noApprovals) events := by
  have counted : Always (withHistory (World.step config) recordApprovals) Counted
      (World.empty, noApprovals) events := by
    refine always_of_invariant Counted ?_ .empty events
    rintro ⟨world, approvals⟩ event ⟨next, recorded⟩ counted ran
    obtain ⟨ranWorld, history⟩ := withHistory_eq_some.mp ran
    dsimp only at ranWorld history
    subst history
    exact counted.step (step_stepped ranWorld)
  exact counted.mono fun _ holds => ⟨holds.kept, holds.resolved⟩

end TimeOff
