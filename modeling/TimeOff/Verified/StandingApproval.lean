import TimeOff.Lib.Runs
import TimeOff.Verified.CrashRecovery
import TimeOff.Verified.Coherence

/-! # Consume calls and standing approvals

The worker sends the payload it claimed without looking at the request again.
So the request of a row stands in APPROVED when its consume call is sent as long
as no request leaves APPROVED, and none gets a second row, while its row is
queued or at hand.
-/

set_option autoImplicit false

namespace TimeOff

open TimeOff.Lib HcmOutboxService HcmOutboxWorker

variable {keys : Key → Prop}

/-- The row that the worker is about to mark DONE. -/
def WorkerState.finishing : WorkerState → Option Nat
  | settling row _ (.done _) => some row.id
  | _ => none

/-- The row is queued or at hand, and not about to be completed. -/
def Active (world : World) (stored : OutboxRow) : Prop :=
  (stored.status = .pending ∨ stored.id ∈ world.worker.held.map ClaimedRow.id) ∧
    world.worker.finishing ≠ some stored.id

instance (world : World) (stored : OutboxRow) : Decidable (Active world stored) :=
  inferInstanceAs (Decidable (_ ∧ _))

/-- On these keys, an active row belongs to an APPROVED request and is the only active one of it. -/
structure OneForEachApproval (keys : Key → Prop) (world : World) : Prop where
  approved : ∀ stored ∈ world.db.hcmOutbox.rows, Active world stored →
    Concerns keys world.db stored.requestId → requestState stored.requestId world.db = some .approved
  one : ∀ stored ∈ world.db.hcmOutbox.rows, Active world stored →
    Concerns keys world.db stored.requestId → ∀ other ∈ world.db.hcmOutbox.rows, Active world other →
    other.requestId = stored.requestId → other.id = stored.id

/-- The change takes no request with an active row out of APPROVED. -/
def LeavesActiveAlone (keys : Key → Prop) (world : World) (after : Db) : Prop :=
  ∀ stored ∈ world.db.hcmOutbox.rows, Active world stored → Concerns keys world.db stored.requestId →
    requestState stored.requestId world.db = some .approved →
    requestState stored.requestId after = some .approved

/-- The row may be reset: its request is APPROVED and has no other active row. -/
def MayReset (keys : Key → Prop) (world : World) (id : Nat) : Prop :=
  ∀ stored ∈ world.db.hcmOutbox.rows, stored.id = id → Concerns keys world.db stored.requestId →
    requestState stored.requestId world.db = some .approved ∧
      ∀ other ∈ world.db.hcmOutbox.rows, Active world other → other.requestId = stored.requestId →
        other.id = id

instance [DecidablePred keys] (world : World) (after : Db) :
    Decidable (LeavesActiveAlone keys world after) :=
  inferInstanceAs (Decidable (∀ stored ∈ world.db.hcmOutbox.rows, _))

instance [DecidablePred keys] (world : World) (id : Nat) : Decidable (MayReset keys world id) :=
  inferInstanceAs (Decidable (∀ stored ∈ world.db.hcmOutbox.rows, _))

/-- The row that the call resets. -/
def Call.resets : Call → Option Nat
  | .resetToPending id => some id
  | _ => none

/-- The step respects the active rows of these keys: no call takes their requests out of APPROVED,
no reset revives a row next to them or of a request that is not APPROVED, and no crash comes between
the last transaction of a handler and the completion of its row when that row has been reset. -/
def RespectsActive (keys : Key → Prop) (world : World) : Event → Prop
  | .call call => (∀ id ∈ call.resets, MayReset keys world id) ∧
      LeavesActiveAlone keys world (call.exec world.db)
  | .crashInBatch clocks batch rows escalations =>
    LeavesActiveAlone keys world (interruptedBatch clocks batch rows escalations world.db)
  | .crash => ∀ stored ∈ world.db.hcmOutbox.rows, stored.status = .pending →
      world.worker.finishing ≠ some stored.id
  | _ => True

instance [DecidablePred keys] (world : World) : (event : Event) →
    Decidable (RespectsActive keys world event)
  | .call _ => inferInstanceAs (Decidable (_ ∧ _))
  | .crashInBatch .. => inferInstanceAs (Decidable (LeavesActiveAlone ..))
  | .crash => inferInstanceAs (Decidable (∀ stored ∈ world.db.hcmOutbox.rows, _))
  | .tick _ | .balanceReply .. | .hcmHandles _ | .consumeReply .. | .settle .. => isTrue trivial

variable {config : OutboxConfig} {world next : World} {event : Event} {db after : Db}

/-! ## The rows of a batch are distinct -/

def HeldDistinct (world : World) : Prop := (world.worker.held.map ClaimedRow.id).Nodup

theorem HeldDistinct.step (distinct : HeldDistinct world) (stepped : Stepped config world event next) :
    HeldDistinct next := by
  simp only [HeldDistinct] at distinct ⊢
  cases stepped with
  | call | draining | repeated | debits => exact distinct
  | claimed now idle =>
    rw [held_proceed, List.map_map]
    exact ((dueRows_sublist world.db).map OutboxRow.id).nodup world.db.hcmOutbox.unique
  | sends clock reply row rest at_await unknown =>
    rw [at_await] at distinct
    exact distinct
  | reviews clock reply row rest balance settlement final at_await insufficient reaction =>
    rw [at_await] at distinct
    exact distinct
  | accepted clock reply body row rest settlement final at_await answer reaction =>
    rw [at_await] at distinct
    exact distinct
  | refused clock reply failure row rest settlement final at_await answer permanent reaction =>
    rw [at_await] at distinct
    exact distinct
  | lost clock reply failure row rest at_await answer transient =>
    rw [at_await] at distinct
    exact distinct
  | done now random row rest escaping at_end =>
    rw [at_end] at distinct
    exact ((afterSettle_held rest _).map ClaimedRow.id).nodup (List.nodup_cons.mp distinct).2
  | retries now random row rest message at_end =>
    rw [at_end] at distinct
    rw [held_proceed]
    exact (List.nodup_cons.mp distinct).2
  | crash | crashInBatch => exact List.nodup_nil

/-! ## Where an active row comes from -/

/-- An active row was active before, was enqueued by this step's approval, or is reset by this step. -/
inductive ActiveOrigin (world next : World) (later : OutboxRow) : Event → Prop
  | carried {event : Event} (stored : OutboxRow) (member : stored ∈ world.db.hcmOutbox.rows)
      (active : Active world stored) (id : stored.id = later.id)
      (requestId : stored.requestId = later.requestId) : ActiveOrigin world next later event
  | enqueued {clock : Clock} {newId : String} {actor : Actor} {requestId : String}
      (before : RequestRow) (patch : StatePatch)
      (moved : Moved before .approved clock.now patch world.db next.db)
      (id : later.id = world.db.hcmOutbox.lastId + 1) (own : later.requestId = before.id) :
      ActiveOrigin world next later (.call (.approve clock newId actor requestId))
  | reset {id : Nat} (stored : OutboxRow) (member : stored ∈ world.db.hcmOutbox.rows)
      (storedId : stored.id = id) (laterId : later.id = id)
      (requestId : stored.requestId = later.requestId) :
      ActiveOrigin world next later (.call (.resetToPending id))

theorem ActiveOrigin.same {later : OutboxRow} (member : later ∈ world.db.hcmOutbox.rows)
    (active : Active world later) : ActiveOrigin world next later event :=
  .carried later member active rfl rfl

theorem Offered.activeOrigin {call : Call} (offered : Offered world.db call after)
    {later : OutboxRow} (member : later ∈ after.hcmOutbox.rows)
    (active : Active { world with db := after } later) :
    ActiveOrigin world { world with db := after } later (.call call) := by
  cases offered with
  | filed clock ids actor input row after filed => exact .same (filed.hcmOutbox ▸ member) active
  | approved clock newId actor requestId before patch after found moved =>
    obtain ⟨_, _, _, _, enqueued⟩ := moved.enqueued rfl
    rw [enqueued, SerialTable.rows_append] at member
    cases List.mem_append.mp member with
    | inl old => exact .same old active
    | inr new =>
      have row := List.mem_singleton.mp new
      exact .enqueued before patch moved (by rw [row]; rfl) (by rw [row]; rfl)
  | rejected clock actor requestId reason before patch after found decides moved =>
    exact .same ((moved.unqueued (by simp)).2 ▸ member) active
  | cancelled clock actor requestId before patch after found may moved =>
    exact .same ((moved.unqueued (by simp)).2 ▸ member) active
  | healed call after healed => exact .same (healed.hcmOutbox ▸ member) active
  | reset id =>
    obtain ⟨stored, storedIn, ⟨selected, rfl⟩ | ⟨_, rfl⟩⟩ := SerialTable.exists_of_mem_update member
    · have own : stored.id = id := of_decide_eq_true selected
      exact .reset stored storedIn own own rfl
    · exact .same storedIn active
  | unchanged call => exact .same member active

theorem scheduleRetry_mem {now : Int} {random : ℚ} {id : Nat} {message : String} {later : OutboxRow}
    (member : later ∈ (scheduleRetry config now random id message db).hcmOutbox.rows) :
    ∃ stored ∈ db.hcmOutbox.rows, stored.id = later.id ∧ stored.requestId = later.requestId ∧
      (stored = later ∨ later.id = id) := by
  obtain ⟨_, same⟩ | ⟨change, keeps, rescheduled, same⟩ :=
    scheduleRetry_cases config now random id message db
  · rw [same] at member
    exact ⟨later, member, rfl, rfl, .inl rfl⟩
  · rw [same] at member
    obtain ⟨stored, storedIn, ⟨selected, rfl⟩ | ⟨_, rfl⟩⟩ := SerialTable.exists_of_mem_update member
    · have own : stored.id = id := of_decide_eq_true selected
      exact ⟨stored, storedIn, (keeps stored).symm, (rescheduled stored).requestId.symm,
        .inr ((keeps stored).trans own)⟩
    · exact ⟨later, storedIn, rfl, rfl, .inl rfl⟩

theorem Stepped.activeOrigin (stepped : Stepped config world event next) (distinct : HeldDistinct world)
    (respects : RespectsActive keys world event) {later : OutboxRow}
    (member : later ∈ next.db.hcmOutbox.rows) (active : Active next later) :
    ActiveOrigin world next later event := by
  obtain ⟨queued, unfinished⟩ := active
  cases stepped with
  | call call yields offered =>
    exact (call.offered_exec offered world.db).activeOrigin member ⟨queued, unfinished⟩
  | claimed now idle =>
    have free : ∀ id, world.worker.finishing ≠ some id := by
      intro id
      rw [idle]
      simp [WorkerState.finishing]
    rw [held_proceed, List.map_map] at queued
    -- a row that was claimed was PENDING, and one that was not is still what it was
    obtain ⟨stored, storedIn, ⟨selected, rfl⟩ | ⟨missed, rfl⟩⟩ := SerialTable.exists_of_mem_update member
    · obtain ⟨due, dueIn, same⟩ := List.mem_map.mp (of_decide_eq_true selected)
      obtain ⟨dueStored, pending, -⟩ := mem_dueRows dueIn
      rw [world.db.hcmOutbox.eq_of_key dueStored storedIn same] at pending
      exact .carried stored storedIn ⟨.inl pending, free _⟩ rfl rfl
    · cases queued with
      | inl pending => exact .same storedIn ⟨.inl pending, free _⟩
      | inr held => exact absurd held (of_decide_eq_false missed)
  | draining | repeated | debits => exact .same member ⟨queued, unfinished⟩
  | sends clock reply row rest at_await unknown =>
    exact .same member ⟨by rw [at_await]; exact queued, by simp [at_await, WorkerState.finishing]⟩
  | reviews clock reply row rest balance settlement final at_await insufficient reaction =>
    exact .same (reaction.hcmOutbox (by simp) ▸ member)
      ⟨by rw [at_await]; exact queued, by simp [at_await, WorkerState.finishing]⟩
  | accepted clock reply body row rest settlement final at_await answer reaction =>
    exact .same (reaction.hcmOutbox (by simp) ▸ member)
      ⟨by rw [at_await]; exact queued, by simp [at_await, WorkerState.finishing]⟩
  | refused clock reply failure row rest settlement final at_await answer permanent reaction =>
    exact .same (reaction.hcmOutbox (by simp) ▸ member)
      ⟨by rw [at_await]; exact queued, by simp [at_await, WorkerState.finishing]⟩
  | lost clock reply failure row rest at_await answer transient =>
    exact .same member ⟨by rw [at_await]; exact queued, by simp [at_await, WorkerState.finishing]⟩
  | done now random row rest escaping at_end =>
    rw [HeldDistinct, at_end] at distinct
    have absent : row.id ∉ rest.map ClaimedRow.id := (List.nodup_cons.mp distinct).1
    have stillHeld : ∀ id, id ∈ (afterSettle rest (.done escaping)).held.map ClaimedRow.id →
        id ∈ rest.map ClaimedRow.id :=
      fun id held => ((afterSettle_held rest _).map ClaimedRow.id).subset held
    obtain ⟨stored, storedIn, ⟨selected, rfl⟩ | ⟨missed, rfl⟩⟩ := SerialTable.exists_of_mem_update member
    · have own : stored.id = row.id := of_decide_eq_true selected
      cases queued with
      | inl pending => cases pending
      | inr held => exact absurd (own ▸ stillHeld _ held) absent
    · refine .same storedIn ⟨?_, ?_⟩
      · rw [at_end]
        exact queued.imp_right fun held => List.mem_cons_of_mem _ (stillHeld _ held)
      · rw [at_end]
        intro finishing
        exact of_decide_eq_false missed (Option.some.inj finishing).symm
  | retries now random row rest message at_end =>
    obtain ⟨stored, storedIn, id, requestId, same⟩ := scheduleRetry_mem member
    rw [held_proceed] at queued
    have free : world.worker.finishing ≠ some stored.id := by simp [at_end, WorkerState.finishing]
    refine .carried stored storedIn ⟨?_, free⟩ id requestId
    rw [at_end]
    obtain rfl | own := same
    · exact queued.imp_right fun held => List.mem_cons_of_mem _ held
    · exact .inr (by simp [WorkerState.held, id, own])
  | crash =>
    cases queued with
    | inl pending => exact .same member ⟨.inl pending, respects later member pending⟩
    | inr held => cases held
  | crashInBatch clocks batch rows escalations yields =>
    obtain ⟨_, healed⟩ := interruptedBatch_healed clocks batch rows escalations world.db
    cases queued with
    | inl pending =>
      refine .same (healed.hcmOutbox ▸ member) ⟨.inl pending, ?_⟩
      intro finishing
      cases worker : world.worker with
      | settling row rest settlement =>
        rw [worker] at yields
        cases yields
      | _ =>
        rw [worker] at finishing
        cases finishing
    | inr held => cases held

/-! ## Active rows keep their approval -/

/-- What the invariant of active rows rests on. -/
structure QueueStands (keys : Key → Prop) (world : World) : Prop where
  labelled : Labelled world.db
  heldStored : HeldStored world
  heldDistinct : HeldDistinct world
  active : OneForEachApproval keys world

/-- The worker's reaction moves the request of the row at hand, which is its only active row and is
completed next. -/
theorem QueueStands.reaction {row : ClaimedRow} {rest : List ClaimedRow} {toState : State}
    {settlement : Settlement} {final : Db} {stored : OutboxRow} (stands : QueueStands keys world)
    (held : world.worker.held = row :: rest) (free : world.worker.finishing = none)
    (reaction : Reaction row world.db toState settlement final)
    (member : stored ∈ world.db.hcmOutbox.rows) (active : Active world stored)
    (concerns : Concerns keys world.db stored.requestId)
    (unfinished : (WorkerState.settling row rest settlement).finishing ≠ some stored.id)
    (approved : requestState stored.requestId world.db = some .approved) :
    requestState stored.requestId final = some .approved := by
  cases reaction with
  | moved before now patch final found state moved =>
    have beforeId : before.id = row.requestId := (Table.find?_eq_some.mp found).2
    rw [moved.requestState_after]
    split
    next own =>
      -- the request that moves is that of the row at hand, so `stored` is that row
      obtain ⟨handled, handledIn, copy⟩ := stands.heldStored row (by simp [held])
      have handledActive : Active world handled :=
        ⟨.inr (by simp [held, copy.id]), by simp [free]⟩
      have same := stands.active.one stored member active concerns handled handledIn handledActive
        (copy.requestId.trans (beforeId.symm.trans own.symm))
      exact absurd (congrArg some (copy.id.symm.trans same)) unfinished
    next => exact approved
  | already state => exact approved
  | elsewhere settlement ends different elsewhere => exact approved

/-- A row that stays active keeps its approval. -/
theorem QueueStands.carried (stands : QueueStands keys world)
    (stepped : Stepped config world event next) (respects : RespectsActive keys world event)
    {stored : OutboxRow} (member : stored ∈ world.db.hcmOutbox.rows) (active : Active world stored)
    (concerns : Concerns keys world.db stored.requestId)
    (unfinished : next.worker.finishing ≠ some stored.id) :
    requestState stored.requestId next.db = some .approved := by
  have approved := stands.active.approved stored member active concerns
  cases stepped with
  | call call yields offered => exact respects.2 stored member active concerns approved
  | crashInBatch => exact respects stored member active concerns approved
  | reviews clock reply row rest balance settlement final at_await insufficient reaction =>
    exact stands.reaction (by rw [at_await]; rfl) (by rw [at_await]; rfl) reaction member active
      concerns unfinished approved
  | accepted clock reply body row rest settlement final at_await answer reaction =>
    exact stands.reaction (by rw [at_await]; rfl) (by rw [at_await]; rfl) reaction member active
      concerns unfinished approved
  | refused clock reply failure row rest settlement final at_await answer permanent reaction =>
    exact stands.reaction (by rw [at_await]; rfl) (by rw [at_await]; rfl) reaction member active
      concerns unfinished approved
  | retries now random row rest message at_end =>
    rw [requestState_congr (scheduleRetry_requests _ _ _ _ _ _)]
    exact approved
  | claimed | draining | sends | repeated | debits | lost | done | crash => exact approved

/-- The row of a new approval is its only active one, since the request was not APPROVED before. -/
theorem OneForEachApproval.alone {before : RequestRow} {now : Int} {patch : StatePatch}
    (one : OneForEachApproval keys world)
    (moved : Moved before .approved now patch world.db next.db) {stored : OutboxRow}
    (member : stored ∈ world.db.hcmOutbox.rows) (active : Active world stored)
    (concerns : Concerns keys world.db stored.requestId) : stored.requestId ≠ before.id := by
  intro own
  have approved := one.approved stored member active concerns
  rw [own, moved.requestState_before] at approved
  cases canTransition_approved.mp moved.legal with
  | inl pending =>
    rw [pending] at approved
    cases approved
  | inr review =>
    rw [review] at approved
    cases approved

theorem QueueStands.step (stands : QueueStands keys world) (stepped : Stepped config world event next)
    (respects : RespectsActive keys world event) : QueueStands keys next := by
  obtain ⟨_, effect⟩ := stepped.effect
  have grows := effect.grows
  have origin : ∀ later ∈ next.db.hcmOutbox.rows, Active next later →
      ActiveOrigin world next later event :=
    fun later member active => stepped.activeOrigin stands.heldDistinct respects member active
  have exists_before : ∀ stored ∈ world.db.hcmOutbox.rows,
      ∃ request, world.db.requests.find? stored.requestId = some request := by
    intro stored member
    obtain ⟨request, _, found, _⟩ := stands.labelled.outbox stored member
    exact ⟨request, found⟩
  refine ⟨stands.labelled.effect effect, stands.heldStored.step stepped,
    stands.heldDistinct.step stepped, ?_, ?_⟩
  -- an active row belongs to an APPROVED request
  · intro later member active concerns
    cases origin later member active with
    | carried stored storedIn storedActive id requestId =>
      rw [← requestId] at concerns ⊢
      have unfinished : next.worker.finishing ≠ some stored.id := by
        rw [id]
        exact active.2
      exact stands.carried stepped respects storedIn storedActive
        (concerns.earlier grows (exists_before stored storedIn)) unfinished
    | enqueued before patch moved id own => rw [own, moved.requestState_after, if_pos rfl]
    | reset stored storedIn storedId laterId requestId =>
      rw [← requestId] at concerns ⊢
      have mayReset := respects.1 _ rfl stored storedIn storedId
        (concerns.earlier grows (exists_before stored storedIn))
      cases stepped
      exact mayReset.1
  -- and is the only active one of it: by where the two rows come from
  · intro left leftIn leftActive concerns right rightIn rightActive same
    have rightOrigin := origin right rightIn rightActive
    cases origin left leftIn leftActive with
    | carried stored storedIn storedActive id requestId =>
      have concernsStored : Concerns keys world.db stored.requestId :=
        (requestId ▸ concerns).earlier grows (exists_before stored storedIn)
      cases rightOrigin with
      | carried other otherIn otherActive otherId otherRequest =>
        have one := stands.active.one stored storedIn storedActive concernsStored other otherIn
          otherActive (otherRequest.trans (same.trans requestId.symm))
        exact otherId.symm.trans (one.trans id)
      | enqueued before patch moved newId own =>
        exact absurd (requestId.trans (same.symm.trans own))
          (stands.active.alone moved storedIn storedActive concernsStored)
      | reset other otherIn otherId rightId otherRequest =>
        have sameRequest : stored.requestId = other.requestId :=
          requestId.trans (same.symm.trans otherRequest.symm)
        have only := (respects.1 _ rfl other otherIn otherId (sameRequest ▸ concernsStored)).2 stored storedIn
          storedActive sameRequest
        exact rightId.trans (only.symm.trans id)
    -- two rows of one approval, or one beside it that was active before
    | enqueued before patch moved id own =>
      cases rightOrigin with
      | carried other otherIn otherActive otherId otherRequest =>
        have concernsOther : Concerns keys world.db other.requestId :=
          ((same.symm.trans otherRequest.symm) ▸ concerns).earlier grows (exists_before other otherIn)
        exact absurd (otherRequest.trans (same.trans own))
          (stands.active.alone moved otherIn otherActive concernsOther)
      | enqueued other otherPatch otherMoved otherId otherOwn => exact otherId.trans id.symm
    -- `MayReset` rules out an active row beside the one that is reset
    | reset stored storedIn storedId leftId requestId =>
      have concernsStored : Concerns keys world.db stored.requestId :=
        (requestId ▸ concerns).earlier grows (exists_before stored storedIn)
      cases rightOrigin with
      | carried other otherIn otherActive otherId otherRequest =>
        have only := (respects.1 _ rfl stored storedIn storedId concernsStored).2 other otherIn otherActive
          (otherRequest.trans (same.trans requestId.symm))
        exact otherId.symm.trans (only.trans leftId.symm)
      | reset other otherIn otherStoredId rightId otherRequest => exact rightId.trans leftId.symm

theorem QueueStands.empty : QueueStands keys World.empty := by
  refine ⟨.empty, .empty, List.nodup_nil, ?_, ?_⟩
  · intro stored member
    cases member
  · intro stored member
    cases member

/-! ## What is sent -/

/-- Each consume call was sent while its request was APPROVED and the reservation open. -/
def SentWhileApproved (world : World) : Prop :=
  ∀ call ∈ world.sent, call.state = some .approved ∧ call.reservation = some .open

instance : DecidablePred SentWhileApproved := fun world =>
  inferInstanceAs (Decidable (∀ call ∈ world.sent, _))

theorem consume_standing {row : ClaimedRow} (coherent : Coherent world.db)
    (approved : requestState row.requestId world.db = some .approved) :
    (world.consume row).state = some .approved ∧ (world.consume row).reservation = some .open := by
  refine ⟨approved, ?_⟩
  obtain ⟨request, found, state⟩ := requestState_eq_some.mp approved
  obtain ⟨member, own⟩ := Table.find?_eq_some.mp found
  have ownId : request.id = row.requestId := own
  obtain ⟨reservation, only, pair⟩ := coherent.reservation member
  rw [ownId] at only
  have first : world.db.reservations.rows.find? (fun other => other.requestId = row.requestId) =
      some reservation := by
    rw [← List.head?_filter, only]
    rfl
  simp only [World.consume, first, Option.map_some, pair.state, state]
  rfl

theorem SentWhileApproved.step (sent : SentWhileApproved world) (coherent : Coherent world.db)
    (stands : QueueStands (fun _ => True) world) (stepped : Stepped config world event next) :
    SentWhileApproved next := by
  cases stepped with
  | sends clock reply row rest at_await unknown =>
    intro call member
    cases List.mem_append.mp member with
    | inl old => exact sent call old
    | inr new =>
      rw [List.mem_singleton.mp new]
      obtain ⟨stored, storedIn, copy⟩ := stands.heldStored row (by simp [at_await, WorkerState.held])
      have active : Active world stored :=
        ⟨.inr (by simp [at_await, WorkerState.held, copy.id]), by simp [at_await, WorkerState.finishing]⟩
      obtain ⟨request, _, found, _⟩ := stands.labelled.outbox stored storedIn
      have approved := stands.active.approved stored storedIn active ⟨request, found, trivial⟩
      exact consume_standing coherent (copy.requestId ▸ approved)
  | _ => exact sent

/-- What the calls already sent and those still to be sent rest on. -/
structure SendsStanding (world : World) : Prop where
  sent : SentWhileApproved world
  coherent : Coherent world.db
  stands : QueueStands (fun _ => True) world

theorem SendsStanding.empty : SendsStanding World.empty :=
  ⟨by simp [SentWhileApproved, World.empty], .empty, .empty⟩

theorem SendsStanding.step (sends : SendsStanding world)
    (respects : RespectsActive (fun _ => True) world event)
    (stepped : Stepped config world event next) : SendsStanding next := by
  obtain ⟨_, effect⟩ := stepped.effect
  exact ⟨sends.sent.step sends.coherent sends.stands stepped, sends.coherent.effect effect,
    sends.stands.step stepped respects⟩

/-- In every run that respects active rows, each consume call is sent for an APPROVED request. -/
theorem sent_while_approved (config : OutboxConfig) (events : List Event)
    (respects : StepsMeet (World.step config) (RespectsActive fun _ => True) World.empty events) :
    Always (World.step config) SentWhileApproved World.empty events := by
  have kept : Always (World.step config) SendsStanding World.empty events := by
    refine always_of_stepsMeet SendsStanding ?_ .empty respects
    intro world event next sends respects ran
    exact sends.step respects (step_stepped ran)
  exact kept.mono fun _ holds => holds.sent

/-- The office's one request, handled without a disturbance. -/
theorem sent_while_approved_office :
    Always (World.step Office.config) SentWhileApproved World.empty
      (Office.claimed ++ [.balanceReply Office.clock (Office.balance 10)]) :=
  sent_while_approved Office.config _ (by decide +kernel)

/-- A request cancelled before its queued row is handled is sent to HCM all the same. -/
theorem cancelled_request_is_sent :
    ¬ Always (World.step Office.config) SentWhileApproved World.empty
      [.call (Office.snapshot 10 0), .call (Office.file "r1"), .call (Office.approve "r1" "x1"),
        .call (Office.cancel "r1"), .tick 0, .balanceReply Office.clock (Office.balance 10)] := by
  decide +kernel

end TimeOff
