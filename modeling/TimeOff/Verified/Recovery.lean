import TimeOff.Lib.Simulation
import TimeOff.Verified.Consistency
import TimeOff.Verified.OverCommitment
import TimeOff.Verified.RetryConvergence
import TimeOff.Verified.RetryDiscipline
import TimeOff.Verified.TickCompletion

/-! # Delivering what was left behind

A crash strands the rows of its batch, and a long outage uses up the attempts of a row.  Neither is a
dead end: a restart lets go of the batch, an administrator resets a row of each request that is still
APPROVED, and the ticks that follow take one batch of due rows after the other.  HCM, up again, tells
its true balances and accepts every call.  The worker asks for the balance first, also where HCM has
taken the days already; so a request becomes CONSUMED if the balance still covers its days, beside those
that the other requests of its key may yet take, and goes to review if it does not.
-/

set_option autoImplicit false

namespace TimeOff.Lib

/-- Distinct elements that each have a counterpart of their own weight weigh no more than all counterparts. -/
theorem sum_le_sum_of_counterparts {α β ι : Type} {left : List α} {right : List β} (name : α → ι)
    (counterName : β → ι) {weight : α → ℚ} {counterWeight : β → ℚ} (distinct : (left.map name).Nodup)
    (matched : ∀ a ∈ left, ∃ b ∈ right, counterName b = name a ∧ counterWeight b = weight a)
    (nonneg : ∀ b ∈ right, 0 ≤ counterWeight b) : (left.map weight).sum ≤ (right.map counterWeight).sum := by
  induction left generalizing right with
  | nil => exact List.sum_nonneg (by simpa using nonneg)
  | cons a rest inductionHypothesis =>
    obtain ⟨here, later⟩ := List.forall_mem_cons.mp matched
    obtain ⟨b, member, sameName, sameWeight⟩ := here
    rw [List.map_cons, List.nodup_cons] at distinct
    obtain ⟨new, distinctRest⟩ := distinct
    -- the counterpart of the first element is that of no other
    obtain ⟨before, after, rfl⟩ := List.append_of_mem member
    have restMatched : ∀ x ∈ rest, ∃ y ∈ before ++ after,
        counterName y = name x ∧ counterWeight y = weight x := by
      intro x isRest
      obtain ⟨y, among, named, weighed⟩ := later x isRest
      have other : y ≠ b := by
        rintro rfl
        exact new (by rw [← sameName, named]; exact List.mem_map_of_mem isRest)
      simp only [List.mem_append, List.mem_cons, other, false_or] at among
      exact ⟨y, List.mem_append.mpr among, named, weighed⟩
    have restNonneg : ∀ y ∈ before ++ after, 0 ≤ counterWeight y := by
      intro y among
      apply nonneg y
      simp only [List.mem_append, List.mem_cons] at among ⊢
      exact among.imp_right .inr
    have fewer := inductionHypothesis distinctRest restMatched restNonneg
    simp only [List.map_cons, List.sum_cons, List.map_append, List.sum_append] at fewer ⊢
    linarith

end TimeOff.Lib

namespace TimeOff

open TimeOff.Lib HcmOutboxService HcmOutboxWorker

section Truth

variable (opening : Key → ℚ)

/-- What HCM has left of the key. -/
def balanceLeft (key : Key) (world : World) : ℚ := hcmBalance (opening key) key world

/-- The other requests on the key that were approved at some time and whose days HCM has not taken. -/
def outstandingBesides (request : RequestRow) (world : World) : List RequestRow :=
  world.db.requests.rows.filter fun other => other.key = request.key ∧ other.id ≠ request.id ∧
    other.externalRequestId.isSome ∧ ¬ TakenFor other.id world

/-- The days that these may yet take from the balance. -/
def daysBesides (request : RequestRow) (world : World) : ℚ :=
  ((outstandingBesides request world).map RequestRow.days).sum

/-- What happens in a recovery at the given time: rows are reset, and the worker runs while HCM tells its
true balances and accepts what it has taken the days for.  A call of a request that is APPROVED reaches HCM
at the request's turn, so none that was sent before the restart is late. -/
def Recovery (now : Int) (world : World) : Event → Prop
  | .call (.resetToPending _) => True
  | .tick time | .settle time _ => time = now
  | .balanceReply clock reply => clock = ⟨now, now⟩ ∧ ∀ row ∈ world.worker.asking,
      readable row.payload.key reply = some (balanceLeft opening row.payload.key world)
  | .hcmHandles number => ∀ call ∈ world.sent[number]?,
      requestState call.row.requestId world.db = some .approved →
      ∃ row ∈ world.worker.calling, row.requestId = call.row.requestId
  | .consumeReply clock reply => clock = ⟨now, now⟩ ∧ accepts reply = true ∧
      ∀ row ∈ world.worker.calling, TakenFor row.requestId world
  | _ => False

/-- HCM has taken the days of the request, and the service knows. -/
structure Completed (id : String) (world : World) : Prop where
  consumed : requestState id world.db = some .consumed
  taken : TakenFor id world

end Truth

/-- The rows that a tick at this time may take. -/
def dueAt (now : Int) (db : Db) : List OutboxRow :=
  db.hcmOutbox.rows.filter fun row => row.status = .pending ∧ row.nextAttemptAt ≤ now

/-- The request has left APPROVED, or a row of it is due or in the hands of the worker. -/
inductive OnItsWay (now : Int) (id : String) (world : World) : Prop
  | left (left : requestState id world.db ≠ some .approved)
  | due (row : OutboxRow) (isDue : row ∈ dueAt now world.db) (own : row.requestId = id)
  | held (row : ClaimedRow) (isHeld : row ∈ world.worker.held) (own : row.requestId = id)

/-- A part of a recovery: no request becomes APPROVED, and none is lost on its way. -/
structure Advances (now : Int) (world next : World) : Prop where
  left : ∀ id, requestState id world.db ≠ some .approved → requestState id next.db ≠ some .approved
  onItsWay : ∀ id, OnItsWay now id world → OnItsWay now id next

/-- Every APPROVED request has a row in the outbox. -/
def Queued (db : Db) : Prop :=
  ∀ id, requestState id db = some .approved → ∃ row ∈ db.hcmOutbox.rows, row.requestId = id

/-- What every run of the system keeps, and a recovery builds on. -/
structure Recoverable (world : World) : Prop where
  accounted : Accounted world
  stored : HeldStored world
  queued : Queued world.db
  consistent : Consistent world.db

variable {config : OutboxConfig} {opening : Key → ℚ} {start world next : World} {event : Event} {db after : Db}
  {now : Int} {id : String} {request : RequestRow}

theorem mem_dueAt {row : OutboxRow} :
    row ∈ dueAt now db ↔ row ∈ db.hcmOutbox.rows ∧ row.status = .pending ∧ row.nextAttemptAt ≤ now := by
  simp [dueAt]

theorem dueAt_congr (same : after.hcmOutbox = db.hcmOutbox) : dueAt now after = dueAt now db := by
  simp only [dueAt]
  rw [same]

theorem Advances.refl (now : Int) (world : World) : Advances now world world :=
  ⟨fun _ left => left, fun _ way => way⟩

theorem Advances.trans {middle final : World} (first : Advances now world middle)
    (second : Advances now middle final) : Advances now world final :=
  ⟨fun id left => second.left id (first.left id left), fun id way => second.onItsWay id (first.onItsWay id way)⟩

/-- With no row due and none in hand, what was on its way has arrived. -/
theorem OnItsWay.arrived (way : OnItsWay now id world) (idle : world.worker = .idle)
    (noneDue : dueAt now world.db = []) : requestState id world.db ≠ some .approved := by
  cases way with
  | left left => exact left
  | due row isDue own =>
    rw [noneDue] at isDue
    cases isDue
  | held row isHeld own =>
    rw [idle] at isHeld
    cases isHeld

/-! ## Every APPROVED request has its row -/

theorem Queued.moved {before : RequestRow} {toState : State} {patch : StatePatch} (queued : Queued db)
    (moved : Moved before toState now patch db after) : Queued after := by
  intro id approved
  rw [moved.requestState_after id] at approved
  split at approved
  next own =>
    cases approved
    -- an approval enqueues the row of the request
    obtain ⟨externalRequestId, _, _, _, enqueued⟩ := moved.enqueued rfl
    refine ⟨before.outboxRow externalRequestId now (db.hcmOutbox.lastId + 1), ?_, own.symm⟩
    rw [enqueued]
    simp
  next other =>
    obtain ⟨row, member, own⟩ := queued id approved
    refine ⟨row, ?_, own⟩
    by_cases entered : toState = .approved
    · obtain ⟨_, _, _, _, enqueued⟩ := moved.enqueued entered
      rw [enqueued]
      exact List.mem_append_left _ member
    · rwa [(moved.unqueued entered).2]

theorem Queued.effect {results : List SnapshotResult} (queued : Queued db)
    (effect : Effect db results after) : Queued after := by
  refine effect.preserves ?_ ?_ ?_ ?_ queued
  · intro row now db after holds filed id approved
    rw [filed.requestState_after id] at approved
    rw [filed.hcmOutbox]
    split at approved
    · cases approved
    · exact holds id approved
  · intro before toState now patch db after holds moved
    exact holds.moved moved
  · intro snapshot now result db after holds applied id approved
    rw [applied.hcmOutbox]
    exact holds id (requestState_congr applied.requests id ▸ approved)
  · intro db after holds requeued id approved
    obtain ⟨hit, change, keeps, saysTheSame, updated⟩ := requeued.hcmOutbox
    obtain ⟨row, member, own⟩ := holds id (requestState_congr requeued.requests id ▸ approved)
    refine ⟨_, mem_update member updated, ?_⟩
    cases selected : hit row with
    | true => rw [patchRow_of_hit selected, (saysTheSame row).1, own]
    | false => rw [patchRow_of_miss selected, own]

theorem Recoverable.empty : Recoverable World.empty := by
  refine ⟨.empty, .empty, ?_, .empty⟩
  intro id approved
  cases approved

theorem Recoverable.step (recoverable : Recoverable world)
    (stepped : World.step config world event = some next) : Recoverable next := by
  obtain ⟨_, effect⟩ := (step_stepped stepped).effect
  obtain ⟨calls, reached⟩ := (step_calledTo stepped).reached
  have consistent : Consistent next.db := by
    rw [reached]
    exact execAll_invariant (fun call db (holds : Consistent db) => holds.exec call) calls recoverable.consistent
  exact ⟨recoverable.accounted.step (step_stepped stepped), recoverable.stored.step (step_stepped stepped),
    recoverable.queued.effect effect, consistent⟩

theorem Recoverable.runsBy {guard : World → Event → Prop} (recoverable : Recoverable world)
    (runs : RunsBy (World.step config) guard world next) : Recoverable next :=
  runs.invariant (fun _ _ _ holds _ stepped => Recoverable.step holds stepped) recoverable

/-! ## The row at hand -/

/-- What becomes of the row at hand. -/
structure Served (now : Int) (row : ClaimedRow) (world next : World) : Prop where
  ownLeft : requestState row.requestId next.db ≠ some .approved
  left : ∀ id, requestState id world.db ≠ some .approved → requestState id next.db ≠ some .approved
  due : ∀ stored ∈ dueAt now next.db, stored ∈ dueAt now world.db
  rows : ∀ stored ∈ dueAt now world.db, stored.id ≠ row.id → stored ∈ dueAt now next.db

theorem readable_balance (key : Key) (balance : ℚ) : readable key (Office.balance balance) = some balance := by
  simp [readable, Office.balance, HcmClient.getBalance, HcmClient.request]

theorem consumeBalance_accepted : HcmClient.consumeBalance Office.accepted = .ok (some ()) := by
  simp [HcmClient.consumeBalance, HcmClient.request, Office.accepted]

/-- A call that HCM takes for a repeat is one of a request whose days it has taken. -/
theorem Accounted.takenFor (accounted : Accounted world) {call : Consume} (sent : call ∈ world.sent)
    (debited : world.debited call.row.payload.externalRequestId = true) :
    TakenFor call.row.requestId world := by
  obtain ⟨debit, debitIn, same⟩ := List.any_eq_true.mp debited
  obtain ⟨request, externalRequestId, found, has, payload⟩ := accounted.sent call sent
  obtain ⟨other, otherId, foundOther, otherHas, otherPayload⟩ :=
    accounted.sent debit (accounted.debits debit debitIn)
  have sameId : otherId = externalRequestId := by
    rw [payload, otherPayload] at same
    exact of_decide_eq_true same
  obtain ⟨requestIn, own⟩ := Table.find?_eq_some.mp found
  obtain ⟨otherIn, otherOwn⟩ := Table.find?_eq_some.mp foundOther
  refine ⟨debit, debitIn, ?_⟩
  rw [← own, ← otherOwn]
  exact accounted.labelled.distinct other otherIn request requestIn externalRequestId
    (sameId ▸ otherHas) has

/-- HCM handles the call, and has taken the days afterwards if it had not before. -/
theorem Accounted.handles (config : OutboxConfig) (accounted : Accounted world) {number : Nat}
    {call : Consume} (found : world.sent[number]? = some call) : ∃ debits,
    World.step config world (.hcmHandles number) = some { world with debits := debits } ∧
      (∀ debit ∈ world.debits, debit ∈ debits) ∧
        ∃ debit ∈ debits, debit.row.requestId = call.row.requestId := by
  simp only [World.step, found]
  cases debited : world.debited call.row.payload.externalRequestId with
  | true =>
    exact ⟨world.debits, rfl, fun _ member => member,
      accounted.takenFor (List.mem_of_getElem? found) debited⟩
  | false =>
    exact ⟨world.debits ++ [call], rfl, fun _ member => List.mem_append_left _ member, call, by simp, rfl⟩

/-- Settling a row makes no row due. -/
theorem settle_due {row : ClaimedRow} {settlement : Settlement} {random : ℚ} {stored : OutboxRow}
    (isStored : ∃ stored ∈ db.hcmOutbox.rows, row.Of stored)
    (due : stored ∈ dueAt now (settle config now random row settlement db)) : stored ∈ dueAt now db := by
  obtain ⟨member, pending, time⟩ := mem_dueAt.mp due
  cases settlement with
  | done escaping =>
    obtain ⟨old, oldIn, ⟨_, rfl⟩ | ⟨_, rfl⟩⟩ := SerialTable.exists_of_mem_update member
    · cases pending
    · exact mem_dueAt.mpr ⟨oldIn, pending, time⟩
  | retry message =>
    obtain ⟨before, beforeIn, copy⟩ := isStored
    simp only [settle] at member
    rw [← copy.id] at member
    obtain ⟨old, _⟩ | ⟨_, _, ⟨_, dead⟩ | ⟨_, _, waits⟩⟩ := scheduleRetry_row beforeIn member
    · exact mem_dueAt.mpr ⟨old, pending, time⟩
    · cases dead.symm.trans pending
    · have later : 100 ≤ computeBackoffMs (before.attempts + 1) random := le_max_left _ _
      omega

theorem settle_keeps_due {row : ClaimedRow} {settlement : Settlement} {random : ℚ} {stored : OutboxRow}
    (due : stored ∈ dueAt now db) (other : stored.id ≠ row.id) :
    stored ∈ dueAt now (settle config now random row settlement db) := by
  obtain ⟨member, waits⟩ := mem_dueAt.mp due
  refine mem_dueAt.mpr ⟨?_, waits⟩
  cases settlement with
  | done escaping => exact updateRow_other member other
  | retry message => exact scheduleRetry_other member other

theorem settle_requests (config : OutboxConfig) (now : Int) (random : ℚ) (row : ClaimedRow)
    (settlement : Settlement) (db : Db) :
    (settle config now random row settlement db).requests = db.requests := by
  cases settlement with
  | done escaping => rfl
  | retry message => exact scheduleRetry_requests config now random row.id message db

/-- Where the consume was not refused the tick goes on. -/
theorem Reaction.proceeds {row : ClaimedRow} {rest : List ClaimedRow} {final : Db} {toState : State}
    {settlement : Settlement} (reaction : Reaction row db toState settlement final)
    (unrefused : toState ≠ .hcmFailed) : afterSettle rest settlement = proceed rest := by
  cases settlement with
  | retry message => rfl
  | done escaping =>
    cases escaping with
    | none => rfl
    | some failure => exact absurd reaction.escapes.1 unrefused

/-- The row is settled with what the worker did for it. -/
theorem Reaction.served {row : ClaimedRow} {final : Db} {toState : State} {settlement : Settlement} {random : ℚ}
    (reaction : Reaction row world.db toState settlement final) (elsewhere : toState ≠ .approved)
    (isStored : ∃ stored ∈ world.db.hcmOutbox.rows, row.Of stored)
    (settled : next.db = settle config now random row settlement final) : Served now row world next := by
  have sameOutbox := reaction.hcmOutbox elsewhere
  have sameStates : ∀ id, requestState id next.db = requestState id final := by
    rw [settled]
    exact requestState_congr (settle_requests config now random row settlement final)
  refine ⟨?_, ?_, ?_, ?_⟩
  · rw [sameStates]
    exact reaction.resolved elsewhere
  · intro id left
    rw [sameStates]
    rwa [reaction.spares left]
  · intro stored due
    rw [settled] at due
    rw [← dueAt_congr sameOutbox]
    exact settle_due (by rw [sameOutbox]; exact isStored) due
  · intro stored due other
    rw [settled]
    rw [← dueAt_congr sameOutbox] at due
    exact settle_keeps_due due other

/-- The balance that HCM tells of the row at hand is the true one. -/
theorem tells_truly (opening : Key → ℚ) (now : Int) {row : ClaimedRow} {rest : List ClaimedRow}
    (awaiting : world.worker = .awaitBalance row rest) : Recovery opening now world
      (.balanceReply ⟨now, now⟩ (Office.balance (balanceLeft opening row.payload.key world))) :=
  ⟨rfl, by simp [awaiting, WorkerState.asking, readable_balance]⟩

/-- HCM tells that the balance is too low: the request goes to review. -/
theorem Recoverable.serveShort (config : OutboxConfig) (opening : Key → ℚ) (now : Int)
    (recoverable : Recoverable world) {row : ClaimedRow} {rest : List ClaimedRow}
    (awaiting : world.worker = .awaitBalance row rest)
    (short : balanceLeft opening row.payload.key world < row.payload.days) :
    ∃ next, RunsBy (World.step config) (Recovery opening now) world next ∧ next.worker = proceed rest ∧
      Served now row world next := by
  have isStored := recoverable.stored row (by simp [awaiting, WorkerState.held])
  have insufficient : insufficientView row (Office.balance (balanceLeft opening row.payload.key world)) =
      some (balanceLeft opening row.payload.key world) := by
    rw [insufficientView_eq, readable_balance, Option.filter_some, decide_eq_true short, if_pos rfl]
  obtain ⟨settlement, final, ran, reaction⟩ := onBalance_reaction ⟨now, now⟩ world.db insufficient
  have told : World.step config world
      (.balanceReply ⟨now, now⟩ (Office.balance (balanceLeft opening row.payload.key world))) =
      some { world with db := final, worker := .settling row rest settlement } := by
    simp [World.step, awaiting, ran]
  have settled : World.step config { world with db := final, worker := .settling row rest settlement }
      (.settle now 0) = some { world with
        db := settle config now 0 row settlement final, worker := afterSettle rest settlement } := rfl
  have runs : RunsBy (World.step config) (Recovery opening now) world _ :=
    (RunsBy.once told (tells_truly opening now awaiting)).trans (RunsBy.once settled rfl)
  exact ⟨_, runs, reaction.proceeds (by simp), reaction.served (by simp) isStored rfl⟩

/-- HCM tells a balance that covers the days, handles the call and accepts it. -/
theorem Recoverable.serveCovered (config : OutboxConfig) (opening : Key → ℚ) (now : Int)
    (recoverable : Recoverable world) {row : ClaimedRow} {rest : List ClaimedRow}
    (awaiting : world.worker = .awaitBalance row rest)
    (covered : ¬ balanceLeft opening row.payload.key world < row.payload.days) :
    ∃ next, RunsBy (World.step config) (Recovery opening now) world next ∧ next.worker = proceed rest ∧
      Served now row world next := by
  have isStored := recoverable.stored row (by simp [awaiting, WorkerState.held])
  have unknown : insufficientView row (Office.balance (balanceLeft opening row.payload.key world)) = none := by
    rw [insufficientView_eq, readable_balance, Option.filter_some, decide_eq_false covered]
    simp
  have told : World.step config world
      (.balanceReply ⟨now, now⟩ (Office.balance (balanceLeft opening row.payload.key world))) =
      some { world with worker := .awaitConsume row rest, sent := world.sent ++ [world.consume row] } := by
    simp [World.step, awaiting, onBalance, unknown]
  have sent := recoverable.step told
  obtain ⟨debits, handled, kept, debit, debitIn, own⟩ :=
    sent.accounted.handles config List.getElem?_concat_length
  -- HCM accepts the call, and the row is settled
  obtain ⟨settlement, final, ran, reaction⟩ : ∃ settlement final,
      onConsume ⟨now, now⟩ row Office.accepted world.db = (settlement, final) ∧
        Reaction row world.db .consumed settlement final :=
    onConsume_accepted ⟨now, now⟩ consumeBalance_accepted
  have answered : World.step config
      ⟨world.db, .awaitConsume row rest, world.sent ++ [world.consume row], world.acknowledged, debits⟩
      (.consumeReply ⟨now, now⟩ Office.accepted) =
      some ⟨final, .settling row rest settlement, world.sent ++ [world.consume row],
        world.acknowledged ++ [row], debits⟩ := by
    simp [World.step, ran, consumeBalance_accepted]
  have settled : World.step config
      ⟨final, .settling row rest settlement, world.sent ++ [world.consume row],
        world.acknowledged ++ [row], debits⟩ (.settle now 0) =
      some ⟨settle config now 0 row settlement final, afterSettle rest settlement,
        world.sent ++ [world.consume row], world.acknowledged ++ [row], debits⟩ := rfl
  have runs : RunsBy (World.step config) (Recovery opening now) world _ :=
    (RunsBy.once told (tells_truly opening now awaiting)).trans <|
      (RunsBy.once handled (by simp [Recovery, WorkerState.calling, World.consume])).trans <|
      (RunsBy.once answered ⟨rfl, rfl, by simpa [WorkerState.calling, TakenFor] using ⟨debit, debitIn, own⟩⟩).trans
        (RunsBy.once settled rfl)
  exact ⟨_, runs, reaction.proceeds (by simp), reaction.served (by simp) isStored rfl⟩

theorem Served.advances {row : ClaimedRow} {rest : List ClaimedRow} (served : Served now row world next)
    (heldStored : HeldStored world) (awaiting : world.worker = .awaitBalance row rest)
    (proceeds : next.worker = proceed rest) : Advances now world next := by
  refine ⟨served.left, ?_⟩
  intro id way
  cases way with
  | left left => exact .left (served.left id left)
  | due stored isDue own =>
    by_cases settled : stored.id = row.id
    -- the row settled is the request's own
    · obtain ⟨original, originalIn, copy⟩ := heldStored row (by simp [awaiting, WorkerState.held])
      have isOriginal := world.db.hcmOutbox.eq_of_key (mem_dueAt.mp isDue).1 originalIn
        (settled.trans copy.id.symm)
      have ownRequest : row.requestId = id := by rw [← own, isOriginal, copy.requestId]
      exact .left (ownRequest ▸ served.ownLeft)
    · exact .due stored (served.rows stored isDue settled) own
  | held other isHeld own =>
    rw [awaiting] at isHeld
    obtain rfl | later := List.mem_cons.mp isHeld
    · exact .left (own ▸ served.ownLeft)
    · exact .held other (by rw [proceeds, held_proceed]; exact later) own

/-! ## A tick -/

/-- The worker serves every row of the batch. -/
theorem Recoverable.serveAll (config : OutboxConfig) (opening : Key → ℚ) (now : Int)
    (recoverable : Recoverable world) {rows : List ClaimedRow} (proceeds : world.worker = proceed rows) :
    ∃ next, RunsBy (World.step config) (Recovery opening now) world next ∧ next.worker = .idle ∧
      Advances now world next ∧ dueAt now next.db ⊆ dueAt now world.db := by
  induction rows generalizing world with
  | nil => exact ⟨world, .stay world, proceeds, .refl now world, fun _ member => member⟩
  | cons row rest inductionHypothesis =>
    obtain ⟨middle, served, goesOn, outcome⟩ : ∃ middle,
        RunsBy (World.step config) (Recovery opening now) world middle ∧ middle.worker = proceed rest ∧
          Served now row world middle := by
      by_cases short : balanceLeft opening row.payload.key world < row.payload.days
      · exact recoverable.serveShort config opening now proceeds short
      · exact recoverable.serveCovered config opening now proceeds short
    obtain ⟨next, runs, idle, advances, fewer⟩ := inductionHypothesis (recoverable.runsBy served) goesOn
    have here := outcome.advances recoverable.stored proceeds goesOn
    exact ⟨next, served.trans runs, idle, here.trans advances, fun _ member => outcome.due _ (fewer member)⟩

/-- A worker that takes rows takes one of those that are due. -/
theorem exists_mem_dueRows (takesRows : config.outboxBatchSize ≠ 0) (someDue : dueAt now db ≠ []) :
    ∃ row, row ∈ dueRows config now db := by
  apply List.exists_mem_of_ne_nil
  change (if config.outboxBatchSize < 0 then dueAt now db else
    (dueAt now db).take config.outboxBatchSize.toNat) ≠ []
  split
  · exact someDue
  · rw [Ne, List.take_eq_nil_iff, not_or]
    exact ⟨by omega, someDue⟩

/-- A row that is due after `claimDue` was due before, and was not claimed. -/
theorem claimDue_due {stored : OutboxRow} (due : stored ∈ dueAt now (claimDue config now db).2) :
    stored ∈ dueAt now db ∧ stored ∉ dueRows config now db := by
  obtain ⟨member, pending, time⟩ := mem_dueAt.mp due
  obtain ⟨old, oldIn, ⟨_, rfl⟩ | ⟨missed, rfl⟩⟩ := SerialTable.exists_of_mem_update member
  · cases pending
  · refine ⟨mem_dueAt.mpr ⟨oldIn, pending, time⟩, ?_⟩
    intro claimed
    exact of_decide_eq_false missed (List.mem_map_of_mem claimed)

theorem Advances.claims (idle : world.worker = .idle) : Advances now world { world with
    db := (claimDue config now world.db).2
    worker := proceed ((dueRows config now world.db).map OutboxRow.claimed) } := by
  refine ⟨fun _ left => left, ?_⟩
  intro id way
  cases way with
  | left left => exact .left left
  | held row isHeld own =>
    rw [idle] at isHeld
    cases isHeld
  | due row isDue own =>
    -- a row that is due is claimed now, or stays due
    by_cases claimed : row.id ∈ (dueRows config now world.db).map OutboxRow.id
    · obtain ⟨taken, takenIn, sameId⟩ := List.mem_map.mp claimed
      obtain rfl := world.db.hcmOutbox.eq_of_key (mem_dueRows takenIn).1 (mem_dueAt.mp isDue).1 sameId
      exact .held taken.claimed (by rw [held_proceed]; exact List.mem_map_of_mem takenIn) own
    · obtain ⟨member, waits⟩ := mem_dueAt.mp isDue
      refine .due row (mem_dueAt.mpr ⟨?_, waits⟩) own
      exact SerialTable.mem_update_of_miss member (decide_eq_false claimed)

/-- A tick with its batch leaves fewer rows due. -/
theorem Recoverable.tick (recoverable : Recoverable world) (takesRows : config.outboxBatchSize ≠ 0)
    (opening : Key → ℚ) (idle : world.worker = .idle) (someDue : dueAt now world.db ≠ []) :
    ∃ next, RunsBy (World.step config) (Recovery opening now) world next ∧ next.worker = .idle ∧
      Advances now world next ∧ (dueAt now next.db).length < (dueAt now world.db).length := by
  have claimed : World.step config world (.tick now) = some { world with
      db := (claimDue config now world.db).2
      worker := proceed ((dueRows config now world.db).map OutboxRow.claimed) } := by
    simp [World.step, idle, HcmOutboxWorker.tick, claimDue]
  obtain ⟨next, runs, idleAgain, advances, fewer⟩ :=
    (recoverable.step claimed).serveAll config opening now rfl
  have ticks : RunsBy (World.step config) (Recovery opening now) world _ := .once claimed rfl
  refine ⟨next, ticks.trans runs, idleAgain, (Advances.claims idle).trans advances, ?_⟩
  -- the rows due afterwards are, with one that was claimed, among those due before
  obtain ⟨row, rowIn⟩ := exists_mem_dueRows takesRows someDue
  have distinct : (row :: dueAt now next.db).Nodup := by
    refine List.nodup_cons.mpr ⟨fun stillDue => (claimDue_due (fewer stillDue)).2 rowIn, ?_⟩
    exact (List.Nodup.of_map _ next.db.hcmOutbox.unique).filter _
  have among : row :: dueAt now next.db ⊆ dueAt now world.db := by
    rw [List.cons_subset]
    exact ⟨mem_dueAt.mpr (mem_dueRows rowIn), fun _ member => (claimDue_due (fewer member)).1⟩
  exact (List.subperm_of_subset distinct among).length_le

/-- Tick after tick, until no row is due. -/
theorem Recoverable.drain (recoverable : Recoverable world) (takesRows : config.outboxBatchSize ≠ 0)
    (idle : world.worker = .idle) (opening : Key → ℚ) (now : Int) :
    ∃ final, RunsBy (World.step config) (Recovery opening now) world final ∧ final.worker = .idle ∧
      Advances now world final ∧ dueAt now final.db = [] := by
  have descends : ∀ later : World, Recoverable later ∧ later.worker = .idle ∧ Advances now world later →
      dueAt now later.db = [] ∨ ∃ next, RunsBy (World.step config) (Recovery opening now) later next ∧
        (Recoverable next ∧ next.worker = .idle ∧ Advances now world next) ∧
        (dueAt now next.db).length < (dueAt now later.db).length := by
    rintro later ⟨recoverable, idle, advances⟩
    by_cases noneDue : dueAt now later.db = []
    · exact .inl noneDue
    · obtain ⟨next, runs, idleAgain, advancesOn, fewer⟩ := recoverable.tick takesRows opening idle noneDue
      exact .inr ⟨next, runs, ⟨recoverable.runsBy runs, idleAgain, advances.trans advancesOn⟩, fewer⟩
  obtain ⟨final, runs, ⟨_, idleAtEnd, advances⟩, noneDue⟩ :=
    RunsBy.of_rank (fun later : World => (dueAt now later.db).length) descends
      ⟨recoverable, idle, .refl now world⟩
  exact ⟨final, runs, idleAtEnd, advances, noneDue⟩

/-! ## Resets -/

theorem resetToPending_due (later : 0 ≤ now) {rowId : Nat} {stored : OutboxRow}
    (member : stored ∈ db.hcmOutbox.rows) (waits : stored ∈ dueAt now db ∨ stored.id = rowId) :
    ∃ row ∈ dueAt now (resetToPending rowId db), row.requestId = stored.requestId := by
  by_cases own : stored.id = rowId
  · exact ⟨_, mem_dueAt.mpr ⟨SerialTable.mem_update_of_hit member (decide_eq_true own), rfl, later⟩, rfl⟩
  · have isDue := mem_dueAt.mp (waits.resolve_right own)
    exact ⟨stored, mem_dueAt.mpr ⟨updateRow_other member own, isDue.2⟩, rfl⟩

theorem Advances.reset (later : 0 ≤ now) (rowId : Nat) :
    Advances now world { world with db := resetToPending rowId world.db } := by
  refine ⟨fun _ left => left, ?_⟩
  intro id way
  cases way with
  | left left => exact .left left
  | held row isHeld own => exact .held row isHeld own
  | due row isDue own =>
    obtain ⟨reset, resetDue, same⟩ := resetToPending_due later (mem_dueAt.mp isDue).1 (.inl isDue)
    exact .due reset resetDue (same.trans own)

/-- A request has left APPROVED once a row of it is reset and no row is due any more. -/
theorem Recoverable.deliver (recoverable : Recoverable world) (takesRows : config.outboxBatchSize ≠ 0)
    (idle : world.worker = .idle) (opening : Key → ℚ) (later : 0 ≤ now)
    (approved : requestState id world.db = some .approved) :
    ∃ final, RunsBy (World.step config) (Recovery opening now) world final ∧ final.worker = .idle ∧
      Advances now world final ∧ requestState id final.db ≠ some .approved := by
  obtain ⟨row, member, own⟩ := recoverable.queued id approved
  have reset : World.step config world (.call (.resetToPending row.id)) =
      some { world with db := resetToPending row.id world.db } := by
    simp [World.step, idle, WorkerState.yields, Call.offered, Call.exec]
  obtain ⟨final, runs, idleAtEnd, advances, noneDue⟩ :=
    (recoverable.step reset).drain takesRows idle opening now
  obtain ⟨waiting, isDue, same⟩ := resetToPending_due later member (.inr rfl)
  have resets : RunsBy (World.step config) (Recovery opening now) world _ := .once reset trivial
  refine ⟨final, resets.trans runs, idleAtEnd, (Advances.reset later row.id).trans advances, ?_⟩
  exact (advances.onItsWay id (.due waiting isDue (same.trans own))).arrived idleAtEnd noneDue

/-- One request after the other. -/
theorem Recoverable.deliverAll (recoverable : Recoverable world) (takesRows : config.outboxBatchSize ≠ 0)
    (idle : world.worker = .idle) (opening : Key → ℚ) (later : 0 ≤ now) (ids : List String) :
    ∃ final, RunsBy (World.step config) (Recovery opening now) world final ∧ final.worker = .idle ∧
      Advances now world final ∧ ∀ id ∈ ids, requestState id final.db ≠ some .approved := by
  induction ids with
  | nil => exact ⟨world, .stay world, idle, .refl now world, by simp⟩
  | cons first rest inductionHypothesis =>
    obtain ⟨middle, runs, idleMidway, advances, left⟩ := inductionHypothesis
    by_cases stays : requestState first middle.db = some .approved
    · obtain ⟨final, runsOn, idleAtEnd, advancesOn, ownLeft⟩ :=
        (recoverable.runsBy runs).deliver takesRows idleMidway opening later stays
      refine ⟨final, runs.trans runsOn, idleAtEnd, advances.trans advancesOn, ?_⟩
      rw [List.forall_mem_cons]
      exact ⟨ownLeft, fun id member => advancesOn.left id (left id member)⟩
    -- it left on the way of another one, or was not APPROVED at all
    · refine ⟨middle, runs, idleMidway, advances, ?_⟩
      rw [List.forall_mem_cons]
      exact ⟨stays, left⟩

/-! ## What a step of a recovery does -/

/-- Everything that a step of a recovery can do to the requests and to HCM's balances. -/
inductive RecoveryStep (opening : Key → ℚ) (world next : World) : Prop
  | quiet (requests : next.db.requests = world.db.requests) (debits : next.debits = world.debits)
      (calling : next.worker.calling = world.worker.calling)
  | sends (row : ClaimedRow) (held : row ∈ world.worker.held) (uncalled : world.worker.calling = none)
      (covered : row.payload.days ≤ balanceLeft opening row.payload.key world)
      (requests : next.db.requests = world.db.requests) (debits : next.debits = world.debits)
      (calling : next.worker.calling = some row)
  | reviews (row : ClaimedRow) (settlement : Settlement) (held : row ∈ world.worker.held)
      (uncalled : world.worker.calling = none)
      (short : balanceLeft opening row.payload.key world < row.payload.days)
      (reaction : Reaction row world.db .reviewRequired settlement next.db)
      (debits : next.debits = world.debits) (calling : next.worker.calling = none)
  | debits (call : Consume) (unknown : world.debited call.row.payload.externalRequestId = false)
      (inTurn : requestState call.row.requestId world.db = some .approved →
        ∃ row ∈ world.worker.calling, row.requestId = call.row.requestId)
      (same : next = { world with debits := world.debits ++ [call] })
  | accepted (row : ClaimedRow) (settlement : Settlement) (called : world.worker.calling = some row)
      (taken : TakenFor row.requestId world)
      (reaction : Reaction row world.db .consumed settlement next.db)
      (debits : next.debits = world.debits) (calling : next.worker.calling = none)

theorem recoveryStep (recovers : Recovery opening now world event)
    (stepped : World.step config world event = some next) : RecoveryStep opening world next := by
  cases step_stepped stepped with
  | call call yields offered =>
    cases call with
    | resetToPending id => exact .quiet rfl rfl rfl
    | _ => exact recovers.elim
  | claimed now idle => exact .quiet rfl rfl (by rw [idle]; exact calling_proceed _)
  | draining now => exact .quiet rfl rfl rfl
  | sends clock reply row rest at_await unknown =>
    have told := recovers.2 row (by simp [at_await, WorkerState.asking])
    rw [insufficientView_eq, told] at unknown
    have covered : ¬ balanceLeft opening row.payload.key world < row.payload.days := by
      simpa using unknown
    refine .sends row ?_ ?_ (not_lt.mp covered) rfl rfl rfl
    · simp [at_await, WorkerState.held]
    · rw [at_await]
      rfl
  | reviews clock reply row rest balance settlement final at_await insufficient reaction =>
    have told := recovers.2 row (by simp [at_await, WorkerState.asking])
    rw [insufficientView_eq, told] at insufficient
    obtain ⟨isTold, low⟩ := Option.filter_eq_some_iff.mp insufficient
    cases isTold
    have short : balanceLeft opening row.payload.key world < row.payload.days := of_decide_eq_true low
    refine .reviews row settlement ?_ ?_ short reaction rfl rfl
    · simp [at_await, WorkerState.held]
    · rw [at_await]
      rfl
  | repeated number call found known => exact .quiet rfl rfl rfl
  | debits number call found unknown => exact .debits call unknown (recovers call (by simp [found])) rfl
  | accepted clock reply body row rest settlement final at_await answer reaction =>
    have called : world.worker.calling = some row := by simp [at_await, WorkerState.calling]
    exact .accepted row settlement called (recovers.2.2 row called) reaction rfl rfl
  | refused clock reply failure row rest settlement final at_await answer permanent reaction =>
    have accepted := recovers.2.1
    rw [accepts_of_error answer] at accepted
    cases accepted
  | lost clock reply failure row rest at_await answer transient =>
    have accepted := recovers.2.1
    rw [accepts_of_error answer] at accepted
    cases accepted
  | done time random row rest escaping at_end =>
    exact .quiet rfl rfl (by rw [at_end]; exact calling_afterSettle _ _)
  | retries time random row rest message at_end =>
    refine .quiet (scheduleRetry_requests config time random row.id message world.db) rfl ?_
    rw [at_end]
    exact calling_proceed rest
  | crash => exact recovers.elim
  | crashInBatch clocks batch rows escalations yields => exact recovers.elim

/-! ## What a recovery leaves alone -/

/-- The columns of a request that a recovery leaves alone. -/
def termsOf (id : String) (db : Db) : Option (Key × ℚ × Option String) :=
  (db.requests.find? id).map fun request => (request.key, request.days, request.externalRequestId)

theorem termsOf_congr (same : after.requests = db.requests) (id : String) : termsOf id after = termsOf id db := by
  rw [termsOf, same, termsOf]

theorem Reaction.termsOf {row : ClaimedRow} {final : Db} {toState : State} {settlement : Settlement}
    (reaction : Reaction row db toState settlement final) (elsewhere : toState ≠ .approved) (id : String) :
    termsOf id final = termsOf id db := by
  cases reaction with
  | moved before now patch final found state moved =>
    by_cases own : id = before.id
    · subst own
      simp [TimeOff.termsOf, moved.find?_self, moved.found, TimeOffRepository.patched,
        (moved.unqueued elsewhere).1]
    · rw [TimeOff.termsOf, moved.find?_other own, TimeOff.termsOf]
  | already state => rfl
  | elsewhere settlement ends different unapproved => rfl

/-- What the state that a recovery has reached keeps of the one it began in. -/
structure KeepsFrom (start world : World) : Prop where
  terms : ∀ id, termsOf id world.db = termsOf id start.db
  debits : start.debits <+: world.debits
  left : ∀ id, requestState id start.db ≠ some .approved →
    requestState id world.db = requestState id start.db

theorem KeepsFrom.reacts {row : ClaimedRow} {toState : State} {settlement : Settlement}
    (keeps : KeepsFrom start world) (reaction : Reaction row world.db toState settlement next.db)
    (elsewhere : toState ≠ .approved) (debits : next.debits = world.debits) : KeepsFrom start next := by
  refine ⟨fun id => (reaction.termsOf elsewhere id).trans (keeps.terms id), by rw [debits]; exact keeps.debits, ?_⟩
  intro id left
  have same := keeps.left id left
  rw [reaction.spares (by rw [same]; exact left), same]

theorem KeepsFrom.unmoved (keeps : KeepsFrom start world) (requests : next.db.requests = world.db.requests)
    (debits : next.debits = world.debits) : KeepsFrom start next :=
  ⟨fun id => (termsOf_congr requests id).trans (keeps.terms id), by rw [debits]; exact keeps.debits,
    fun id left => (requestState_congr requests id).trans (keeps.left id left)⟩

theorem KeepsFrom.step (keeps : KeepsFrom start world) (step : RecoveryStep opening world next) :
    KeepsFrom start next := by
  cases step with
  | quiet requests debits calling => exact keeps.unmoved requests debits
  | sends row held uncalled covered requests debits calling => exact keeps.unmoved requests debits
  | reviews row settlement held uncalled short reaction debits calling =>
    exact keeps.reacts reaction (by simp) debits
  | accepted row settlement called taken reaction debits calling => exact keeps.reacts reaction (by simp) debits
  | debits call unknown inTurn same =>
    subst same
    exact ⟨keeps.terms, keeps.debits.trans (List.prefix_append _ _), keeps.left⟩

/-! ## HCM's balances in a recovery -/

/-- HCM takes the days of a request once. -/
theorem Accounted.distinctDebits (accounted : Accounted world) :
    (world.debits.map fun debit => debit.row.requestId).Nodup := by
  rw [List.Nodup, List.pairwise_map]
  apply accounted.once.imp_of_mem
  intro earlier later earlierIn laterIn differ same
  obtain ⟨request, own, found, has, payload⟩ := accounted.sent earlier (accounted.debits earlier earlierIn)
  obtain ⟨other, otherOwn, foundOther, otherHas, otherPayload⟩ :=
    accounted.sent later (accounted.debits later laterIn)
  rw [same] at found
  cases found.symm.trans foundOther
  cases has.symm.trans otherHas
  exact differ (by rw [payload, otherPayload])

theorem Recoverable.debit_nonneg (recoverable : Recoverable world) {debit : Consume}
    (member : debit ∈ world.debits) : 0 ≤ debit.row.payload.days := by
  have speaks := recoverable.accounted.sent debit (recoverable.accounted.debits debit member)
  obtain ⟨n, _, days⟩ := speaks.whole recoverable.consistent.coherent recoverable.consistent.whole
  rw [days]
  exact Nat.cast_nonneg n

/-- HCM's balance only falls. -/
theorem Recoverable.balanceLeft_le (recoverable : Recoverable world) (keeps : KeepsFrom start world) (key : Key) :
    balanceLeft opening key world ≤ balanceLeft opening key start := by
  obtain ⟨later, split⟩ := keeps.debits
  have nonneg : 0 ≤ daysTaken key later := by
    apply daysTaken_nonneg
    intro debit member
    exact recoverable.debit_nonneg (split ▸ List.mem_append_right _ member)
  rw [balanceLeft, hcmBalance, ← split, daysTaken_append, balanceLeft, hcmBalance]
  linarith

/-- It falls by the days of the others at most, as long as the days of the request itself are not taken. -/
theorem Recoverable.le_balanceLeft (recoverable : Recoverable world) (opening : Key → ℚ) (began : Recoverable start)
    (keeps : KeepsFrom start world) (untaken : TakenFor request.id world → TakenFor request.id start) :
    balanceLeft opening request.key start - daysBesides request start ≤
      balanceLeft opening request.key world := by
  obtain ⟨later, split⟩ := keeps.debits
  have distinct := recoverable.accounted.distinctDebits
  rw [← split, List.map_append, List.nodup_append] at distinct
  obtain ⟨_, distinctLater, apart⟩ := distinct
  -- whose days were taken since had not been taken before
  have fresh : ∀ debit ∈ later, ¬ TakenFor debit.row.requestId start := by
    intro debit member ⟨earlier, earlierIn, same⟩
    exact apart _ (List.mem_map_of_mem earlierIn) _ (List.mem_map_of_mem member) same
  have others : daysTaken request.key later ≤ daysBesides request start := by
    apply sum_le_sum_of_counterparts (fun debit : Consume => debit.row.requestId) RequestRow.id
    · exact (List.filter_sublist.map _).nodup distinctLater
    · intro debit selected
      obtain ⟨member, onKey⟩ := List.mem_filter.mp selected
      have debited : debit ∈ world.debits := split ▸ List.mem_append_right _ member
      obtain ⟨row, externalRequestId, found, has, payload⟩ :=
        recoverable.accounted.sent debit (recoverable.accounted.debits debit debited)
      have terms := keeps.terms debit.row.requestId
      rw [termsOf, found, Option.map_some, termsOf, eq_comm, Option.map_eq_some_iff] at terms
      obtain ⟨before, foundBefore, sameTerms⟩ := terms
      simp only [Prod.mk.injEq] at sameTerms
      obtain ⟨sameKey, sameDays, sameExternal⟩ := sameTerms
      obtain ⟨beforeIn, isNamed⟩ := Table.find?_eq_some.mp foundBefore
      have beforeId : before.id = debit.row.requestId := isNamed
      have other : before.id ≠ request.id := by
        intro own
        apply fresh debit member
        rw [← beforeId, own]
        exact untaken ⟨debit, debited, beforeId.symm.trans own⟩
      refine ⟨before, List.mem_filter.mpr ⟨beforeIn, ?_⟩, beforeId, ?_⟩
      · have keyed : before.key = request.key := by
          rw [sameKey, ← of_decide_eq_true onKey, payload]
          rfl
        simp only [decide_eq_true_eq]
        exact ⟨keyed, other, by rw [sameExternal, has]; rfl, by rw [beforeId]; exact fresh debit member⟩
      · rw [sameDays, payload]
        rfl
    · intro row listed
      exact (began.consistent.meetsSchema.requestDays row (List.mem_of_mem_filter listed)).le
  rw [balanceLeft, hcmBalance, balanceLeft, hcmBalance, ← split, daysTaken_append]
  linarith

/-! ## The course of a request -/

/-- Where a request is that was APPROVED when the recovery began. -/
inductive Course (opening : Key → ℚ) (start : World) (request : RequestRow) (world : World) : Prop
  | waiting (approved : requestState request.id world.db = some .approved)
      (uncalled : ∀ row ∈ world.worker.calling, row.requestId ≠ request.id)
      (untaken : TakenFor request.id world → TakenFor request.id start)
  | called (approved : requestState request.id world.db = some .approved) (row : ClaimedRow)
      (calling : world.worker.calling = some row) (own : row.requestId = request.id)
      (covered : request.days ≤ balanceLeft opening request.key start)
  | completed (completed : Completed request.id world)
      (covered : request.days ≤ balanceLeft opening request.key start)
  | reviewed (reviewed : requestState request.id world.db = some .reviewRequired)
      (short : balanceLeft opening request.key start < request.days + daysBesides request start)

/-- A row in hand says of its request what the request said when the recovery began. -/
theorem Recoverable.held_payload (recoverable : Recoverable world) (keeps : KeepsFrom start world)
    (found : start.db.requests.find? request.id = some request) {row : ClaimedRow}
    (held : row ∈ world.worker.held) (own : row.requestId = request.id) :
    row.payload.key = request.key ∧ row.payload.days = request.days := by
  obtain ⟨later, externalRequestId, foundLater, _, payload⟩ := recoverable.accounted.held row held
  have terms := keeps.terms request.id
  rw [own] at foundLater
  rw [termsOf, foundLater, termsOf, found] at terms
  simp only [Option.map_some, Option.some.injEq, Prod.mk.injEq] at terms
  exact ⟨by rw [payload]; exact terms.1, by rw [payload]; exact terms.2.1⟩

theorem RecoveryStep.spares (step : RecoveryStep opening world next)
    (left : requestState id world.db ≠ some .approved) : requestState id next.db = requestState id world.db := by
  cases step with
  | quiet requests debits calling => exact requestState_congr requests id
  | sends row held uncalled covered requests debits calling => exact requestState_congr requests id
  | reviews row settlement held uncalled short reaction debits calling => exact reaction.spares left
  | accepted row settlement called taken reaction debits calling => exact reaction.spares left
  | debits call unknown inTurn same => rw [same]

theorem RecoveryStep.debits_prefix (step : RecoveryStep opening world next) : world.debits <+: next.debits := by
  cases step with
  | quiet requests debits calling => rw [debits]
  | sends row held uncalled covered requests debits calling => rw [debits]
  | reviews row settlement held uncalled short reaction debits calling => rw [debits]
  | accepted row settlement called taken reaction debits calling => rw [debits]
  | debits call unknown inTurn same =>
    rw [same]
    exact List.prefix_append _ _

theorem TakenFor.mono (taken : TakenFor id world) (later : world.debits <+: next.debits) : TakenFor id next := by
  obtain ⟨debit, member, own⟩ := taken
  exact ⟨debit, later.subset member, own⟩

/-- The call of a request is sent only if HCM's balance covers its days, and it goes to review only if
HCM's balance is short of them. -/
theorem Course.step_waiting (recoverable : Recoverable world) (began : Recoverable start)
    (keeps : KeepsFrom start world) (found : start.db.requests.find? request.id = some request)
    (step : RecoveryStep opening world next) (approved : requestState request.id world.db = some .approved)
    (uncalled : ∀ row ∈ world.worker.calling, row.requestId ≠ request.id)
    (untaken : TakenFor request.id world → TakenFor request.id start) : Course opening start request next := by
  have untakenStill (same : next.debits = world.debits) : TakenFor request.id next → TakenFor request.id start :=
    fun taken => untaken (taken.mono (by rw [same]))
  cases step with
  | quiet requests debits calling =>
    refine .waiting ((requestState_congr requests _).trans approved) ?_ (untakenStill debits)
    rw [calling]
    exact uncalled
  | sends row held noneCalled covered requests debits calling =>
    have stillApproved := (requestState_congr requests _).trans approved
    by_cases own : row.requestId = request.id
    · obtain ⟨key, days⟩ := recoverable.held_payload keeps found held own
      rw [key, days] at covered
      exact .called stillApproved row calling own (covered.trans (recoverable.balanceLeft_le keeps request.key))
    · refine .waiting stillApproved ?_ (untakenStill debits)
      rw [calling]
      rintro other isRow
      cases isRow
      exact own
  | reviews row settlement held noneCalled short reaction debits calling =>
    by_cases own : row.requestId = request.id
    · obtain ⟨key, days⟩ := recoverable.held_payload keeps found held own
      rw [key, days] at short
      have least := recoverable.le_balanceLeft opening began keeps untaken
      refine .reviewed ?_ (by linarith)
      rw [← own] at approved ⊢
      exact reaction.reaches approved
    · exact .waiting ((reaction.spares_other own).trans approved) (by simp [calling]) (untakenStill debits)
  | debits call unknown inTurn same =>
    subst same
    refine .waiting approved uncalled ?_
    intro taken
    obtain ⟨debit, member, own⟩ := taken
    obtain old | new := List.mem_append.mp member
    · exact untaken ⟨debit, old, own⟩
    -- a call of the request reaches HCM at its turn only
    · obtain rfl := List.mem_singleton.mp new
      obtain ⟨row, isCalled, sameRequest⟩ := inTurn (by rw [own]; exact approved)
      exact absurd (sameRequest.trans own) (uncalled row isCalled)
  | accepted row settlement called taken reaction debits calling =>
    have stillApproved := (reaction.spares_other (uncalled row called)).trans approved
    exact .waiting stillApproved (by simp [calling]) (untakenStill debits)

theorem Course.step_called (step : RecoveryStep opening world next)
    (approved : requestState request.id world.db = some .approved) {row : ClaimedRow}
    (isCalled : world.worker.calling = some row) (own : row.requestId = request.id)
    (covered : request.days ≤ balanceLeft opening request.key start) : Course opening start request next := by
  cases step with
  | quiet requests debits calling =>
    exact .called ((requestState_congr requests _).trans approved) row (calling.trans isCalled) own covered
  | sends other held noneCalled isCovered requests debits calling => cases noneCalled.symm.trans isCalled
  | reviews other settlement held noneCalled short reaction debits calling => cases noneCalled.symm.trans isCalled
  | debits call unknown inTurn same =>
    subst same
    exact .called approved row isCalled own covered
  | accepted other settlement called taken reaction debits calling =>
    cases called.symm.trans isCalled
    rw [← own] at approved
    refine .completed ⟨?_, ?_⟩ covered
    · rw [← own]
      exact reaction.reaches approved
    · rw [← own]
      exact taken.mono (by rw [debits])

theorem Course.step (course : Course opening start request world) (recoverable : Recoverable world)
    (began : Recoverable start) (keeps : KeepsFrom start world)
    (found : start.db.requests.find? request.id = some request) (step : RecoveryStep opening world next) :
    Course opening start request next := by
  cases course with
  | waiting approved uncalled untaken =>
    exact step_waiting recoverable began keeps found step approved uncalled untaken
  | called approved row calling own covered => exact step_called step approved calling own covered
  | completed completed covered =>
    refine .completed ⟨?_, completed.taken.mono step.debits_prefix⟩ covered
    rw [step.spares (by rw [completed.consumed]; simp)]
    exact completed.consumed
  | reviewed reviewed short =>
    refine .reviewed ?_ short
    rw [step.spares (by rw [reviewed]; simp)]
    exact reviewed

/-! ## Every recovery -/

/-- What every step of a recovery that began in this state preserves. -/
structure Recovering (opening : Key → ℚ) (start world : World) : Prop where
  recoverable : Recoverable world
  keeps : KeepsFrom start world
  course : ∀ request ∈ start.db.requests.rows, request.state = .approved → Course opening start request world

theorem Recovering.begins {restarted : World} (recoverable : Recoverable restarted)
    (restarts : World.step config start .crash = some restarted) : Recovering opening start restarted := by
  cases restarts
  refine ⟨recoverable, ⟨fun _ => rfl, List.prefix_rfl, fun _ _ => rfl⟩, ?_⟩
  intro request member approved
  have found : start.db.requests.find? request.id = some request := Table.find?_eq_some.mpr ⟨member, rfl⟩
  exact .waiting (requestState_eq_some.mpr ⟨request, found, approved⟩) (by simp [WorkerState.calling]) id

theorem Recovering.step (recovering : Recovering opening start world) (began : Recoverable start)
    (recovers : Recovery opening now world event) (stepped : World.step config world event = some next) :
    Recovering opening start next := by
  have step := recoveryStep recovers stepped
  refine ⟨recovering.recoverable.step stepped, recovering.keeps.step step, ?_⟩
  intro request member approved
  have found : start.db.requests.find? request.id = some request := Table.find?_eq_some.mpr ⟨member, rfl⟩
  exact (recovering.course request member approved).step recovering.recoverable began recovering.keeps found step

end TimeOff
