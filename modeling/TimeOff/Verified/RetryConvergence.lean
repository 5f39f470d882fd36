import TimeOff.Verified.HcmAgreement

/-! # Retrying a consume that HCM has applied

Before each consume call the worker reads HCM's balance and bails out when it is
below the days it is about to take.  After the debit that balance is lower by
just these days.  So a retry gets through to the call that HCM would answer with
2xx exactly when the rest still covers the request, or when the balance cannot
be read.
-/

set_option autoImplicit false

namespace TimeOff

open TimeOff.Lib HcmOutboxService HcmOutboxWorker

/-- The row whose `getBalance` the worker awaits. -/
def WorkerState.asking : WorkerState → Option ClaimedRow
  | awaitBalance row _ => some row
  | _ => none

/-- The row that the worker is about to settle, and how. -/
def WorkerState.ending : WorkerState → Option (ClaimedRow × Settlement)
  | settling row _ settlement => some (row, settlement)
  | _ => none

/-- HCM has taken days on behalf of the request. -/
def TakenFor (id : String) (world : World) : Prop := ∃ call ∈ world.debits, call.row.requestId = id

instance (id : String) (world : World) : Decidable (TakenFor id world) :=
  inferInstanceAs (Decidable (∃ call ∈ world.debits, _))

section Environment

variable (id : String) (days held : ℚ)

/-- What is left of the balance that HCM held. -/
def remaining (world : World) : ℚ := if TakenFor id world then held - days else held

/-- The assumptions on HCM and on the other users: `getBalance` fails or tells what is left; the
consume call is answered with 2xx once the days are taken, or with an error that is no refusal; no
other call touches the request. -/
def Steady (world : World) : Event → Prop
  | .call call => (call.exec world.db).requests.find? id = world.db.requests.find? id
  | .crashInBatch clocks batch rows escalations =>
    (interruptedBatch clocks batch rows escalations world.db).requests.find? id =
      world.db.requests.find? id
  | .balanceReply _ reply => ∀ row ∈ world.worker.asking, row.requestId = id →
      ∀ balance ∈ readable row.payload.key reply, balance = remaining id days held world
  | .consumeReply _ reply => ∀ row ∈ world.worker.calling, row.requestId = id →
      refuses reply = false ∧ (accepts reply = true → TakenFor id world)
  | _ => True

instance (world : World) : (event : Event) → Decidable (Steady id days held world event)
  | .call _ => inferInstanceAs (Decidable (_ = _))
  | .crashInBatch .. => inferInstanceAs (Decidable (_ = _))
  | .balanceReply .. => inferInstanceAs (Decidable (∀ row ∈ world.worker.asking, _))
  | .consumeReply .. => inferInstanceAs (Decidable (∀ row ∈ world.worker.calling, _))
  | .tick _ | .hcmHandles _ | .settle .. | .crash => isTrue trivial

/-- HCM answers `getBalance` for a row of the request whose days it has taken. -/
def ReadAfterDebit (world : World) : Event → Prop
  | .balanceReply _ reply => ∃ row ∈ world.worker.asking, row.requestId = id ∧ TakenFor id world ∧
      readable row.payload.key reply = some (held - days)
  | _ => False

end Environment

/-- What is remembered of the attempts: did the one at hand begin after the debit, with every call of
it answered so far, and which row did the step just made settle after such an attempt? -/
structure Attempt where
  answered : Bool
  settled : Option Nat

/-- No attempt so far. -/
def Attempt.none : Attempt := ⟨false, Option.none⟩

def recordAttempt (id : String) (attempt : Attempt) (world : World) (event : Event) (_ : World) :
    Attempt :=
  match event, world.worker with
  | .balanceReply _ reply, .awaitBalance row _ =>
    ⟨row.requestId = id ∧ TakenFor id world ∧ (readable row.payload.key reply).isSome, none⟩
  | .consumeReply _ reply, .awaitConsume .. => ⟨attempt.answered && accepts reply, none⟩
  | .settle .., .settling row _ _ =>
    ⟨false, if attempt.answered = true ∧ row.requestId = id then some row.id else none⟩
  | _, _ => ⟨attempt.answered, none⟩

/-- Once HCM has taken the days, the request is neither in REVIEW_REQUIRED nor HCM_FAILED, and an
attempt in which HCM answers all that it is asked ends with the request CONSUMED and the row DONE. -/
structure Converges (id : String) (state : World × Attempt) : Prop where
  standing : TakenFor id state.1 → requestState id state.1.db ≠ some .reviewRequired ∧
    requestState id state.1.db ≠ some .hcmFailed
  ending : ∀ row settlement, (row, settlement) ∈ state.1.worker.ending → row.requestId = id →
    state.2.answered = true →
    settlement = .done none ∧ requestState id state.1.db = some .consumed
  settled : ∀ rowId ∈ state.2.settled, requestState id state.1.db = some .consumed ∧
    ∃ stored ∈ state.1.db.hcmOutbox.rows, stored.id = rowId ∧ stored.status = .done

instance (id : String) : DecidablePred (Converges id) := fun state =>
  decidable_of_iff
    ((TakenFor id state.1 → requestState id state.1.db ≠ some .reviewRequired ∧
        requestState id state.1.db ≠ some .hcmFailed) ∧
      (∀ ending ∈ state.1.worker.ending, ending.1.requestId = id → state.2.answered = true →
        ending.2 = .done none ∧ requestState id state.1.db = some .consumed) ∧
      ∀ rowId ∈ state.2.settled, requestState id state.1.db = some .consumed ∧
        ∃ stored ∈ state.1.db.hcmOutbox.rows, stored.id = rowId ∧ stored.status = .done)
    ⟨fun ⟨standing, ending, settled⟩ => ⟨standing, fun row settlement => ending (row, settlement), settled⟩,
      fun ⟨standing, ending, settled⟩ => ⟨standing, fun last => ending last.1 last.2, settled⟩⟩

variable {config : OutboxConfig} {world next : World} {event : Event} {id : String} {days held : ℚ}

/-! ## The answers as the worker reads them -/

theorem insufficientView_eq (row : ClaimedRow) (reply : Reply BalanceView) :
    insufficientView row reply =
      (readable row.payload.key reply).filter fun balance => balance < row.payload.days := by
  simp only [insufficientView, readable]
  cases HcmClient.getBalance row.payload.key reply with
  | error failure => rfl
  | ok view =>
    cases view with
    | none => rfl
    | some view => rfl

theorem TakenFor.step (taken : TakenFor id world) (stepped : Stepped config world event next) :
    TakenFor id next := by
  obtain ⟨call, debited, own⟩ := taken
  obtain same | ⟨_, _, _, _, _, rfl⟩ := stepped.debits_grow
  · exact ⟨call, by rw [same]; exact debited, own⟩
  · exact ⟨call, List.mem_append_left _ debited, own⟩

/-- The worker reads off a true answer that the balance is below the days of the row at hand. -/
structure ReadsLow (id : String) (days held : ℚ) (world : World) (event : Event) (row : ClaimedRow) :
    Prop where
  reads : ∃ clock reply, event = .balanceReply clock reply ∧
    readable row.payload.key reply = some (remaining id days held world)
  asking : world.worker.asking = some row
  own : row.requestId = id
  low : remaining id days held world < row.payload.days

theorem Steady.readsLow {clock : Clock} {reply : Reply BalanceView} {row : ClaimedRow}
    {rest : List ClaimedRow} {balance : ℚ} (steady : Steady id days held world (.balanceReply clock reply))
    (at_await : world.worker = .awaitBalance row rest) (own : row.requestId = id)
    (insufficient : insufficientView row reply = some balance) :
    ReadsLow id days held world (.balanceReply clock reply) row := by
  have asking : world.worker.asking = some row := by simp [at_await, WorkerState.asking]
  rw [insufficientView_eq, Option.filter_eq_some_iff] at insufficient
  obtain ⟨read, low⟩ := insufficient
  obtain rfl : balance = remaining id days held world := steady row asking own balance read
  exact ⟨⟨clock, reply, rfl, read⟩, asking, own, of_decide_eq_true low⟩

theorem WorkerState.asking_eq_some {worker : WorkerState} {row : ClaimedRow} :
    worker.asking = some row ↔ ∃ rest, worker = .awaitBalance row rest := by
  cases worker with
  | awaitBalance other rest => simp [asking]
  | idle | awaitConsume other rest | settling other rest settlement => simp [asking]

theorem WorkerState.held_of_asking {worker : WorkerState} {row : ClaimedRow}
    (asking : worker.asking = some row) : row ∈ worker.held := by
  obtain ⟨rest, rfl⟩ := asking_eq_some.mp asking
  exact List.mem_cons_self

/-! ## What a step does to the request -/

/-- In a steady environment only the worker moves the request, out of APPROVED: when it reads a
balance that is too low, and when HCM accepts the call. -/
inductive Turn (id : String) (days held : ℚ) (world next : World) (event : Event) : Prop
  | kept (same : requestState id next.db = requestState id world.db)
  | reviewed (row : ClaimedRow) (reviewed : requestState id next.db = some .reviewRequired)
      (low : ReadsLow id days held world event row)
  | consumed (consumed : requestState id next.db = some .consumed) (taken : TakenFor id world)

theorem Stepped.turn (stepped : Stepped config world event next)
    (steady : Steady id days held world event) : Turn id days held world next event := by
  cases stepped with
  | call call yields offered =>
    refine .kept ?_
    simp only [requestState]
    rw [steady]
  | crashInBatch clocks batch rows escalations yields =>
    refine .kept ?_
    simp only [requestState]
    rw [steady]
  | reviews clock reply row rest balance settlement final at_await insufficient reaction =>
    obtain same | ⟨own, _, reviewed⟩ := reaction.requestState_after id
    · exact .kept same
    · exact .reviewed row reviewed (steady.readsLow at_await own.symm insufficient)
  | accepted clock reply body row rest settlement final at_await answer reaction =>
    obtain same | ⟨own, _, consumed⟩ := reaction.requestState_after id
    · exact .kept same
    · have known := steady row (by simp [at_await, WorkerState.calling]) own.symm
      exact .consumed consumed (known.2 (accepts_of_ok answer))
  | refused clock reply failure row rest settlement final at_await answer permanent reaction =>
    obtain same | ⟨own, _, failed⟩ := reaction.requestState_after id
    · exact .kept same
    · have known := steady row (by simp [at_await, WorkerState.calling]) own.symm
      have refusal : refuses reply = true := by simp [refuses, answer, permanent]
      cases known.1.symm.trans refusal
  | retries now random row rest message at_end =>
    exact .kept (requestState_congr (scheduleRetry_requests _ _ _ _ _ _) id)
  | claimed | draining | sends | repeated | debits | lost | done | crash => exact .kept rfl

/-! ## The invariant -/

/-- What the attempts rest on: the request asks for its days, and leaves APPROVED only once HCM has
taken them. -/
structure Retrying (id : String) (days : ℚ) (state : World × Attempt) : Prop where
  accounted : Accounted state.1
  stored : HeldStored state.1
  asks : ∃ request, state.1.db.requests.find? id = some request ∧ request.days = days
  stands : requestState id state.1.db = some .approved ∨ TakenFor id state.1 ∧
    (requestState id state.1.db = some .consumed ∨ requestState id state.1.db = some .reviewRequired)
  answered : state.2.answered = true → TakenFor id state.1

theorem Retrying.held_days {attempt : Attempt} (retrying : Retrying id days (world, attempt))
    {row : ClaimedRow} (member : row ∈ world.worker.held) (own : row.requestId = id) :
    row.payload.days = days := by
  obtain ⟨request, found, asks⟩ := retrying.asks
  obtain ⟨other, _, foundOther, _, payload⟩ := retrying.accounted.held row member
  rw [own] at foundOther
  cases found.symm.trans foundOther
  rw [payload]
  exact asks

/-- Only the request's own debit brings the balance below its days. -/
theorem Retrying.taken_of_low {attempt : Attempt} (retrying : Retrying id days (world, attempt))
    (covered : days ≤ held) {row : ClaimedRow} (low : ReadsLow id days held world event row) :
    TakenFor id world ∧ held < 2 * days := by
  have below := low.low
  rw [retrying.held_days (WorkerState.held_of_asking low.asking) low.own, remaining] at below
  split at below
  next taken => exact ⟨taken, by linarith⟩
  next => exact absurd covered (not_le.mpr below)

theorem Turn.stands (turn : Turn id days held world next event) {attempt : Attempt}
    (retrying : Retrying id days (world, attempt)) (covered : days ≤ held)
    (stepped : Stepped config world event next) :
    requestState id next.db = some .approved ∨ TakenFor id next ∧
      (requestState id next.db = some .consumed ∨ requestState id next.db = some .reviewRequired) := by
  cases turn with
  | kept same =>
    rw [same]
    obtain approved | ⟨taken, moved⟩ := retrying.stands
    · exact .inl approved
    · exact .inr ⟨taken.step stepped, moved⟩
  | reviewed row reviewed low =>
    exact .inr ⟨(retrying.taken_of_low covered low).1.step stepped, .inr reviewed⟩
  | consumed consumed taken => exact .inr ⟨taken.step stepped, .inl consumed⟩

theorem recordAttempt_answered {attempt : Attempt} (next : World)
    (answered : (recordAttempt id attempt world event next).answered = true) :
    attempt.answered = true ∨ TakenFor id world := by
  simp only [recordAttempt] at answered
  split at answered
  · exact .inr (of_decide_eq_true answered).2.1
  · exact .inl (Bool.and_eq_true_iff.mp answered).1
  · cases answered
  · exact .inl answered

theorem Retrying.step {attempt : Attempt} (retrying : Retrying id days (world, attempt))
    (covered : days ≤ held) (steady : Steady id days held world event)
    (stepped : Stepped config world event next) :
    Retrying id days (next, recordAttempt id attempt world event next) := by
  refine ⟨retrying.accounted.step stepped, retrying.stored.step stepped, ?_, ?_, ?_⟩
  · obtain ⟨request, found, asks⟩ := retrying.asks
    obtain ⟨_, effect⟩ := stepped.effect
    obtain ⟨later, foundLater, evolves⟩ := effect.grows id request found
    exact ⟨later, foundLater, evolves.days.trans asks⟩
  · exact (stepped.turn steady).stands retrying covered stepped
  · intro answered
    cases recordAttempt_answered next answered with
    | inl before => exact (retrying.answered before).step stepped
    | inr taken => exact taken.step stepped

/-! ## One step -/

/-- No answer after the debit is read, or the rest still covers the request. -/
def Spared (id : String) (days held : ℚ) (world : World) (event : Event) : Prop :=
  ReadAfterDebit id days held world event → 2 * days ≤ held

theorem Spared.not_low {attempt : Attempt} (spared : Spared id days held world event)
    (retrying : Retrying id days (world, attempt)) (covered : days ≤ held) {row : ClaimedRow} :
    ¬ ReadsLow id days held world event row := by
  intro low
  obtain ⟨taken, short⟩ := retrying.taken_of_low covered low
  obtain ⟨clock, reply, rfl, read⟩ := low.reads
  rw [remaining, if_pos taken] at read
  exact absurd (spared ⟨row, low.asking, low.own, taken, read⟩) (not_le.mpr short)

theorem Converges.standing_step {attempt : Attempt} (converges : Converges id (world, attempt))
    (retrying : Retrying id days (world, attempt)) (covered : days ≤ held)
    (spared : Spared id days held world event) (turn : Turn id days held world next event) :
    requestState id next.db ≠ some .reviewRequired ∧ requestState id next.db ≠ some .hcmFailed := by
  cases turn with
  | kept same =>
    rw [same]
    obtain approved | ⟨taken, _⟩ := retrying.stands
    · rw [approved]
      simp
    · exact converges.standing taken
  | reviewed row reviewed low => exact absurd low (spared.not_low retrying covered)
  | consumed consumed _ =>
    rw [consumed]
    simp

theorem WorkerState.ending_eq_some {worker : WorkerState} {row : ClaimedRow} {settlement : Settlement} :
    worker.ending = some (row, settlement) ↔ ∃ rest, worker = .settling row rest settlement := by
  cases worker with
  | settling other rest ended => simp [ending]
  | idle | awaitBalance other rest | awaitConsume other rest => simp [ending]

theorem Converges.ending_step {attempt : Attempt} (converges : Converges id (world, attempt))
    (retrying : Retrying id days (world, attempt)) (covered : days ≤ held)
    (steady : Steady id days held world event) (spared : Spared id days held world event)
    (stepped : Stepped config world event next) {row : ClaimedRow} {settlement : Settlement}
    (at_end : (row, settlement) ∈ next.worker.ending) (own : row.requestId = id)
    (answered : (recordAttempt id attempt world event next).answered = true) :
    settlement = .done none ∧ requestState id next.db = some .consumed := by
  cases stepped with
  | call call yields offered =>
    obtain ⟨rest, settling⟩ := WorkerState.ending_eq_some.mp at_end
    rw [settling] at yields
    cases yields
  | claimed now idle =>
    obtain ⟨rest, settling⟩ := WorkerState.ending_eq_some.mp at_end
    exact absurd settling proceed_not_settling
  | draining now => exact converges.ending row settlement at_end own answered
  | repeated number call found known => exact converges.ending row settlement at_end own answered
  | debits number call found unknown => exact converges.ending row settlement at_end own answered
  | sends clock reply other others at_await unknown => cases at_end
  | reviews clock reply other others balance reviewed final at_await insufficient reaction =>
    cases at_end
    exact absurd (steady.readsLow at_await own insufficient) (spared.not_low retrying covered)
  | accepted clock reply body other others ended final at_await answer reaction =>
    cases at_end
    -- the attempt began after the debit, so the request is APPROVED or CONSUMED
    have taken : TakenFor id world := by
      simp only [recordAttempt, at_await, Bool.and_eq_true] at answered
      exact retrying.answered answered.1
    have stands := retrying.stands
    simp only [(converges.standing taken).1, or_false, taken, true_and] at stands
    subst own
    exact reaction.consumes stands
  | refused clock reply failure other others ended final at_await answer permanent reaction =>
    cases at_end
    have known := steady row (by simp [at_await, WorkerState.calling]) own
    have refusal : refuses reply = true := by simp [refuses, answer, permanent]
    cases known.1.symm.trans refusal
  | lost clock reply failure other others at_await answer transient =>
    simp [recordAttempt, at_await, accepts_of_error answer] at answered
  | done now random other others escaping settled =>
    obtain ⟨rest, settling⟩ := WorkerState.ending_eq_some.mp at_end
    exact absurd settling afterSettle_not_settling
  | retries now random other others message settled =>
    obtain ⟨rest, settling⟩ := WorkerState.ending_eq_some.mp at_end
    exact absurd settling proceed_not_settling
  | crash => cases at_end
  | crashInBatch clocks batch rows escalations yields => cases at_end

/-- Only the settling of a row is remembered as such. -/
theorem recordAttempt_settled {attempt : Attempt} {rowId : Nat}
    (settled : rowId ∈ (recordAttempt id attempt world event next).settled) :
    ∃ now random row rest settlement, event = .settle now random ∧
      world.worker = .settling row rest settlement ∧ attempt.answered = true ∧ row.requestId = id ∧
      row.id = rowId := by
  simp only [recordAttempt] at settled
  split at settled
  · cases settled
  · cases settled
  next now random row rest settlement at_end =>
    dsimp only at settled
    split at settled
    next own => exact ⟨now, random, row, rest, settlement, rfl, at_end, own.1, own.2, Option.some.inj settled⟩
    next => cases settled
  · cases settled

theorem markDone_status {db : Db} {stored : OutboxRow} (member : stored ∈ db.hcmOutbox.rows) (now : Int) :
    ∃ later ∈ (markDone now stored.id db).hcmOutbox.rows, later.id = stored.id ∧ later.status = .done := by
  exact ⟨_, SerialTable.mem_update_of_hit member (by simp), rfl, rfl⟩

theorem Converges.settled_step {attempt : Attempt} (converges : Converges id (world, attempt))
    (retrying : Retrying id days (world, attempt)) (stepped : Stepped config world event next)
    {rowId : Nat} (settled : rowId ∈ (recordAttempt id attempt world event next).settled) :
    requestState id next.db = some .consumed ∧
      ∃ stored ∈ next.db.hcmOutbox.rows, stored.id = rowId ∧ stored.status = .done := by
  obtain ⟨now, random, row, rest, settlement, rfl, at_end, answered, own, rfl⟩ :=
    recordAttempt_settled settled
  obtain ⟨rfl, consumed⟩ := converges.ending row settlement
    (WorkerState.ending_eq_some.mpr ⟨rest, at_end⟩) own answered
  cases stepped with
  | done now random other others escaping at_settle =>
    cases at_end.symm.trans at_settle
    obtain ⟨stored, storedIn, copy⟩ := retrying.stored row (by simp [at_end, WorkerState.held])
    refine ⟨consumed, ?_⟩
    rw [← copy.id]
    exact markDone_status storedIn now
  | retries now random other others message at_settle => cases at_end.symm.trans at_settle

theorem Converges.step {attempt : Attempt} (converges : Converges id (world, attempt))
    (retrying : Retrying id days (world, attempt)) (covered : days ≤ held)
    (steady : Steady id days held world event) (spared : Spared id days held world event)
    (stepped : Stepped config world event next) :
    Converges id (next, recordAttempt id attempt world event next) := by
  refine ⟨?_, ?_, ?_⟩
  · intro _
    exact converges.standing_step retrying covered spared (stepped.turn steady)
  · intro row settlement at_end own answered
    exact converges.ending_step retrying covered steady spared stepped at_end own answered
  · intro rowId settled
    exact converges.settled_step retrying stepped settled

/-- An answer after the debit that does not cover the request ends the attempt without a consume. -/
theorem spared_of_kept {attempt : Attempt} (retrying : Retrying id days (world, attempt))
    (kept : ∀ next, withHistory (restrict (World.step config) (Steady id days held)) (recordAttempt id)
      (world, attempt) event = some next → Converges id next) : Spared id days held world event := by
  intro read
  by_contra short
  cases event with
  | balanceReply clock reply =>
    obtain ⟨row, asking, own, taken, answer⟩ := read
    have low : held - days < row.payload.days := by
      rw [retrying.held_days (WorkerState.held_of_asking asking) own]
      linarith [not_le.mp short]
    have insufficient : insufficientView row reply = some (held - days) := by
      rw [insufficientView_eq, answer]
      simp [low]
    -- what HCM tells is true, so the environment allows the event
    have steady : Steady id days held world (.balanceReply clock reply) := by
      intro other otherAsking _ balance told
      cases (Option.mem_def.mp asking).symm.trans otherAsking
      cases answer.symm.trans told
      rw [remaining, if_pos taken]
    obtain ⟨rest, at_await⟩ := WorkerState.asking_eq_some.mp asking
    obtain ⟨settlement, final, ran, reaction⟩ := onBalance_reaction clock world.db insufficient
    -- the worker bails out after an attempt that had all its answers
    have bailsOut : World.step config world (.balanceReply clock reply) =
        some { world with db := final, worker := .settling row rest settlement } := by
      simp [World.step, at_await, ran]
    have remembered : recordAttempt id attempt world (.balanceReply clock reply)
        { world with db := final, worker := .settling row rest settlement } = ⟨true, none⟩ := by
      simp [recordAttempt, at_await, own, taken, answer]
    have converges := kept ({ world with db := final, worker := .settling row rest settlement },
      ⟨true, none⟩) (withHistory_eq_some.mpr ⟨restrict_eq_some.mpr ⟨steady, bailsOut⟩, remembered.symm⟩)
    obtain ⟨rfl, consumed⟩ := converges.ending row settlement rfl own rfl
    subst own
    cases reaction with
    | moved before now patch final found state moved =>
      cases consumed.symm.trans (moved.requestState_self found)
    | already state => cases state.symm.trans consumed
    | elsewhere settlement ends different unapproved =>
      obtain ⟨message, impossible⟩ | ⟨impossible, _⟩ := ends
      · cases impossible
      · cases impossible
  | call | tick | hcmHandles | consumeReply | settle | crash | crashInBatch => exact read

/-! ## Runs -/

/-- A run converges throughout exactly when every step of it is spared. -/
theorem always_converges_iff {attempt : Attempt} (covered : days ≤ held)
    (start : Retrying id days (world, attempt)) (holds : Converges id (world, attempt))
    (events : List Event) :
    Always (withHistory (restrict (World.step config) (Steady id days held)) (recordAttempt id))
        (Converges id) (world, attempt) events ↔
      StepsMeet (withHistory (restrict (World.step config) (Steady id days held)) (recordAttempt id))
        (fun state event => Spared id days held state.1 event) (world, attempt) events := by
  refine always_iff_stepsMeet (Retrying id days) (Converges id) ?_ ?_ start holds
  · rintro ⟨world, attempt⟩ event next retrying stepped
    obtain ⟨stepped, recorded⟩ := withHistory_eq_some.mp stepped
    obtain ⟨steady, stepped⟩ := restrict_eq_some.mp stepped
    have after := retrying.step covered steady (step_stepped stepped)
    rwa [← recorded] at after
  · rintro ⟨world, attempt⟩ event retrying converges
    constructor
    · exact spared_of_kept retrying
    · intro spared next stepped
      obtain ⟨stepped, recorded⟩ := withHistory_eq_some.mp stepped
      obtain ⟨steady, stepped⟩ := restrict_eq_some.mp stepped
      have after := converges.step retrying covered steady spared (step_stepped stepped)
      rwa [← recorded] at after

/-- From an approved request whose days HCM has not taken yet: every attempt converges exactly when
HCM held twice the days, or never answers `getBalance` for the request after the debit. -/
theorem retry_converges_iff (config : OutboxConfig) (held : ℚ) (earlier later : List Event)
    (world : World) (request : RequestRow)
    (ran : run (World.step config) World.empty earlier = some world)
    (found : world.db.requests.find? request.id = some request) (approved : request.state = .approved)
    (untaken : ¬ TakenFor request.id world) (covered : request.days ≤ held) :
    Always (withHistory (restrict (World.step config) (Steady request.id request.days held))
        (recordAttempt request.id)) (Converges request.id) (world, .none) later ↔
      2 * request.days ≤ held ∨
        StepsMeet (restrict (World.step config) (Steady request.id request.days held))
          (fun world event => ¬ ReadAfterDebit request.id request.days held world event) world later := by
  have reached : Accounted world ∧ HeldStored world := by
    refine run_invariant (fun world => Accounted world ∧ HeldStored world) ?_
      ⟨.empty, .empty⟩ ran
    intro world event next holds stepped
    exact ⟨holds.1.step (step_stepped stepped), holds.2.step (step_stepped stepped)⟩
  have isApproved : requestState request.id world.db = some .approved :=
    requestState_eq_some.mpr ⟨request, found, approved⟩
  have start : Retrying request.id request.days (world, .none) :=
    ⟨reached.1, reached.2, ⟨request, found, rfl⟩, .inl isApproved, by simp [Attempt.none]⟩
  have holds : Converges request.id (world, .none) := by
    refine ⟨?_, ?_, ?_⟩
    · intro taken
      exact absurd taken untaken
    · intro row settlement _ _ answered
      cases answered
    · intro rowId settled
      cases settled
  -- the guard sees the world only, so the history can be dropped
  rw [always_converges_iff covered start holds, stepsMeet_withHistory]
  by_cases ample : 2 * request.days ≤ held
  · simp only [ample, true_or, iff_true]
    exact stepsMeet_of_forall (fun _ _ _ => ample) world later
  · simp only [ample, false_or]
    unfold Spared
    simp only [ample, imp_false]

/-- HCM takes ten of the days it held and its answer is lost; the retry reads what is left. -/
def lostAnswer (held : ℚ) : List Event :=
  [.balanceReply Office.clock (Office.balance held), .hcmHandles 0,
    .consumeReply Office.clock (.networkError "timeout"), .settle 0 0, .tick 100000,
    .balanceReply Office.clock (Office.balance (held - 10))]

/-- Of ten days all are taken, and the retry takes the rest for too little. -/
theorem lost_answer_ends_in_review :
    ∃ world ∈ run (World.step Office.config) World.empty Office.claimed,
      ∃ request ∈ world.db.requests.find? "r1",
        request.state = .approved ∧ ¬ TakenFor "r1" world ∧ request.days = 10 ∧
        ¬ Always (withHistory (restrict (World.step Office.config) (Steady "r1" 10 10))
          (recordAttempt "r1")) (Converges "r1") (world, .none) (lostAnswer 10) := by
  decide +kernel

/-- Ten of the twenty days that HCM holds are filed and approved, and the row is claimed. -/
def ampleClaim : List Event :=
  [.call (Office.snapshot 20 0), .call (Office.file "r1"), .call (Office.approve "r1" "x1"), .tick 0]

/-- Of twenty days ten are left, and the retry goes through. -/
theorem retry_converges_office :
    ∃ world ∈ run (World.step Office.config) World.empty ampleClaim,
      ∃ request ∈ world.db.requests.find? "r1",
        Always (withHistory (restrict (World.step Office.config) (Steady request.id request.days 20))
          (recordAttempt request.id)) (Converges request.id) (world, .none)
          (lostAnswer 20 ++ [.consumeReply Office.clock Office.accepted, .settle 100000 0]) := by
  have start : ∃ world ∈ run (World.step Office.config) World.empty ampleClaim,
      ∃ request ∈ world.db.requests.find? "r1",
        request.state = .approved ∧ ¬ TakenFor "r1" world ∧ request.days = 10 := by
    decide +kernel
  obtain ⟨world, ran, request, found, approved, untaken, days⟩ := start
  have own : request.id = "r1" := (Table.find?_eq_some.mp found).2
  refine ⟨world, ran, request, found, ?_⟩
  exact (retry_converges_iff Office.config 20 ampleClaim _ world request ran (by rw [own]; exact found)
    approved (by rw [own]; exact untaken) (by rw [days]; norm_num)).mpr (.inl (by rw [days]; norm_num))

end TimeOff
