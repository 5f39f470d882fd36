import TimeOff.Verified.SingleDebit
import TimeOff.Verified.Coherence

/-! # Debits and local releases

HCM takes the days of a request once and for good.  Its acknowledgement arrives
after any number of local steps, and `cancel` and `reject` do not ask whether a
consume call is under way.  So what HCM has taken stays taken locally exactly
when neither of them is accepted around the debit.
-/

set_option autoImplicit false

namespace TimeOff

open TimeOff.Lib HcmOutboxService HcmOutboxWorker TimeOffService

/-- The row whose consume call the worker awaits. -/
def WorkerState.calling : WorkerState → Option ClaimedRow
  | awaitConsume row _ => some row
  | _ => none

/-- Does the client take the answer for a refusal that retries cannot fix? -/
def refuses (reply : Reply Unit) : Bool :=
  match HcmClient.consumeBalance reply with
  | .error failure => failure.isHcmPermanent
  | .ok _ => false

/-- HCM answers the consume call with 2xx. -/
def accepts (reply : Reply Unit) : Bool := (HcmClient.consumeBalance reply).toOption.isSome

/-- HCM answers a repeat with 2xx: it refuses no call whose days it has taken. -/
def AnswersRepeats (world : World) : Event → Prop
  | .consumeReply _ reply => refuses reply = true → ∀ row ∈ world.worker.calling,
      world.debited row.payload.externalRequestId = false
  | _ => True

instance (world : World) : (event : Event) → Decidable (AnswersRepeats world event)
  | .consumeReply _ reply => inferInstanceAs (Decidable (refuses reply = true → _))
  | .call _ | .tick _ | .balanceReply .. | .hcmHandles _ | .settle .. | .crash | .crashInBatch .. =>
    isTrue trivial

/-- HCM took the days of a consume call that was sent while the request was APPROVED. -/
def StandingDebit (world : World) (id : String) : Prop :=
  ∃ call ∈ world.debits, call.row.requestId = id ∧ call.state = some .approved

instance (world : World) (id : String) : Decidable (StandingDebit world id) :=
  inferInstanceAs (Decidable (∃ call ∈ world.debits, _))

/-- The request is CANCELLED, REJECTED or HCM_FAILED and its reservation RELEASED. -/
def HandedBack (db : Db) (id : String) : Prop :=
  ∃ request ∈ db.requests.find? id,
    (request.state = .cancelled ∨ request.state = .rejected ∨ request.state = .hcmFailed) ∧
    ∃ reservation ∈ db.reservations.rows, reservation.requestId = id ∧ reservation.state = .released

instance (db : Db) (id : String) : Decidable (HandedBack db id) :=
  inferInstanceAs (Decidable (∃ request ∈ db.requests.find? id, _ ∧ ∃ reservation ∈ _, _))

/-- Days that HCM took for a standing approval are not handed back. -/
def DebitsStand (world : World) : Prop :=
  ∀ call ∈ world.debits, call.state = some .approved → ¬ HandedBack world.db call.row.requestId

instance : DecidablePred DebitsStand := fun world =>
  inferInstanceAs (Decidable (∀ call ∈ world.debits, _))

/-- The step does not cross a debit: no `cancel` or `reject` is accepted for a request after its
standing debit, and no standing call is debited after its request was cancelled, rejected or failed. -/
def KeepsClear (world : World) : Event → Prop
  | .call (.cancel _ actor id) => world.worker.yields = true → StandingDebit world id →
      ∀ request ∈ world.db.requests.find? id,
        ¬ (MayCancel actor request ∧ canTransition request.state .cancelled = true)
  | .call (.reject _ actor id _) => world.worker.yields = true → StandingDebit world id →
      ∀ request ∈ world.db.requests.find? id,
        ¬ (Decides actor request ∧ canTransition request.state .rejected = true)
  | .hcmHandles number => ∀ call ∈ world.sent[number]?, call.state = some .approved →
      world.debited call.row.payload.externalRequestId = false →
      ¬ HandedBack world.db call.row.requestId
  | _ => True

variable {config : OutboxConfig} {world next : World} {event : Event} {db after : Db}

/-! ## The answer to a consume call -/

theorem WorkerState.calling_eq_some {worker : WorkerState} {row : ClaimedRow} :
    worker.calling = some row ↔ ∃ rest, worker = .awaitConsume row rest := by
  cases worker with
  | awaitConsume other rest => simp [calling]
  | idle | awaitBalance other rest | settling other rest settlement => simp [calling]

theorem accepts_of_ok {reply : Reply Unit} {body : Option Unit}
    (answer : HcmClient.consumeBalance reply = .ok body) : accepts reply = true := by
  simp [accepts, answer, Except.toOption]

theorem accepts_of_error {reply : Reply Unit} {failure : Failure}
    (answer : HcmClient.consumeBalance reply = .error failure) : accepts reply = false := by
  simp [accepts, answer, Except.toOption]

/-! ## Handing back is a matter of the state -/

theorem State.reservation_released {state : State} : state.reservation = .released ↔
    state = .cancelled ∨ state = .rejected ∨ state = .hcmFailed := by
  cases state <;> decide

theorem handedBack_iff (coherent : Coherent db) {id : String} :
    HandedBack db id ↔ ∃ state, requestState id db = some state ∧ state.reservation = .released := by
  constructor
  · rintro ⟨request, found, state, _⟩
    exact ⟨request.state, requestState_eq_some.mpr ⟨request, found, rfl⟩,
      State.reservation_released.mpr state⟩
  · rintro ⟨state, isState, released⟩
    obtain ⟨request, found, rfl⟩ := requestState_eq_some.mp isState
    obtain ⟨member, own⟩ := Table.find?_eq_some.mp found
    obtain ⟨reservation, reservationIn, pair⟩ := coherent.exists_reservation member
    exact ⟨request, found, State.reservation_released.mp released, reservation, reservationIn,
      pair.requestId.trans own, pair.state.trans released⟩

/-- No step but a cancel or a reject of the request, or a refused consume of it, releases a
reservation. -/
inductive Releases (world next : World) (id : String) : Event → Prop
  | cancelled {clock : Clock} {actor : Actor} (before : RequestRow)
      (found : world.db.requests.find? id = some before) (may : MayCancel actor before)
      (legal : canTransition before.state .cancelled = true) (yields : world.worker.yields = true) :
      Releases world next id (.call (.cancel clock actor id))
  | rejected {clock : Clock} {actor : Actor} {reason : Option String} (before : RequestRow)
      (found : world.db.requests.find? id = some before) (decides : Decides actor before)
      (legal : canTransition before.state .rejected = true) (yields : world.worker.yields = true) :
      Releases world next id (.call (.reject clock actor id reason))
  | refused {clock : Clock} {reply : Reply Unit} (failure : Failure) (row : ClaimedRow)
      (rest : List ClaimedRow) (at_await : world.worker = .awaitConsume row rest)
      (answer : HcmClient.consumeBalance reply = .error failure)
      (permanent : failure.isHcmPermanent = true) (own : row.requestId = id) :
      Releases world next id (.consumeReply clock reply)

theorem Healed.releases {results : List SnapshotResult} (healed : Healed db results after) {id : String}
    {state : State} (isState : requestState id after = some state)
    (released : state.reservation = .released) : requestState id db = some state := by
  obtain same | ⟨_, reviewed⟩ := healed.requestState_after id
  · exact same.symm.trans isState
  · cases reviewed.symm.trans isState
    cases released

/-- A move releases the reservation of its own request or of none. -/
theorem Moved.releases {before : RequestRow} {toState state : State} {now : Int} {patch : StatePatch}
    (moved : Moved before toState now patch db after) {requestId id : String}
    (found : db.requests.find? requestId = some before) (isState : requestState id after = some state) :
    requestState id db = some state ∨ toState = state ∧ requestId = id := by
  have beforeId : before.id = requestId := (Table.find?_eq_some.mp found).2
  rw [moved.requestState_after id] at isState
  split at isState
  next own => exact .inr ⟨Option.some.inj isState, beforeId.symm.trans own.symm⟩
  next => exact .inl isState

/-- A move to a state that keeps or consumes the reservation releases none. -/
theorem Reaction.releases {row : ClaimedRow} {final : Db} {toState state : State}
    {settlement : Settlement} (reaction : Reaction row db toState settlement final) {id : String}
    (isState : requestState id final = some state) (released : state.reservation = .released) :
    requestState id db = some state ∨ toState.reservation = .released ∧ row.requestId = id := by
  obtain same | ⟨own, _, moved⟩ := reaction.requestState_after id
  · exact .inl (same.symm.trans isState)
  · cases moved.symm.trans isState
    exact .inr ⟨released, own.symm⟩

theorem Offered.releases {call : Call} (offered : Offered world.db call after)
    (yields : world.worker.yields = true) {id : String} {state : State}
    (known : (world.db.requests.find? id).isSome) (isState : requestState id after = some state)
    (released : state.reservation = .released) :
    requestState id world.db = some state ∨ Releases world next id (.call call) := by
  cases offered with
  | filed clock ids actor input row after filed =>
    rw [filed.requestState_after id] at isState
    split at isState
    next own =>
      rw [← own, filed.fresh] at known
      cases known
    next => exact .inl isState
  | approved clock newId actor requestId before patch after found moved =>
    obtain kept | ⟨rfl, _⟩ := moved.releases found isState
    · exact .inl kept
    · cases released
  | rejected clock actor requestId reason before patch after found decides moved =>
    obtain kept | ⟨_, rfl⟩ := moved.releases found isState
    · exact .inl kept
    · exact .inr (.rejected before found decides moved.legal yields)
  | cancelled clock actor requestId before patch after found may moved =>
    obtain kept | ⟨_, rfl⟩ := moved.releases found isState
    · exact .inl kept
    · exact .inr (.cancelled before found may moved.legal yields)
  | healed call after healed => exact .inl (healed.releases isState released)
  | reset rowId => exact .inl isState
  | unchanged call => exact .inl isState

theorem Stepped.releases (stepped : Stepped config world event next) {id : String} {state : State}
    (known : (world.db.requests.find? id).isSome) (isState : requestState id next.db = some state)
    (released : state.reservation = .released) :
    requestState id world.db = some state ∨ Releases world next id event := by
  cases stepped with
  | call call yields offered =>
    exact (call.offered_exec offered world.db).releases yields known isState released
  | reviews clock reply row rest balance settlement final at_await insufficient reaction =>
    obtain same | ⟨impossible, _⟩ := reaction.releases isState released
    · exact .inl same
    · cases impossible
  | accepted clock reply body row rest settlement final at_await answer reaction =>
    obtain same | ⟨impossible, _⟩ := reaction.releases isState released
    · exact .inl same
    · cases impossible
  | refused clock reply failure row rest settlement final at_await answer permanent reaction =>
    obtain same | ⟨_, own⟩ := reaction.releases isState released
    · exact .inl same
    · exact .inr (.refused failure row rest at_await answer permanent own)
  | retries now random row rest message at_end =>
    rw [requestState_congr (scheduleRetry_requests _ _ _ _ _ _)] at isState
    exact .inl isState
  | crashInBatch clocks batch rows escalations yields =>
    obtain ⟨_, healed⟩ := interruptedBatch_healed clocks batch rows escalations world.db
    exact .inl (healed.releases isState released)
  | claimed | draining | sends | repeated | debits | lost | done | crash => exact .inl isState

/-! ## One step -/

/-- What the agreement rests on. -/
structure Tracked (world : World) : Prop where
  coherent : Coherent world.db
  accounted : Accounted world

theorem Tracked.step (tracked : Tracked world) (stepped : Stepped config world event next) :
    Tracked next := by
  obtain ⟨_, effect⟩ := stepped.effect
  exact ⟨tracked.coherent.effect effect, tracked.accounted.step stepped⟩

theorem Tracked.empty : Tracked World.empty := ⟨.empty, .empty⟩

/-- The id of a request's debit is the id of every row that the worker holds for it. -/
theorem Accounted.debited_held (accounted : Accounted world) {row : ClaimedRow} {call : Consume}
    (held : row ∈ world.worker.held) (debit : call ∈ world.debits)
    (own : row.requestId = call.row.requestId) :
    world.debited row.payload.externalRequestId = true := by
  obtain ⟨request, rowId, found, rowHas, rowPayload⟩ := accounted.held row held
  obtain ⟨other, callId, foundOther, callHas, callPayload⟩ :=
    accounted.sent call (accounted.debits call debit)
  rw [own] at found
  cases found.symm.trans foundOther
  have sameId : rowId = callId := Option.some.inj (rowHas.symm.trans callHas)
  refine List.any_eq_true.mpr ⟨call, debit, decide_eq_true ?_⟩
  rw [rowPayload, callPayload, sameId]

theorem DebitsStand.step (stand : DebitsStand world) (tracked : Tracked world)
    (honest : AnswersRepeats world event) (clear : KeepsClear world event)
    (stepped : Stepped config world event next) : DebitsStand next := by
  have trackedNext := tracked.step stepped
  intro call debit standing handedBack
  obtain ⟨state, isState, released⟩ := (handedBack_iff trackedNext.coherent).mp handedBack
  obtain same | ⟨number, new, rfl, found, unknown, rfl⟩ := stepped.debits_grow
  -- an old debit: what releases the reservation crosses it
  · rw [same] at debit
    obtain ⟨_, _, foundRequest, _⟩ := tracked.accounted.sent call (tracked.accounted.debits call debit)
    cases stepped.releases (by simp [foundRequest]) isState released with
    | inl before =>
      exact stand call debit standing ((handedBack_iff tracked.coherent).mpr ⟨state, before, released⟩)
    | inr releases =>
      have standingDebit : StandingDebit world call.row.requestId := ⟨call, debit, rfl, standing⟩
      cases releases with
      | cancelled before found may legal yields =>
        exact clear yields standingDebit before found ⟨may, legal⟩
      | rejected before found decides legal yields =>
        exact clear yields standingDebit before found ⟨decides, legal⟩
      | refused failure row rest at_await answer permanent own =>
        -- HCM answers the repeat with 2xx
        have held : row ∈ world.worker.held := by simp [at_await, WorkerState.held]
        have undebited := honest (by simp [refuses, answer, permanent]) row
          (by simp [at_await, WorkerState.calling])
        rw [tracked.accounted.debited_held held debit own] at undebited
        cases undebited
  -- a new debit: the request was not handed back before
  · cases List.mem_append.mp debit with
    | inl old => exact stand call old standing handedBack
    | inr isNew =>
      rw [List.mem_singleton.mp isNew] at standing handedBack
      exact clear new found standing unknown handedBack

theorem cancel_released {clock : Clock} {actor : Actor} {id : String} {before : RequestRow}
    (found : db.requests.find? id = some before) (may : MayCancel actor before)
    (legal : canTransition before.state .cancelled = true) :
    requestState id ((Call.cancel clock actor id).exec db) = some .cancelled := by
  obtain ⟨after, final, ran⟩ : ∃ after final, cancel clock actor id db = (.ok after, final) :=
    cancel_total found may legal
  obtain ⟨_, foundBefore, _, moved⟩ := cancel_ok ran
  simp only [Call.exec, ran]
  exact moved.requestState_self foundBefore

theorem reject_released {clock : Clock} {actor : Actor} {id : String} {reason : Option String}
    {before : RequestRow} (found : db.requests.find? id = some before)
    (decides : Decides actor before) (legal : canTransition before.state .rejected = true) :
    requestState id ((Call.reject clock actor id reason).exec db) = some .rejected := by
  obtain ⟨after, final, ran⟩ : ∃ after final, reject clock actor id reason db = (.ok after, final) :=
    reject_total found decides legal
  obtain ⟨_, foundBefore, _, moved⟩ := reject_ok ran
  simp only [Call.exec, ran]
  exact moved.requestState_self foundBefore

/-- What the guard rules out does hand days back. -/
theorem keepsClear_of_kept (tracked : Tracked world)
    (kept : ∀ next, restrict (World.step config) AnswersRepeats world event = some next →
      DebitsStand next) : KeepsClear world event := by
  cases event with
  | call call =>
    have crosses : world.worker.yields = true → call.offered = true →
        ∀ id, StandingDebit world id → ∀ state, requestState id (call.exec world.db) = some state →
        state.reservation ≠ .released := by
      intro yields offered id standingDebit state isState released
      obtain ⟨debit, debitIn, rfl, standing⟩ := standingDebit
      have coherent := tracked.coherent.effect (call.effect world.db)
      exact kept _ (restrict_eq_some.mpr ⟨trivial, if_pos ⟨yields, offered⟩⟩) debit debitIn standing
        ((handedBack_iff coherent).mpr ⟨state, isState, released⟩)
    cases call with
    | cancel clock actor id =>
      intro yields standingDebit before found ⟨may, legal⟩
      exact crosses yields rfl id standingDebit _ (cancel_released found may legal) rfl
    | reject clock actor id reason =>
      intro yields standingDebit before found ⟨decides, legal⟩
      exact crosses yields rfl id standingDebit _ (reject_released found decides legal) rfl
    | _ => trivial
  | hcmHandles number =>
    intro call found standing unknown
    have debited : World.step config world (.hcmHandles number) =
        some { world with debits := world.debits ++ [call] } := by
      have foundCall : world.sent[number]? = some call := found
      simp [World.step, foundCall, unknown]
    exact kept _ (restrict_eq_some.mpr ⟨trivial, debited⟩) call (by simp) standing
  | _ => trivial

/-- The days that HCM took for standing approvals stay taken throughout a run exactly when no step
of it crosses a debit. -/
theorem debits_stand_iff (config : OutboxConfig) (events : List Event) :
    Always (restrict (World.step config) AnswersRepeats) DebitsStand World.empty events ↔
      StepsMeet (restrict (World.step config) AnswersRepeats) KeepsClear World.empty events := by
  refine always_iff_stepsMeet Tracked DebitsStand ?_ ?_ .empty (by simp [DebitsStand, World.empty])
  · intro world event next tracked ran
    exact tracked.step (step_stepped (restrict_eq_some.mp ran).2)
  · intro world event tracked stand
    constructor
    · exact keepsClear_of_kept tracked
    · intro clear next ran
      obtain ⟨honest, stepped⟩ := restrict_eq_some.mp ran
      exact stand.step tracked honest clear (step_stepped stepped)

/-- HCM has taken the days, its answer is still on the way, and the employee cancels. -/
theorem cancel_hands_back_debited_days :
    ¬ Always (restrict (World.step Office.config) AnswersRepeats) DebitsStand World.empty
      (Office.claimed ++ [.balanceReply Office.clock (Office.balance 10), .hcmHandles 0,
        .call (Office.cancel "r1")]) := by
  decide +kernel

end TimeOff
