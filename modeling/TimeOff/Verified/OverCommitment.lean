import TimeOff.Verified.Drift
import TimeOff.Verified.HcmAgreement
import TimeOff.Verified.StandingApproval

/-! # What is open locally and what HCM has left

A consume takes a request's days out of HCM's balance and, once acknowledged,
out of the open reservations, but not out of the cached balance, which only a
snapshot changes.  Until then the cache still shows the days that are gone.  So
the open reservations stay within HCM's balance as long as nothing is filed
against a cached balance that HCM has since lowered.
-/

set_option autoImplicit false

namespace TimeOff

open TimeOff.Lib BalancesRepository HcmOutboxService HcmOutboxWorker TimeOffService
  ReconciliationService

/-- The days that the debits took from the key. -/
def daysTaken (key : Key) (debits : List Consume) : ℚ :=
  ((debits.filter fun call => call.row.payload.key = key).map fun call => call.row.payload.days).sum

section Environment

variable (opening : ℚ) (key : Key) (world : World)

/-- What HCM, which opened the key with this balance, has left of it. -/
def hcmBalance : ℚ := opening - daysTaken key world.debits

/-- HCM's balance of the key is this now or was at some earlier time. -/
def WasBalance (balance : ℚ) : Prop :=
  ∃ debits ∈ world.debits.inits, balance = opening - daysTaken key debits

instance (balance : ℚ) : Decidable (WasBalance opening key world balance) :=
  inferInstanceAs (Decidable (∃ debits ∈ world.debits.inits, _))

/-- Snapshots of the key are true, and what is cancelled or rejected of it is not APPROVED; no row is
reset. -/
def Harmless : Call → Prop
  | .cancel _ _ id | .reject _ _ id _ =>
    ∀ request ∈ world.db.requests.find? id, request.key = key → request.state ≠ .approved
  | .handleBatch _ batch => ∀ row ∈ batch.balances, row.key = key → ∀ balance ∈ row.balance,
      WasBalance opening key world balance
  | .reconcileKey _ other reply => other = key → ∀ balance ∈ readable other reply,
      WasBalance opening key world balance
  | .resetToPending _ => False
  | _ => True

instance : (call : Call) → Decidable (Harmless opening key world call)
  | .cancel .. | .reject .. => inferInstanceAs (Decidable (∀ request ∈ _, _))
  | .handleBatch _ batch => inferInstanceAs (Decidable (∀ row ∈ batch.balances, _))
  | .reconcileKey .. => inferInstanceAs (Decidable (_ = _ → _))
  | .resetToPending _ => isFalse id
  | .createRequest .. | .approve .. | .markConsumed .. | .markHcmFailed .. | .markReviewRequired ..
  | .applyHcmBalanceSnapshot .. | .claimDue .. | .markDone .. | .scheduleRetry .. => isTrue trivial

/-- Ticks are complete, HCM takes days of the key for the call at hand only and answers it with 2xx
exactly when it has taken them, and nothing crashes. -/
def Orderly : Event → Prop
  | .call call => world.worker = .idle ∧ Harmless opening key world call
  | .hcmHandles number => ∀ call ∈ world.sent[number]?, call.row.payload.key = key →
      world.worker.calling = some call.row
  | .consumeReply _ reply => ∀ row ∈ world.worker.calling, row.payload.key = key →
      accepts reply = world.debited row.payload.externalRequestId
  | .crash | .crashInBatch .. => False
  | .tick _ | .balanceReply .. | .settle .. => True

instance : (event : Event) → Decidable (Orderly opening key world event)
  | .call _ => inferInstanceAs (Decidable (_ ∧ _))
  | .hcmHandles number => inferInstanceAs (Decidable (∀ call ∈ world.sent[number]?, _))
  | .consumeReply .. => inferInstanceAs (Decidable (∀ row ∈ world.worker.calling, _))
  | .crash | .crashInBatch .. => isFalse id
  | .tick _ | .balanceReply .. | .settle .. => isTrue trivial

/-- A filing on the key is accepted only while the cached balance is HCM's own. -/
def FilesOnFresh : Event → Prop
  | .call (.createRequest clock ids actor input) =>
    ∀ created ∈ (createRequest clock ids actor input world.db).1.toOption, created.row.key = key →
      ∀ cached ∈ findBalance key world.db, cached.hcmBalance = hcmBalance opening key world
  | _ => True

/-- With no handler in flight, the open days of the key are at most what HCM has left. -/
def Within : Prop :=
  world.worker = .idle → sumOpenReservations key world.db ≤ hcmBalance opening key world

end Environment

instance (opening : ℚ) (key : Key) (world : World) : (event : Event) →
    Decidable (FilesOnFresh opening key world event)
  | .call (.createRequest clock ids actor input) =>
    inferInstanceAs (Decidable (∀ created ∈ (createRequest clock ids actor input world.db).1.toOption, _))
  | .call (.approve ..) | .call (.reject ..) | .call (.cancel ..) | .call (.markConsumed ..)
  | .call (.markHcmFailed ..) | .call (.markReviewRequired ..) | .call (.applyHcmBalanceSnapshot ..)
  | .call (.handleBatch ..) | .call (.reconcileKey ..) | .call (.claimDue ..) | .call (.markDone ..)
  | .call (.scheduleRetry ..) | .call (.resetToPending _) | .tick _ | .balanceReply .. | .hcmHandles _
  | .consumeReply .. | .settle .. | .crash | .crashInBatch .. => isTrue trivial

instance (opening : ℚ) (key : Key) : DecidablePred (Within opening key) := fun world =>
  inferInstanceAs (Decidable (world.worker = .idle → _))

variable {config : OutboxConfig} {world next : World} {event : Event} {db after : Db}
  {opening : ℚ} {key : Key}

/-! ## A settled reservation leaves the sum -/

theorem settledReservation_other {id : String} {closed : ReservationState} {now : Int}
    {row : ReservationRow} (other : row.requestId ≠ id) :
    settledReservation id (some closed) now row = row := by
  simp [settledReservation, patchRow, other]

/-- Closing the one open reservation of a request takes its days off the key's sum. -/
theorem sum_settled_eq {id : String} {closed : ReservationState} (shuts : closed ≠ .open) (now : Int)
    {reservation : ReservationRow} (isOpen : reservation.state = .open) {rows : List ReservationRow}
    (only : rows.filter (fun row => row.requestId = id) = [reservation]) :
    (((rows.map (settledReservation id (some closed) now)).filter (openFor reservation.key)).map
        ReservationRow.days).sum =
      ((rows.filter (openFor reservation.key)).map ReservationRow.days).sum - reservation.days := by
  induction rows with
  | nil => cases only
  | cons row rest inductionHypothesis =>
    rw [List.filter_cons] at only
    split at only
    next own =>
      -- the one row of the request: it leaves the sum, and no later row is hit
      obtain ⟨rfl, none⟩ := List.cons.inj only
      have unchanged : rest.map (settledReservation id (some closed) now) = rest := by
        refine (List.map_congr_left ?_).trans (List.map_id rest)
        intro other member
        have different := (List.filter_eq_nil_iff.mp none) other member
        exact settledReservation_other (by simpa using different)
      have settled : openFor row.key (settledReservation id (some closed) now row) = false := by
        have hit : row.requestId = id := of_decide_eq_true own
        simp [settledReservation, patchRow, hit, isOpen, openFor, shuts]
      have counted : openFor row.key row = true := by simp [openFor, isOpen]
      rw [List.map_cons, unchanged, List.filter_cons, settled, List.filter_cons, counted]
      simp
    next other =>
      rw [List.map_cons, settledReservation_other (by simpa using other), List.filter_cons,
        List.filter_cons]
      split
      · rw [List.map_cons, List.map_cons, List.sum_cons, List.sum_cons, inductionHypothesis only]
        ring
      · exact inductionHypothesis only

theorem sumOpenReservations_closed {before : RequestRow} {toState : State} {now : Int}
    {patch : StatePatch} (coherent : Coherent db) (moved : Moved before toState now patch db after)
    (holding : before.state.holding = true) {closed : ReservationState}
    (closes : toState.closes = some closed) :
    sumOpenReservations before.key after = sumOpenReservations before.key db - before.days := by
  obtain ⟨reservation, only, pair⟩ := coherent.reservation (Table.find?_eq_some.mp moved.found).1
  have isOpen : reservation.state = .open := pair.state.trans (State.reservation_open.mpr holding)
  have shuts : closed ≠ .open := by
    rintro rfl
    cases toState <;> cases closes
  simp only [sumOpenReservations]
  rw [moved.reservations_rows, closes, ← pair.key, ← pair.days]
  exact sum_settled_eq shuts now isOpen only

theorem Offered.sumOpenReservations_le {call : Call} (offered : Offered db call after)
    (whole : WholeDays db) (files : ∀ clock ids actor input, call ≠ .createRequest clock ids actor input)
    (key : Key) : sumOpenReservations key after ≤ sumOpenReservations key db := by
  cases offered with
  | filed clock ids actor input row after filed => exact absurd rfl (files clock ids actor input)
  | approved clock newId actor requestId before patch after found moved =>
    exact sumOpenReservations_moved whole moved key
  | rejected clock actor requestId reason before patch after found decides moved =>
    exact sumOpenReservations_moved whole moved key
  | cancelled clock actor requestId before patch after found may moved =>
    exact sumOpenReservations_moved whole moved key
  | healed call after healed => exact healed.sumOpenReservations_le whole key
  | reset rowId => exact le_refl _
  | unchanged call => exact le_refl _

theorem Reaction.sumOpenReservations_le {row : ClaimedRow} {final : Db} {toState : State}
    {settlement : Settlement} (reaction : Reaction row db toState settlement final)
    (whole : WholeDays db) (key : Key) :
    sumOpenReservations key final ≤ sumOpenReservations key db := by
  cases reaction with
  | moved before now patch final found state moved => exact sumOpenReservations_moved whole moved key
  | already state => exact le_refl _
  | elsewhere settlement ends different unapproved => exact le_refl _

theorem scheduleRetry_reservations (config : OutboxConfig) (now : Int) (random : ℚ) (id : Nat)
    (message : String) (db : Db) :
    (scheduleRetry config now random id message db).reservations = db.reservations := by
  obtain ⟨_, same⟩ | ⟨change, keeps, _, same⟩ := scheduleRetry_cases config now random id message db
  · rw [same]
  · rw [same]
    rfl

/-! ## Requests that hold their days -/

/-- The request holds its days of the balance. -/
def Holds (id : String) (db : Db) : Prop :=
  ∃ state, requestState id db = some state ∧ state.holding = true

/-- A request that holds its days has held them since it was filed. -/
theorem Holds.earlier {id : String} {results : List SnapshotResult} (holds : Holds id after)
    (effect : Effect db results after) (known : (db.requests.find? id).isSome) : Holds id db := by
  obtain ⟨state, isState, holding⟩ := holds
  cases effect with
  | @filed row _ _ _ filed =>
    rw [filed.requestState_after] at isState
    split at isState
    next own =>
      rw [← own, filed.fresh] at known
      cases known
    next => exact ⟨state, isState, holding⟩
  | @moved before toState _ _ _ _ moved =>
    rw [moved.requestState_after] at isState
    split at isState
    next own =>
      cases isState
      obtain held | ⟨_, rfl⟩ := holding_of_canTransition moved.legal
      · exact ⟨before.state, own ▸ moved.requestState_before, held⟩
      · cases holding
    next => exact ⟨state, isState, holding⟩
  | healed healed =>
    obtain same | ⟨approved, _⟩ := healed.requestState_after id
    · exact ⟨state, same.symm.trans isState, holding⟩
    · exact ⟨.approved, approved, rfl⟩
  | requeued requeued =>
    exact ⟨state, (requestState_congr requeued.requests id).symm.trans isState, holding⟩

/-! ## The ledger -/

/-- The days that HCM has taken for the call at hand, while the request still holds them. -/
def inTransit (key : Key) (world : World) : ℚ :=
  match world.worker.calling with
  | some row =>
    if row.payload.key = key ∧ world.debited row.payload.externalRequestId = true then row.payload.days
    else 0
  | none => 0

/-- What is open on the key is covered by what HCM has left and the days in transit, and a request
whose days are taken still holds them only while its acknowledgement is awaited. -/
structure Ledger (opening : ℚ) (key : Key) (world : World) : Prop where
  tracked : Tracked world
  whole : WholeDays world.db
  stands : QueueStands (· = key) world
  awaited : ∀ call ∈ world.debits, call.row.payload.key = key → Holds call.row.requestId world.db →
    ∃ row ∈ world.worker.calling, row.requestId = call.row.requestId
  integer : ∃ n : ℤ, hcmBalance opening key world = n
  covered : sumOpenReservations key world.db ≤ hcmBalance opening key world + inTransit key world

theorem WorkerState.held_of_calling {worker : WorkerState} {row : ClaimedRow}
    (calling : worker.calling = some row) : row ∈ worker.held := by
  obtain ⟨rest, rfl⟩ := calling_eq_some.mp calling
  exact List.mem_cons_self

theorem inTransit_of_none (calling : world.worker.calling = none) : inTransit key world = 0 := by
  rw [inTransit, calling]

/-- Without a call at hand nothing is in transit. -/
theorem Ledger.within (ledger : Ledger opening key world) (calling : world.worker.calling = none) :
    sumOpenReservations key world.db ≤ hcmBalance opening key world := by
  have covered := ledger.covered
  rwa [inTransit_of_none calling, add_zero] at covered

theorem covered_of_within (calling : world.worker.calling = none)
    (within : sumOpenReservations key world.db ≤ hcmBalance opening key world) :
    sumOpenReservations key world.db ≤ hcmBalance opening key world + inTransit key world := by
  rwa [inTransit_of_none calling, add_zero]

theorem SpeaksFor.whole {id : String} {payload : ConsumePayload} (speaks : SpeaksFor db id payload)
    (coherent : Coherent db) (whole : WholeDays db) : ∃ n : ℕ, 0 < n ∧ payload.days = n := by
  obtain ⟨request, _, found, _, rfl⟩ := speaks
  obtain ⟨reservation, member, pair⟩ := coherent.exists_reservation (Table.find?_eq_some.mp found).1
  obtain ⟨n, positive, days⟩ := whole reservation member
  exact ⟨n, positive, pair.days.symm.trans days⟩

theorem Tracked.debit_speaks (tracked : Tracked world) {call : Consume} (debit : call ∈ world.debits) :
    SpeaksFor world.db call.row.requestId call.row.payload :=
  tracked.accounted.sent call (tracked.accounted.debits call debit)

theorem daysTaken_append (key : Key) (first second : List Consume) :
    daysTaken key (first ++ second) = daysTaken key first + daysTaken key second := by
  simp [daysTaken]

theorem daysTaken_nonneg {debits : List Consume} (nonneg : ∀ call ∈ debits, 0 ≤ call.row.payload.days) :
    0 ≤ daysTaken key debits := by
  apply List.sum_nonneg
  intro days member
  obtain ⟨call, selected, rfl⟩ := List.mem_map.mp member
  exact nonneg call (List.mem_of_mem_filter selected)

/-- HCM's balance only falls. -/
theorem Ledger.hcmBalance_le (ledger : Ledger opening key world) {balance : ℚ}
    (was : WasBalance opening key world balance) : hcmBalance opening key world ≤ balance := by
  obtain ⟨earlier, isPrefix, rfl⟩ := was
  obtain ⟨later, split⟩ := (List.mem_inits _ _).mp isPrefix
  have nonneg : 0 ≤ daysTaken key later := by
    apply daysTaken_nonneg
    intro call member
    have debit : call ∈ world.debits := split ▸ List.mem_append_right earlier member
    obtain ⟨n, _, days⟩ := (ledger.tracked.debit_speaks debit).whole ledger.tracked.coherent ledger.whole
    rw [days]
    exact Nat.cast_nonneg n
  rw [hcmBalance, ← split, daysTaken_append]
  linarith

/-- Between calls, a true snapshot covers what is open. -/
theorem Ledger.covers (ledger : Ledger opening key world) (idle : world.worker = .idle) {balance : ℚ}
    (was : WasBalance opening key world balance) : sumOpenReservations key world.db ≤ balance :=
  (ledger.within (by rw [idle]; rfl)).trans (ledger.hcmBalance_le was)

/-! ## The step respects the queue -/

theorem leavesActiveAlone_of_spares (spares : Spares key world.db after) :
    LeavesActiveAlone (· = key) world after := by
  intro stored _ _ concerns approved
  exact (spares stored.requestId concerns).trans approved

/-- A move to another state than APPROVED leaves the active rows alone when it starts elsewhere too. -/
theorem Moved.leavesActiveAlone {before : RequestRow} {toState : State} {now : Int} {patch : StatePatch}
    (moved : Moved before toState now patch world.db after)
    (unapproved : before.key = key → before.state ≠ .approved) :
    LeavesActiveAlone (· = key) world after := by
  intro stored _ _ concerns approved
  rw [moved.requestState_after]
  split
  next own =>
    obtain ⟨request, found, onKey⟩ := concerns
    rw [own] at found approved
    cases moved.found.symm.trans found
    rw [moved.requestState_before] at approved
    exact absurd (Option.some.inj approved) (unapproved onKey)
  next => exact approved

theorem Ledger.leavesActiveAlone (ledger : Ledger opening key world) (idle : world.worker = .idle)
    {call : Call} (offered : call.offered = true) (harmless : Harmless opening key world call) :
    LeavesActiveAlone (· = key) world (call.exec world.db) := by
  have unchanged : LeavesActiveAlone (· = key) world world.db := fun _ _ _ _ approved => approved
  cases call with
  | createRequest clock ids actor input =>
    simp only [Call.exec]
    cases ran : createRequest clock ids actor input world.db with
    | mk outcome after =>
      cases outcome with
      | ok created =>
        have filed := createRequest_ok ran
        intro stored _ _ concerns approved
        rw [filed.requestState_after, if_neg, approved]
        intro own
        obtain ⟨request, found, _⟩ := concerns
        rw [← own, filed.fresh] at found
        cases found
      | error failure =>
        rw [createRequest_error ran]
        exact unchanged
  | approve clock newId actor requestId =>
    refine transaction_rule (fun _ after => LeavesActiveAlone (· = key) world after) ?_
      fun _ _ => unchanged
    intro _ after ran
    obtain ⟨before, found, _, moved⟩ := approve_ok (transaction_ok.mpr ran)
    apply moved.leavesActiveAlone
    intro _ approved
    cases canTransition_approved.mp moved.legal with
    | inl state => cases state.symm.trans approved
    | inr state => cases state.symm.trans approved
  | reject clock actor requestId reason =>
    refine transaction_rule (fun _ after => LeavesActiveAlone (· = key) world after) ?_
      fun _ _ => unchanged
    intro _ after ran
    obtain ⟨before, found, _, moved⟩ := reject_ok (transaction_ok.mpr ran)
    exact moved.leavesActiveAlone (harmless before found)
  | cancel clock actor requestId =>
    refine transaction_rule (fun _ after => LeavesActiveAlone (· = key) world after) ?_
      fun _ _ => unchanged
    intro _ after ran
    obtain ⟨before, found, _, moved⟩ := cancel_ok (transaction_ok.mpr ran)
    exact moved.leavesActiveAlone (harmless before found)
  | handleBatch clocks batch =>
    refine leavesActiveAlone_of_spares (handleBatch_spares ledger.whole ?_)
    intro row member own balance given
    exact ledger.covers idle (harmless row member own balance given)
  | reconcileKey clock other reply =>
    refine leavesActiveAlone_of_spares (reconcileKey_spares ?_)
    intro own balance given
    exact ledger.covers idle (harmless own balance given)
  | resetToPending id => cases harmless
  | markConsumed | markHcmFailed | markReviewRequired | applyHcmBalanceSnapshot | claimDue | markDone
  | scheduleRetry => cases offered

theorem Ledger.respects (ledger : Ledger opening key world) (orderly : Orderly opening key world event)
    (stepped : Stepped config world event next) : RespectsActive (· = key) world event := by
  cases stepped with
  | call call yields offered =>
    refine ⟨?_, ledger.leavesActiveAlone orderly.1 offered orderly.2⟩
    intro id resets
    cases call with
    | resetToPending => cases orderly.2
    | _ => cases resets
  | crash => cases orderly
  | crashInBatch => cases orderly
  | claimed | draining | sends | reviews | repeated | debits | accepted | refused | lost | done
  | retries => trivial

/-! ## The row at hand -/

/-- The worker is at an await, so no row is about to be completed. -/
theorem Ledger.approved_at_hand (ledger : Ledger opening key world) {row : ClaimedRow}
    (held : row ∈ world.worker.held) (free : world.worker.finishing = none)
    (onKey : row.payload.key = key) : requestState row.requestId world.db = some .approved := by
  obtain ⟨stored, storedIn, copy⟩ := ledger.stands.heldStored row held
  obtain ⟨request, _, found, _, payload⟩ := ledger.tracked.accounted.held row held
  have requestKey : request.key = key := (congrArg ConsumePayload.key payload).symm.trans onKey
  have active : Active world stored :=
    ⟨.inr (List.mem_map.mpr ⟨row, held, copy.id.symm⟩), by simp [free]⟩
  have concerns : Concerns (· = key) world.db stored.requestId :=
    ⟨request, by rw [copy.requestId]; exact found, requestKey⟩
  exact copy.requestId ▸ ledger.stands.active.approved stored storedIn active concerns

/-- Who shares an `external_request_id` speaks for the same request. -/
theorem Labelled.same_request {first second : String} {left right : ConsumePayload}
    (labelled : Labelled db) (speaksLeft : SpeaksFor db first left)
    (speaksRight : SpeaksFor db second right) (same : left.externalRequestId = right.externalRequestId) :
    first = second ∧ left.key = right.key := by
  obtain ⟨leftRequest, leftId, foundLeft, leftHas, rfl⟩ := speaksLeft
  obtain ⟨rightRequest, rightId, foundRight, rightHas, rfl⟩ := speaksRight
  obtain ⟨leftIn, leftOwn⟩ := Table.find?_eq_some.mp foundLeft
  obtain ⟨rightIn, rightOwn⟩ := Table.find?_eq_some.mp foundRight
  have sameId : leftId = rightId := same
  have sameRequest : leftRequest.id = rightRequest.id :=
    labelled.distinct _ leftIn _ rightIn leftId leftHas (sameId ▸ rightHas)
  obtain rfl := db.requests.eq_of_key leftIn rightIn sameRequest
  exact ⟨leftOwn.symm.trans rightOwn, rfl⟩

/-- A row of the key that the worker holds before its consume call is not yet debited. -/
theorem Ledger.undebited (ledger : Ledger opening key world) {row : ClaimedRow}
    (held : row ∈ world.worker.held) (free : world.worker.finishing = none)
    (calling : world.worker.calling = none) (onKey : row.payload.key = key) :
    world.debited row.payload.externalRequestId = false := by
  rw [Bool.eq_false_iff]
  intro debited
  obtain ⟨call, debit, sameId⟩ := List.any_eq_true.mp debited
  obtain ⟨sameRequest, sameKey⟩ := ledger.tracked.accounted.labelled.same_request
    (ledger.tracked.debit_speaks debit) (ledger.tracked.accounted.held row held)
    (of_decide_eq_true sameId)
  have holds : Holds call.row.requestId world.db :=
    ⟨.approved, by rw [sameRequest]; exact ledger.approved_at_hand held free onKey, rfl⟩
  obtain ⟨other, awaited, _⟩ := ledger.awaited call debit (sameKey.trans onKey) holds
  rw [calling] at awaited
  cases awaited

/-! ## One step -/

theorem Ledger.awaited_step (ledger : Ledger opening key world)
    (orderly : Orderly opening key world event) (stepped : Stepped config world event next)
    {call : Consume} (debit : call ∈ next.debits) (onKey : call.row.payload.key = key)
    (holds : Holds call.row.requestId next.db) :
    ∃ row ∈ next.worker.calling, row.requestId = call.row.requestId := by
  obtain same | ⟨number, new, rfl, found, _, rfl⟩ := stepped.debits_grow
  -- an old debit: its call was awaited, and its answer ends the holding
  · rw [same] at debit
    have speaks := ledger.tracked.debit_speaks debit
    obtain ⟨request, _, foundRequest, _, payload⟩ := speaks
    obtain ⟨_, effect⟩ := stepped.effect
    obtain ⟨row, calling, own⟩ :=
      ledger.awaited call debit onKey (holds.earlier effect (by simp [foundRequest]))
    obtain ⟨rest, at_call⟩ := WorkerState.calling_eq_some.mp calling
    have held : row ∈ world.worker.held := by simp [at_call, WorkerState.held]
    have debited := ledger.tracked.accounted.debited_held held debit own
    obtain ⟨other, _, foundOther, _, otherPayload⟩ := ledger.tracked.accounted.held row held
    have rowKey : row.payload.key = key := by
      rw [own] at foundOther
      cases foundRequest.symm.trans foundOther
      rw [otherPayload, ← onKey, payload]
      rfl
    have free : world.worker.finishing = none := by simp [at_call, WorkerState.finishing]
    cases stepped with
    | call => cases at_call.symm.trans orderly.1
    | claimed now idle => cases at_call.symm.trans idle
    | draining | repeated | debits => exact ⟨row, calling, own⟩
    | sends clock reply other others at_await => cases at_call.symm.trans at_await
    | reviews clock reply other others balance settlement final at_await =>
      cases at_call.symm.trans at_await
    | accepted clock reply body other others settlement final at_await answer reaction =>
      cases at_call.symm.trans at_await
      obtain ⟨_, consumed⟩ := reaction.consumes (.inl (ledger.approved_at_hand held free rowKey))
      obtain ⟨state, isState, holding⟩ := holds
      rw [← own] at isState
      cases consumed.symm.trans isState
      cases holding
    | refused clock reply failure other others settlement final at_await answer =>
      cases at_call.symm.trans at_await
      have refusal := orderly row calling rowKey
      rw [accepts_of_error answer, debited] at refusal
      cases refusal
    | lost clock reply failure other others at_await answer =>
      cases at_call.symm.trans at_await
      have refusal := orderly row calling rowKey
      rw [accepts_of_error answer, debited] at refusal
      cases refusal
    | done now random other others escaping at_end => cases at_call.symm.trans at_end
    | retries now random other others message at_end => cases at_call.symm.trans at_end
    | crash => cases orderly
    | crashInBatch => cases orderly
  -- a new debit is that of the call at hand
  · cases List.mem_append.mp debit with
    | inl old => exact ledger.awaited call old onKey holds
    | inr isNew =>
      obtain rfl := List.mem_singleton.mp isNew
      exact ⟨call.row, orderly call found onKey, rfl⟩

theorem Ledger.integer_step (ledger : Ledger opening key world)
    (stepped : Stepped config world event next) : ∃ n : ℤ, hcmBalance opening key next = n := by
  obtain ⟨n, isInteger⟩ := ledger.integer
  obtain same | ⟨_, call, _, found, _, rfl⟩ := stepped.debits_grow
  · exact ⟨n, by rw [hcmBalance, same]; exact isInteger⟩
  · have speaks := ledger.tracked.accounted.sent call (List.mem_of_getElem? found)
    obtain ⟨days, _, isDays⟩ := speaks.whole ledger.tracked.coherent ledger.whole
    simp only [hcmBalance] at isInteger ⊢
    rw [daysTaken_append, ← sub_sub, isInteger]
    by_cases onKey : call.row.payload.key = key
    · exact ⟨n - days, by simp [daysTaken, onKey, isDays]⟩
    · exact ⟨n, by simp [daysTaken, onKey]⟩

theorem sum_whole {rows : List ReservationRow} (whole : ∀ row ∈ rows, ∃ n : ℕ, 0 < n ∧ row.days = n) :
    ∃ n : ℕ, (rows.map ReservationRow.days).sum = n := by
  induction rows with
  | nil => exact ⟨0, by simp⟩
  | cons row rest inductionHypothesis =>
    obtain ⟨days, _, isDays⟩ := whole row List.mem_cons_self
    obtain ⟨others, isOthers⟩ :=
      inductionHypothesis fun other member => whole other (List.mem_cons_of_mem _ member)
    exact ⟨days + others, by simp [isDays, isOthers]⟩

/-- A filing that is admitted against HCM's own balance fits into it. -/
theorem Filed.fits {row : RequestRow} {now : Int} (filed : Filed row now db after)
    (whole : WholeDays db) (balance : ℤ)
    (fresh : ∀ cached ∈ findBalance row.key db, cached.hcmBalance = balance) :
    sumOpenReservations row.key after ≤ balance := by
  obtain ⟨cached, found, admitted⟩ := filed.balance
  obtain ⟨reserved, isReserved⟩ : ∃ n : ℕ, sumOpenReservations row.key db = n :=
    sum_whole fun other member => whole other (List.mem_of_mem_filter member)
  obtain ⟨days, _, isDays⟩ := filed.whole
  -- all terms are whole numbers, which rounding leaves alone
  have rest : cached.hcmBalance - sumOpenReservations row.key db = ((balance - reserved : ℤ) : ℚ) := by
    rw [fresh cached found, isReserved]
    push_cast
    ring
  rw [rest, round, roundAt_int (by norm_num)] at admitted
  rw [sumOpenReservations_filed filed, if_pos rfl, isReserved]
  push_cast at admitted
  linarith

theorem Ledger.filing_covered (ledger : Ledger opening key world) (idle : world.worker = .idle)
    {clock : Clock} {ids : NewIds} {actor : Actor} {input : CreateInput}
    (fresh : FilesOnFresh opening key world (.call (.createRequest clock ids actor input))) :
    sumOpenReservations key ((Call.createRequest clock ids actor input).exec world.db) ≤
      hcmBalance opening key world := by
  have within := ledger.within (by rw [idle]; rfl)
  simp only [Call.exec]
  simp only [FilesOnFresh] at fresh
  cases ran : createRequest clock ids actor input world.db with
  | mk outcome after =>
    cases outcome with
    | ok created =>
      have filed := createRequest_ok ran
      by_cases own : created.row.key = key
      · obtain ⟨balance, isBalance⟩ := ledger.integer
        have fits := filed.fits ledger.whole balance (by
          intro cached found
          rw [← isBalance]
          exact fresh created (by rw [ran]; rfl) own cached (own ▸ found))
        rwa [own, ← isBalance] at fits
      · rw [sumOpenReservations_filed filed, if_neg own, add_zero]
        exact within
    | error failure =>
      rw [createRequest_error ran]
      exact within

/-- The acknowledged consume leaves HCM's balance and the open reservations at once. -/
theorem Ledger.accepted_covered (ledger : Ledger opening key world) {row : ClaimedRow}
    {rest : List ClaimedRow} {settlement : Settlement} {final : Db}
    (at_await : world.worker = .awaitConsume row rest)
    (debited : row.payload.key = key → world.debited row.payload.externalRequestId = true)
    (reaction : Reaction row world.db .consumed settlement final) :
    sumOpenReservations key final ≤ hcmBalance opening key world := by
  have covered := ledger.covered
  have held : row ∈ world.worker.held := by simp [at_await, WorkerState.held]
  simp only [inTransit, at_await, WorkerState.calling] at covered
  by_cases onKey : row.payload.key = key
  · rw [if_pos ⟨onKey, debited onKey⟩] at covered
    have approved := ledger.approved_at_hand held (by simp [at_await, WorkerState.finishing]) onKey
    obtain ⟨request, _, found, _, payload⟩ := ledger.tracked.accounted.held row held
    cases reaction with
    | moved before now patch final foundBefore state moved =>
      cases found.symm.trans foundBefore
      have closed := sumOpenReservations_closed ledger.tracked.coherent moved (by rw [state]; rfl) rfl
      have requestKey : request.key = key := (congrArg ConsumePayload.key payload).symm.trans onKey
      have requestDays : request.days = row.payload.days := (congrArg ConsumePayload.days payload).symm
      rw [requestKey, requestDays] at closed
      linarith
    | already state => cases approved.symm.trans state
    | elsewhere settlement ends different unapproved => exact absurd approved unapproved
  · rw [if_neg fun both => onKey both.1, add_zero] at covered
    exact (reaction.sumOpenReservations_le ledger.whole key).trans covered

/-- A debit of the key is that of the call at hand. -/
theorem Ledger.debit_covered (ledger : Ledger opening key world) {number : Nat} {call : Consume}
    (orderly : Orderly opening key world (.hcmHandles number)) (found : world.sent[number]? = some call)
    (unknown : world.debited call.row.payload.externalRequestId = false) :
    sumOpenReservations key world.db ≤
      hcmBalance opening key { world with debits := world.debits ++ [call] } +
        inTransit key { world with debits := world.debits ++ [call] } := by
  have covered := ledger.covered
  have speaks := ledger.tracked.accounted.sent call (List.mem_of_getElem? found)
  by_cases onKey : call.row.payload.key = key
  -- the days leave HCM's balance and are in transit from now on
  · have calling : world.worker.calling = some call.row := orderly call found onKey
    have before : inTransit key world = 0 := by simp [inTransit, calling, unknown]
    have later : inTransit key { world with debits := world.debits ++ [call] } =
        call.row.payload.days := by
      simp [inTransit, calling, onKey, World.debited]
    have taken : hcmBalance opening key { world with debits := world.debits ++ [call] } =
        hcmBalance opening key world - call.row.payload.days := by
      simp [hcmBalance, daysTaken, onKey, sub_sub]
    rw [later, taken]
    linarith
  -- a debit of another key; the call at hand has another id when it is of this one
  · have taken : hcmBalance opening key { world with debits := world.debits ++ [call] } =
        hcmBalance opening key world := by
      simp [hcmBalance, daysTaken, onKey]
    have later : inTransit key { world with debits := world.debits ++ [call] } = inTransit key world := by
      unfold inTransit
      dsimp only
      cases calling : world.worker.calling with
      | none => rfl
      | some row =>
        have held : row ∈ world.worker.held := WorkerState.held_of_calling calling
        have rowSpeaks := ledger.tracked.accounted.held row held
        have other : row.payload.key = key →
            call.row.payload.externalRequestId ≠ row.payload.externalRequestId := by
          intro rowOnKey sameId
          exact onKey ((ledger.tracked.accounted.labelled.same_request speaks rowSpeaks sameId).2.trans
            rowOnKey)
        by_cases rowOnKey : row.payload.key = key
        · simp [rowOnKey, World.debited, other rowOnKey]
        · simp [rowOnKey]
    rw [later, taken]
    exact covered

theorem calling_proceed (rows : List ClaimedRow) : (proceed rows).calling = none := by
  cases rows <;> rfl

theorem calling_afterSettle (rest : List ClaimedRow) (settlement : Settlement) :
    (afterSettle rest settlement).calling = none := by
  simp only [afterSettle]
  split
  · rfl
  · exact calling_proceed rest

/-- An error for the call at hand means that HCM has not taken its days. -/
theorem inTransit_of_error {row : ClaimedRow} {rest : List ClaimedRow} {clock : Clock}
    {reply : Reply Unit} {failure : Failure} (at_await : world.worker = .awaitConsume row rest)
    (orderly : Orderly opening key world (.consumeReply clock reply))
    (answer : HcmClient.consumeBalance reply = .error failure) : inTransit key world = 0 := by
  simp only [inTransit, at_await, WorkerState.calling]
  apply if_neg
  rintro ⟨onKey, debited⟩
  have refusal := orderly row (by simp [at_await, WorkerState.calling]) onKey
  rw [accepts_of_error answer, debited] at refusal
  cases refusal

theorem Ledger.covered_step (ledger : Ledger opening key world)
    (orderly : Orderly opening key world event) (fresh : FilesOnFresh opening key world event)
    (stepped : Stepped config world event next) :
    sumOpenReservations key next.db ≤ hcmBalance opening key next + inTransit key next := by
  have covered := ledger.covered
  cases stepped with
  | call call yields offered =>
    have calling : world.worker.calling = none := by rw [orderly.1]; rfl
    apply covered_of_within (by exact calling)
    cases call with
    | createRequest clock ids actor input => exact ledger.filing_covered orderly.1 fresh
    | _ =>
      have offers := Call.offered_exec offered world.db
      exact (offers.sumOpenReservations_le ledger.whole (by simp) key).trans (ledger.within calling)
  | claimed now idle =>
    apply covered_of_within (calling_proceed _)
    exact ledger.within (by rw [idle]; rfl)
  | draining now => exact covered
  | sends clock reply row rest at_await unknown =>
    have none : world.worker.calling = none := by rw [at_await]; rfl
    rw [inTransit_of_none none] at covered
    -- the row was not debited before its call, so sending it puts nothing in transit
    have nothing : inTransit key { world with
        worker := .awaitConsume row rest, sent := world.sent ++ [world.consume row] } = 0 := by
      have undebited : row.payload.key = key →
          world.debited row.payload.externalRequestId = false :=
        ledger.undebited (by simp [at_await, WorkerState.held])
          (by simp [at_await, WorkerState.finishing]) none
      simp only [inTransit]
      exact if_neg fun both => by cases (undebited both.1).symm.trans both.2
    rw [nothing]
    exact covered
  | reviews clock reply row rest balance settlement final at_await insufficient reaction =>
    apply covered_of_within (by rfl)
    have within := ledger.within (by rw [at_await]; rfl)
    exact (reaction.sumOpenReservations_le ledger.whole key).trans within
  | repeated number call found known => exact covered
  | debits number call found unknown => exact ledger.debit_covered orderly found unknown
  | accepted clock reply body row rest settlement final at_await answer reaction =>
    apply covered_of_within (by rfl)
    refine ledger.accepted_covered at_await ?_ reaction
    intro onKey
    rw [← orderly row (by simp [at_await, WorkerState.calling]) onKey, accepts_of_ok answer]
  | refused clock reply failure row rest settlement final at_await answer permanent reaction =>
    rw [inTransit_of_error at_await orderly answer, add_zero] at covered
    apply covered_of_within (by rfl)
    exact (reaction.sumOpenReservations_le ledger.whole key).trans covered
  | lost clock reply failure row rest at_await answer transient =>
    rw [inTransit_of_error at_await orderly answer, add_zero] at covered
    exact covered_of_within (by rfl) covered
  | done now random row rest escaping at_end =>
    apply covered_of_within (calling_afterSettle _ _)
    exact ledger.within (by rw [at_end]; rfl)
  | retries now random row rest message at_end =>
    apply covered_of_within (calling_proceed _)
    rw [sumOpenReservations_congr (scheduleRetry_reservations _ _ _ _ _ _)]
    exact ledger.within (by rw [at_end]; rfl)
  | crash => cases orderly
  | crashInBatch => cases orderly

theorem Ledger.step (ledger : Ledger opening key world) (orderly : Orderly opening key world event)
    (fresh : FilesOnFresh opening key world event) (stepped : Stepped config world event next) :
    Ledger opening key next := by
  obtain ⟨_, effect⟩ := stepped.effect
  exact
    { tracked := ledger.tracked.step stepped
      whole := ledger.whole.effect effect
      stands := ledger.stands.step stepped (ledger.respects orderly stepped)
      awaited := fun _ debit onKey holds => ledger.awaited_step orderly stepped debit onKey holds
      integer := ledger.integer_step stepped
      covered := ledger.covered_step orderly fresh stepped }

/-! ## Runs -/

/-- Nothing of the key is open, none of its rows is queued, and HCM has a whole number of days. -/
structure Settled (opening : ℚ) (key : Key) (world : World) : Prop where
  idle : world.worker = .idle
  closed : ∀ reservation ∈ world.db.reservations.rows, reservation.key = key → reservation.state ≠ .open
  unqueued : ∀ row ∈ world.db.hcmOutbox.rows, row.payload.key = key → row.status ≠ .pending
  whole : ∃ days : ℕ, hcmBalance opening key world = days

theorem Settled.ledger (settled : Settled opening key world) (tracked : Tracked world)
    (whole : WholeDays world.db) : Ledger opening key world := by
  obtain ⟨idle, closed, unqueued, days, isDays⟩ := settled
  have nothing : sumOpenReservations key world.db = 0 := by
    simp only [sumOpenReservations]
    have empty : world.db.reservations.rows.filter (openFor key) = [] := by
      rw [List.filter_eq_nil_iff]
      intro reservation member counted
      obtain ⟨own, isOpen⟩ := of_decide_eq_true counted
      exact closed reservation member own isOpen
    rw [empty]
    rfl
  have held : world.worker.held = [] := by rw [idle]; rfl
  have inactive : ∀ stored ∈ world.db.hcmOutbox.rows, Active world stored →
      ¬ Concerns (· = key) world.db stored.requestId := by
    intro stored member active concerns
    obtain ⟨request, found, onKey⟩ := concerns
    obtain ⟨other, _, foundOther, _, payload⟩ := tracked.accounted.labelled.outbox stored member
    cases foundOther.symm.trans found
    cases active.1 with
    | inl pending => exact unqueued stored member (by rw [payload]; exact onKey) pending
    | inr atHand =>
      rw [held] at atHand
      cases atHand
  refine ⟨tracked, whole, ⟨tracked.accounted.labelled, ?_, ?_, ?_, ?_⟩, ?_, ⟨days, by simpa using isDays⟩, ?_⟩
  · intro row member
    rw [held] at member
    cases member
  · rw [HeldDistinct, held]
    exact List.nodup_nil
  · intro stored member active concerns
    exact absurd concerns (inactive stored member active)
  · intro stored member active concerns
    exact absurd concerns (inactive stored member active)
  · intro call debit onKey fact
    obtain ⟨state, isState, holding⟩ := fact
    obtain ⟨request, _, found, _, payload⟩ := tracked.debit_speaks debit
    obtain ⟨member, own⟩ := Table.find?_eq_some.mp found
    obtain ⟨reservation, reservationIn, pair⟩ := tracked.coherent.exists_reservation member
    obtain ⟨other, foundOther, rfl⟩ := requestState_eq_some.mp isState
    cases found.symm.trans foundOther
    have requestKey : request.key = key := (congrArg ConsumePayload.key payload).symm.trans onKey
    exact absurd (pair.state.trans (State.reservation_open.mpr holding))
      (closed reservation reservationIn (pair.key.trans requestKey))
  · rw [nothing, isDays, inTransit_of_none (by rw [idle]; rfl), add_zero]
    exact Nat.cast_nonneg days

/-- From a settled key on, the open days stay within HCM's balance in every orderly run in which
what is filed is filed against HCM's own balance. -/
theorem open_within_hcm_balance (config : OutboxConfig) (opening : ℚ) (key : Key)
    (earlier later : List Event) (world : World)
    (ran : run (World.step config) World.empty earlier = some world)
    (settled : Settled opening key world)
    (fresh : StepsMeet (restrict (World.step config) (Orderly opening key))
      (FilesOnFresh opening key) world later) :
    Always (restrict (World.step config) (Orderly opening key)) (Within opening key) world later := by
  have reached : Tracked world ∧ WholeDays world.db := by
    refine run_invariant (fun world => Tracked world ∧ WholeDays world.db) ?_ ⟨.empty, .empty⟩ ran
    intro world event next holds ran
    have stepped := step_stepped ran
    obtain ⟨_, effect⟩ := stepped.effect
    exact ⟨holds.1.step stepped, holds.2.effect effect⟩
  have kept : Always (restrict (World.step config) (Orderly opening key)) (Ledger opening key) world
      later := by
    refine always_of_stepsMeet (Ledger opening key) ?_ (settled.ledger reached.1 reached.2) fresh
    intro world event next ledger fresh ran
    obtain ⟨orderly, stepped⟩ := restrict_eq_some.mp ran
    exact ledger.step orderly fresh (step_stepped stepped)
  exact kept.mono fun _ ledger idle => ledger.within (by rw [idle]; rfl)

/-- Ten days are filed, approved and consumed, out of this balance at HCM. -/
def consumed (held : ℚ) : List Event :=
  [.call (Office.file "r1"), .call (Office.approve "r1" "x1"), .tick 0,
    .balanceReply Office.clock (Office.balance held), .hcmHandles 0,
    .consumeReply Office.clock Office.accepted, .settle 0 0]

/-- All ten days are consumed, and before HCM reports that, ten more are filed. -/
theorem filing_after_consume_overcommits :
    ∃ world ∈ run (World.step Office.config) World.empty [.call (Office.snapshot 10 0)],
      world.worker = .idle ∧ world.db.reservations.rows = [] ∧ world.db.hcmOutbox.rows = [] ∧
      (∃ cached ∈ findBalance Office.key world.db,
        cached.hcmBalance = 10 ∧ hcmBalance 10 Office.key world = 10) ∧
      ¬ Always (restrict (World.step Office.config) (Orderly 10 Office.key)) (Within 10 Office.key)
        world (consumed 10 ++ [.call (Office.file "r2")]) := by
  decide +kernel

/-- Ten of twenty days are consumed, and ten more are filed once HCM has reported the rest. -/
theorem open_within_hcm_balance_office :
    ∃ world ∈ run (World.step Office.config) World.empty [.call (Office.snapshot 20 0)],
      Always (restrict (World.step Office.config) (Orderly 20 Office.key)) (Within 20 Office.key)
        world (consumed 20 ++ [.call (Office.snapshot 10 1), .call (Office.file "r2")]) := by
  have start : ∃ world ∈ run (World.step Office.config) World.empty [.call (Office.snapshot 20 0)],
      world.worker = .idle ∧ world.db.reservations.rows = [] ∧ world.db.hcmOutbox.rows = [] ∧
      hcmBalance 20 Office.key world = 20 ∧
      StepsMeet (restrict (World.step Office.config) (Orderly 20 Office.key))
        (FilesOnFresh 20 Office.key) world
        (consumed 20 ++ [.call (Office.snapshot 10 1), .call (Office.file "r2")]) := by
    decide +kernel
  obtain ⟨world, ran, idle, unreserved, unqueued, held, fresh⟩ := start
  refine ⟨world, ran, ?_⟩
  refine open_within_hcm_balance Office.config 20 Office.key _ _ world ran
    ⟨idle, ?_, ?_, 20, by rw [held]; rfl⟩ fresh
  · simp [unreserved]
  · simp [unqueued]

end TimeOff
