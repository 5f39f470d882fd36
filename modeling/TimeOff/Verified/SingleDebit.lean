import TimeOff.Lib.Runs
import TimeOff.Verified.OutboxRows

/-! # At most one debit for a request

Everything that was ever sent to HCM for a request was a payload of the outbox,
and all of these carry the request's one `external_request_id`.  HCM takes days
once for each such id, so it takes the request's days at most once.
-/

set_option autoImplicit false

namespace TimeOff

open TimeOff.Lib HcmOutboxService HcmOutboxWorker

variable {config : OutboxConfig} {world next : World} {event : Event}

/-! ## The logs of the system grow -/

/-- A new consume call is for a row that the worker holds. -/
theorem Stepped.sent (stepped : Stepped config world event next) :
    next.sent = world.sent ∨
      ∃ row ∈ world.worker.held, next.sent = world.sent ++ [world.consume row] := by
  cases stepped with
  | sends clock reply row rest at_await unknown =>
    exact .inr ⟨row, by simp [at_await, WorkerState.held], rfl⟩
  | _ => exact .inl rfl

theorem Stepped.acknowledged (stepped : Stepped config world event next) :
    next.acknowledged = world.acknowledged ∨
      ∃ row ∈ world.worker.held, next.acknowledged = world.acknowledged ++ [row] := by
  cases stepped with
  | accepted clock reply body row rest settlement final at_await answer reaction =>
    exact .inr ⟨row, by simp [at_await, WorkerState.held], rfl⟩
  | _ => exact .inl rfl

/-- A debit is HCM handling a call that was sent. -/
theorem Stepped.debits_grow (stepped : Stepped config world event next) :
    next.debits = world.debits ∨
      ∃ number call, event = .hcmHandles number ∧ world.sent[number]? = some call ∧
        world.debited call.row.payload.externalRequestId = false ∧
        next = { world with debits := world.debits ++ [call] } := by
  cases stepped with
  | debits number call found unknown => exact .inr ⟨number, call, rfl, found, unknown, rfl⟩
  | _ => exact .inl rfl

/-! ## The invariant -/

/-- Every row held, sent or acknowledged speaks for its request, HCM took days at most once for each
id, and a consumed request was acknowledged. -/
structure Accounted (world : World) : Prop where
  labelled : Labelled world.db
  held : ∀ row ∈ world.worker.held, SpeaksFor world.db row.requestId row.payload
  sent : ∀ call ∈ world.sent, SpeaksFor world.db call.row.requestId call.row.payload
  acknowledged : ∀ row ∈ world.acknowledged, SpeaksFor world.db row.requestId row.payload
  debits : ∀ call ∈ world.debits, call ∈ world.sent
  once : world.debits.Pairwise fun earlier later =>
    earlier.row.payload.externalRequestId ≠ later.row.payload.externalRequestId
  consumed : ∀ id, requestState id world.db = some .consumed →
    ∃ row ∈ world.acknowledged, row.requestId = id

theorem Accounted.empty : Accounted World.empty := by
  refine ⟨.empty, ?_, ?_, ?_, ?_, .nil, ?_⟩
  all_goals simp [World.empty, WorkerState.held, requestState, Db.empty, Table.empty, Table.find?]

theorem Accounted.step (accounted : Accounted world) (stepped : Stepped config world event next) :
    Accounted next := by
  obtain ⟨_, effect⟩ := stepped.effect
  have grows := effect.grows
  have heldBefore : ∀ row ∈ world.worker.held, SpeaksFor next.db row.requestId row.payload :=
    fun row member => (accounted.held row member).grows grows
  refine ⟨accounted.labelled.effect effect, ?_, ?_, ?_, ?_, ?_, ?_⟩
  -- held: from the outbox, whose payloads speak for their requests
  · intro row member
    obtain old | ⟨stored, storedIn, rfl⟩ := stepped.held member
    · exact heldBefore row old
    · exact (accounted.labelled.outbox stored storedIn).grows grows
  -- sent: the payload of the row at hand
  · have old : ∀ call ∈ world.sent, SpeaksFor next.db call.row.requestId call.row.payload :=
      fun call member => (accounted.sent call member).grows grows
    obtain same | ⟨row, member, grown⟩ := stepped.sent
    · rw [same]
      exact old
    · rw [grown, List.forall_mem_append]
      exact ⟨old, List.forall_mem_singleton.mpr (heldBefore row member)⟩
  -- acknowledged: again the row at hand
  · have old : ∀ row ∈ world.acknowledged, SpeaksFor next.db row.requestId row.payload :=
      fun row member => (accounted.acknowledged row member).grows grows
    obtain same | ⟨row, member, grown⟩ := stepped.acknowledged
    · rw [same]
      exact old
    · rw [grown, List.forall_mem_append]
      exact ⟨old, List.forall_mem_singleton.mpr (heldBefore row member)⟩
  -- debits: HCM handles calls that were sent
  · have keeps : ∀ call ∈ world.sent, call ∈ next.sent := by
      obtain same | ⟨row, _, grown⟩ := stepped.sent
      · rw [same]
        exact fun call member => member
      · rw [grown]
        exact fun call member => List.mem_append_left _ member
    obtain same | ⟨_, new, _, found, _, rfl⟩ := stepped.debits_grow
    · rw [same]
      exact fun call member => keeps call (accounted.debits call member)
    · rw [List.forall_mem_append]
      exact ⟨accounted.debits, List.forall_mem_singleton.mpr (List.mem_of_getElem? found)⟩
  -- once: HCM takes days only under an id that it does not know yet
  · obtain same | ⟨_, new, _, _, unknown, rfl⟩ := stepped.debits_grow
    · rw [same]
      exact accounted.once
    · rw [List.pairwise_append]
      refine ⟨accounted.once, List.pairwise_singleton _ _, ?_⟩
      intro earlier member later isNew sameId
      rw [List.mem_singleton.mp isNew] at sameId
      simp only [World.debited, List.any_eq_false, decide_eq_true_eq] at unknown
      exact unknown earlier member sameId
  -- consumed: only an acknowledged call leads into CONSUMED
  · intro id consumed
    obtain before | ⟨row, _, _, own, grown⟩ := stepped.requestState_consumed consumed
    · obtain ⟨row, member, own⟩ := accounted.consumed id before
      obtain same | ⟨_, _, grown⟩ := stepped.acknowledged
      · exact ⟨row, by rw [same]; exact member, own⟩
      · exact ⟨row, by rw [grown]; exact List.mem_append_left _ member, own⟩
    · exact ⟨row, by rw [grown]; simp, own⟩

/-! ## What it says of each request -/

/-- The payload carries the request's own id, key and days. -/
def OwnPayload (request : RequestRow) (payload : ConsumePayload) : Prop :=
  request.externalRequestId = some payload.externalRequestId ∧ payload.key = request.key ∧
    payload.days = request.days

theorem SpeaksFor.ownPayload {db : Db} {request : RequestRow} {requestId : String}
    {payload : ConsumePayload} (member : request ∈ db.requests.rows) (own : requestId = request.id)
    (speaks : SpeaksFor db requestId payload) : OwnPayload request payload := by
  obtain ⟨other, externalRequestId, found, has, rfl⟩ := speaks
  have foundOwn : db.requests.find? requestId = some request :=
    Table.find?_eq_some.mpr ⟨member, own.symm⟩
  cases found.symm.trans foundOwn
  exact ⟨has, rfl, rfl⟩

/-- The calls for which HCM took days on behalf of the request. -/
def debitsFor (id : String) (world : World) : List Consume :=
  world.debits.filter fun call => call.row.requestId = id

/-- All that was stored or sent for a request is its own payload, HCM took its days at most once,
a consumed request was acknowledged, and no two requests share an `external_request_id`. -/
structure DebitedOnce (world : World) : Prop where
  stored : ∀ request ∈ world.db.requests.rows, ∀ row ∈ world.db.hcmOutbox.rows,
    row.requestId = request.id → OwnPayload request row.payload
  sent : ∀ request ∈ world.db.requests.rows, ∀ call ∈ world.sent,
    call.row.requestId = request.id → OwnPayload request call.row.payload
  distinct : ∀ left ∈ world.db.requests.rows, ∀ right ∈ world.db.requests.rows,
    ∀ externalRequestId, left.externalRequestId = some externalRequestId →
      right.externalRequestId = some externalRequestId → left = right
  debits : ∀ request ∈ world.db.requests.rows, debitsFor request.id world = [] ∨
    ∃ call, debitsFor request.id world = [call] ∧ OwnPayload request call.row.payload
  consumed : ∀ request ∈ world.db.requests.rows, request.state = .consumed →
    ∃ row ∈ world.acknowledged, row.requestId = request.id ∧ OwnPayload request row.payload

theorem Accounted.debitedOnce (accounted : Accounted world) : DebitedOnce world := by
  refine ⟨?_, ?_, ?_, ?_, ?_⟩
  · intro request member row rowIn own
    exact (accounted.labelled.outbox row rowIn).ownPayload member own
  · intro request member call callIn own
    exact (accounted.sent call callIn).ownPayload member own
  · intro left leftIn right rightIn externalRequestId leftHas rightHas
    exact world.db.requests.eq_of_key leftIn rightIn
      (accounted.labelled.distinct left leftIn right rightIn _ leftHas rightHas)
  · intro request member
    have own : ∀ call ∈ debitsFor request.id world, OwnPayload request call.row.payload := by
      intro call callIn
      obtain ⟨debited, ownCall⟩ := List.mem_filter.mp callIn
      exact (accounted.sent call (accounted.debits call debited)).ownPayload member
        (of_decide_eq_true ownCall)
    have once := accounted.once.filter fun call => call.row.requestId = request.id
    change (debitsFor request.id world).Pairwise _ at once
    generalize debitsFor request.id world = debits at own once ⊢
    match debits with
    | [] => exact .inl rfl
    | [call] => exact .inr ⟨call, rfl, own call List.mem_cons_self⟩
    | first :: second :: rest =>
      -- both carry the request's id, which HCM debits once
      have different := List.rel_of_pairwise_cons once (List.mem_cons_self (a := second))
      have firstId := (own first (by simp)).1
      have secondId := (own second (by simp)).1
      exact absurd (Option.some.inj (firstId.symm.trans secondId)) different
  · intro request member state
    have found : world.db.requests.find? request.id = some request :=
      Table.find?_eq_some.mpr ⟨member, rfl⟩
    obtain ⟨row, rowIn, own⟩ :=
      accounted.consumed request.id (requestState_eq_some.mpr ⟨request, found, state⟩)
    exact ⟨row, rowIn, own, (accounted.acknowledged row rowIn).ownPayload member own⟩

/-- In every state of every run, HCM has taken the days of each request at most once. -/
theorem debited_once (config : OutboxConfig) (events : List Event) :
    Always (World.step config) DebitedOnce World.empty events := by
  have accounted : Always (World.step config) Accounted World.empty events :=
    always_of_invariant Accounted (fun _ _ _ holds stepped => holds.step (step_stepped stepped))
      .empty events
  exact accounted.mono fun _ holds => holds.debitedOnce

end TimeOff
