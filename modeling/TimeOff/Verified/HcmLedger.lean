import TimeOff.Verified.Partnership

/-! # HCM's balance and the requests

HCM and the service keep their books apart, and never talk of a total.  Yet what HCM has
left of a key and what the service's requests have taken from it always add up to what HCM
had been given: each request is taken from its own key, once and in full.
-/

set_option autoImplicit false

namespace TimeOff

open TimeOff.Lib HcmClient HcmOutboxService HcmOutboxWorker

/-- HCM has taken the request's days. -/
def takenFrom (k : String) (hcm : MockHcmState) (row : RequestRow) : Bool :=
  mockKey row.key = k && row.externalRequestId.any hcm.recorded

/-- The days of the requests that HCM has taken from the balance. -/
def takenDays (k : String) (hcm : MockHcmState) (db : Db) : ℚ :=
  ((db.requests.rows.filter (takenFrom k hcm)).map RequestRow.days).sum

/-- What HCM still has, and what it has taken for the service's requests. -/
def accountOf (k : String) (p : Partnership) : ℚ := p.hcm.balanceOf k + takenDays k p.hcm p.db

/-- Every id that HCM has recorded is that of a request. -/
def Owned (hcm : MockHcmState) (db : Db) : Prop :=
  ∀ id, hcm.recorded id = true → ∃ row ∈ db.requests.rows, row.externalRequestId = some id

variable {hcm : MockHcmState} {db after : Db} {k : String}

/-! ## The service changes its tables -/

theorem Owned.grows (owned : Owned hcm db) (grows : Grows db after) : Owned hcm after := by
  intro id recorded
  obtain ⟨row, member, has⟩ := owned id recorded
  obtain ⟨later, found, evolves⟩ := grows row.id row (Table.find?_eq_some.mpr ⟨member, rfl⟩)
  exact ⟨later, (Table.find?_eq_some.mp found).1, evolves.externalRequestId id has⟩

theorem takenDays_congr (same : after.requests = db.requests) : takenDays k hcm after = takenDays k hcm db := by
  rw [takenDays, same, takenDays]

theorem takenDays_filed {row : RequestRow} {now : Int} (filed : Filed row now db after) :
    takenDays k hcm after = takenDays k hcm db := by
  have unsent : takenFrom k hcm row = false := by simp [takenFrom, filed.unsent]
  rw [takenDays, filed.requests, List.filter_append]
  simp [unsent, takenDays]

/-- A new id is one that no request has, so HCM has not recorded it. -/
theorem takenFrom_moved {before row : RequestRow} {toState : State} {now : Int} {patch : StatePatch}
    (owned : Owned hcm db) (moved : Moved before toState now patch db after) (member : row ∈ db.requests.rows) :
    takenFrom k hcm (patchRow (inState before.id before.state)
      (TimeOffRepository.patched toState now patch) row) = takenFrom k hcm row := by
  cases hit : inState before.id before.state row with
  | false => rw [patchRow_of_miss hit]
  | true =>
    rw [patchRow_of_hit hit]
    simp only [inState, decide_eq_true_eq] at hit
    have beforeIn := (Table.find?_eq_some.mp moved.found).1
    obtain rfl : row = before := db.requests.eq_of_key member beforeIn hit.1
    simp only [takenFrom, TimeOffRepository.patched]
    by_cases approved : toState = .approved
    · obtain ⟨given, patchGives, keeps, free, -⟩ := moved.enqueued approved
      rw [patchGives, Option.some_or]
      cases has : row.externalRequestId with
      | some kept =>
        rw [keeps kept has]
        rfl
      | none =>
        have unknown : hcm.recorded given = false := by
          apply Bool.eq_false_iff.mpr
          intro recorded
          obtain ⟨other, otherIn, otherHas⟩ := owned given recorded
          simp only [TimeOffRepository.externalIdFree, Option.isNone_some, Bool.false_or,
            List.all_eq_true, decide_eq_true_eq] at free
          cases free other otherIn with
          | inl same =>
            obtain rfl : other = row := db.requests.eq_of_key otherIn member same
            cases has.symm.trans otherHas
          | inr differs => exact differs otherHas
        simp [unknown]
    · rw [(moved.unqueued approved).1, Option.none_or]
      rfl

theorem takenDays_moved {before : RequestRow} {toState : State} {now : Int} {patch : StatePatch}
    (owned : Owned hcm db) (moved : Moved before toState now patch db after) :
    takenDays k hcm after = takenDays k hcm db := by
  have days : ∀ row : RequestRow, (patchRow (inState before.id before.state)
      (TimeOffRepository.patched toState now patch) row).days = row.days := by
    intro row
    unfold patchRow
    split <;> rfl
  have chosen : db.requests.rows.filter (takenFrom k hcm ∘ patchRow (inState before.id before.state)
      (TimeOffRepository.patched toState now patch)) = db.requests.rows.filter (takenFrom k hcm) :=
    List.filter_congr fun row member => takenFrom_moved owned moved member
  rw [takenDays, moved.requests, List.filter_map, List.map_map, chosen]
  exact congrArg List.sum (List.map_congr_left fun row _ => days row)

theorem takenDays_effect {results : List SnapshotResult} (owned : Owned hcm db)
    (effect : Effect db results after) : takenDays k hcm after = takenDays k hcm db := by
  have kept : Owned hcm after ∧ takenDays k hcm after = takenDays k hcm db := by
    refine @Effect.preserves (fun later => Owned hcm later ∧ takenDays k hcm later = takenDays k hcm db)
      ?_ ?_ ?_ ?_ _ _ _ effect ⟨owned, rfl⟩
    · intro row now earlier later ⟨holds, same⟩ filed
      exact ⟨holds.grows filed.grows, (takenDays_filed filed).trans same⟩
    · intro before toState now patch earlier later ⟨holds, same⟩ moved
      exact ⟨holds.grows moved.grows, (takenDays_moved holds moved).trans same⟩
    · intro snapshot now result earlier later ⟨holds, same⟩ applied
      exact ⟨holds.grows (.congr applied.requests), (takenDays_congr applied.requests).trans same⟩
    · intro earlier later ⟨holds, same⟩ requeued
      exact ⟨holds.grows (.congr requeued.requests), (takenDays_congr requeued.requests).trans same⟩
  exact kept.2

theorem takenDays_called (owned : Owned hcm db) (called : ∃ calls, after = execAll calls db) :
    takenDays k hcm after = takenDays k hcm db := by
  obtain ⟨calls, rfl⟩ := called
  induction calls generalizing db with
  | nil => rfl
  | cons call rest inductionHypothesis =>
    have effect := call.effect db
    exact (inductionHypothesis (owned.grows effect.grows)).trans (takenDays_effect owned effect)

/-! ## HCM changes its accounts -/

theorem takenDays_same {later : MockHcmState} (same : later.idempotency = hcm.idempotency) :
    takenDays k later db = takenDays k hcm db := by
  have taken : takenFrom k later = takenFrom k hcm := by
    funext row
    simp only [takenFrom, funext fun id => recorded_congr same id]
  rw [takenDays, taken, takenDays]

/-- A sum over rows that are all different, of which one alone is chosen anew. -/
theorem sum_filter_insert {α : Type} {rows : List α} (distinct : rows.Nodup) {chosen later : α → Bool}
    {weight : α → ℚ} {new : α} (member : new ∈ rows) (unchosen : chosen new = false) (isChosen : later new = true)
    (others : ∀ row ∈ rows, row ≠ new → later row = chosen row) :
    ((rows.filter later).map weight).sum = ((rows.filter chosen).map weight).sum + weight new := by
  induction rows with
  | nil => cases member
  | cons first rest inductionHypothesis =>
    obtain ⟨absent, distinctRest⟩ := List.nodup_cons.mp distinct
    obtain rfl | inRest := List.mem_cons.mp member
    · have same : rest.filter later = rest.filter chosen := by
        apply List.filter_congr
        intro row rowIn
        apply others row (List.mem_cons_of_mem _ rowIn)
        rintro rfl
        exact absent rowIn
      rw [List.filter_cons_of_pos isChosen, List.filter_cons_of_neg (by simp [unchosen]), same,
        List.map_cons, List.sum_cons, add_comm]
    · have grown := inductionHypothesis distinctRest inRest fun row rowIn =>
        others row (List.mem_cons_of_mem _ rowIn)
      have head : later first = chosen first := by
        apply others first List.mem_cons_self
        rintro rfl
        exact absent inRest
      rw [List.filter_cons, List.filter_cons, head]
      split
      · rw [List.map_cons, List.map_cons, List.sum_cons, List.sum_cons, grown, add_assoc]
      · exact grown

/-- The days that HCM takes for a call are those of one more request. -/
theorem takenDays_taken {requestId : String} {payload : ConsumePayload} {later : MockHcmState}
    (labelled : Labelled db) (speaks : SpeaksFor db requestId payload)
    (unknown : hcm.recorded payload.externalRequestId = false)
    (idempotency : later.idempotency =
      Function.update hcm.idempotency payload.externalRequestId (some .consumed)) :
    takenDays k later db =
      takenDays k hcm db + if mockKey payload.key = k then payload.days else 0 := by
  obtain ⟨request, externalRequestId, found, has, rfl⟩ := speaks
  have member := (Table.find?_eq_some.mp found).1
  show _ = _ + if mockKey request.key = k then request.days else 0
  have recorded : ∀ id, later.recorded id = (decide (externalRequestId = id) || hcm.recorded id) :=
    recorded_update idempotency
  -- the id is that of no other request
  have others : ∀ row ∈ db.requests.rows, row ≠ request → takenFrom k later row = takenFrom k hcm row := by
    intro row rowIn other
    simp only [takenFrom]
    congr 1
    cases rowHas : row.externalRequestId with
    | none => rfl
    | some id =>
      rw [Option.any_some, Option.any_some, recorded, decide_eq_false, Bool.false_or]
      rintro rfl
      exact other (db.requests.eq_of_key rowIn member
        (labelled.distinct row rowIn request member _ rowHas has))
  -- the request counts for its own key from now on, and for no other
  by_cases onKey : mockKey request.key = k
  · rw [if_pos onKey]
    have unrecorded : hcm.recorded externalRequestId = false := unknown
    apply sum_filter_insert (.of_map _ db.requests.unique) member _ _ others
    · simp [takenFrom, has, unrecorded]
    · simp [takenFrom, has, recorded, onKey]
  · rw [if_neg onKey, add_zero]
    have chosen : db.requests.rows.filter (takenFrom k later) = db.requests.rows.filter (takenFrom k hcm) := by
      apply List.filter_congr
      intro row rowIn
      by_cases own : row = request
      · rw [own]
        simp [takenFrom, onKey]
      · exact others row rowIn own
    rw [takenDays, chosen, takenDays]

/-! ## One step of the two -/

namespace Partnership

/-- HR sets the balance that HCM keeps under the key. -/
def Event.sets (k : String) : Event → Prop
  | .setBalance employeeId locationId leaveType _ _ => MockHcmState.key employeeId locationId leaveType = k
  | _ => False

variable {config : OutboxConfig} {p next : Partnership} {event : Event}

/-- What a step does to the two ledgers: calls of the service, a reading of HCM, a consume call that HCM
handles, or a balance that HR sets. -/
inductive LedgerStep (p : Partnership) (event : Event) (next : Partnership) : Prop
  | service (hcm : next.hcm = p.hcm) (called : ∃ calls, next.db = execAll calls p.db)
  | hcm (db : next.db = p.db) (same : p.hcm.SameAccounts next.hcm)
  | handles (number : Nat) (now : Int) (call : HttpCall) (sent : p.sent[number]? = some call)
      (db : next.db = p.db) (answered : next.hcm = (p.hcm.fetch now call).2)
  | resets (employeeId locationId leaveType : String) (balance : ℚ) (asOf : Int)
      (at_ : event = .setBalance employeeId locationId leaveType balance asOf) (db : next.db = p.db)
      (set : next.hcm = p.hcm.setBalance employeeId locationId leaveType balance asOf)

theorem afterBalance_ledgerStep (p : Partnership) (event : Event) (clock : Clock) (row : ClaimedRow)
    (rest : List ClaimedRow) (reply : Reply BalanceView) :
    LedgerStep p event (p.afterBalance clock row rest reply) := by
  have called := onBalance_calledTo clock row reply p.db
  unfold afterBalance
  split
  next ran =>
    rw [ran] at called
    exact .service rfl called.reached
  next ran =>
    rw [ran] at called
    exact .service rfl called.reached

theorem ledgerStep (stepped : step config p event = some next) : LedgerStep p event next := by
  cases event with
  | call call =>
    simp only [step] at stepped
    split at stepped
    · cases stepped
      exact .service rfl ⟨[call], rfl⟩
    · cases stepped
  | tick now =>
    simp only [step] at stepped
    split at stepped
    · cases stepped
      exact .service rfl ⟨[.claimDue config now], rfl⟩
    · cases stepped
    · cases stepped
      exact .service rfl ⟨[], rfl⟩
  | hcmReads now =>
    simp only [step] at stepped
    split at stepped
    next row rest _ =>
      cases stepped
      exact .hcm rfl (fetch_getBalance now row.payload.key p.hcm)
    next => cases stepped
  | balanceArrives clock =>
    simp only [step] at stepped
    split at stepped
    · cases stepped
      exact afterBalance_ledgerStep p _ clock _ _ _
    · cases stepped
  | balanceLost clock message =>
    simp only [step] at stepped
    split at stepped
    · cases stepped
      exact afterBalance_ledgerStep p _ clock _ _ _
    · cases stepped
  | hcmHandles number now =>
    simp only [step] at stepped
    split at stepped
    next call sent =>
      cases stepped
      exact .handles number now call sent rfl rfl
    next => cases stepped
  | answerArrives clock place =>
    simp only [step] at stepped
    split at stepped
    · split at stepped
      · cases stepped
        exact .service rfl (onConsume_calledTo clock _ _ p.db).reached
      · cases stepped
    · cases stepped
  | answerLost clock message =>
    simp only [step] at stepped
    split at stepped
    next row rest _ =>
      cases stepped
      exact .service rfl (onConsume_calledTo clock row (.networkError message) p.db).reached
    next => cases stepped
  | settle now random =>
    simp only [step] at stepped
    split at stepped
    next row rest settlement _ =>
      cases stepped
      exact .service rfl (settle_calledTo config now random row settlement p.db).reached
    next => cases stepped
  | crash =>
    cases stepped
    exact .service rfl ⟨[], rfl⟩
  | crashInBatch clocks batch rows escalations =>
    simp only [step] at stepped
    split at stepped
    · cases stepped
      exact .service rfl (interruptedBatch_calledTo clocks batch rows escalations p.db).reached
    · cases stepped
  | setBalance employeeId locationId leaveType balance asOf =>
    cases stepped
    exact .resets employeeId locationId leaveType balance asOf rfl rfl rfl
  | scheduleFailures plan =>
    cases stepped
    exact .hcm rfl ⟨rfl, rfl⟩

end Partnership

/-! ## The account of a key -/

variable {config : OutboxConfig} {p next : Partnership} {event : Partnership.Event}
  {scripts : ScriptedFailure → Prop} {world : World}

theorem Represents.owned (represents : Represents scripts p world) : Owned p.hcm p.db := by
  intro id recorded
  rw [represents.recorded] at recorded
  obtain ⟨debit, debitIn, same⟩ := List.any_eq_true.mp recorded
  -- an id that HCM has recorded is that of a debit, and so of a call that was sent for a request
  have accounted := represents.spokenFor.accounted
  obtain ⟨request, externalRequestId, found, has, payload⟩ :=
    accounted.sent debit (accounted.debits debit debitIn)
  rw [represents.db] at found
  refine ⟨request, (Table.find?_eq_some.mp found).1, ?_⟩
  rw [← of_decide_eq_true same, payload]
  exact has

theorem balanceOf_same {hcm later : MockHcmState} (same : later.balances = hcm.balances) (k : String) :
    later.balanceOf k = hcm.balanceOf k := by
  rw [MockHcmState.balanceOf, same, MockHcmState.balanceOf]

theorem balanceOf_update {hcm later : MockHcmState} {own : String} {balance : MockBalance}
    (updated : later.balances = Function.update hcm.balances own (some balance)) (k : String) :
    later.balanceOf k = if own = k then balance.balance else hcm.balanceOf k := by
  simp only [MockHcmState.balanceOf, updated, Function.update_apply, eq_comm (a := k)]
  split <;> rfl

/-- What the account of a key comes to is HR's business alone, and HCM gives no more than there is. -/
theorem accountOf_step (represents : Represents scripts p world) (k : String)
    (stepped : Partnership.step config p event = some next) (unset : ¬ event.sets k) :
    accountOf k next = accountOf k p ∧ (0 ≤ p.hcm.balanceOf k → 0 ≤ next.hcm.balanceOf k) := by
  simp only [accountOf]
  cases Partnership.ledgerStep stepped with
  | service hcm called =>
    rw [hcm, takenDays_called represents.owned called]
    exact ⟨rfl, id⟩
  | hcm db same =>
    rw [db, takenDays_same same.idempotency, balanceOf_same same.balances]
    exact ⟨rfl, id⟩
  | resets employeeId locationId leaveType balance asOf at_ db set =>
    rw [at_, Partnership.Event.sets] at unset
    have others := balanceOf_update (congrArg MockHcmState.balances set) k
    rw [if_neg unset] at others
    rw [db, others, takenDays_same (congrArg MockHcmState.idempotency set)]
    exact ⟨rfl, id⟩
  | handles number now text sent db answered =>
    rw [represents.sent, List.getElem?_map, Option.map_eq_some_iff] at sent
    obtain ⟨call, found, rfl⟩ := sent
    have accounted := represents.spokenFor.accounted
    have speaks := accounted.sent call (List.mem_of_getElem? found)
    obtain ⟨writable, named⟩ := represents.spokenFor.speaks speaks
    rw [db, answered]
    have handled := fetch_consume writable named now p.hcm
    generalize (p.hcm.fetch now (consumeBalanceCall call.row.payload)).1 = outcome at handled
    generalize (p.hcm.fetch now (consumeBalanceCall call.row.payload)).2 = hcm at handled ⊢
    -- an answer that leaves HCM's accounts alone leaves the sum alone
    have unchanged : p.hcm.SameAccounts hcm → hcm.balanceOf k + takenDays k hcm p.db =
        p.hcm.balanceOf k + takenDays k p.hcm p.db ∧ (0 ≤ p.hcm.balanceOf k → 0 ≤ hcm.balanceOf k) := by
      intro same
      rw [takenDays_same same.idempotency, balanceOf_same same.balances]
      exact ⟨rfl, id⟩
    cases handled with
    | scripted failure _ planned same => exact unchanged same
    | repeated _ _ known same => exact unchanged same
    | refused _ _ short answer same => exact unchanged same
    | taken _ _ at_ unknown covered balances idempotency =>
      rw [represents.db] at speaks
      have labelled := accounted.labelled
      rw [represents.db] at labelled
      rw [takenDays_taken labelled speaks unknown idempotency, balanceOf_update balances k]
      -- HCM takes the days from the key of the request, and counts them as taken there
      by_cases onKey : mockKey call.row.payload.key = k
      · subst onKey
        simp only [if_true]
        constructor
        · ring
        · intro _
          exact sub_nonneg.mpr covered
      · simp only [if_neg onKey, add_zero]
        exact ⟨trivial, id⟩

/-- From any moment on, and until HR sets the balance anew, what HCM has left of a key and what the
requests have taken from it add up to the same, and HCM does not fall below zero. -/
theorem hcm_ledger_balances (config : OutboxConfig) (balances : String → Option MockBalance)
    (plan : List ScriptedFailure) (k : String) (earlier later : List Partnership.Event)
    (middle : Partnership)
    (ran : run (Partnership.step config) (Partnership.start balances plan) earlier = some middle)
    (unset : ∀ event ∈ later, ¬ event.sets k) :
    Always (Partnership.step config) (fun p => accountOf k p = accountOf k middle ∧
      (0 ≤ middle.hcm.balanceOf k → 0 ≤ p.hcm.balanceOf k)) middle later := by
  have simulates := partnership_simulates config fun _ => True
  have reached : ∃ openEvents world, run (World.step config) World.empty openEvents = some world ∧
      Represents (fun _ => True) middle world :=
    (simulates.always (.start _ balances fun _ _ => trivial)
      (stepsMeet_of_events _ fun event _ => scriptsOnly_any event)).final ran
  obtain ⟨_, origin, _, started⟩ := reached
  have kept : Always (Partnership.step config) (fun p => (∃ world, Represents (fun _ => True) p world) ∧
      accountOf k p = accountOf k middle ∧ (0 ≤ middle.hcm.balanceOf k → 0 ≤ p.hcm.balanceOf k))
      middle later := by
    refine always_of_stepsMeet _ ?_ ⟨⟨origin, started⟩, rfl, id⟩ (stepsMeet_of_events _ unset)
    rintro p event next ⟨⟨world, represents⟩, same, nonneg⟩ unsetHere stepped
    obtain ⟨_, after, _, representsNext⟩ :=
      simulates p world event next represents (scriptsOnly_any event) stepped
    obtain ⟨account, covered⟩ := accountOf_step represents k stepped unsetHere
    exact ⟨⟨after, representsNext⟩, account.trans same, fun begins => covered (nonneg begins)⟩
  exact kept.mono fun _ holds => holds.2

open Office in
theorem hcm_ledger_office : Always (Partnership.step Office.config) (fun p =>
    accountOf (mockKey key) p = accountOf (mockKey key) (Partnership.start tenDays []) ∧
    (0 ≤ (Partnership.start tenDays []).hcm.balanceOf (mockKey key) → 0 ≤ p.hcm.balanceOf (mockKey key)))
    (Partnership.start tenDays []) taken := by
  apply hcm_ledger_balances Office.config tenDays [] (mockKey key) [] taken _ rfl
  simp [taken, Partnership.Event.sets]

end TimeOff
