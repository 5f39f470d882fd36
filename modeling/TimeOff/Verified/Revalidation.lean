import TimeOff.Lib.Runs
import TimeOff.Verified.Authorization
import TimeOff.Verified.BalanceIntegrity

/-! # Approval and the balance

`createRequest` compares the days of a request with the balance, `approve` does
not.  So an approval is refused only for reasons that have nothing to do with
the balance, and whether the days of an approved request are covered depends on
what happened to its key since it was filed: a snapshot below the open
reservations, or a filing that only rounding admitted.
-/

set_option autoImplicit false

namespace TimeOff

open TimeOff.Lib AuditService BalancesRepository TimeOffRepository TimeOffService

/-- The cached balance of the key covers its open reservations. -/
def Covered (key : Key) (db : Db) : Prop :=
  ∃ bal ∈ findBalance key db, sumOpenReservations key db ≤ bal.hcmBalance

instance (key : Key) (db : Db) : Decidable (Covered key db) :=
  inferInstanceAs (Decidable (∃ bal ∈ findBalance key db, _))

/-- The request's key is covered, or `approve` throws and changes nothing. -/
def Revalidates (clock : Clock) (newExternalRequestId : String) (actor : Actor) (requestId : String)
    (db : Db) : Prop :=
  ∀ request ∈ db.requests.find? requestId, Covered request.key db ∨
    ∃ failure, approve clock newExternalRequestId actor requestId db = (.error failure, db)

/-- All that `approve` asks for. -/
structure Approvable (newExternalRequestId : String) (actor : Actor) (request : RequestRow) (db : Db) :
    Prop where
  decides : Decides actor request
  awaiting : request.state = .pending ∨ request.state = .reviewRequired
  /-- The id that HCM will know the request by is not another request's. -/
  free : externalIdFree db.requests request.id
    (some (request.externalRequestId.getD newExternalRequestId)) = true

/-- A filing fits into what the balance leaves, before rounding. -/
def FitsUnrounded (db : Db) : Call → Prop
  | .createRequest clock ids actor input =>
    ∀ created ∈ (createRequest clock ids actor input db).1.toOption,
      ∀ bal ∈ findBalance created.row.key db,
        created.row.days ≤ bal.hcmBalance - sumOpenReservations created.row.key db
  | _ => True

/-- The call reports no drift, and what it files fits. -/
def StaysCovered (db : Db) (call : Call) : Prop :=
  (∀ result ∈ call.reports db, result.negativeDrift = false) ∧ FitsUnrounded db call

variable {db after : Db}

/-! ## When an approval goes through -/

theorem approve_ok_iff {clock : Clock} {newExternalRequestId : String} {actor : Actor}
    {request : RequestRow} {requestId : String} (found : db.requests.find? requestId = some request) :
    (∃ approved final, approve clock newExternalRequestId actor requestId db = (.ok approved, final)) ↔
      Approvable newExternalRequestId actor request db := by
  obtain rfl : request.id = requestId := (Table.find?_eq_some.mp found).2
  constructor
  · intro succeeded
    obtain ⟨approved, final, ran⟩ := succeeded
    obtain ⟨before, foundBefore, decides, moved⟩ := approve_ok ran
    cases found.symm.trans foundBefore
    obtain ⟨externalRequestId, given, _, free, _⟩ := moved.enqueued rfl
    cases given
    exact ⟨decides, canTransition_approved.mp moved.legal, free⟩
  · intro approvable
    simp only [approve, transaction_ok, approveBody, Tx.bind_ok, findByIdOrThrow_ok,
      authorizeManager_ok]
    obtain ⟨approved, final, ran⟩ := move_total (m :=
      { clock := clock, requestId := request.id, toState := .approved
        patch := approvalPatch clock newExternalRequestId actor request, checksUpdate := true
        settle := HcmOutboxService.enqueue request.id .consume
          (request.payload (request.externalRequestId.getD newExternalRequestId)) clock.now
        actorId := actor.sub, actorType := .user, action := .requestApproved })
      found (canTransition_approved.mpr approvable.awaiting) approvable.free
      fun working stored => enqueue_total stored _ _ _
    exact ⟨approved, final, request, db, ⟨found, rfl⟩, (), db, ⟨approvable.decides, rfl⟩, ran⟩

/-- An approval that is not admitted throws and changes nothing, whatever the balance is. -/
theorem revalidates_iff (clock : Clock) (newExternalRequestId : String) (actor : Actor)
    (requestId : String) :
    Revalidates clock newExternalRequestId actor requestId db ↔
      ∀ request ∈ db.requests.find? requestId,
        Approvable newExternalRequestId actor request db → Covered request.key db := by
  constructor
  · intro revalidates request found approvable
    cases revalidates request found with
    | inl covered => exact covered
    | inr refused =>
      obtain ⟨failure, threw⟩ := refused
      have succeeds : ∃ approved final,
          approve clock newExternalRequestId actor requestId db = (.ok approved, final) :=
        (approve_ok_iff found).mpr approvable
      obtain ⟨approved, final, ran⟩ := succeeds
      cases threw.symm.trans ran
  · intro coversAdmitted request found
    cases transaction_cases (approveBody clock newExternalRequestId actor requestId) db with
    | inl committed =>
      obtain ⟨approved, final, _, outcome⟩ := committed
      exact .inl (coversAdmitted request found ((approve_ok_iff found).mp ⟨approved, final, outcome⟩))
    | inr rolledBack =>
      obtain ⟨failure, _, outcome⟩ := rolledBack
      exact .inr ⟨failure, outcome⟩

/-! ## Runs without drift -/

theorem Cached.findBalance_isSome {snapshot : HcmSnapshot} {now : Int} {ignored : Option Bool}
    (cached : Cached snapshot now db after.balances ignored) {key : Key}
    (known : (findBalance key db).isSome = true) : (findBalance key after).isSome = true := by
  by_cases own : key = snapshot.key
  · by_cases stale : ignored = some true
    · subst stale
      rw [cached.findBalance_stale]
      exact known
    · obtain ⟨row, _, _, found, _⟩ := cached.findBalance_self stale
      rw [own, found]
      rfl
  · rw [cached.findBalance_other own]
    exact known

theorem Change.findBalance_isSome {results : List SnapshotResult} (change : Change db results after)
    {key : Key} (known : (findBalance key db).isSome = true) : (findBalance key after).isSome = true := by
  cases change with
  | moved moved => rwa [findBalance_congr moved.balances]
  | requeued requeued => rwa [findBalance_congr requeued.balances]
  | healed healed =>
    induction healed with
    | done db => exact known
    | snapshotted applied rest inductionHypothesis =>
      exact inductionHypothesis (applied.cached.findBalance_isSome known)
    | escalated moved rest inductionHypothesis =>
      exact inductionHypothesis (by rwa [findBalance_congr moved.balances])

/-- Every key's balance covers what is open, and every request's key has one. -/
structure FullyCovered (db : Db) : Prop where
  whole : WholeDays db
  margin : ∀ key, MarginMeets (fun margin => 0 ≤ margin) key db
  cached : ∀ request ∈ db.requests.rows, (findBalance request.key db).isSome = true

theorem FullyCovered.empty : FullyCovered Db.empty where
  whole := .empty
  margin := by
    intro key bal found
    simp [findBalance, Db.empty] at found
  cached := by
    intro request member
    cases member

theorem FullyCovered.covered (covered : FullyCovered db) {request : RequestRow}
    (member : request ∈ db.requests.rows) : Covered request.key db := by
  obtain ⟨bal, found⟩ := Option.isSome_iff_exists.mp (covered.cached request member)
  exact ⟨bal, found, by linarith [covered.margin request.key bal found]⟩

theorem FullyCovered.filed {row : RequestRow} {now : Int} (covered : FullyCovered db)
    (filed : Filed row now db after)
    (fits : ∀ bal ∈ findBalance row.key db,
      row.days ≤ bal.hcmBalance - sumOpenReservations row.key db) : FullyCovered after where
  whole := covered.whole.filed filed
  margin := by
    intro key
    by_cases own : row.key = key
    · subst own
      intro bal found
      rw [findBalance_congr filed.balances] at found
      rw [sumOpenReservations_filed filed, if_pos rfl]
      linarith [fits bal found]
    · exact (covered.margin key).filed_other filed own
  cached := by
    intro request member
    rw [findBalance_congr filed.balances]
    rw [filed.requests, List.mem_append, List.mem_singleton] at member
    cases member with
    | inl old => exact covered.cached request old
    | inr new =>
      subst new
      obtain ⟨bal, found, _⟩ := filed.balance
      rw [found]
      rfl

theorem FullyCovered.change {results : List SnapshotResult} (covered : FullyCovered db)
    (change : Change db results after)
    (unflagged : ∀ result ∈ results, result.negativeDrift = false) : FullyCovered after where
  whole := covered.whole.effect change.effect
  margin := by
    intro key
    apply (covered.margin key).change (fun _ _ le held => held.trans le) (fun _ held => held)
      covered.whole change
    rintro ⟨result, member, _, _, flagged⟩
    rw [unflagged result member] at flagged
    cases flagged
  cached := by
    intro request member
    obtain ⟨earlier, earlierIn, _, sameKey, _⟩ := change.origin member
    rw [← sameKey]
    exact change.findBalance_isSome (covered.cached earlier earlierIn)

theorem FullyCovered.exec (covered : FullyCovered db) {call : Call} (stays : StaysCovered db call) :
    FullyCovered (call.exec db) := by
  obtain ⟨clock, ids, actor, input, created, rfl, ran⟩ | change := call.change db
  · exact covered.filed (createRequest_ok ran) (stays.2 created (by rw [ran]; exact rfl))
  · exact covered.change change stays.1

/-! ## The exact condition -/

/-- In every reachable state an approval is checked against the balance exactly if the balance
covers its key anyway or the approval is not admissible; and that is so in every state of a run in
which no snapshot reports drift and every filing fits before rounding. -/
theorem approve_revalidates_iff (calls : List Call) :
    (∀ clock newExternalRequestId actor requestId,
      Revalidates clock newExternalRequestId actor requestId (execAll calls Db.empty) ↔
        ∀ request ∈ (execAll calls Db.empty).requests.find? requestId,
          Approvable newExternalRequestId actor request (execAll calls Db.empty) →
            Covered request.key (execAll calls Db.empty)) ∧
    (StepsMeet callStep StaysCovered Db.empty calls →
      Always callStep (fun db => ∀ clock newExternalRequestId actor requestId,
        Revalidates clock newExternalRequestId actor requestId db) Db.empty calls) := by
  constructor
  · intro clock newExternalRequestId actor requestId
    exact revalidates_iff clock newExternalRequestId actor requestId
  · intro stays
    have covered : Always callStep FullyCovered Db.empty calls := by
      apply always_of_stepsMeet FullyCovered _ .empty stays
      intro db call next covered stays stepped
      cases stepped
      exact covered.exec stays
    apply covered.mono
    intro db covered clock newExternalRequestId actor requestId request found
    exact .inl (covered.covered (Table.find?_eq_some.mp found).1)

/-- Ten of ten days are filed, HCM then reports four, and the manager approves. -/
theorem approval_of_overdrawn_key :
    ¬ Revalidates Office.clock "x1" Office.manager "r1"
      (execAll [Office.snapshot 10 0, Office.file "r1", Office.snapshot 4 1] Db.empty) := by
  have awaits : ∃ request ∈ (execAll [Office.snapshot 10 0, Office.file "r1", Office.snapshot 4 1]
      Db.empty).requests.find? "r1", ¬ Covered request.key
        (execAll [Office.snapshot 10 0, Office.file "r1", Office.snapshot 4 1] Db.empty) := by
    decide +kernel
  have approved : (approve Office.clock "x1" Office.manager "r1" (execAll [Office.snapshot 10 0,
      Office.file "r1", Office.snapshot 4 1] Db.empty)).1.toOption.isSome = true := by
    decide +kernel
  intro revalidates
  obtain ⟨request, found, uncovered⟩ := awaits
  cases revalidates request found with
  | inl covered => exact uncovered covered
  | inr refused =>
    obtain ⟨failure, threw⟩ := refused
    rw [threw] at approved
    cases approved

end TimeOff
