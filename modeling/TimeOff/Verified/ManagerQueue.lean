import TimeOff.Lib.StableSort
import TimeOff.Verified.Failures

/-! # The queue of a manager

A manager works on the pending requests of the listing, the oldest first.  What leaves it never
comes back, and what comes in stands behind, so no request is overtaken while it waits; and the
listing shows what its manager can decide, save what is under review or names no manager.
-/

set_option autoImplicit false

namespace TimeOff

open TimeOff.Lib TimeOffRepository TimeOffService

/-! ## The listing as a sorted selection -/

/-- ORDER BY created_at ASC. -/
def RequestRow.NoLater (left right : RequestRow) : Prop := left.createdAt ≤ right.createdAt

instance : DecidableRel RequestRow.NoLater := fun left right =>
  inferInstanceAs (Decidable (left.createdAt ≤ right.createdAt))

instance : IsTrans RequestRow RequestRow.NoLater := ⟨fun _ _ _ => le_trans⟩

instance : Std.Total RequestRow.NoLater := ⟨fun _ _ => le_total _ _⟩

/-- WHERE manager_id = ? AND state = 'PENDING'. -/
def RequestRow.waitsFor (manager : Option String) (row : RequestRow) : Bool :=
  row.managerId.isSome ∧ row.managerId = manager ∧ row.state = .pending

theorem listForManager_eq (manager : Option String) (db : Db) : listForManager manager db =
    (db.requests.rows.filter (RequestRow.waitsFor manager)).insertionSort RequestRow.NoLater := rfl

theorem mem_listForManager {manager : Option String} {db : Db} {row : RequestRow} :
    row ∈ listForManager manager db ↔ row ∈ db.requests.rows ∧ row.waitsFor manager = true := by
  rw [listForManager_eq, List.mem_insertionSort, List.mem_filter]

variable {manager : Option String} {db after : Db}

theorem waitsFor_of_left {row : RequestRow} (left : row.state ≠ .pending) : row.waitsFor manager = false := by
  simp [RequestRow.waitsFor, left]

/-! ## How the listing changes -/

/-- What is left of the listing comes first, in its order; what came in stands behind. -/
def ServedInOrder (manager : Option String) (db after : Db) : Prop :=
  ∃ kept arrived, listForManager manager after = kept ++ arrived ∧
    kept.Sublist (listForManager manager db) ∧ ∀ row ∈ arrived, db.requests.find? row.id = none

theorem ServedInOrder.same (same : after.requests = db.requests) : ServedInOrder manager db after := by
  refine ⟨listForManager manager db, [], ?_, List.Sublist.refl _, by simp⟩
  rw [List.append_nil, listForManager_eq, listForManager_eq, same]

theorem ServedInOrder.trans {middle : Db} (left : ServedInOrder manager db middle)
    (right : ServedInOrder manager middle after) (grows : Grows db middle) : ServedInOrder manager db after := by
  obtain ⟨kept, arrived, listed, fromStart, new⟩ := left
  obtain ⟨keptOn, arrivedLater, listedLater, fromMiddle, newer⟩ := right
  rw [listed] at fromMiddle
  -- what is still there is of the first part or of the arrivals
  obtain ⟨stayed, joined, rfl, stays, joins⟩ := List.sublist_append_iff.mp fromMiddle
  refine ⟨stayed, joined ++ arrivedLater, ?_, stays.trans fromStart, ?_⟩
  · rw [listedLater, List.append_assoc]
  · refine List.forall_mem_append.mpr ⟨fun row member => new row (joins.subset member), ?_⟩
    intro row member
    cases found : db.requests.find? row.id with
    | none => rfl
    | some before =>
      obtain ⟨later, stored, _⟩ := grows _ _ found
      cases (newer row member).symm.trans stored

theorem ServedInOrder.filed {row : RequestRow} {now : Int} (filed : Filed row now db after)
    (notBefore : ∀ stored ∈ db.requests.rows, stored.createdAt ≤ row.createdAt) :
    ServedInOrder manager db after := by
  refine ⟨listForManager manager db, [row].filter (RequestRow.waitsFor manager), ?_, List.Sublist.refl _, ?_⟩
  · rw [listForManager_eq, listForManager_eq, filed.requests, List.filter_append]
    -- a request for someone else is not listed; one for this manager is the youngest
    cases waits : row.waitsFor manager with
    | false => simp [waits]
    | true =>
      rw [List.filter_singleton, waits]
      apply insertionSort_concat
      intro stored member
      exact notBefore stored (List.mem_of_mem_filter member)
  · intro new member
    rw [List.mem_singleton.mp (List.mem_of_mem_filter member)]
    exact filed.fresh

section Moves

variable {before : RequestRow} {toState : State} {now : Int} {patch : StatePatch}

theorem not_pending_of_legal {fromState : State} (legal : canTransition fromState toState = true) :
    toState ≠ .pending := by
  rintro rfl
  revert legal
  cases fromState <;> decide

/-- The request that moves is gone from the listing; the others are as they were. -/
theorem Moved.listForManager_after (moved : Moved before toState now patch db after) :
    listForManager manager after = (listForManager manager db).filter fun row => row.id ≠ before.id := by
  have beforeIn := (Table.find?_eq_some.mp moved.found).1
  have others : ∀ row : RequestRow, row.id ≠ before.id →
      patchRow (inState before.id before.state) (patched toState now patch) row = row := by
    intro row other
    exact patchRow_of_miss (by simp [inState, other])
  -- the request that moves is PENDING no longer, wherever it moves to
  have selects : ∀ row ∈ db.requests.rows,
      (RequestRow.waitsFor manager ∘ patchRow (inState before.id before.state) (patched toState now patch)) row =
        (decide (row.id ≠ before.id) && row.waitsFor manager) := by
    intro row member
    rw [Function.comp]
    by_cases own : row.id = before.id
    · cases Table.eq_of_key member beforeIn own
      rw [patchRow_of_hit (by simp [inState]), waitsFor_of_left (not_pending_of_legal moved.legal)]
      simp
    · rw [others row own]
      simp [own]
  rw [listForManager_eq, listForManager_eq, filter_insertionSort, moved.requests, List.filter_map,
    List.filter_filter, List.filter_congr selects]
  congr 1
  refine (List.map_congr_left ?_).trans (List.map_id _)
  intro row member
  obtain ⟨other, _⟩ := Bool.and_eq_true_iff.mp (List.mem_filter.mp member).2
  exact others row (of_decide_eq_true other)

theorem ServedInOrder.moved (moved : Moved before toState now patch db after) :
    ServedInOrder manager db after :=
  ⟨_, [], (List.append_nil _).symm, moved.listForManager_after ▸ List.filter_sublist, by simp⟩

end Moves

theorem ServedInOrder.healed {results : List SnapshotResult} (healed : Healed db results after) :
    ServedInOrder manager db after := by
  induction healed with
  | done db => exact .same rfl
  | snapshotted applied rest inductionHypothesis =>
    exact (ServedInOrder.same applied.requests).trans inductionHypothesis (.congr applied.requests)
  | escalated moved rest inductionHypothesis =>
    exact (ServedInOrder.moved moved).trans inductionHypothesis moved.grows

/-! ## Calls, steps and runs -/

/-- The clock has not been set back since the last filing. -/
def Call.notBackdated (db : Db) : Call → Bool
  | createRequest clock .. => db.requests.rows.all fun stored => stored.createdAt ≤ clock.now
  | _ => true

theorem Call.servedInOrder {call : Call} (inTime : call.notBackdated db = true) :
    ServedInOrder manager db (call.exec db) := by
  obtain ⟨clock, ids, actor, input, created, rfl, ran⟩ | change := call.change db
  · obtain ⟨_, _, _, _, _, _, row, _⟩ := createRequest_inv ran
    refine .filed (createRequest_ok ran) ?_
    rw [row]
    have notBefore : ∀ stored ∈ db.requests.rows, stored.createdAt ≤ clock.now := by
      simpa [Call.notBackdated] using inTime
    exact notBefore
  · generalize call.reports db = results at change
    cases change with
    | moved moved => exact .moved moved
    | healed healed => exact .healed healed
    | requeued requeued => exact .same requeued.requests

/-- No filing of the step is backdated. -/
def Event.notBackdated (world : World) : Event → Bool
  | .call made => made.notBackdated world.db
  | _ => true

theorem calls_servedInOrder {calls : List Call}
    (notFilings : ∀ call ∈ calls, ∀ db, call.notBackdated db = true) (db : Db) :
    ServedInOrder manager db (execAll calls db) ∧ Grows db (execAll calls db) := by
  induction calls generalizing db with
  | nil => exact ⟨.same rfl, .refl db⟩
  | cons call rest inductionHypothesis =>
    obtain ⟨here, later⟩ := List.forall_mem_cons.mp notFilings
    obtain ⟨served, grows⟩ := inductionHypothesis later (call.exec db)
    have grew := (call.effect db).grows
    exact ⟨(Call.servedInOrder (here db)).trans served grew, grew.trans grows⟩

/-- Only a call of a route files a request. -/
theorem Event.makes_notBackdated {event : Event} (background : ∀ made, event ≠ .call made) {call : Call}
    (makes : event.Makes call) (db : Db) : call.notBackdated db = true := by
  cases call with
  | createRequest clock ids actor input =>
    cases event with
    | call offered => exact absurd rfl (background offered)
    | crashInBatch clocks batch rows escalations =>
      obtain internal | within := makes
      · cases internal
      · exact within.elim
    | _ => cases makes
  | _ => rfl

theorem step_servedInOrder {config : OutboxConfig} {world next : World} {event : Event}
    (inTime : event.notBackdated world = true) (stepped : World.step config world event = some next) :
    ServedInOrder manager world.db next.db ∧ Grows world.db next.db := by
  by_cases called : ∃ made, event = .call made
  · obtain ⟨made, rfl⟩ := called
    simp only [World.step] at stepped
    split at stepped
    · cases stepped
      exact ⟨Call.servedInOrder inTime, (made.effect world.db).grows⟩
    · cases stepped
  · have background := not_exists.mp called
    obtain ⟨calls, made, reached⟩ := step_calledTo stepped
    rw [reached]
    exact calls_servedInOrder (fun call member => Event.makes_notBackdated background (made call member)) world.db

/-- A request that was stored already has before it, in their order, some of those that it had before it. -/
def NotOvertaken (manager : Option String) (db after : Db) : Prop :=
  ∀ ahead row behind, listForManager manager after = ahead ++ row :: behind →
    (db.requests.find? row.id).isSome = true →
      ∃ before others, listForManager manager db = before ++ row :: others ∧ ahead.Sublist before

theorem ServedInOrder.notOvertaken (served : ServedInOrder manager db after) : NotOvertaken manager db after := by
  intro ahead row behind listing stored
  obtain ⟨kept, arrived, listed, fromStart, new⟩ := served
  -- a request that was there is none that came in
  have old : row ∉ arrived := by
    intro member
    rw [new row member] at stored
    cases stored
  rw [listed] at listing
  obtain ⟨rest, rfl, remains⟩ | ⟨rest, rfl, rfl⟩ := List.append_eq_append_iff.mp listing.symm
  · cases rest with
    | nil =>
      rw [List.nil_append] at remains
      rw [← remains] at old
      exact absurd List.mem_cons_self old
    | cons first rest =>
      cases remains
      -- what is ahead of it now was ahead of it then
      obtain ⟨front, back, listedBefore, aheadOfIt, itself⟩ := List.append_sublist_iff.mp fromStart
      obtain ⟨upToIt, others, rfl, member, _⟩ := List.cons_sublist_iff.mp itself
      obtain ⟨skipped, between, rfl⟩ := List.append_of_mem member
      refine ⟨front ++ skipped, between ++ others, ?_, aheadOfIt.trans (List.sublist_append_left _ _)⟩
      simp [listedBefore]
  · exact absurd (List.mem_append_right _ List.mem_cons_self) old

/-- While the clock is not set back, the listing of every manager is served in its order: at any later moment,
what is left of it comes first and in its order, and what came in since stands behind.  So no request is
overtaken while it waits. -/
theorem manager_queue_in_order (config : OutboxConfig) (manager : Option String) (world : World)
    (events : List Event)
    (inTime : StepsMeet (World.step config) (fun world event => event.notBackdated world = true) world events) :
    Always (World.step config) (fun later => ServedInOrder manager world.db later.db ∧
      NotOvertaken manager world.db later.db) world events := by
  have kept : Always (World.step config)
      (fun later => ServedInOrder manager world.db later.db ∧ Grows world.db later.db) world events := by
    refine always_of_stepsMeet _ ?_ ⟨.same rfl, .refl world.db⟩ inTime
    rintro earlier event next ⟨served, grows⟩ here stepped
    obtain ⟨servedOn, growsOn⟩ := step_servedInOrder here stepped
    exact ⟨served.trans servedOn grows, grows.trans growsOn⟩
  exact kept.mono fun _ holds => ⟨holds.1, holds.1.notOvertaken⟩

namespace Office

/-- Two requests wait for their manager. -/
def waiting : World :=
  (run (World.step config) World.empty
    [.call (snapshot 30 0), .call (file "r1"), .call (file "r2")]).getD World.empty

end Office

open Office in
/-- The first is approved, and a third is filed. -/
theorem manager_queue_office :
    (run (World.step Office.config) waiting [.call (approve "r1" "x1"), .call (file "r3")]).map (fun world =>
      (listForManager Office.manager.sub world.db).map RequestRow.id) = some ["r2", "r3"] ∧
    Always (World.step Office.config) (fun later => ServedInOrder Office.manager.sub waiting.db later.db ∧
      NotOvertaken Office.manager.sub waiting.db later.db) waiting
      [.call (approve "r1" "x1"), .call (file "r3")] := by
  refine ⟨by decide +kernel, manager_queue_in_order Office.config Office.manager.sub waiting _ ?_⟩
  decide +kernel

/-! ## What the listing leaves out -/

/-- The request is on the listing, or is open to the manager without being listed: it is under review,
or names no manager. -/
def RequestRow.OpenTo (row : RequestRow) (manager : Option String) (db : Db) : Prop :=
  row ∈ listForManager manager db ∨
    row.state = .reviewRequired ∧ row.managerId.isSome = true ∧ row.managerId = manager ∨
    (row.state = .pending ∨ row.state = .reviewRequired) ∧ row.managerId.getD "" = ""

theorem canTransition_rejected {fromState : State} :
    canTransition fromState .rejected = true ↔ fromState = .pending ∨ fromState = .reviewRequired := by
  cases fromState <;> decide

/-- The manager may decide what is open to him, and nothing else. -/
theorem openTo_iff {actor : Actor} {row : RequestRow} (manages : actor.roles.contains "manager" = true)
    (plain : actor.roles.contains "admin" = false) (stored : row ∈ db.requests.rows) :
    row.OpenTo actor.sub db ↔ Decides actor row ∧ (row.state = .pending ∨ row.state = .reviewRequired) := by
  simp only [RequestRow.OpenTo, mem_listForManager, stored, RequestRow.waitsFor, Decides, manages, plain,
    decide_eq_true_eq, true_and, Bool.false_eq_true, false_or]
  cases assigned : row.managerId with
  | none => simp
  | some managerId =>
    simp only [Option.isSome_some, Option.getD_some, true_and]
    tauto

theorem approve_total {clock : Clock} {newId requestId : String} {actor : Actor} {before : RequestRow}
    (labelled : Labelled db) (fresh : ∀ row ∈ db.requests.rows, row.externalRequestId ≠ some newId)
    (found : db.requests.find? requestId = some before) (decides : Decides actor before)
    (legal : canTransition before.state .approved = true) :
    ∃ turned final, approve clock newId actor requestId db = (.ok turned, final) := by
  simp only [approve, transaction_ok, approveBody, Tx.bind_ok, findByIdOrThrow_ok, authorizeManager_ok]
  obtain ⟨turned, final, ran⟩ := move_total (m :=
    { clock := clock, requestId := requestId, toState := .approved
      patch := { approverId := actor.sub, approvedAt := some clock.now,
                 externalRequestId := some (before.externalRequestId.getD newId) }
      checksUpdate := true
      settle := HcmOutboxService.enqueue requestId .consume
        (before.payload (before.externalRequestId.getD newId)) clock.now
      actorId := actor.sub, actorType := .user, action := .requestApproved })
    found legal (labelled.externalIdFree found fresh) fun _ stored => enqueue_total stored _ _ _
  exact ⟨turned, final, before, db, ⟨found, rfl⟩, (), db, ⟨decides, rfl⟩, ran⟩

/-- A stored request can be approved by whom it is open to. -/
theorem approve_open_iff {clock : Clock} {newId : String} {actor : Actor} {row : RequestRow}
    (labelled : Labelled db) (fresh : ∀ other ∈ db.requests.rows, other.externalRequestId ≠ some newId)
    (manages : actor.roles.contains "manager" = true) (plain : actor.roles.contains "admin" = false)
    (stored : row ∈ db.requests.rows) :
    (∃ turned final, approve clock newId actor row.id db = (.ok turned, final)) ↔ row.OpenTo actor.sub db := by
  have found : db.requests.find? row.id = some row := Table.find?_eq_some.mpr ⟨stored, rfl⟩
  rw [openTo_iff manages plain stored, ← canTransition_approved]
  constructor
  -- an approval that succeeds has checked both
  · rintro ⟨turned, final, ran⟩
    obtain ⟨before, foundBefore, decides, moved⟩ := approve_ok ran
    cases found.symm.trans foundBefore
    exact ⟨decides, moved.legal⟩
  · rintro ⟨decides, legal⟩
    exact approve_total labelled fresh found decides legal

theorem reject_open_iff {clock : Clock} {actor : Actor} {row : RequestRow} {reason : Option String}
    (manages : actor.roles.contains "manager" = true) (plain : actor.roles.contains "admin" = false)
    (stored : row ∈ db.requests.rows) :
    (∃ turned final, reject clock actor row.id reason db = (.ok turned, final)) ↔ row.OpenTo actor.sub db := by
  have found : db.requests.find? row.id = some row := Table.find?_eq_some.mpr ⟨stored, rfl⟩
  rw [openTo_iff manages plain stored, ← canTransition_rejected]
  constructor
  · rintro ⟨turned, final, ran⟩
    obtain ⟨before, foundBefore, decides, moved⟩ := reject_ok ran
    cases found.symm.trans foundBefore
    exact ⟨decides, moved.legal⟩
  · rintro ⟨decides, legal⟩
    exact reject_total found decides legal

/-- In every state of every run of the server, what a manager without the admin role can approve, and what
he can reject, is what is open to him: the requests of his listing, those under review that name him, and
the pending ones and those under review that name no manager. -/
theorem manager_queue_complete (host : Host) (events : List Server.Event) :
    Always (Server.step host) (fun server => ∀ actor : Actor,
      actor.roles.contains "manager" = true → actor.roles.contains "admin" = false →
      ∀ row ∈ server.world.db.requests.rows,
        (∀ clock newId, (∀ other ∈ server.world.db.requests.rows, other.externalRequestId ≠ some newId) →
          ((∃ turned final, approve clock newId actor row.id server.world.db = (.ok turned, final)) ↔
            row.OpenTo actor.sub server.world.db)) ∧
        ∀ clock reason, (∃ turned final, reject clock actor row.id reason server.world.db = (.ok turned, final)) ↔
          row.OpenTo actor.sub server.world.db) Server.empty events := by
  apply (server_always host (consistent_throughout host.outbox) events).mono
  intro server consistent actor manages plain row stored
  constructor
  · intro clock newId fresh
    exact approve_open_iff consistent.labelled fresh manages plain stored
  · intro clock reason
    exact reject_open_iff manages plain stored

end TimeOff
