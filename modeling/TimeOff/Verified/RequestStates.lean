import TimeOff.Verified.Steps

/-! # How the state of a request changes

Looking a request up after each kind of step, and what the calls of the HTTP
routes can do to it: only `approve` leads into APPROVED, only `reject` and
`cancel` into REJECTED and CANCELLED, and none into CONSUMED or HCM_FAILED.
-/

set_option autoImplicit false

namespace TimeOff

open TimeOff.Lib TimeOffRepository TimeOffService HcmOutboxService

/-! ## Looking a request up after a change -/

theorem Filed.find? {row : RequestRow} {now : Int} {db after : Db} (filed : Filed row now db after)
    (id : String) : after.requests.find? id = if row.id = id then some row else db.requests.find? id := by
  have inserted : db.requests.insertUnique row = some after.requests :=
    Table.insertUnique_eq_some.mpr ⟨filed.fresh, filed.requests⟩
  exact Table.find?_insert inserted id

variable {before : RequestRow} {toState : State} {now : Int} {patch : StatePatch} {db after : Db}

theorem Moved.table (moved : Moved before toState now patch db after) :
    after.requests = db.requests.update (inState before.id before.state) (patched toState now patch)
      fun _ => rfl := by
  have rows := moved.requests
  cases afterTable : after.requests with
  | mk afterRows unique =>
    rw [afterTable] at rows
    cases rows
    rfl

theorem Moved.find?_self (moved : Moved before toState now patch db after) :
    after.requests.find? before.id = some (patched toState now patch before) := by
  have looked := Table.find?_update db.requests (inState before.id before.state)
    (patched toState now patch) (fun _ => rfl) before.id
  rw [moved.found, Option.map_some, patchRow_of_hit (by simp [inState])] at looked
  rw [moved.table]
  exact looked

theorem Moved.find?_other (moved : Moved before toState now patch db after) {id : String}
    (other : id ≠ before.id) : after.requests.find? id = db.requests.find? id := by
  have looked := Table.find?_update db.requests (inState before.id before.state)
    (patched toState now patch) (fun _ => rfl) id
  rw [moved.table]
  apply looked.trans
  cases found : db.requests.find? id with
  | none => rfl
  | some row =>
    have sameId : row.id = id := (Table.find?_eq_some.mp found).2
    rw [Option.map_some, patchRow_of_miss (by simp [inState, sameId, other])]

/-- A row after the move, with the row it was. -/
theorem Moved.mem_after (moved : Moved before toState now patch db after) {row : RequestRow}
    (member : row ∈ after.requests.rows) :
    row = patched toState now patch before ∨ row ∈ db.requests.rows ∧ row.id ≠ before.id := by
  have found : after.requests.find? row.id = some row := Table.find?_eq_some.mpr ⟨member, rfl⟩
  by_cases own : row.id = before.id
  · rw [own, moved.find?_self] at found
    exact .inl (Option.some.inj found).symm
  · rw [moved.find?_other own] at found
    exact .inr ⟨(Table.find?_eq_some.mp found).1, own⟩

/-! ## The state after a change -/

theorem requestState_congr (same : after.requests = db.requests) (id : String) :
    requestState id after = requestState id db := by
  simp only [requestState]
  rw [same]

theorem Filed.requestState_after {row : RequestRow} (filed : Filed row now db after) (id : String) :
    requestState id after = if row.id = id then some .pending else requestState id db := by
  simp only [requestState]
  rw [filed.find? id]
  split
  · rw [Option.map_some, filed.state]
  · rfl

theorem Moved.requestState_after (moved : Moved before toState now patch db after) (id : String) :
    requestState id after = if id = before.id then some toState else requestState id db := by
  simp only [requestState]
  split
  next own =>
    rw [own, moved.find?_self]
    rfl
  next other => rw [moved.find?_other other]

/-- The request that moved is in the state it moved to. -/
theorem Moved.requestState_self (moved : Moved before toState now patch db after) {id : String}
    (found : db.requests.find? id = some before) : requestState id after = some toState := by
  have own : before.id = id := (Table.find?_eq_some.mp found).2
  rw [moved.requestState_after, if_pos own.symm]

theorem Moved.requestState_before (moved : Moved before toState now patch db after) :
    requestState before.id db = some before.state := by
  simp only [requestState]
  rw [moved.found]
  rfl

/-- Healing only ever takes a request from APPROVED to REVIEW_REQUIRED. -/
theorem Healed.requestState_after {results : List SnapshotResult} (healed : Healed db results after)
    (id : String) : requestState id after = requestState id db ∨
      requestState id db = some .approved ∧ requestState id after = some .reviewRequired := by
  induction healed with
  | done db => exact .inl rfl
  | snapshotted applied rest inductionHypothesis =>
    rwa [requestState_congr applied.requests] at inductionHypothesis
  | @escalated before now patch results db middle after moved rest inductionHypothesis =>
    rw [moved.requestState_after id] at inductionHypothesis
    split at inductionHypothesis
    next own =>
      -- only from APPROVED does an edge lead to REVIEW_REQUIRED, and no escalation leads back
      have wasApproved : requestState id db = some .approved := by
        rw [own, moved.requestState_before, canTransition_reviewRequired.mp moved.legal]
      obtain same | ⟨impossible, _⟩ := inductionHypothesis
      · exact .inr ⟨wasApproved, same⟩
      · cases impossible
    next other => exact inductionHypothesis

theorem Healed.hcmOutbox {results : List SnapshotResult} (healed : Healed db results after) :
    after.hcmOutbox = db.hcmOutbox := by
  induction healed with
  | done db => rfl
  | snapshotted applied rest inductionHypothesis => exact inductionHypothesis.trans applied.hcmOutbox
  | escalated moved rest inductionHypothesis =>
    exact inductionHypothesis.trans (moved.unqueued (by simp)).2

/-! ## The calls of the HTTP routes -/

inductive Offered (db : Db) : Call → Db → Prop
  | filed (clock : Clock) (ids : NewIds) (actor : Actor) (input : CreateInput) (row : RequestRow)
      (after : Db) (filed : Filed row clock.now db after) :
      Offered db (.createRequest clock ids actor input) after
  | approved (clock : Clock) (newId : String) (actor : Actor) (requestId : String)
      (before : RequestRow) (patch : StatePatch) (after : Db)
      (found : db.requests.find? requestId = some before)
      (moved : Moved before .approved clock.now patch db after) :
      Offered db (.approve clock newId actor requestId) after
  | rejected (clock : Clock) (actor : Actor) (requestId : String) (reason : Option String)
      (before : RequestRow) (patch : StatePatch) (after : Db)
      (found : db.requests.find? requestId = some before) (decides : Decides actor before)
      (moved : Moved before .rejected clock.now patch db after) :
      Offered db (.reject clock actor requestId reason) after
  | cancelled (clock : Clock) (actor : Actor) (requestId : String) (before : RequestRow)
      (patch : StatePatch) (after : Db) (found : db.requests.find? requestId = some before)
      (may : MayCancel actor before) (moved : Moved before .cancelled clock.now patch db after) :
      Offered db (.cancel clock actor requestId) after
  | healed (call : Call) (after : Db) (healed : Healed db (call.reports db) after) : Offered db call after
  | reset (id : Nat) : Offered db (.resetToPending id) (resetToPending id db)
  | unchanged (call : Call) : Offered db call db

theorem Call.offered_exec {call : Call} (offered : call.offered = true) (db : Db) :
    Offered db call (call.exec db) := by
  cases call with
  | createRequest clock ids actor input =>
    simp only [exec]
    cases ran : TimeOffService.createRequest clock ids actor input db with
    | mk outcome after =>
      cases outcome with
      | ok created => exact .filed clock ids actor input created.row after (createRequest_ok ran)
      | error failure =>
        rw [createRequest_error ran]
        exact .unchanged _
  | approve clock newId actor requestId =>
    refine transaction_rule (fun _ after => Offered db _ after) ?_ fun _ _ => .unchanged _
    intro _ after ran
    obtain ⟨before, found, _, moved⟩ := approve_ok (transaction_ok.mpr ran)
    exact .approved clock newId actor requestId before _ after found moved
  | reject clock actor requestId reason =>
    refine transaction_rule (fun _ after => Offered db _ after) ?_ fun _ _ => .unchanged _
    intro _ after ran
    obtain ⟨before, found, decides, moved⟩ := reject_ok (transaction_ok.mpr ran)
    exact .rejected clock actor requestId reason before _ after found decides moved
  | cancel clock actor requestId =>
    refine transaction_rule (fun _ after => Offered db _ after) ?_ fun _ _ => .unchanged _
    intro _ after ran
    obtain ⟨before, found, may, moved⟩ := cancel_ok (transaction_ok.mpr ran)
    exact .cancelled clock actor requestId before _ after found may moved
  | handleBatch clocks batch => exact .healed _ _ (handleBatch_healed clocks batch db)
  | reconcileKey clock key reply => exact .healed _ _ (reconcileKey_healed clock key reply db)
  | resetToPending id => exact .reset id
  | markConsumed | markHcmFailed | markReviewRequired | applyHcmBalanceSnapshot | claimDue | markDone
  | scheduleRetry => cases offered

/-- A call of an HTTP route consumes no request and fails none. -/
theorem Offered.requestState_after {call : Call} (offered : Offered db call after) (id : String) :
    requestState id after = requestState id db ∨
      ∃ state, requestState id after = some state ∧ state ≠ .consumed ∧ state ≠ .hcmFailed := by
  cases offered with
  | filed clock ids actor input row after filed =>
    rw [filed.requestState_after id]
    split
    · exact .inr ⟨.pending, rfl, by simp, by simp⟩
    · exact .inl rfl
  | approved clock newId actor requestId before patch after found moved =>
    rw [moved.requestState_after id]
    split
    · exact .inr ⟨.approved, rfl, by simp, by simp⟩
    · exact .inl rfl
  | rejected clock actor requestId reason before patch after found decides moved =>
    rw [moved.requestState_after id]
    split
    · exact .inr ⟨.rejected, rfl, by simp, by simp⟩
    · exact .inl rfl
  | cancelled clock actor requestId before patch after found may moved =>
    rw [moved.requestState_after id]
    split
    · exact .inr ⟨.cancelled, rfl, by simp, by simp⟩
    · exact .inl rfl
  | healed call after healed =>
    obtain same | ⟨_, reviewed⟩ := healed.requestState_after id
    · exact .inl same
    · exact .inr ⟨.reviewRequired, reviewed, by simp, by simp⟩
  | reset rowId => exact .inl (requestState_congr rfl id)
  | unchanged call => exact .inl rfl

/-- A reaction of the worker moves at most the request at hand, and only out of APPROVED. -/
theorem Reaction.requestState_after {row : ClaimedRow} {final : Db} {settlement : Settlement}
    (reaction : Reaction row db toState settlement final) (id : String) :
    requestState id final = requestState id db ∨
      id = row.requestId ∧ requestState id db = some .approved ∧
        requestState id final = some toState := by
  cases reaction with
  | moved before now patch final found state moved =>
    have beforeId : before.id = row.requestId := (Table.find?_eq_some.mp found).2
    rw [moved.requestState_after id]
    split
    next own => exact .inr ⟨own.trans beforeId, by rw [own, moved.requestState_before, state], rfl⟩
    next other => exact .inl rfl
  | already state => exact .inl rfl
  | elsewhere settlement ends different unapproved => exact .inl rfl

/-- A request that is not APPROVED is left as it is, and so is every other than that of the row. -/
theorem Reaction.spares {row : ClaimedRow} {final : Db} {settlement : Settlement} {id : String}
    (reaction : Reaction row db toState settlement final) (left : requestState id db ≠ some .approved) :
    requestState id final = requestState id db :=
  (reaction.requestState_after id).resolve_right fun moved => left moved.2.1

theorem Reaction.spares_other {row : ClaimedRow} {final : Db} {settlement : Settlement} {id : String}
    (reaction : Reaction row db toState settlement final) (other : row.requestId ≠ id) :
    requestState id final = requestState id db :=
  (reaction.requestState_after id).resolve_right fun moved => other moved.1.symm

/-- The worker moves the APPROVED request of its row to the state asked for. -/
theorem Reaction.reaches {row : ClaimedRow} {final : Db} {settlement : Settlement}
    (reaction : Reaction row db toState settlement final)
    (approved : requestState row.requestId db = some .approved) :
    requestState row.requestId final = some toState := by
  cases reaction with
  | moved before now patch final found state moved => exact moved.requestState_self found
  | already state => exact state
  | elsewhere settlement ends different unapproved => exact absurd approved unapproved

/-- Whatever the worker does for a row, its request is not APPROVED afterwards. -/
theorem Reaction.resolved {row : ClaimedRow} {final : Db} {settlement : Settlement}
    (reaction : Reaction row db toState settlement final) (unapproved : toState ≠ .approved) :
    requestState row.requestId final ≠ some .approved := by
  by_cases approved : requestState row.requestId db = some .approved
  · rw [reaction.reaches approved, Ne, Option.some.injEq]
    exact unapproved
  · rwa [reaction.spares approved]

/-- HCM accepts the call of a request that is APPROVED or CONSUMED. -/
theorem Reaction.consumes {row : ClaimedRow} {final : Db} {settlement : Settlement}
    (reaction : Reaction row db .consumed settlement final)
    (stands : requestState row.requestId db = some .approved ∨
      requestState row.requestId db = some .consumed) :
    settlement = .done none ∧ requestState row.requestId final = some .consumed := by
  cases reaction with
  | moved before now patch final found state moved => exact ⟨rfl, moved.requestState_self found⟩
  | already state => exact ⟨rfl, state⟩
  | elsewhere settlement ends different unapproved =>
    cases stands with
    | inl approved => exact absurd approved unapproved
    | inr consumed => exact absurd consumed different

theorem scheduleRetry_requests (config : OutboxConfig) (now : Int) (random : ℚ) (id : Nat)
    (message : String) (db : Db) :
    (scheduleRetry config now random id message db).requests = db.requests := by
  obtain ⟨_, same⟩ | ⟨change, keeps, _, same⟩ := scheduleRetry_cases config now random id message db
  · rw [same]
  · rw [same]
    rfl

/-- Only an accepted consume leads into CONSUMED. -/
theorem Stepped.requestState_consumed {config : OutboxConfig} {world next : World} {event : Event}
    (stepped : Stepped config world event next) {id : String}
    (consumed : requestState id next.db = some .consumed) :
    requestState id world.db = some .consumed ∨
      ∃ row rest, world.worker = .awaitConsume row rest ∧ row.requestId = id ∧
        next.acknowledged = world.acknowledged ++ [row] := by
  cases stepped with
  | call call yields offered =>
    obtain same | ⟨state, after, other, _⟩ := (call.offered_exec offered world.db).requestState_after id
    · exact .inl (same.symm.trans consumed)
    · cases after.symm.trans consumed
      exact absurd rfl other
  | reviews clock reply row rest balance settlement final at_await insufficient reaction =>
    obtain same | ⟨_, _, reviewed⟩ := reaction.requestState_after id
    · exact .inl (same.symm.trans consumed)
    · cases reviewed.symm.trans consumed
  | accepted clock reply body row rest settlement final at_await answer reaction =>
    obtain same | ⟨own, _, _⟩ := reaction.requestState_after id
    · exact .inl (same.symm.trans consumed)
    · exact .inr ⟨row, rest, at_await, own.symm, rfl⟩
  | refused clock reply failure row rest settlement final at_await answer permanent reaction =>
    obtain same | ⟨_, _, failed⟩ := reaction.requestState_after id
    · exact .inl (same.symm.trans consumed)
    · cases failed.symm.trans consumed
  | retries now random row rest message at_end =>
    rw [requestState_congr (scheduleRetry_requests _ _ _ _ _ _)] at consumed
    exact .inl consumed
  | crashInBatch clocks batch rows escalations yields =>
    obtain ⟨_, healed⟩ := interruptedBatch_healed clocks batch rows escalations world.db
    obtain same | ⟨_, reviewed⟩ := healed.requestState_after id
    · exact .inl (same.symm.trans consumed)
    · cases reviewed.symm.trans consumed
  | claimed | draining | sends | repeated | debits | lost | done | crash => exact .inl consumed

end TimeOff
