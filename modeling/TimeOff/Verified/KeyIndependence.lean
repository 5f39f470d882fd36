import TimeOff.Verified.Coherence
import TimeOff.Verified.Slices

/-! # Keys are independent

An operation writes rows of the key it addresses and of no other key.  So what
a run leaves of a key, and what its operations on that key answer, is what the
operations on that key alone would leave and answer.
-/

set_option autoImplicit false

namespace TimeOff

open TimeOff.Lib BalancesRepository BalancesService TimeOffRepository TimeOffService
  ReconciliationService

/-! ## What an operation does, and to which key -/

/-- Approved requests of the key are sent to review, one after the other. -/
inductive Escalations (key : Key) : Db → Db → Prop
  | done (db : Db) : Escalations key db db
  | escalated {before : RequestRow} {now : Int} {patch : StatePatch} {db middle after : Db}
      (same : before.key = key) (moved : Moved before .reviewRequired now patch db middle)
      (rest : Escalations key middle after) : Escalations key db after

/-- What the operation has done to the tables, the log aside. -/
inductive Performed (op : Operation) (db : Db) : Db → Prop
  | idle : Performed op db db
  | filed {row : RequestRow} {now : Int} {after : Db} (named : op.newRequestId = some row.id)
      (on : op.addresses db = some row.key) (filed : Filed row now db after) : Performed op db after
  | moved {before : RequestRow} {toState : State} {now : Int} {patch : StatePatch} {after : Db}
      (on : op.addresses db = some before.key)
      (sent : ∀ id, patch.externalRequestId = some id →
        before.externalRequestId = some id ∨ op.newExternalRequestId = some id)
      (moved : Moved before toState now patch db after) : Performed op db after
  | cached {snapshot : HcmSnapshot} {now : Int} {result : SnapshotResult} {middle after : Db}
      (on : op.addresses db = some snapshot.key) (applied : Snapshotted snapshot now result db middle)
      (escalations : Escalations snapshot.key middle after) : Performed op db after

theorem Escalations.healed {key : Key} {db after : Db} (escalations : Escalations key db after) :
    Healed db [] after := by
  induction escalations with
  | done db => exact .done db
  | escalated same moved rest inductionHypothesis => exact .escalated moved inductionHypothesis

theorem Performed.effect {op : Operation} {db after : Db} (performed : Performed op db after) :
    ∃ results, Effect db results after := by
  cases performed with
  | idle => exact ⟨[], .none db⟩
  | filed named on filed => exact ⟨[], .filed filed⟩
  | moved on sent moved => exact ⟨[], .moved moved⟩
  | cached on applied escalations => exact ⟨_, .healed (.snapshotted applied escalations.healed)⟩

theorem createRequest_performed (clock : Clock) (ids : NewIds) (actor : Actor) (input : CreateInput)
    (db : Db) : Performed (.createRequest clock ids actor input) db
      (TimeOffService.createRequest clock ids actor input db).2 := by
  cases ran : TimeOffService.createRequest clock ids actor input db with
  | mk outcome after =>
    cases outcome with
    | error failure =>
      rw [createRequest_error ran]
      exact .idle
    | ok created =>
      obtain ⟨named, _, employeeId, subject, key⟩ := createRequest_row ran
      refine .filed ?_ ?_ (createRequest_ok ran)
      · rw [named]
        rfl
      · rw [key, Operation.addresses, subject]
        rfl

/-- A request operation that commits moves the request it names. -/
theorem transaction_performed {op : Operation} {requestId : String} {body : DbTx RequestRow} {db : Db}
    (on : op.addresses db = (db.requests.find? requestId).map RequestRow.key)
    (moves : ∀ after final, transaction body db = (.ok after, final) → ∃ before toState now patch,
      db.requests.find? requestId = some before ∧
      (∀ id, patch.externalRequestId = some id →
        before.externalRequestId = some id ∨ op.newExternalRequestId = some id) ∧
      Moved before toState now patch db final) :
    Performed op db (transaction body db).2 := by
  refine transaction_rule (fun _ after => Performed op db after) ?_ fun _ _ => .idle
  intro after final ran
  obtain ⟨before, toState, now, patch, found, sent, moved⟩ := moves after final (transaction_ok.mpr ran)
  exact .moved (by rw [on, found]; rfl) sent moved

theorem MarkOutcome.performed {op : Operation} {id : String} {toState : State} {now : Int}
    {patch : StatePatch} {db : Db} {result : Except Failure RequestRow × Db}
    (on : op.addresses db = (db.requests.find? id).map RequestRow.key)
    (unsent : patch.externalRequestId = none) (outcome : MarkOutcome id toState now patch db result) :
    Performed op db result.2 := by
  cases outcome with
  | already row found state => exact .idle
  | threw failure refused elsewhere unapproved => exact .idle
  | moved before after final found state moved =>
    apply Performed.moved (by rw [on, found]; rfl) _ moved
    intro id sent
    cases unsent.symm.trans sent

theorem escalations_of_key {key : Key} (clock : String → Clock) {ids : List String} {db : Db}
    (onKey : ∀ id ∈ ids, Concerns (fun other => other = key) db id) :
    Escalations key db
      (ids.foldl (fun db id => (markReviewRequired (clock id) id escalationReason db).2) db) := by
  induction ids generalizing db with
  | nil => exact .done db
  | cons id rest inductionHypothesis =>
    have outcome := markReviewRequired_outcome (clock id) id escalationReason db
    have grows := (Effect.healed (markReviewRequired_healed (clock id) id escalationReason db)).grows
    have later := inductionHypothesis fun other member =>
      (onKey other (List.mem_cons_of_mem _ member)).grows grows
    rw [List.foldl_cons]
    generalize markReviewRequired (clock id) id escalationReason db = result at outcome later
    cases outcome with
    | already row found state => exact later
    | threw failure refused elsewhere unapproved => exact later
    | moved before after final found state moved =>
      obtain ⟨row, foundRow, same⟩ := onKey id List.mem_cons_self
      cases found.symm.trans foundRow
      exact .escalated same moved later

theorem applyAndEscalate_performed (clock : RowClock) (snapshot : HcmSnapshot) (db : Db) :
    Performed (.applyHcmBalanceSnapshot clock snapshot) db (applyAndEscalate clock snapshot db).2 := by
  simp only [applyAndEscalate]
  obtain ⟨result, after, ran, applied⟩ | ⟨failure, ran⟩ :=
    applyHcmBalanceSnapshot_cases clock.snapshot snapshot db
  · simp only [ran]
    split
    · apply Performed.cached rfl applied
      rw [escalateAffectedRequests, applied.key]
      exact escalations_of_key clock.escalation (concerns_of_listed rfl)
    · exact .cached rfl applied (.done after)
  · simp only [ran]
    exact .idle

theorem Operation.performed (op : Operation) (db : Db) : Performed op db (op.perform db).2 := by
  cases op with
  | createRequest clock ids actor input => exact createRequest_performed clock ids actor input db
  | approve clock newId actor requestId =>
    apply transaction_performed rfl
    intro after final ran
    obtain ⟨before, found, _, moved⟩ := approve_ok ran
    refine ⟨before, _, _, _, found, ?_, moved⟩
    intro id sent
    cases kept : before.externalRequestId with
    | none =>
      simp only [approvalPatch, kept, Option.getD_none] at sent
      exact .inr sent
    | some _ =>
      simp only [approvalPatch, kept, Option.getD_some] at sent
      exact .inl sent
  | reject clock actor requestId reason =>
    apply transaction_performed rfl
    intro after final ran
    obtain ⟨before, found, _, moved⟩ := reject_ok ran
    refine ⟨before, _, _, _, found, ?_, moved⟩
    intro id sent
    cases sent
  | cancel clock actor requestId =>
    apply transaction_performed rfl
    intro after final ran
    obtain ⟨before, found, _, moved⟩ := cancel_ok ran
    refine ⟨before, _, _, _, found, ?_, moved⟩
    intro id sent
    cases sent
  | markConsumed clock requestId => exact (markConsumed_outcome clock requestId db).performed rfl rfl
  | markHcmFailed clock requestId errorMessage =>
    exact (markHcmFailed_outcome clock requestId errorMessage db).performed rfl rfl
  | markReviewRequired clock requestId reason =>
    exact (markReviewRequired_outcome clock requestId reason db).performed rfl rfl
  | applyHcmBalanceSnapshot clock snapshot => exact applyAndEscalate_performed clock snapshot db

/-! ## Other keys are left alone -/

section Frame

variable {own : Key → Bool} {db after : Db}

theorem Filed.frame {row : RequestRow} {now : Int} (filed : Filed row now db after)
    (foreign : own row.key = false) : SameSlice own after db := by
  refine ⟨?_, ?_, ?_⟩
  · intro key _
    rw [findBalance_congr filed.balances]
  · simp only [ownRequests, filed.requests, List.filter_append, List.filter_singleton, foreign, cond_false,
      List.append_nil]
  · simp only [ownReservations, filed.reservations, SerialTable.rows_append, List.filter_append,
      List.filter_singleton, foreign, cond_false, List.append_nil]

/-- An UPDATE that only hits rows of other keys is not seen. -/
theorem filter_map_patchRow_of_foreign {α : Type} (key : α → Key) {hit : α → Bool} {change : α → α}
    (keyed : ∀ row, key (change row) = key row) {rows : List α}
    (foreign : ∀ row ∈ rows, hit row = true → own (key row) = false) :
    (rows.map (patchRow hit change)).filter (fun row => own (key row)) =
      rows.filter fun row => own (key row) := by
  rw [filter_map_patchRow key keyed]
  apply (List.map_congr_left _).trans (List.map_id _)
  intro row member
  obtain ⟨stored, owned⟩ := List.mem_filter.mp member
  cases selected : hit row with
  | true =>
    rw [foreign row stored selected] at owned
    cases owned
  | false => exact patchRow_of_miss selected

theorem Moved.frame {before : RequestRow} {toState : State} {now : Int} {patch : StatePatch}
    (coherent : Coherent db) (moved : Moved before toState now patch db after)
    (foreign : own before.key = false) : SameSlice own after db := by
  have beforeIn := (Table.find?_eq_some.mp moved.found).1
  refine ⟨?_, ?_, ?_⟩
  · intro key _
    rw [findBalance_congr moved.balances]
  · simp only [ownRequests, moved.requests]
    apply filter_map_patchRow_of_foreign RequestRow.key (by exact fun _ => rfl)
    intro row member selected
    simp only [inState, decide_eq_true_eq] at selected
    rw [db.requests.eq_of_key member beforeIn selected.1]
    exact foreign
  · simp only [ownReservations]
    congr 1
    have settled := moved.reservations
    cases closes : toState.closes with
    | none =>
      simp only [closes] at settled
      rw [settled]
    | some closed =>
      simp only [closes] at settled
      rw [settled]
      simp only [closeReservation, SerialTable.rows_update]
      apply filter_map_patchRow_of_foreign ReservationRow.key (by exact fun _ => rfl)
      -- a reservation is on the key of its request
      intro reservation member selected
      simp only [decide_eq_true_eq] at selected
      obtain ⟨only, same, pair⟩ := coherent.reservation beforeIn
      have listed : reservation ∈ db.reservations.rows.filter fun row => row.requestId = before.id :=
        List.mem_filter.mpr ⟨member, by simpa using selected.1⟩
      rw [same, List.mem_singleton] at listed
      rw [listed, pair.key]
      exact foreign

theorem Snapshotted.frame {snapshot : HcmSnapshot} {now : Int} {result : SnapshotResult}
    (applied : Snapshotted snapshot now result db after) (foreign : own snapshot.key = false) :
    SameSlice own after db := by
  refine ⟨?_, ?_, ?_⟩
  · intro key owned
    rw [applied.cached.findBalance_other]
    rintro rfl
    rw [foreign] at owned
    cases owned
  · simp only [ownRequests, applied.requests]
  · simp only [ownReservations, applied.reservations]

theorem Escalations.frame {key : Key} (escalations : Escalations key db after) (coherent : Coherent db)
    (foreign : own key = false) : SameSlice own after db := by
  induction escalations with
  | done db => exact .refl own db
  | escalated same moved rest inductionHypothesis =>
    exact (inductionHypothesis (coherent.moved moved)).trans
      (moved.frame coherent (by rw [same]; exact foreign))

/-- The operation does not touch the keys that it does not address. -/
theorem Performed.frame {op : Operation} (performed : Performed op db after) (coherent : Coherent db)
    (foreign : ∀ key, op.addresses db = some key → own key = false) : SameSlice own after db := by
  cases performed with
  | idle => exact .refl own db
  | filed named on filed => exact filed.frame (foreign _ on)
  | moved on sent moved => exact moved.frame coherent (foreign _ on)
  | cached on applied escalations =>
    have middle : Coherent _ := coherent.effect (.healed (.snapshotted applied (.done _)))
    exact (escalations.frame middle (foreign _ on)).trans (applied.frame (foreign _ on))

end Frame

/-! ## Generated ids -/

/-- The tables are consistent and no operation to come generates an id that is taken. -/
structure Ready (ops : List Operation) (db : Db) : Prop where
  coherent : Coherent db
  labelled : Labelled db
  requestIds : (ops.filterMap Operation.newRequestId).Nodup
  externalIds : (ops.filterMap Operation.newExternalRequestId).Nodup
  newRequests : ∀ id ∈ ops.filterMap Operation.newRequestId, db.requests.find? id = none
  newExternals : ∀ id ∈ ops.filterMap Operation.newExternalRequestId, ∀ row ∈ db.requests.rows,
    row.externalRequestId ≠ some id

theorem Healed.find?_none {db after : Db} {results : List SnapshotResult}
    (healed : Healed db results after) {id : String} (fresh : db.requests.find? id = none) :
    after.requests.find? id = none := by
  cases healed.requestState_after id with
  | inl same =>
    rw [requestState, requestState, fresh] at same
    simpa using same
  | inr review =>
    rw [requestState, fresh] at review
    cases review.1

theorem Performed.find?_none {op : Operation} {db after : Db} (performed : Performed op db after)
    {id : String} (fresh : db.requests.find? id = none) (other : op.newRequestId ≠ some id) :
    after.requests.find? id = none := by
  cases performed with
  | idle => exact fresh
  | filed named on filed =>
    rw [filed.find? id, if_neg, fresh]
    rintro rfl
    exact other named
  | moved on sent moved =>
    rw [moved.find?_other, fresh]
    rintro rfl
    cases fresh.symm.trans moved.found
  | cached on applied escalations =>
    exact (Healed.snapshotted applied escalations.healed).find?_none fresh

/-- An `external_request_id` was there before or comes with the move. -/
theorem Moved.externalId {before : RequestRow} {toState : State} {now : Int} {patch : StatePatch}
    {db after : Db} (moved : Moved before toState now patch db after) {id : String} {row : RequestRow}
    (member : row ∈ after.requests.rows) (has : row.externalRequestId = some id) :
    patch.externalRequestId = some id ∨ ∃ old ∈ db.requests.rows, old.externalRequestId = some id := by
  cases moved.mem_after member with
  | inl changed =>
    subst changed
    simp only [patched, Option.or_eq_some_iff] at has
    cases has with
    | inl given => exact .inl given
    | inr kept => exact .inr ⟨before, (Table.find?_eq_some.mp moved.found).1, kept.2⟩
  | inr kept => exact .inr ⟨row, kept.1, has⟩

theorem Escalations.externalId {key : Key} {db after : Db} (escalations : Escalations key db after)
    {id : String} {row : RequestRow} (member : row ∈ after.requests.rows)
    (has : row.externalRequestId = some id) : ∃ old ∈ db.requests.rows, old.externalRequestId = some id := by
  induction escalations with
  | done db => exact ⟨row, member, has⟩
  | escalated same moved rest inductionHypothesis =>
    obtain ⟨old, oldIn, oldHas⟩ := inductionHypothesis member
    cases moved.externalId oldIn oldHas with
    | inl given => cases (moved.unqueued (by simp)).1.symm.trans given
    | inr earlier => exact earlier

theorem Performed.externalId {op : Operation} {db after : Db} (performed : Performed op db after)
    {id : String} {row : RequestRow} (member : row ∈ after.requests.rows)
    (has : row.externalRequestId = some id) :
    op.newExternalRequestId = some id ∨ ∃ old ∈ db.requests.rows, old.externalRequestId = some id := by
  cases performed with
  | idle => exact .inr ⟨row, member, has⟩
  | filed named on filed =>
    rw [filed.requests, List.mem_append, List.mem_singleton] at member
    cases member with
    | inl old => exact .inr ⟨row, old, has⟩
    | inr new =>
      subst new
      cases filed.unsent.symm.trans has
  | @moved before toState now patch after on sent moved =>
    cases moved.externalId member has with
    | inl given =>
      cases sent id given with
      | inl kept => exact .inr ⟨before, (Table.find?_eq_some.mp moved.found).1, kept⟩
      | inr new => exact .inl new
    | inr earlier => exact .inr earlier
  | cached on applied escalations =>
    obtain ⟨old, oldIn, oldHas⟩ := escalations.externalId member has
    rw [applied.requests] at oldIn
    exact .inr ⟨old, oldIn, oldHas⟩

/-- The database is ready for fewer operations, and in any order. -/
theorem Ready.subperm {ops fewer : List Operation} {db : Db} (ready : Ready ops db)
    (among : List.Subperm fewer ops) : Ready fewer db := by
  obtain ⟨middle, perm, sublist⟩ := among
  have generated : ∀ f : Operation → Option String, (fewer.filterMap f).Subperm (ops.filterMap f) :=
    fun f => ⟨middle.filterMap f, perm.filterMap f, sublist.filterMap f⟩
  have distinct : ∀ f : Operation → Option String, (ops.filterMap f).Nodup → (fewer.filterMap f).Nodup :=
    fun f all => (perm.filterMap f).nodup_iff.mp (all.sublist (sublist.filterMap f))
  exact ⟨ready.coherent, ready.labelled, distinct _ ready.requestIds, distinct _ ready.externalIds,
    fun id member => ready.newRequests id ((generated _).subset member),
    fun id member => ready.newExternals id ((generated _).subset member)⟩

theorem Ready.skip {op : Operation} {rest : List Operation} {db : Db} (ready : Ready (op :: rest) db) :
    Ready rest db :=
  ready.subperm (List.sublist_cons_self op rest).subperm

/-- An id that an operation generates is not generated again. -/
theorem generated_once {ω : Type} {f : ω → Option String} {op : ω} {rest : List ω}
    (distinct : ((op :: rest).filterMap f).Nodup) {id : String} (later : id ∈ rest.filterMap f) :
    f op ≠ some id := by
  intro generated
  rw [List.filterMap_cons_some generated, List.nodup_cons] at distinct
  exact distinct.1 later

theorem Ready.perform {op : Operation} {rest : List Operation} {db : Db} (ready : Ready (op :: rest) db) :
    Ready rest (op.perform db).2 := by
  have performed := op.performed db
  obtain ⟨results, effect⟩ := performed.effect
  have skipped := ready.skip
  refine ⟨ready.coherent.effect effect, ready.labelled.effect effect, skipped.requestIds,
    skipped.externalIds, ?_, ?_⟩
  · intro id later
    exact performed.find?_none (skipped.newRequests id later) (generated_once ready.requestIds later)
  · intro id later row member has
    cases performed.externalId member has with
    | inl generated => exact generated_once ready.externalIds later generated
    | inr earlier =>
      obtain ⟨old, oldIn, oldHas⟩ := earlier
      exact skipped.newExternals id later old oldIn oldHas

theorem Ready.empty {ops : List Operation} (requestIds : (ops.filterMap Operation.newRequestId).Nodup)
    (externalIds : (ops.filterMap Operation.newExternalRequestId).Nodup) : Ready ops Db.empty :=
  ⟨.empty, .empty, requestIds, externalIds, fun _ _ => rfl, fun _ _ _ member => nomatch member⟩

/-- The id that an approval sets is free: the request's own, or a new one. -/
theorem Ready.free {clock : Clock} {newId : String} {actor : Actor} {row : RequestRow}
    {rest : List Operation} {db : Db} (ready : Ready (.approve clock newId actor row.id :: rest) db)
    (found : db.requests.find? row.id = some row) :
    externalIdFree db.requests row.id (some (row.externalRequestId.getD newId)) = true := by
  simp only [externalIdFree, Option.isNone_some, Bool.false_or, List.all_eq_true, decide_eq_true_eq]
  intro other member
  have stored := (Table.find?_eq_some.mp found).1
  cases kept : row.externalRequestId with
  | none => exact .inr (ready.newExternals newId List.mem_cons_self other member)
  | some id =>
    by_cases same : other.externalRequestId = some id
    · exact .inl (ready.labelled.distinct other member row stored id same kept)
    · exact .inr same

/-! ## Operations on the key -/

def onKey (key other : Key) : Bool := other = key

section Consistent

variable {key : Key} {db other : Db}

/-- The request that an operation on the key names, in both databases. -/
theorem SameSlice.target (slice : SameSlice (onKey key) db other) {requestId : String}
    (on : (db.requests.find? requestId).map RequestRow.key = some key) :
    ∃ row, row.id = requestId ∧ Sees (onKey key) row db other := by
  obtain ⟨row, found, same⟩ := Option.map_eq_some_iff.mp on
  exact ⟨row, (Table.find?_eq_some.mp found).2, slice.sees found (by simp [onKey, same])⟩

/-- An operation on the key answers and does the same wherever the key's rows are the same. -/
theorem Operation.consistent {op : Operation} {rest : List Operation}
    (here : Ready (op :: rest) db) (there : Ready (op :: rest) other)
    (on : op.addresses db = some key) (slice : SameSlice (onKey key) db other) :
    (op.perform db).1 = (op.perform other).1 ∧
      SameSlice (onKey key) (op.perform db).2 (op.perform other).2 := by
  cases op with
  | createRequest clock ids actor input =>
    have owned : ∀ employeeId, actor.sub = some employeeId →
        onKey key ⟨employeeId, input.locationId, input.leaveType⟩ = true := by
      intro employeeId subject
      rw [Operation.addresses, subject] at on
      simpa [onKey] using on
    obtain ⟨same, after⟩ := slice.createRequest clock ⟨here.newRequests _ List.mem_cons_self,
      there.newRequests _ List.mem_cons_self⟩ owned
    exact ⟨congrArg Answer.created same, after⟩
  | approve clock newId actor requestId =>
    obtain ⟨row, rfl, sees⟩ := slice.target on
    obtain ⟨same, after⟩ := transaction_sameAnswer (approveBody_agrees clock actor newId) slice
      ⟨sees, here.free sees.foundLeft, there.free sees.foundRight⟩
    exact ⟨congrArg Answer.moved same, after⟩
  | reject clock actor requestId reason =>
    obtain ⟨row, rfl, sees⟩ := slice.target on
    obtain ⟨same, after⟩ := transaction_sameAnswer (rejectBody_agrees clock actor reason) slice sees
    exact ⟨congrArg Answer.moved same, after⟩
  | cancel clock actor requestId =>
    obtain ⟨row, rfl, sees⟩ := slice.target on
    obtain ⟨same, after⟩ := transaction_sameAnswer (cancelBody_agrees clock actor) slice sees
    exact ⟨congrArg Answer.moved same, after⟩
  | markConsumed clock requestId =>
    obtain ⟨row, rfl, sees⟩ := slice.target on
    obtain ⟨same, after⟩ := sees.markConsumed clock
    exact ⟨congrArg Answer.moved same, after⟩
  | markHcmFailed clock requestId errorMessage =>
    obtain ⟨row, rfl, sees⟩ := slice.target on
    obtain ⟨same, after⟩ := sees.markHcmFailed clock errorMessage
    exact ⟨congrArg Answer.moved same, after⟩
  | markReviewRequired clock requestId reason =>
    obtain ⟨row, rfl, sees⟩ := slice.target on
    obtain ⟨same, after⟩ := sees.markReviewRequired clock reason
    exact ⟨congrArg Answer.moved same, after⟩
  | applyHcmBalanceSnapshot clock snapshot =>
    have owned : onKey key snapshot.key = true := by simpa [onKey, Operation.addresses] using on
    obtain ⟨same, after⟩ := slice.applyAndEscalate clock owned
    exact ⟨congrArg Answer.cached same, after⟩

end Consistent

/-! ## The runs -/

theorem Operation.respects {op : Operation} {rest : List Operation} {key : Key} {db : Db}
    (ready : Ready (op :: rest) db) (elsewhere : op.addresses db ≠ some key) :
    SameSlice (onKey key) (op.perform db).2 db := by
  apply (op.performed db).frame ready.coherent
  intro other on
  simp only [onKey, decide_eq_false_iff_not]
  rintro rfl
  exact elsewhere on

theorem Operation.unseen {op : Operation} {rest : List Operation} {key other : Key} {db : Db}
    (ready : Ready (op :: rest) db) (on : op.addresses db = some other) (different : other ≠ key) :
    SameSlice (onKey key) (op.perform db).2 db := by
  apply Operation.respects ready
  rw [on]
  exact fun same => different (Option.some.inj same)

/-- The whole run and the run restricted to the key show the same of the key. -/
theorem restricted_agrees {ops : List Operation} {db : Db} (ready : Ready ops db) (key : Key) :
    answersTo key ops db = answers Operation.perform (restrictTo key ops db) db ∧
      SameSlice (onKey key) (performAll Operation.perform ops db)
        (performAll Operation.perform (restrictTo key ops db) db) := by
  apply unwinding Ready (SameSlice (onKey key)) (fun first second => first.trans second) _ _ _ _ ready
    ready (.refl _ db)
  · exact fun op rest db ready => ready.perform
  · exact fun op rest db ready => ready.skip
  · intro op rest db ready elsewhere
    exact Operation.respects ready (by simpa using elsewhere)
  · intro op rest db other here there on slice
    exact Operation.consistent here there (by simpa using on) slice

theorem Ready.run {earlier later : List Operation} {db : Db} (ready : Ready (earlier ++ later) db) :
    Ready later (performAll Operation.perform earlier db) := by
  induction earlier generalizing db with
  | nil => exact ready
  | cons op rest inductionHypothesis => exact inductionHypothesis ready.perform

/-- What `getEffectiveBalance` says of the key. -/
def effectiveOf (key : Key) (db : Db) : Except Failure ℚ :=
  (getEffectiveBalance key db).map EffectiveBalance.effectiveBalance

theorem SameSlice.effectiveOf {key : Key} {db other : Db} (slice : SameSlice (onKey key) db other) :
    effectiveOf key db = TimeOff.effectiveOf key other := by
  have owned : onKey key key = true := by simp [onKey]
  have reserved := slice.sumOpenReservations owned
  have cached := slice.balances key owned
  simp only [TimeOff.effectiveOf, getEffectiveBalance, reserved]
  cases found : findBalance key db with
  | none =>
    cases foundOther : findBalance key other with
    | none => rfl
    | some _ =>
      rw [found, foundOther] at cached
      cases cached
  | some row =>
    cases foundOther : findBalance key other with
    | none =>
      rw [found, foundOther] at cached
      cases cached
    | some otherRow =>
      rw [found, foundOther] at cached
      have same : row.apart.hcmBalance = otherRow.apart.hcmBalance := congrArg _ (Option.some.inj cached)
      simp only [Except.map, show row.hcmBalance = otherRow.hcmBalance from same]

/-! ## Operations on different keys -/

/-- In either order the two operations answer the same and leave the same rows of every key. -/
structure Commute (first second : Operation) (db : Db) : Prop where
  firstAnswer : (first.perform (second.perform db).2).1 = (first.perform db).1
  secondAnswer : (second.perform (first.perform db).2).1 = (second.perform db).1
  tables : ∀ key, SameSlice (onKey key) (second.perform (first.perform db).2).2
    (first.perform (second.perform db).2).2

theorem Operation.addresses_grows {op : Operation} {key : Key} {db after : Db} (grows : Grows db after)
    (on : op.addresses db = some key) : op.addresses after = some key := by
  have target : ∀ requestId, (db.requests.find? requestId).map RequestRow.key = some key →
      (after.requests.find? requestId).map RequestRow.key = some key := by
    intro requestId onKey
    obtain ⟨row, found, same⟩ := Option.map_eq_some_iff.mp onKey
    obtain ⟨later, foundLater, evolves⟩ := grows requestId row found
    rw [foundLater, Option.map_some, evolves.key, same]
  cases op with
  | createRequest => exact on
  | applyHcmBalanceSnapshot => exact on
  | _ => exact target _ on

section Commute

variable {first second : Operation} {key other : Key} {db : Db}

/-- The second operation answers and does what it would have done without the first. -/
theorem after_other (ready : Ready [first, second] db) (onFirst : first.addresses db = some key)
    (onSecond : second.addresses db = some other) (different : key ≠ other) :
    (second.perform (first.perform db).2).1 = (second.perform db).1 ∧
      SameSlice (onKey other) (second.perform (first.perform db).2).2 (second.perform db).2 ∧
      ∀ third, third ≠ other →
        SameSlice (onKey third) (second.perform (first.perform db).2).2 (first.perform db).2 := by
  obtain ⟨results, effect⟩ := (first.performed db).effect
  have onLater := Operation.addresses_grows effect.grows onSecond
  have unseen : SameSlice (onKey other) (first.perform db).2 db :=
    Operation.unseen ready onFirst different
  obtain ⟨answer, slice⟩ := Operation.consistent ready.perform ready.skip onLater unseen
  refine ⟨answer, slice, ?_⟩
  intro third elsewhere
  exact Operation.unseen ready.perform onLater (Ne.symm elsewhere)

theorem Ready.commute (ready : Ready [first, second] db) (onFirst : first.addresses db = some key)
    (onSecond : second.addresses db = some other) (different : key ≠ other) : Commute first second db := by
  have swapped : Ready [second, first] db := ready.subperm (List.Perm.swap first second []).subperm
  obtain ⟨secondAnswer, secondSlice, secondFrame⟩ := after_other ready onFirst onSecond different
  obtain ⟨firstAnswer, firstSlice, firstFrame⟩ := after_other swapped onSecond onFirst different.symm
  refine ⟨firstAnswer, secondAnswer, ?_⟩
  intro third
  by_cases onTheFirst : third = key
  · subst onTheFirst
    exact (secondFrame third different).trans firstSlice.symm
  · by_cases onTheSecond : third = other
    · subst onTheSecond
      exact secondSlice.trans (firstFrame third onTheFirst).symm
    -- neither operation writes rows of a third key
    · have first_unseen : SameSlice (onKey third) (first.perform db).2 db :=
        Operation.unseen ready onFirst (Ne.symm onTheFirst)
      have second_unseen : SameSlice (onKey third) (second.perform db).2 db :=
        Operation.unseen swapped onSecond (Ne.symm onTheSecond)
      exact ((secondFrame third onTheSecond).trans first_unseen).trans
        ((firstFrame third onTheFirst).trans second_unseen).symm

end Commute

/-- What a run leaves of a key and answers on it is what its operations on that key alone would leave and
answer; hence operations on different keys commute, and none changes the effective balance of a key
that it does not address. -/
theorem keys_independent (ops : List Operation)
    (requestIds : (ops.filterMap Operation.newRequestId).Nodup)
    (externalIds : (ops.filterMap Operation.newExternalRequestId).Nodup) :
    (∀ key, answersTo key ops Db.empty = answers Operation.perform (restrictTo key ops Db.empty) Db.empty ∧
      SameSlice (onKey key) (performAll Operation.perform ops Db.empty)
        (performAll Operation.perform (restrictTo key ops Db.empty) Db.empty)) ∧
    (∀ earlier first second rest key other, ops = earlier ++ first :: second :: rest →
      first.addresses (performAll Operation.perform earlier Db.empty) = some key →
      second.addresses (performAll Operation.perform earlier Db.empty) = some other → key ≠ other →
      Commute first second (performAll Operation.perform earlier Db.empty)) ∧
    ∀ earlier op rest key, ops = earlier ++ op :: rest →
      op.addresses (performAll Operation.perform earlier Db.empty) ≠ some key →
      effectiveOf key (op.perform (performAll Operation.perform earlier Db.empty)).2 =
        effectiveOf key (performAll Operation.perform earlier Db.empty) := by
  have ready : Ready ops Db.empty := .empty requestIds externalIds
  refine ⟨restricted_agrees ready, ?_, ?_⟩
  · rintro earlier first second rest key other rfl onFirst onSecond different
    have pair : List.Sublist [first, second] (first :: second :: rest) :=
      ((List.nil_sublist rest).cons_cons second).cons_cons first
    exact (ready.run.subperm pair.subperm).commute onFirst onSecond different
  · rintro earlier op rest key rfl elsewhere
    exact (Operation.respects ready.run elsewhere).effectiveOf

namespace Office

def colleague : Actor := ⟨some "employee-2", ["employee"], some "manager-1"⟩

/-- Two employees file ten days each, and HCM lowers the balance of the second one. -/
def twoEmployees : List Operation :=
  let snapshot (employeeId : String) (balance : ℚ) (asOf : Int) : Operation :=
    .applyHcmBalanceSnapshot ⟨0, clock, fun _ => clock⟩
      { key := ⟨employeeId, "HQ", "vacation"⟩, balance := some balance, asOf := .ms asOf }
  let file (actor : Actor) (id : String) : Operation :=
    .createRequest clock ⟨id, id⟩ actor ⟨"HQ", "vacation", "2026-05-01", "2026-05-10", none⟩
  [snapshot "employee-1" 10 0, snapshot "employee-2" 10 0, file employee "r1", file colleague "r2",
    .approve clock "x1" manager "r1", .approve clock "x2" manager "r2", snapshot "employee-2" 4 1]

end Office

/-- The first employee's three operations, with and without the second employee's. -/
theorem keys_independent_office :
    SameSlice (onKey Office.key) (performAll Operation.perform Office.twoEmployees Db.empty)
      (performAll Operation.perform (restrictTo Office.key Office.twoEmployees Db.empty) Db.empty) ∧
    (restrictTo Office.key Office.twoEmployees Db.empty).length = 3 ∧
    requestState "r1" (performAll Operation.perform Office.twoEmployees Db.empty) = some .approved ∧
    requestState "r2" (performAll Operation.perform Office.twoEmployees Db.empty) =
      some .reviewRequired := by
  refine ⟨((keys_independent Office.twoEmployees ?_ ?_).1 Office.key).2, ?_, ?_, ?_⟩
  · decide
  · decide
  · decide +kernel
  · decide +kernel
  · decide +kernel

end TimeOff
