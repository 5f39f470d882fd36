import TimeOff.System.Me
import TimeOff.Verified.KeyIndependence

/-! # What an employee learns of other employees

An employee's calls on two stores that agree on the employee's own rows.  Every
route but one answers the same; `cancel` tells a request of somebody else (403)
from one that does not exist (404), which `getMine` takes care not to do.
-/

set_option autoImplicit false

namespace TimeOff

open TimeOff.Lib BalancesRepository BalancesService TimeOffRepository TimeOffService

/-- Is the key the actor's own? -/
def ofActor (actor : Actor) (key : Key) : Bool := some key.employeeId = actor.sub

/-- The two tables have the same entries of the actor. -/
def SameEntries {β : Type} (actorId : Option String) (left right : Table (IdempotencyRow β)) : Prop :=
  ∀ scope : Scope, some scope.actorId = actorId → left.find? scope = right.find? scope

/-- The stores agree on the actor's own rows, the ids of reservations apart. -/
structure SameOwnRows (actor : Actor) (left right : Store) : Prop where
  balances : left.db.balances.rows.filter (fun row => ofActor actor row.key) =
    right.db.balances.rows.filter fun row => ofActor actor row.key
  requests : ownRequests (ofActor actor) left.db = ownRequests (ofActor actor) right.db
  reservations : ownReservations (ofActor actor) left.db = ownReservations (ofActor actor) right.db
  idempotencyKeys : SameEntries actor.sub left.idempotencyKeys right.idempotencyKeys

/-- The id is that of a request of somebody else. -/
def ForeignRequest (actor : Actor) (id : String) (db : Db) : Prop :=
  ∃ request ∈ db.requests.find? id, some request.key.employeeId ≠ actor.sub

instance (actor : Actor) (id : String) (db : Db) : Decidable (ForeignRequest actor id db) :=
  inferInstanceAs (Decidable (∃ request ∈ db.requests.find? id, _))

/-! ## Reading own rows -/

section Own

variable {actor : Actor} {left right : Store}

theorem findBalance_own {own : Key → Bool} {key : Key} (owned : own key = true) (db : Db) :
    findBalance key db = (db.balances.rows.filter fun row => own row.key).find? fun row => row.key = key := by
  rw [findBalance, List.find?_filter]
  congr 1
  funext row
  by_cases same : row.key = key
  · simp [same, owned]
  · simp [same]

theorem SameOwnRows.slice (same : SameOwnRows actor left right) :
    SameSlice (ofActor actor) left.db right.db := by
  refine ⟨?_, same.requests, same.reservations⟩
  intro key owned
  rw [findBalance_own owned, findBalance_own owned, same.balances]

theorem SameOwnRows.symm (same : SameOwnRows actor left right) : SameOwnRows actor right left :=
  ⟨same.balances.symm, same.requests.symm, same.reservations.symm,
    fun scope own => (same.idempotencyKeys scope own).symm⟩

theorem SameOwnRows.listBalances (same : SameOwnRows actor left right) :
    getEffectiveBalancesForEmployee actor.sub left.db = getEffectiveBalancesForEmployee actor.sub right.db := by
  have listed : listBalancesForEmployee actor.sub left.db = listBalancesForEmployee actor.sub right.db :=
    congrArg (List.insertionSort _) same.balances
  simp only [getEffectiveBalancesForEmployee, listed]
  apply List.map_congr_left
  intro bal member
  have ours : bal ∈ right.db.balances.rows.filter fun row => some row.key.employeeId = actor.sub :=
    (List.mem_insertionSort _).mp member
  have owned : ofActor actor bal.key = true := (List.mem_filter.mp ours).2
  rw [same.slice.sumOpenReservations owned]

theorem SameOwnRows.listRequests (same : SameOwnRows actor left right) :
    TimeOffController.listMine actor left = TimeOffController.listMine actor right :=
  congrArg (List.insertionSort _) same.requests

/-- A request of the actor's own is there on both sides; any other is not to be seen on either. -/
theorem SameOwnRows.target (same : SameOwnRows actor left right) (id : String) :
    (∃ row, row.id = id ∧ Sees (ofActor actor) row left.db right.db) ∨
    (∀ row ∈ left.db.requests.find? id, some row.key.employeeId ≠ actor.sub) ∧
      ∀ row ∈ right.db.requests.find? id, some row.key.employeeId ≠ actor.sub := by
  have seen : ∀ {first second : Store}, SameOwnRows actor first second → ∀ row,
      first.db.requests.find? id = some row → some row.key.employeeId = actor.sub →
        row.id = id ∧ Sees (ofActor actor) row first.db second.db := by
    intro first second same row found own
    exact ⟨(Table.find?_eq_some.mp found).2, same.slice.sees found (by simp [ofActor, own])⟩
  by_cases ours : ∃ row, left.db.requests.find? id = some row ∧ some row.key.employeeId = actor.sub
  · obtain ⟨row, found, own⟩ := ours
    exact .inl ⟨row, seen same row found own⟩
  · right
    refine ⟨fun row found own => ours ⟨row, found, own⟩, ?_⟩
    intro row found own
    obtain ⟨named, sees⟩ := seen same.symm row found own
    exact ours ⟨row, by rw [← named]; exact sees.foundRight, own⟩

end Own

/-! ## The idempotency entries -/

section Entries

variable {β : Type} {actorId : Option String} {left right : Table (IdempotencyRow β)}

theorem lookup_agrees (same : SameEntries actorId left right) (now : Int) (key : Option String)
    (endpoint : String) :
    (IdempotencyService.lookup now key endpoint actorId left).1 =
        (IdempotencyService.lookup now key endpoint actorId right).1 ∧
      SameEntries actorId (IdempotencyService.lookup now key endpoint actorId left).2
        (IdempotencyService.lookup now key endpoint actorId right).2 := by
  simp only [IdempotencyService.lookup]
  cases IdempotencyService.given key with
  | none => exact ⟨rfl, same⟩
  | some key =>
    cases actorId with
    | none => exact ⟨rfl, same⟩
    | some actorId =>
      have found := same ⟨key, endpoint, actorId⟩ rfl
      dsimp only
      rw [found]
      cases right.find? ⟨key, endpoint, actorId⟩ with
      | none => exact ⟨rfl, same⟩
      | some row =>
        by_cases expired : row.expiresAt < now
        · dsimp only
          rw [if_pos expired, if_pos expired]
          refine ⟨rfl, ?_⟩
          intro scope own
          rw [Table.find?_delete, Table.find?_delete, same scope own]
        · dsimp only
          rw [if_neg expired, if_neg expired]
          exact ⟨rfl, same⟩

theorem store_agrees (same : SameEntries actorId left right) (now : Int) (key : Option String)
    (endpoint : String) (statusCode : Nat) (response : β) :
    (IdempotencyService.store now key endpoint actorId statusCode response left).1 =
        (IdempotencyService.store now key endpoint actorId statusCode response right).1 ∧
      SameEntries actorId (IdempotencyService.store now key endpoint actorId statusCode response left).2
        (IdempotencyService.store now key endpoint actorId statusCode response right).2 := by
  simp only [IdempotencyService.store]
  cases IdempotencyService.given key with
  | none => exact ⟨rfl, same⟩
  | some key =>
    cases actorId with
    | none => exact ⟨rfl, same⟩
    | some actorId =>
      refine ⟨rfl, ?_⟩
      intro scope own
      rw [Table.find?_insertOrReplace, Table.find?_insertOrReplace, same scope own]

end Entries

/-! ## One call -/

section Calls

variable {actor : Actor} {left right : Store}

/-- What the routes write, besides the actor's own idempotency entries. -/
theorem SameOwnRows.after (same : SameOwnRows actor left right) {leftDb rightDb : Db}
    {leftKeys rightKeys : Table (IdempotencyRow CreatedRequest)}
    (leftBalances : leftDb.balances = left.db.balances)
    (rightBalances : rightDb.balances = right.db.balances)
    (slice : SameSlice (ofActor actor) leftDb rightDb) (entries : SameEntries actor.sub leftKeys rightKeys) :
    SameOwnRows actor ⟨leftDb, leftKeys⟩ ⟨rightDb, rightKeys⟩ :=
  ⟨by rw [leftBalances, rightBalances]; exact same.balances, slice.requests, slice.reservations, entries⟩

theorem createRequest_balances (clock : Clock) (ids : NewIds) (actor : Actor) (input : CreateInput)
    (db : Db) : (TimeOffService.createRequest clock ids actor input db).2.balances = db.balances :=
  (Call.createRequest clock ids actor input).balances rfl db

theorem cancel_balances (clock : Clock) (actor : Actor) (id : String) (db : Db) :
    (TimeOffService.cancel clock actor id db).2.balances = db.balances :=
  (Call.cancel clock actor id).balances rfl db

theorem SameOwnRows.create (same : SameOwnRows actor left right) (clock : CreateClock) {ids : NewIds}
    (isNew : NewInBoth ids.requestId left.db right.db) (input : CreateInput) (idemKey : Option String) :
    (TimeOffController.create clock ids actor input idemKey left).1 =
        (TimeOffController.create clock ids actor input idemKey right).1 ∧
      SameOwnRows actor (TimeOffController.create clock ids actor input idemKey left).2
        (TimeOffController.create clock ids actor input idemKey right).2 := by
  obtain ⟨sameFound, entries⟩ :=
    lookup_agrees same.idempotencyKeys clock.lookup idemKey TimeOffController.createEndpoint
  have owned : ∀ employeeId, actor.sub = some employeeId →
      ofActor actor ⟨employeeId, input.locationId, input.leaveType⟩ = true := by
    intro employeeId subject
    simp [ofActor, subject]
  obtain ⟨sameOutcome, slice⟩ := same.slice.createRequest clock.request isNew owned
  have leftBalances := createRequest_balances clock.request ids actor input left.db
  have rightBalances := createRequest_balances clock.request ids actor input right.db
  simp only [TimeOffController.create]
  generalize IdempotencyService.lookup clock.lookup idemKey TimeOffController.createEndpoint actor.sub
    left.idempotencyKeys = leftLooked at sameFound entries ⊢
  generalize IdempotencyService.lookup clock.lookup idemKey TimeOffController.createEndpoint actor.sub
    right.idempotencyKeys = rightLooked at sameFound entries ⊢
  obtain ⟨found, leftKeys⟩ := leftLooked
  obtain ⟨rightFound, rightKeys⟩ := rightLooked
  cases sameFound
  cases found with
  | some cached => exact ⟨rfl, same.after rfl rfl same.slice entries⟩
  | none =>
    generalize TimeOffService.createRequest clock.request ids actor input left.db = leftRan
      at sameOutcome slice leftBalances ⊢
    generalize TimeOffService.createRequest clock.request ids actor input right.db = rightRan
      at sameOutcome slice rightBalances ⊢
    obtain ⟨outcome, leftDb⟩ := leftRan
    obtain ⟨rightOutcome, rightDb⟩ := rightRan
    cases sameOutcome
    cases outcome with
    | error failure => exact ⟨rfl, same.after leftBalances rightBalances slice entries⟩
    | ok created =>
      obtain ⟨sameStored, stored⟩ :=
        store_agrees entries clock.store idemKey TimeOffController.createEndpoint 201 created
      dsimp only
      generalize IdempotencyService.store clock.store idemKey TimeOffController.createEndpoint actor.sub
        201 created leftKeys = leftStored at sameStored stored ⊢
      generalize IdempotencyService.store clock.store idemKey TimeOffController.createEndpoint actor.sub
        201 created rightKeys = rightStored at sameStored stored ⊢
      obtain ⟨result, leftTable⟩ := leftStored
      obtain ⟨rightResult, rightTable⟩ := rightStored
      cases sameStored
      cases result with
      | error failure => exact ⟨rfl, same.after leftBalances rightBalances slice stored⟩
      | ok _ => exact ⟨rfl, same.after leftBalances rightBalances slice stored⟩

theorem getById_found {id : String} {db : Db} {row : RequestRow} (found : db.requests.find? id = some row) :
    getById id db = .ok row := by
  have read : findByIdOrThrow id db = .ok (row, db) := findByIdOrThrow_ok.mpr ⟨found, rfl⟩
  rw [getById, read]
  rfl

theorem getById_missing {id : String} {db : Db} (missing : db.requests.find? id = none) :
    getById id db = .error (.notFound "Request" id) := by
  rw [getById, findByIdOrThrow_error.mpr ⟨missing, rfl⟩]
  rfl

/-- `getMine` answers for a request of somebody else as for one that does not exist. -/
theorem getMine_unseen (ordinary : actor.roles.contains "admin" = false) {id : String} {store : Store}
    (unseen : ∀ row ∈ store.db.requests.find? id, some row.key.employeeId ≠ actor.sub) :
    TimeOffController.getMine actor id store = .error (.notFound "Request" id) := by
  cases found : store.db.requests.find? id with
  | none =>
    rw [TimeOffController.getMine, getById_missing found]
    rfl
  | some row =>
    have foreign : some row.key.employeeId ≠ actor.sub ∧ ¬ actor.roles.contains "admin" = true :=
      ⟨unseen row found, by rw [ordinary]; exact Bool.false_ne_true⟩
    rw [TimeOffController.getMine, getById_found found]
    exact (if_pos foreign).trans rfl

theorem SameOwnRows.getMine (same : SameOwnRows actor left right)
    (ordinary : actor.roles.contains "admin" = false) (id : String) :
    TimeOffController.getMine actor id left = TimeOffController.getMine actor id right := by
  cases same.target id with
  | inl own =>
    obtain ⟨row, rfl, sees⟩ := own
    rw [TimeOffController.getMine, TimeOffController.getMine, getById_found sees.foundLeft,
      getById_found sees.foundRight]
  | inr unseen => rw [getMine_unseen ordinary unseen.1, getMine_unseen ordinary unseen.2]

/-- `cancel` says which of the two it is. -/
theorem cancel_unseen (clock : Clock) (ordinary : actor.roles.contains "admin" = false) {id : String}
    {db : Db} (unseen : ∀ row ∈ db.requests.find? id, some row.key.employeeId ≠ actor.sub) :
    TimeOffService.cancel clock actor id db = (.error (if (db.requests.find? id).isSome then
      .forbidden "Cannot cancel another employee's request" else .notFound "Request" id), db) := by
  apply transaction_error.mpr
  simp only [cancelBody, Tx.bind_error, findByIdOrThrow_error, findByIdOrThrow_ok, Tx.require_error]
  refine ⟨?_, trivial⟩
  cases found : db.requests.find? id with
  | none => exact .inl ⟨rfl, rfl⟩
  | some row =>
    right
    refine ⟨row, db, ⟨rfl, rfl⟩, .inl ⟨?_, rfl⟩⟩
    intro may
    cases may with
    | inl owner => exact unseen row found owner
    | inr admin => rw [ordinary] at admin; cases admin

theorem foreign_of_unseen {id : String} {db : Db}
    (unseen : ∀ row ∈ db.requests.find? id, some row.key.employeeId ≠ actor.sub) :
    ForeignRequest actor id db ↔ (db.requests.find? id).isSome = true := by
  cases found : db.requests.find? id with
  | none => simp [ForeignRequest, found]
  | some row => simp [ForeignRequest, found, unseen row found]

theorem not_foreign {id : String} {db : Db} {row : RequestRow} (found : db.requests.find? id = some row)
    (own : ofActor actor row.key = true) : ¬ ForeignRequest actor id db := by
  rintro ⟨other, foundOther, foreign⟩
  cases found.symm.trans foundOther
  exact foreign (by simpa [ofActor] using own)

/-- The two answers to `cancel` differ exactly if one says that the request is somebody else's and the
other that there is none. -/
theorem SameOwnRows.cancel (same : SameOwnRows actor left right)
    (ordinary : actor.roles.contains "admin" = false) (clock : Clock) (id : String) :
    (respondWith 201 .request (TimeOffController.cancel clock actor id left).1 =
        respondWith 201 .request (TimeOffController.cancel clock actor id right).1 ↔
      (ForeignRequest actor id left.db ↔ ForeignRequest actor id right.db)) ∧
    SameOwnRows actor (TimeOffController.cancel clock actor id left).2
      (TimeOffController.cancel clock actor id right).2 := by
  simp only [TimeOffController.cancel]
  cases same.target id with
  | inl own =>
    obtain ⟨row, rfl, sees⟩ := own
    obtain ⟨outcome, slice⟩ := transaction_sameAnswer (cancelBody_agrees clock actor) sees.slice sees
    have sameOutcome : (TimeOffService.cancel clock actor row.id left.db).1 =
        (TimeOffService.cancel clock actor row.id right.db).1 := outcome
    refine ⟨?_, same.after (cancel_balances clock actor row.id left.db)
      (cancel_balances clock actor row.id right.db) slice same.idempotencyKeys⟩
    simp only [sameOutcome, not_foreign sees.foundLeft sees.owned, not_foreign sees.foundRight sees.owned]
  | inr unseen =>
    rw [foreign_of_unseen unseen.1, foreign_of_unseen unseen.2, cancel_unseen clock ordinary unseen.1,
      cancel_unseen clock ordinary unseen.2]
    refine ⟨?_, same⟩
    cases left.db.requests.find? id with
    | none =>
      cases right.db.requests.find? id with
      | none => simp
      | some _ => simp [respondWith, Failure.toResponse, Failure.response, Failure.response?]
    | some _ =>
      cases right.db.requests.find? id with
      | none => simp [respondWith, Failure.toResponse, Failure.response, Failure.response?]
      | some _ => simp

/-- The ids that a call cancels are foreign on both sides or on neither. -/
def MeCall.Discreet (actor : Actor) (call : MeCall) (left right : Store) : Prop :=
  ∀ id ∈ call.cancelled, ForeignRequest actor id left.db ↔ ForeignRequest actor id right.db

theorem MeCall.handle_agrees (call : MeCall) (same : SameOwnRows actor left right)
    (ordinary : actor.roles.contains "admin" = false)
    (isNew : ∀ id ∈ call.newRequestId, NewInBoth id left.db right.db) :
    ((call.handle actor left).1 = (call.handle actor right).1 ↔ call.Discreet actor left right) ∧
      SameOwnRows actor (call.handle actor left).2 (call.handle actor right).2 := by
  have discreet : call.cancelled = none → call.Discreet actor left right := by
    intro none id cancels
    rw [none] at cancels
    cases cancels
  cases call with
  | getBalances =>
    have listed : BalancesController.getMine actor left = BalancesController.getMine actor right :=
      same.listBalances
    simp only [MeCall.handle, listed, discreet rfl]
    exact ⟨trivial, same⟩
  | postRequest clock ids input idemKey =>
    obtain ⟨outcome, after⟩ := same.create clock (isNew _ rfl) input idemKey
    refine ⟨iff_of_true ?_ (discreet rfl), after⟩
    exact congrArg (respondWith 201 Body.created) outcome
  | getRequests =>
    simp only [MeCall.handle, same.listRequests, discreet rfl]
    exact ⟨trivial, same⟩
  | getRequest id =>
    simp only [MeCall.handle, same.getMine ordinary id, discreet rfl]
    exact ⟨trivial, same⟩
  | cancelRequest clock id =>
    obtain ⟨answers, after⟩ := same.cancel ordinary clock id
    refine ⟨answers.trans ?_, after⟩
    simp [MeCall.Discreet, MeCall.cancelled]

end Calls

/-! ## A run of calls -/

section Runs

variable {actor : Actor}

/-- What a call can do to the request of an id: nothing, or it was and is the actor's own, or it is the
actor's new request. -/
inductive Handled (actor : Actor) (call : MeCall) (id : String) (db after : Db) : Prop
  | kept (same : after.requests.find? id = db.requests.find? id)
  | own (before row : RequestRow) (foundBefore : db.requests.find? id = some before)
      (ownBefore : ofActor actor before.key = true) (found : after.requests.find? id = some row)
      (own : ofActor actor row.key = true)
  | filed (row : RequestRow) (generated : call.newRequestId = some id)
      (fresh : db.requests.find? id = none) (found : after.requests.find? id = some row)
      (own : ofActor actor row.key = true)

theorem createRequest_handled {call : MeCall} {ids : NewIds} (generates : call.newRequestId = some ids.requestId)
    (clock : Clock) (input : CreateInput) (id : String) (db : Db) :
    Handled actor call id db (TimeOffService.createRequest clock ids actor input db).2 := by
  cases ran : TimeOffService.createRequest clock ids actor input db with
  | mk outcome after =>
    cases outcome with
    | error failure =>
      rw [createRequest_error ran]
      exact .kept rfl
    | ok created =>
      obtain ⟨named, _, employeeId, subject, key⟩ := createRequest_row ran
      have filed := createRequest_ok ran
      have found := filed.find? id
      by_cases new : created.row.id = id
      · subst new
        rw [if_pos rfl] at found
        exact .filed created.row (by rw [generates, named]) filed.fresh found (by simp [ofActor, key, subject])
      · rw [if_neg new] at found
        exact .kept found

theorem cancel_handled {call : MeCall} (ordinary : actor.roles.contains "admin" = false) (clock : Clock)
    (requestId id : String) (db : Db) :
    Handled actor call id db (TimeOffService.cancel clock actor requestId db).2 := by
  cases ran : TimeOffService.cancel clock actor requestId db with
  | mk outcome after =>
    cases outcome with
    | error failure =>
      rw [(transaction_error.mp ran).2]
      exact .kept rfl
    | ok row =>
      obtain ⟨before, _, may, moved⟩ := cancel_ok ran
      have own : ofActor actor before.key = true := by
        cases may with
        | inl owner => simpa [ofActor] using owner
        | inr admin => rw [ordinary] at admin; cases admin
      by_cases hit : id = before.id
      · subst hit
        exact .own before _ moved.found own moved.find?_self own
      · exact .kept (moved.find?_other hit)

theorem create_db (clock : CreateClock) (ids : NewIds) (actor : Actor) (input : CreateInput) (idemKey : Option String)
    (store : Store) :
    (TimeOffController.create clock ids actor input idemKey store).2.db = store.db ∨
    (TimeOffController.create clock ids actor input idemKey store).2.db =
      (TimeOffService.createRequest clock.request ids actor input store.db).2 := by
  simp only [TimeOffController.create]
  split
  · exact .inl rfl
  · right
    split
    next ran => rw [ran]
    next ran =>
      rw [ran]
      split
      · rfl
      · rfl

theorem MeCall.handled (call : MeCall) (ordinary : actor.roles.contains "admin" = false) (id : String)
    (store : Store) : Handled actor call id store.db (call.handle actor store).2.db := by
  cases call with
  | getBalances => exact .kept rfl
  | getRequests => exact .kept rfl
  | getRequest _ => exact .kept rfl
  | cancelRequest clock requestId => exact cancel_handled ordinary clock requestId id store.db
  | postRequest clock ids input idemKey =>
    show Handled actor _ id store.db (TimeOffController.create clock ids actor input idemKey store).2.db
    cases create_db clock ids actor input idemKey store with
    | inl same =>
      rw [same]
      exact .kept rfl
    | inr ran =>
      rw [ran]
      exact createRequest_handled rfl clock.request input id store.db

variable {call : MeCall} {id : String} {db after : Db}

theorem Handled.foreign (handled : Handled actor call id db after) :
    ForeignRequest actor id after ↔ ForeignRequest actor id db := by
  cases handled with
  | kept same => rw [ForeignRequest, ForeignRequest, same]
  | own before row foundBefore ownBefore found own =>
    exact iff_of_false (not_foreign found own) (not_foreign foundBefore ownBefore)
  | filed row generated fresh found own =>
    apply iff_of_false (not_foreign found own)
    rintro ⟨request, foundFresh, _⟩
    cases fresh.symm.trans foundFresh

theorem Handled.fresh (handled : Handled actor call id db after) (fresh : db.requests.find? id = none)
    (other : call.newRequestId ≠ some id) : after.requests.find? id = none := by
  cases handled with
  | kept same => rw [same, fresh]
  | own before row foundBefore ownBefore found own => cases fresh.symm.trans foundBefore
  | filed row generated _ found own => exact absurd generated other

/-- The ids that the calls generate are new in both stores. -/
def NewIdsInBoth (calls : List MeCall) (left right : Store) : Prop :=
  ∀ id ∈ calls.filterMap MeCall.newRequestId, NewInBoth id left.db right.db

/-- The employee's calls answer the same on both sides exactly if they cancel no request that is somebody
else's on one side and does not exist on the other. -/
theorem handle_answers_iff {calls : List MeCall} {left right : Store} (same : SameOwnRows actor left right)
    (ordinary : actor.roles.contains "admin" = false)
    (distinct : (calls.filterMap MeCall.newRequestId).Nodup) (isNew : NewIdsInBoth calls left right) :
    answers (fun call => call.handle actor) calls left = answers (fun call => call.handle actor) calls right ↔
      ∀ id ∈ calls.filterMap MeCall.cancelled,
        (ForeignRequest actor id left.db ↔ ForeignRequest actor id right.db) := by
  induction calls generalizing left right with
  | nil => simp [answers]
  | cons call rest inductionHypothesis =>
    have among : (rest.filterMap MeCall.newRequestId).Sublist
        ((call :: rest).filterMap MeCall.newRequestId) := (List.sublist_cons_self call rest).filterMap _
    obtain ⟨agree, after⟩ := call.handle_agrees same ordinary fun id generated =>
      isNew id (List.mem_filterMap.mpr ⟨call, List.mem_cons_self, generated⟩)
    have restNew : NewIdsInBoth rest (call.handle actor left).2 (call.handle actor right).2 := by
      intro id later
      obtain ⟨freshLeft, freshRight⟩ := isNew id (among.subset later)
      have other := generated_once distinct later
      exact ⟨(call.handled ordinary id left).fresh freshLeft other,
        (call.handled ordinary id right).fresh freshRight other⟩
    have later := inductionHypothesis after (distinct.sublist among) restNew
    -- no call makes or unmakes a request of somebody else
    have foreign : ∀ id, (ForeignRequest actor id (call.handle actor left).2.db ↔
        ForeignRequest actor id (call.handle actor right).2.db) ↔
          (ForeignRequest actor id left.db ↔ ForeignRequest actor id right.db) := by
      intro id
      rw [(call.handled ordinary id left).foreign, (call.handled ordinary id right).foreign]
    simp only [answers, List.cons.injEq, agree, later, foreign, MeCall.Discreet]
    cases cancels : call.cancelled with
    | none => simp [List.filterMap_cons_none cancels]
    | some id => simp [List.filterMap_cons_some cancels]

/-- Without a role that the guard asks for, every call is refused. -/
theorem refused_answers {failure : Failure} (outsider : requireRoles MeCall.roles actor = .error failure)
    (calls : List MeCall) (left right : Store) :
    answers (MeCall.respond actor) calls left = answers (MeCall.respond actor) calls right := by
  induction calls generalizing left right with
  | nil => rfl
  | cons call rest inductionHypothesis =>
    simp only [answers, MeCall.respond, outsider]
    exact congrArg _ (inductionHypothesis left right)

/-- For an actor who is neither admin nor manager, and two stores that agree on the actor's own rows: the
responses to a sequence of calls are the same exactly if, for every id that the sequence cancels, both
stores or neither have a request of somebody else under it, or the guard lets the actor in nowhere. -/
theorem me_responses_agree_iff (actor : Actor)
    (ordinary : actor.roles.contains "admin" = false ∧ actor.roles.contains "manager" = false)
    (calls : List MeCall) (left right : Store) (same : SameOwnRows actor left right)
    (distinct : (calls.filterMap MeCall.newRequestId).Nodup) (isNew : NewIdsInBoth calls left right) :
    answers (MeCall.respond actor) calls left = answers (MeCall.respond actor) calls right ↔
      (actor.roles.contains "employee" = true → ∀ id ∈ calls.filterMap MeCall.cancelled,
        (ForeignRequest actor id left.db ↔ ForeignRequest actor id right.db)) := by
  cases employee : actor.roles.contains "employee" with
  | true =>
    have admitted : requireRoles MeCall.roles actor = .ok () := by
      apply if_pos
      simp only [MeCall.roles, List.any_cons, employee, Bool.true_or]
    have handled : MeCall.respond actor = fun call => call.handle actor := by
      funext call store
      simp only [MeCall.respond, admitted]
    rw [handled, handle_answers_iff same ordinary.1 distinct isNew]
    simp
  | false =>
    have denied : MeCall.roles.any actor.roles.contains = false := by
      simp only [MeCall.roles, List.any_cons, List.any_nil, employee, ordinary.1, ordinary.2, Bool.or_self]
    have outsider : requireRoles MeCall.roles actor = .error _ :=
      if_neg (by rw [denied]; exact Bool.false_ne_true)
    exact iff_of_true (refused_answers outsider calls left right) (by simp)

end Runs

namespace Office

/-- Both employees have ten days. -/
def balancesOnly : Store := ⟨performAll Operation.perform (twoEmployees.take 2) Db.empty, Table.empty⟩

/-- And the first one has filed them. -/
def colleagueFiled : Store := ⟨performAll Operation.perform (twoEmployees.take 3) Db.empty, Table.empty⟩

theorem same_for_colleague : SameOwnRows colleague balancesOnly colleagueFiled where
  balances := by decide +kernel
  requests := by decide +kernel
  reservations := by decide +kernel
  idempotencyKeys := fun _ _ => rfl

end Office

/-- The second employee reads the first one's request, files one and cancels it. -/
theorem me_responses_agree_office :
    let calls : List MeCall := [.getRequest "r1",
      .postRequest ⟨0, Office.clock, 0⟩ ⟨"r2", "r2"⟩ ⟨"HQ", "vacation", "2026-05-01", "2026-05-10", none⟩
        (some "k"), .cancelRequest Office.clock "r2", .getBalances]
    answers (MeCall.respond Office.colleague) calls Office.balancesOnly =
      answers (MeCall.respond Office.colleague) calls Office.colleagueFiled ∧
    (answers (MeCall.respond Office.colleague) calls Office.balancesOnly).map Response.status =
      [404, 201, 201, 200] := by
  intro calls
  refine ⟨(me_responses_agree_iff Office.colleague (by decide) calls Office.balancesOnly
    Office.colleagueFiled Office.same_for_colleague (by decide) ?_).mpr ?_, by decide +kernel⟩
  · simp only [NewIdsInBoth, NewInBoth]
    decide +kernel
  · decide +kernel

/-- The second employee cancels the first one's request: 404 where it does not exist, 403 where it does. -/
theorem cancel_reveals_request :
    SameOwnRows Office.colleague Office.balancesOnly Office.colleagueFiled ∧
    Office.colleague.roles = ["employee"] ∧
    (answers (MeCall.respond Office.colleague) [.cancelRequest Office.clock "r1"]
      Office.balancesOnly).map Response.status = [404] ∧
    (answers (MeCall.respond Office.colleague) [.cancelRequest Office.clock "r1"]
      Office.colleagueFiled).map Response.status = [403] ∧
    answers (MeCall.respond Office.colleague) [.cancelRequest Office.clock "r1"] Office.balancesOnly ≠
      answers (MeCall.respond Office.colleague) [.cancelRequest Office.clock "r1"] Office.colleagueFiled := by
  have missing : (answers (MeCall.respond Office.colleague) [.cancelRequest Office.clock "r1"]
      Office.balancesOnly).map Response.status = [404] := by decide +kernel
  have foreign : (answers (MeCall.respond Office.colleague) [.cancelRequest Office.clock "r1"]
      Office.colleagueFiled).map Response.status = [403] := by decide +kernel
  refine ⟨Office.same_for_colleague, rfl, missing, foreign, ?_⟩
  intro same
  rw [same, foreign] at missing
  cases missing

end TimeOff
