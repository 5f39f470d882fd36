import TimeOff.Verified.Consistency
import TimeOff.Verified.Isolation
import TimeOff.Verified.KeptResponses
import TimeOff.Verified.TickCompletion

/-! # What the server can fail with

Statements of a handler can break constraints, and the state of a request could change between
two statements.  In a consistent database neither happens: a handler that does not await HCM
throws nothing but the domain errors of its route, and what throws has changed nothing.  What
is left are the loops: over the rows of a webhook, over the keys of a reconcile request, and
over the rows of a tick.  Each can be ended by an exception, behind what it has done so far.
-/

set_option autoImplicit false

namespace TimeOff

open TimeOff.Lib AuditService BalancesRepository BalancesService ReconciliationService TimeOffRepository
  TimeOffService

/-- `error`, the code that a client branches on. -/
def Failure.code (failure : Failure) : String := failure.response.2.error

@[simp] theorem Failure.code_notFound (entity id : String) : (Failure.notFound entity id).code = "NOT_FOUND" := rfl

@[simp] theorem Failure.code_forbidden (message : String) : (Failure.forbidden message).code = "FORBIDDEN" := rfl

@[simp] theorem Failure.code_balanceNotFound (employeeId : Option String) (locationId leaveType : String) :
    (Failure.balanceNotFound employeeId locationId leaveType).code = "BALANCE_NOT_FOUND" := rfl

@[simp] theorem Failure.code_insufficientBalance (available requested : ℚ) :
    (Failure.insufficientBalance available requested).code = "INSUFFICIENT_BALANCE" := rfl

/-- The codes of a decision on a request. -/
def decisionErrors : List String := ["NOT_FOUND", "FORBIDDEN", "INVALID_STATE_TRANSITION"]

def filingErrors : List String := ["VALIDATION_ERROR", "BALANCE_NOT_FOUND", "INSUFFICIENT_BALANCE"]

variable {db after : Db} {failure : Failure}

/-! ## Deciding -/

theorem authorizeManager_error {actor : Actor} {request : RequestRow}
    (threw : authorizeManager actor request db = .error failure) : failure.code = "FORBIDDEN" := by
  simp only [authorizeManager] at threw
  split at threw
  · exact (Tx.pure_error.mp threw).elim
  · rw [Tx.bind_error] at threw
    obtain threw | ⟨_, _, _, threw⟩ := threw
    · obtain ⟨_, rfl⟩ := Tx.require_error.mp threw
      rfl
    · obtain ⟨_, rfl⟩ := Tx.require_error.mp threw
      rfl

/-- A state change fails on an illegal edge, and on nothing else. -/
theorem move_error {m : Move} {before : RequestRow} (found : db.requests.find? m.requestId = some before)
    (free : externalIdFree db.requests m.requestId m.patch.externalRequestId = true)
    (settles : ∀ working : Db, (working.requests.find? m.requestId).isSome = true →
      ∃ settled, m.settle working = .ok ((), settled) ∧ settled.requests = working.requests)
    (threw : move m before db = .error failure) : failure.code = "INVALID_STATE_TRANSITION" := by
  cases legal : canTransition before.state m.toState with
  | true =>
    obtain ⟨turned, final, ran⟩ := move_total found legal free settles
    rw [ran] at threw
    cases threw
  | false =>
    rw [move_illegal legal] at threw
    cases threw
    rfl

/-- The id that an approval writes is new, or the request has it already. -/
theorem Labelled.externalIdFree {requestId newId : String} {before : RequestRow} (labelled : Labelled db)
    (found : db.requests.find? requestId = some before)
    (fresh : ∀ row ∈ db.requests.rows, row.externalRequestId ≠ some newId) :
    externalIdFree db.requests requestId (some (before.externalRequestId.getD newId)) = true := by
  obtain ⟨beforeIn, beforeId⟩ := Table.find?_eq_some.mp found
  simp only [TimeOffRepository.externalIdFree, Option.isNone_some, Bool.false_or, List.all_eq_true,
    decide_eq_true_eq]
  intro other otherIn
  cases kept : before.externalRequestId with
  | none => exact .inr (fresh other otherIn)
  | some externalRequestId =>
    by_cases shared : other.externalRequestId = some externalRequestId
    · exact .inl ((labelled.distinct other otherIn before beforeIn _ shared kept).trans beforeId)
    · exact .inr shared

theorem approve_error {clock : Clock} {newId requestId : String} {actor : Actor} (labelled : Labelled db)
    (fresh : ∀ row ∈ db.requests.rows, row.externalRequestId ≠ some newId)
    (ran : approve clock newId actor requestId db = (.error failure, after)) :
    failure.code ∈ decisionErrors ∧ after = db := by
  obtain ⟨threw, same⟩ := transaction_error.mp ran
  refine ⟨?_, same⟩
  simp only [approveBody, Tx.bind_error, findByIdOrThrow_error, findByIdOrThrow_ok, authorizeManager_ok] at threw
  obtain ⟨_, rfl⟩ | ⟨before, _, ⟨found, rfl⟩, threw | ⟨_, _, ⟨_, unchanged⟩, threw⟩⟩ := threw
  · simp [decisionErrors]
  · simp [decisionErrors, authorizeManager_error threw]
  · cases unchanged
    have illegal := move_error found (labelled.externalIdFree found fresh)
      (fun _ stored => enqueue_total stored _ _ _) threw
    simp [decisionErrors, illegal]

theorem reject_error {clock : Clock} {requestId : String} {actor : Actor} {reason : Option String}
    (ran : reject clock actor requestId reason db = (.error failure, after)) :
    failure.code ∈ decisionErrors ∧ after = db := by
  obtain ⟨threw, same⟩ := transaction_error.mp ran
  refine ⟨?_, same⟩
  simp only [rejectBody, Tx.bind_error, findByIdOrThrow_error, findByIdOrThrow_ok, authorizeManager_ok] at threw
  obtain ⟨_, rfl⟩ | ⟨before, _, ⟨found, rfl⟩, threw | ⟨_, _, ⟨_, unchanged⟩, threw⟩⟩ := threw
  · simp [decisionErrors]
  · simp [decisionErrors, authorizeManager_error threw]
  · cases unchanged
    have illegal := move_error found (externalIdFree_none _ _)
      (fun working _ => ⟨closeReservation requestId .released clock.now working, rfl, rfl⟩) threw
    simp [decisionErrors, illegal]

theorem cancel_error {clock : Clock} {requestId : String} {actor : Actor}
    (ran : cancel clock actor requestId db = (.error failure, after)) :
    failure.code ∈ decisionErrors ∧ after = db := by
  obtain ⟨threw, same⟩ := transaction_error.mp ran
  refine ⟨?_, same⟩
  simp only [cancelBody, Tx.bind_error, findByIdOrThrow_error, findByIdOrThrow_ok, Tx.require_error,
    Tx.require_ok] at threw
  obtain ⟨_, rfl⟩ | ⟨before, _, ⟨found, rfl⟩, ⟨_, rfl⟩ | ⟨_, _, ⟨_, unchanged⟩, threw⟩⟩ := threw
  · simp [decisionErrors]
  · simp [decisionErrors]
  · cases unchanged
    have illegal := move_error found (externalIdFree_none _ _)
      (fun working _ => ⟨closeReservation requestId .released clock.now working, rfl, rfl⟩) threw
    simp [decisionErrors, illegal]

/-! ## Filing -/

theorem parseIsoDate_error {s : String} (threw : parseIsoDate s = .error failure) :
    failure.code = "VALIDATION_ERROR" := by
  simp only [parseIsoDate] at threw
  split at threw
  · cases threw
    rfl
  · split at threw
    · cases threw
      rfl
    · cases threw

theorem countDaysInclusive_error {startDate endDate : String}
    (threw : countDaysInclusive startDate endDate = .error failure) : failure.code = "VALIDATION_ERROR" := by
  simp only [countDaysInclusive] at threw
  cases startParsed : parseIsoDate startDate with
  | error other =>
    rw [startParsed] at threw
    cases threw
    exact parseIsoDate_error startParsed
  | ok s =>
    cases endParsed : parseIsoDate endDate with
    | error other =>
      rw [startParsed, endParsed] at threw
      cases threw
      exact parseIsoDate_error endParsed
    | ok e =>
      simp only [startParsed, endParsed, Bind.bind, Except.bind] at threw
      split at threw
      · cases threw
        rfl
      · cases threw

/-- With an id that is new, a filing breaks no constraint. -/
theorem createRequest_fails {clock : Clock} {ids : NewIds} {actor : Actor} {input : CreateInput}
    (fresh : db.requests.find? ids.requestId = none)
    (ran : createRequest clock ids actor input db = (.error failure, after)) :
    failure.code ∈ filingErrors ∧ after = db := by
  refine ⟨?_, createRequest_error ran⟩
  simp only [createRequest] at ran
  split at ran
  next _ counted =>
    cases ran
    simp [filingErrors, countDaysInclusive_error counted]
  next days counted =>
    obtain ⟨threw, _⟩ := transaction_error.mp ran
    simp only [createRequestBody, Tx.bind_error, Tx.query_error, Tx.query_ok, Tx.orThrow_error,
      Tx.orThrow_ok, Tx.require_error, Tx.require_ok, logInTx, Tx.write_error, Tx.pure_error,
      false_or] at threw
    -- nobody, no balance, too few days, or the writes
    obtain ⟨_, rfl⟩ | ⟨employeeId, _, ⟨_, rfl⟩, _, _, read, ⟨_, rfl⟩ | ⟨bal, _, ⟨_, rfl⟩, _, _, summed,
      ⟨_, rfl⟩ | ⟨_, _, ⟨_, admitted⟩, stored⟩⟩⟩ := threw
    · simp [filingErrors]
    · simp [filingErrors]
    · simp [filingErrors]
    · -- the two rows go in
      cases read
      cases summed
      cases admitted
      obtain ⟨n, some_, rfl⟩ := countDaysInclusive_whole counted
      have positive : (0 : ℚ) < n := Nat.cast_pos.mpr some_
      obtain ⟨requests, taken, inserted⟩ :=
        @insert_total (newRow clock ids actor input employeeId n) db positive rfl fresh
      have found := (Table.find?_insert taken ids.requestId).trans (if_pos rfl)
      obtain threw | ⟨_, _, ran, threw | ⟨_, _, _, threw⟩⟩ := stored
      · cases inserted.symm.trans threw
      · cases inserted.symm.trans ran
        have reserved := @insertReservation_total ids.requestId
          ⟨employeeId, input.locationId, input.leaveType⟩ n clock.now { db with requests := requests } positive
          (by rw [found]; rfl)
        cases reserved.symm.trans threw
      · simp at threw

/-! ## The responses of the server -/

/-- The codes of the guard before every route. -/
def guardErrors : List String := ["UNAUTHORIZED", "FORBIDDEN"]

/-- The codes that the handler of the route answers with. -/
def Route.errors : Route → List String
  | me (.postRequest ..) => filingErrors
  | me (.cancelRequest ..) | approve .. | reject .. => decisionErrors
  | me (.getRequest _) => ["NOT_FOUND"]
  | retry .. => ["VALIDATION_ERROR"]
  -- SQLite refuses a limit that is no integer
  | listOutbox .. => ["INTERNAL_ERROR"]
  | me .getBalances | me .getRequests | listForManager | reconcile .. | drain _ => []

/-- The ids that the handler generates are new. -/
def Route.Fresh (db : Db) : Route → Prop
  | me (.postRequest _ ids _ _) => db.requests.find? ids.requestId = none
  | approve _ newId _ => ∀ row ∈ db.requests.rows, row.externalRequestId ≠ some newId
  | _ => True

/-- An expired idempotency key may be gone; nothing else has changed. -/
structure Untouched (server next : Server) : Prop where
  world : next.world = server.world
  pulls : next.pulls = server.pulls
  idempotencyKeys : ∀ row ∈ next.idempotencyKeys.rows, row ∈ server.idempotencyKeys.rows

/-- Is the handler suspended at an await of HCM before it answers? -/
def Route.awaits : Route → Bool
  | reconcile .. | retry .. | drain _ => true
  | _ => false

/-- The request is answered at once unless its route awaits HCM, and an error that it is answered with
at once is one of the route and has changed nothing. -/
structure FailsCleanly (host : Host) (server : Server) (request : ApiRequest) : Prop where
  atOnce : request.route.awaits = false → (Server.serve host request server).1 ≠ .awaits
  errors : ∀ status body, (Server.serve host request server).1 = .response ⟨status, .error body⟩ →
    body.error ∈ guardErrors ++ request.route.errors ∧
      Untouched server (Server.serve host request server).2

/-- A delivery that is answered with an error was refused and has changed nothing, or it is answered with
an internal error and has done what the rows before one of its rows do alone. -/
def DeliveryFails (host : Host) (server : Server) (delivery : WebhookDelivery) : Prop :=
  ∀ status body, (Server.deliver host delivery server).1 = .response ⟨status, .error body⟩ →
    (∃ refusal, Server.receive host delivery = .error refusal) ∧
      (Server.deliver host delivery server).2 = server ∨
    body.error = "INTERNAL_ERROR" ∧ ∃ batch earlier row later result after,
      Server.receive host delivery = .ok batch ∧ batch.balances = earlier ++ row :: later ∧
      handleBatch delivery.clocks { batch with balances := earlier } server.world.db = (.ok result, after) ∧
      (Server.deliver host delivery server).2 = server.withDb after

/-- An exception that ends a reconcile loop is an internal error, and the key at hand has changed
nothing. -/
def PullsFail (server : Server) : Prop :=
  ∀ (number : Nat) key rest clock reply failure after, server.pulls[number]? = some (key, rest) →
    reconcileKey clock key reply server.world.db = (.error failure, after) →
    failure.code = "INTERNAL_ERROR" ∧ after = server.world.db

/-- An exception that is about to end a tick is the illegal edge that `markHcmFailed` found. -/
def TicksFail (world : World) : Prop :=
  ∀ row rest failure, world.worker = .settling row rest (.done (some failure)) →
    ∃ fromState, failure = .invalidStateTransition fromState .hcmFailed

variable {host : Host} {server : Server}

theorem Untouched.refl (server : Server) : Untouched server server := ⟨rfl, rfl, fun _ member => member⟩

theorem canActivate_error {now : Int} {roles : List String} {authorization : Option String} {refusal : Refusal}
    (refused : JwtAuthGuard.canActivate host.jwtVerify host.jwtSecret now roles authorization = .error refusal) :
    refusal.response.2.error ∈ guardErrors := by
  simp only [JwtAuthGuard.canActivate] at refused
  split at refused
  · cases refused
    simp [guardErrors, Refusal.response]
  next token _ =>
    -- no token, a token that is not valid, or none of the roles
    cases verified : host.jwtVerify now host.jwtSecret token with
    | error message =>
      rw [JwtService.verify, verified] at refused
      cases refused
      simp [guardErrors, Refusal.response]
    | ok claims =>
      rw [JwtService.verify, verified] at refused
      simp only [Except.mapError, bind, Except.bind, requireRoles] at refused
      split at refused
      next other threw =>
        cases refused
        split at threw
        next error denied =>
          cases threw
          split at denied
          · cases denied
          · cases denied
            simp [guardErrors, Refusal.response, Failure.response, Failure.response?]
        next => cases threw
      next => cases refused

/-- A response with an error is that of what was thrown. -/
theorem respondWith_error {α : Type} {success status : Nat} {content : α → Body} {outcome : Except Failure α}
    {body : ErrorBody} (responds : respondWith success content outcome = ⟨status, .error body⟩)
    (plain : ∀ a, content a ≠ .error body) :
    ∃ failure, outcome = .error failure ∧ body.error = failure.code := by
  cases outcome with
  | ok a =>
    simp only [respondWith, Response.mk.injEq] at responds
    exact absurd responds.2 (plain a)
  | error failure =>
    simp only [respondWith, Failure.toResponse, Response.mk.injEq, Body.error.injEq] at responds
    exact ⟨failure, rfl, by rw [← responds.2]; rfl⟩

/-- A filing that fails has changed nothing but an expired key. -/
theorem create_error {clock : CreateClock} {ids : NewIds} {actor : Actor} {input : CreateInput}
    {idemKey : Option String} {store : Store} (fresh : store.db.requests.find? ids.requestId = none)
    (ran : (TimeOffController.create clock ids actor input idemKey store).1 = .error failure) :
    failure.code ∈ filingErrors ∧
      (TimeOffController.create clock ids actor input idemKey store).2.db = store.db ∧
      ∀ row ∈ (TimeOffController.create clock ids actor input idemKey store).2.idempotencyKeys.rows,
        row ∈ store.idempotencyKeys.rows := by
  have outcome := create_outcome clock ids actor input idemKey store
  rw [ran] at outcome
  -- a response from the store is no error, and neither is a filing
  cases outcome with
  | replayed row member own same answer => cases answer
  | failed other threw shrinks answer =>
    cases answer
    obtain ⟨code, same⟩ := createRequest_fails fresh threw
    exact ⟨code, same, shrinks⟩
  | filed created now filed asFiled answer key keptAt own keys => cases answer

theorem getMine_error {actor : Actor} {id : String} {store : Store}
    (threw : TimeOffController.getMine actor id store = .error failure) : failure.code = "NOT_FOUND" := by
  cases found : store.db.requests.find? id with
  | none =>
    rw [TimeOffController.getMine, getById_missing found] at threw
    cases threw
    rfl
  | some row =>
    rw [TimeOffController.getMine, getById_found found] at threw
    simp only [bind, Except.bind] at threw
    split at threw
    · cases threw
      rfl
    · cases threw

theorem limitOf_error {limit : Option String} (threw : AdminController.limitOf limit = .error failure) :
    failure.code = "INTERNAL_ERROR" := by
  simp only [AdminController.limitOf] at threw
  split at threw
  · cases threw
  · split at threw
    · cases threw
    · split at threw
      · cases threw
      · cases threw
        rfl
    · cases threw
      rfl

theorem list_error {ofStatus limit : Option String}
    (threw : AdminController.list ofStatus limit db = .error failure) : failure.code = "INTERNAL_ERROR" := by
  cases read : AdminController.limitOf limit with
  | error other =>
    rw [AdminController.list, read] at threw
    cases threw
    exact limitOf_error read
  | ok number =>
    rw [AdminController.list, read] at threw
    cases threw

theorem retry_error {id : String} (threw : AdminController.retry id db = .error failure) :
    failure.code = "VALIDATION_ERROR" := by
  simp only [AdminController.retry, AdminController.rowId] at threw
  split at threw
  · cases threw
  · cases threw
    rfl

/-- The store with the tables of the server has the world of the server. -/
theorem Untouched.withStore {store : Store} (db : store.db = server.world.db)
    (keys : ∀ row ∈ store.idempotencyKeys.rows, row ∈ server.idempotencyKeys.rows) :
    Untouched server (server.withStore store) := by
  refine ⟨?_, rfl, keys⟩
  show { server.world with db := store.db } = server.world
  rw [db]

theorem MeCall.fails_cleanly {call : MeCall} {actor : Actor} {status : Nat} {body : ErrorBody}
    (fresh : (Route.me call).Fresh server.world.db)
    (responds : (call.handle actor server.store).1 = ⟨status, .error body⟩) :
    body.error ∈ (Route.me call).errors ∧
      Untouched server (server.withStore (call.handle actor server.store).2) := by
  cases call with
  | getBalances => cases responds
  | getRequests => cases responds
  | getRequest id =>
    have answered : respondWith 200 .request (TimeOffController.getMine actor id server.store) =
        ⟨status, .error body⟩ := responds
    obtain ⟨failure, threw, code⟩ := respondWith_error answered fun _ => nofun
    rw [code, getMine_error threw]
    exact ⟨List.mem_cons_self, .withStore rfl fun _ member => member⟩
  | postRequest clock ids input idemKey =>
    have answered : respondWith 201 .created
        (TimeOffController.create clock ids actor input idemKey server.store).1 = ⟨status, .error body⟩ := responds
    obtain ⟨failure, threw, code⟩ := respondWith_error answered fun _ => nofun
    have isNew : server.store.db.requests.find? ids.requestId = none := fresh
    obtain ⟨ofRoute, db, keys⟩ := create_error isNew threw
    exact ⟨code ▸ ofRoute, .withStore db keys⟩
  | cancelRequest clock id =>
    have answered : respondWith 201 .request (TimeOffController.cancel clock actor id server.store).1 =
        ⟨status, .error body⟩ := responds
    obtain ⟨failure, threw, code⟩ := respondWith_error answered fun _ => nofun
    obtain ⟨ofRoute, same⟩ := cancel_error (Prod.ext_iff.mpr ⟨threw, rfl⟩)
    exact ⟨code ▸ ofRoute, .withStore same fun _ member => member⟩

theorem handle_fails_cleanly {actor : Actor} {route : Route} {status : Nat} {body : ErrorBody}
    (labelled : Labelled server.world.db) (fresh : route.Fresh server.world.db)
    (responds : (server.handle host actor route).1 = .response ⟨status, .error body⟩) :
    body.error ∈ route.errors ∧ Untouched server (server.handle host actor route).2 := by
  cases route with
  | me call => exact MeCall.fails_cleanly fresh (ServerResponse.response.inj responds)
  | listForManager => cases responds
  | approve clock newId id =>
    have answered : respondWith 201 .request (TimeOffController.approve clock newId actor id server.store).1 =
        ⟨status, .error body⟩ := ServerResponse.response.inj responds
    obtain ⟨failure, threw, code⟩ := respondWith_error answered fun _ => nofun
    obtain ⟨ofRoute, same⟩ := approve_error labelled fresh (Prod.ext_iff.mpr ⟨threw, rfl⟩)
    exact ⟨code ▸ ofRoute, .withStore same fun _ member => member⟩
  | reject clock id reason =>
    have answered : respondWith 201 .request (TimeOffController.reject clock actor id reason server.store).1 =
        ⟨status, .error body⟩ := ServerResponse.response.inj responds
    obtain ⟨failure, threw, code⟩ := respondWith_error answered fun _ => nofun
    obtain ⟨ofRoute, same⟩ := reject_error (Prod.ext_iff.mpr ⟨threw, rfl⟩)
    exact ⟨code ▸ ofRoute, .withStore same fun _ member => member⟩
  | reconcile now requested => cases responds
  | drain now => cases responds
  | listOutbox ofStatus limit =>
    simp only [Server.handle] at responds ⊢
    split at responds
    · cases responds
    next failure refused =>
      refine ⟨?_, .refl server⟩
      cases responds
      show failure.code ∈ _
      rw [list_error refused]
      exact List.mem_cons_self
  | retry now id =>
    simp only [Server.handle] at responds ⊢
    split at responds
    · cases responds
    next failure refused =>
      refine ⟨?_, .refl server⟩
      cases responds
      show failure.code ∈ _
      rw [retry_error refused]
      exact List.mem_cons_self

theorem serve_atOnce {request : ApiRequest} (atOnce : request.route.awaits = false) :
    (Server.serve host request server).1 ≠ .awaits := by
  simp only [Server.serve]
  split
  · simp
  · generalize request.route = route at atOnce
    cases route with
    | reconcile now body => cases atOnce
    | retry now id => cases atOnce
    | drain now => cases atOnce
    | listOutbox status limit =>
      simp only [Server.handle]
      split
      · simp
      · simp
    | me call => simp [Server.handle]
    | listForManager => simp [Server.handle]
    | approve clock newId id => simp [Server.handle]
    | reject clock id reason => simp [Server.handle]

theorem serve_fails_cleanly {request : ApiRequest} (labelled : Labelled server.world.db)
    (fresh : request.route.Fresh server.world.db) : FailsCleanly host server request := by
  refine ⟨serve_atOnce, ?_⟩
  intro status body responds
  simp only [Server.serve] at responds ⊢
  cases admitted : Server.actorOf host request with
  | error refusal =>
    rw [admitted] at responds
    cases responds
    exact ⟨List.mem_append_left _ (canActivate_error admitted), .refl server⟩
  | ok actor =>
    rw [admitted] at responds
    obtain ⟨code, untouched⟩ := handle_fails_cleanly labelled fresh responds
    exact ⟨List.mem_append_right _ code, untouched⟩

/-! ## Snapshots that are refused -/

/-- A snapshot is refused by a constraint of the column that it would go into. -/
theorem upsertBalance_error {key : Key} {balance : Option ℚ} {asOf : Stamp} {now : Int}
    (threw : upsertBalance key balance asOf now db = .error failure) : failure.code = "INTERNAL_ERROR" := by
  have refused {db : Db} (threw : balanceColumns balance asOf db = .error failure) :
      failure.code = "INTERNAL_ERROR" := by
    simp only [balanceColumns, Tx.bind_error, Tx.orThrow_error, Tx.require_error, Tx.pure_error] at threw
    obtain ⟨_, rfl⟩ | ⟨_, _, _, ⟨_, rfl⟩ | ⟨_, _, _, ⟨_, rfl⟩ | ⟨_, _, _, impossible⟩⟩⟩ := threw
    · rfl
    · rfl
    · rfl
    · exact impossible.elim
  simp only [upsertBalance, Tx.bind_error, Tx.query_error, false_or] at threw
  obtain ⟨existing, middle, _, threw⟩ := threw
  cases existing with
  | none =>
    simp only [Tx.bind_error, Tx.write_error, Tx.pure_error, and_false, exists_false, or_false] at threw
    exact refused threw
  | some row =>
    dsimp only at threw
    split at threw
    · exact (Tx.pure_error.mp threw).elim
    · simp only [Tx.bind_error, Tx.write_error, Tx.pure_error, and_false, exists_false, or_false] at threw
      exact refused threw

theorem applyAndEscalate_error {clock : RowClock} {snapshot : HcmSnapshot}
    (threw : applyAndEscalate clock snapshot db = (.error failure, after)) :
    failure.code = "INTERNAL_ERROR" ∧ after = db := by
  cases applied : applyHcmBalanceSnapshot clock.snapshot snapshot db with
  | mk outcome middle =>
    cases outcome with
    | ok result =>
      obtain ⟨final, ran⟩ := @applyAndEscalate_of_applied clock _ _ _ _ applied
      cases ran.symm.trans threw
    | error other =>
      rw [applyAndEscalate, applied] at threw
      cases threw
      obtain ⟨refused, same⟩ := transaction_error.mp applied
      simp only [applyHcmBalanceSnapshotBody, Tx.bind_error, Tx.query_error, logInTx, Tx.write_error,
        Tx.pure_error, false_or, and_false, exists_false, or_false] at refused
      -- only the upsert can throw
      obtain ⟨_, _, _, refused⟩ := refused
      exact ⟨upsertBalance_error refused, same⟩

/-- A batch that throws has done what the rows before the one that threw do. -/
theorem applyRows_threw {asOf : Option Stamp} {clocks : Nat → RowClock} {rows : List BatchRow}
    (threw : (applyRows asOf clocks rows db).failure = some failure) :
    failure.code = "INTERNAL_ERROR" ∧ ∃ earlier row later, rows = earlier ++ row :: later ∧
      (applyRows asOf clocks earlier db).failure = none ∧
      (applyRows asOf clocks rows db).db = (applyRows asOf clocks earlier db).db := by
  induction rows generalizing clocks db with
  | nil => cases threw
  | cons row rest inductionHypothesis =>
    cases ran : applyAndEscalate (clocks 0) (rowSnapshot asOf (clocks 0) row) db with
    | mk outcome middle =>
      cases outcome with
      | error other =>
        simp only [applyRows, ran, Option.some.injEq] at threw ⊢
        subst threw
        obtain ⟨code, same⟩ := applyAndEscalate_error ran
        exact ⟨code, [], row, rest, rfl, rfl, same⟩
      | ok result =>
        simp only [applyRows, ran] at threw ⊢
        obtain ⟨code, earlier, threwRow, later, split, complete, same⟩ := inductionHypothesis threw
        refine ⟨code, row :: earlier, threwRow, later, by rw [split, List.cons_append], ?_, ?_⟩
        · simpa only [applyRows, ran] using complete
        · simpa only [applyRows, ran] using same

theorem deliver_fails (delivery : WebhookDelivery) : DeliveryFails host server delivery := by
  intro status body answered
  simp only [Server.deliver] at answered ⊢
  cases received : Server.receive host delivery with
  | error refusal => exact .inl ⟨⟨refusal, rfl⟩, rfl⟩
  | ok batch =>
    right
    rw [received] at answered
    cases threw : (applyRows batch.asOf delivery.clocks batch.balances server.world.db).failure with
    | none =>
      simp only [handleBatch, threw] at answered
      cases answered
    | some failure =>
      obtain ⟨code, earlier, row, later, rows, complete, same⟩ := applyRows_threw threw
      have ended : handleBatch delivery.clocks batch server.world.db =
          (.error failure, (applyRows batch.asOf delivery.clocks batch.balances server.world.db).db) := by
        simp only [handleBatch, threw]
      obtain ⟨result, alone⟩ : ∃ result,
          handleBatch delivery.clocks { batch with balances := earlier } server.world.db =
            (.ok result, (applyRows batch.asOf delivery.clocks earlier server.world.db).db) := by
        simp only [handleBatch, complete]
        exact ⟨_, rfl⟩
      simp only [ended] at answered ⊢
      cases answered
      exact ⟨code, batch, earlier, row, later, result, _, rfl, rows, alone, by rw [same]⟩

theorem pulls_fail (server : Server) : PullsFail server := by
  intro number key rest clock reply failure after _ threw
  simp only [reconcileKey] at threw
  split at threw
  next => cases threw
  next =>
    cases threw
    exact ⟨rfl, rfl⟩
  next =>
    split at threw
    next other db ran =>
      cases threw
      exact applyAndEscalate_error ran
    next => cases threw

/-! ## The tick -/

/-- What escapes is an illegal edge, since the request of a claimed row is stored. -/
theorem Refused.illegal_of_stored {id : String} {toState : State} (refused : Refused id toState db failure)
    (stored : ∃ request ∈ db.requests.rows, request.id = id) :
    ∃ fromState, failure = .invalidStateTransition fromState toState := by
  cases refused with
  | missing absent =>
    obtain ⟨request, member, own⟩ := stored
    cases absent.symm.trans (Table.find?_eq_some.mpr ⟨member, own⟩)
  | illegal before found => exact ⟨before.state, rfl⟩

section Ticks

variable {config : OutboxConfig} {world next : World} {event : Event}

theorem TicksFail.step (ticksFail : TicksFail world) (consistent : Consistent world.db)
    (heldStored : HeldStored world) (stepped : Stepped config world event next) : TicksFail next := by
  intro row rest failure settling
  cases stepped with
  | call call yields offered =>
    dsimp only at settling
    rw [settling] at yields
    cases yields
  | draining | repeated | debits => exact ticksFail row rest failure settling
  | claimed now idle => exact absurd settling proceed_not_settling
  | reviews clock reply held rest balance settlement final at_await insufficient reaction =>
    cases settling
    cases reaction.escapes.1
  | accepted clock reply body held rest settlement final at_await answer reaction =>
    cases settling
    cases reaction.escapes.1
  | refused clock reply failure held rest settlement final at_await answer permanent reaction =>
    cases settling
    obtain ⟨_, _, _, refused⟩ := reaction.escapes
    obtain ⟨stored, storedIn, copy⟩ := heldStored row (by simp [at_await, WorkerState.held])
    obtain ⟨request, requestIn, own⟩ := consistent.meetsSchema.outboxRequests stored storedIn
    exact refused.illegal_of_stored ⟨request, requestIn, own.trans copy.requestId⟩
  | done => exact absurd settling afterSettle_not_settling
  | retries => exact absurd settling proceed_not_settling
  | sends | lost | crash | crashInBatch => cases settling

/-- What the failures of a tick rest on. -/
structure Failing (world : World) : Prop where
  consistent : Consistent world.db
  heldStored : HeldStored world
  ticksFail : TicksFail world

theorem failing_throughout (config : OutboxConfig) (events : List Event) :
    Always (World.step config) Failing World.empty events := by
  apply always_of_invariant
  · intro world event next failing stepped
    obtain ⟨calls, reached⟩ := (step_calledTo stepped).reached
    refine ⟨?_, failing.heldStored.step (step_stepped stepped),
      failing.ticksFail.step failing.consistent failing.heldStored (step_stepped stepped)⟩
    rw [reached]
    exact execAll_invariant (fun call _ holds => holds.exec call) calls failing.consistent
  · refine ⟨.empty, .empty, ?_⟩
    intro row rest failure settling
    cases settling

end Ticks

/-- At every moment of every run of the server, what fails is known with what it has changed by then.
A request whose generated ids are new is answered at once unless its route awaits HCM, and what it is
refused with at once is a domain error of its route or of the guard, or the internal error of the outbox
listing, and has changed nothing; no decision ever finds its request changed by another.  A webhook is
refused and has changed nothing, or answers an internal error behind the rows before one that threw.
A reconcile loop is ended by an internal error alone, and a tick by an illegal edge alone. -/
theorem requests_fail_cleanly (host : Host) (events : List Server.Event) :
    Always (Server.step host) (fun server =>
      (∀ request : ApiRequest, request.route.Fresh server.world.db → FailsCleanly host server request) ∧
      (∀ delivery, DeliveryFails host server delivery) ∧ PullsFail server ∧ TicksFail server.world)
      Server.empty events := by
  apply (server_always host (failing_throughout host.outbox) events).mono
  intro server failing
  exact ⟨fun _ fresh => serve_fails_cleanly failing.consistent.labelled fresh, deliver_fails, pulls_fail server,
    failing.ticksFail⟩

end TimeOff
