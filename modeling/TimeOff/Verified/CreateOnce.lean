import TimeOff.Lib.Runs
import TimeOff.System.Attempts
import TimeOff.System.World
import TimeOff.Verified.Outcomes
import TimeOff.Verified.Changes

/-! # Creating once under an Idempotency-Key

A stored response is replayed to every later attempt within 24 hours.  What the
store does not cover is the attempt that commits its request and is cut off
before the response is stored: the next attempt finds no entry and files again,
if the balance still admits it.
-/

set_option autoImplicit false

namespace TimeOff

open TimeOff.Lib AuditService BalancesRepository BalancesService TimeOffRepository TimeOffService

/-! ## The handler, statement by statement -/

section Handler

variable {clock : CreateClock} {ids : NewIds} {actor : Actor} {input : CreateInput}
  {idemKey : Option String} {store : Store}

/-- Without a fault the attempt is the handler. -/
theorem createUnder_none : TimeOffController.createUnder none clock ids actor input idemKey store =
    (some (TimeOffController.create clock ids actor input idemKey store).1,
      (TimeOffController.create clock ids actor input idemKey store).2) := by
  simp only [TimeOffController.createUnder, TimeOffController.create, Option.any_none,
    Bool.false_eq_true, if_false, reduceCtorEq]
  generalize IdempotencyService.lookup clock.lookup idemKey TimeOffController.createEndpoint actor.sub
    store.idempotencyKeys = looked
  obtain ⟨found, table⟩ := looked
  cases found with
  | some cached => rfl
  | none =>
    generalize TimeOffService.createRequest clock.request ids actor input store.db = ran
    obtain ⟨outcome, db⟩ := ran
    cases outcome with
    | error failure => rfl
    | ok created =>
      dsimp only
      generalize IdempotencyService.store clock.store idemKey TimeOffController.createEndpoint actor.sub
        201 created table = stored
      obtain ⟨result, _⟩ := stored
      cases result with
      | error failure => rfl
      | ok _ => rfl

end Handler

/-- The request can be filed: its dates are valid, the balance covers its days, its id is new. -/
def Admissible (ids : NewIds) (actor : Actor) (input : CreateInput) (db : Db) : Prop :=
  ∃ days employeeId bal, countDaysInclusive input.startDate input.endDate = .ok days ∧
    actor.sub = some employeeId ∧
    getEffectiveBalance ⟨employeeId, input.locationId, input.leaveType⟩ db = .ok bal ∧
    days ≤ bal.effectiveBalance ∧ db.requests.find? ids.requestId = none

theorem createRequest_commits_iff (clock : Clock) (ids : NewIds) (actor : Actor) (input : CreateInput)
    (db : Db) : (∃ created after, createRequest clock ids actor input db = (.ok created, after)) ↔
      Admissible ids actor input db := by
  constructor
  · rintro ⟨created, after, ran⟩
    obtain ⟨days, employeeId, bal, requests, counted, subject, row, found, covered, -, taken, -⟩ :=
      createRequest_inv ran
    obtain ⟨fresh, -⟩ := Table.insertUnique_eq_some.mp taken
    rw [row] at found covered fresh
    let key : Key := ⟨employeeId, input.locationId, input.leaveType⟩
    refine ⟨days, employeeId, ⟨bal, sumOpenReservations key db, _⟩, counted, subject, ?_, covered, fresh⟩
    have shown : findBalance key db = some bal := found
    simp only [getEffectiveBalance, key, shown]
    rfl
  · rintro ⟨days, employeeId, bal, counted, subject, balance, covered, fresh⟩
    cases found : findBalance ⟨employeeId, input.locationId, input.leaveType⟩ db with
    | none =>
      simp only [getEffectiveBalance, found] at balance
      cases balance
    | some row =>
      simp only [getEffectiveBalance, found] at balance
      cases balance
      obtain ⟨n, whole, rfl⟩ := countDaysInclusive_whole counted
      have positive : (0 : ℚ) < n := by exact_mod_cast whole
      obtain ⟨requests, taken, inserted⟩ :=
        @insert_total (newRow clock ids actor input employeeId n) db positive rfl fresh
      have stored : (requests.find? ids.requestId).isSome = true := by
        have there := (Table.find?_insert taken ids.requestId).trans (if_pos rfl)
        rw [there]
        rfl
      have reserved := @insertReservation_total ids.requestId
        ⟨employeeId, input.locationId, input.leaveType⟩ n clock.now { db with requests := requests }
        positive stored
      simp only [createRequest, counted, transaction_ok, createRequestBody, Tx.bind_ok, Tx.query_ok,
        Tx.require_ok, Tx.orThrow_ok, logInTx, Tx.write_ok, Tx.pure_ok]
      exact ⟨_, _, employeeId, db, ⟨subject, rfl⟩, _, db, rfl, row, db, ⟨found, rfl⟩, _, db, rfl, (), db,
        ⟨covered, rfl⟩, (), _, inserted, (), _, reserved, (), _, rfl, rfl⟩

/-! ## One attempt -/

/-- The scope under which the attempts of the actor with the key share an entry. -/
def attemptScope (key actorId : String) : Scope := ⟨key, TimeOffController.createEndpoint, actorId⟩

section Lookup

variable {key actorId : String} {table : Table (IdempotencyRow CreatedRequest)}

theorem given_nonempty (nonempty : key ≠ "") : IdempotencyService.given (some key) = some key := by
  simp [IdempotencyService.given, Option.filter, nonempty]

theorem lookup_missing (nonempty : key ≠ "") (now : Int)
    (missing : table.find? (attemptScope key actorId) = none) :
    IdempotencyService.lookup now (some key) TimeOffController.createEndpoint (some actorId) table =
      (none, table) := by
  have absent : table.find? ⟨key, TimeOffController.createEndpoint, actorId⟩ = none := missing
  simp only [IdempotencyService.lookup, given_nonempty nonempty, absent]

theorem lookup_live (nonempty : key ≠ "") {now : Int} {row : IdempotencyRow CreatedRequest}
    (found : table.find? (attemptScope key actorId) = some row) (live : now ≤ row.expiresAt) :
    IdempotencyService.lookup now (some key) TimeOffController.createEndpoint (some actorId) table =
      (some ⟨row.statusCode, row.response⟩, table) := by
  have present : table.find? ⟨key, TimeOffController.createEndpoint, actorId⟩ = some row := found
  simp only [IdempotencyService.lookup, given_nonempty nonempty, present, not_lt.mpr live, if_false]

theorem scope_of_given {idemKey : Option String} {otherKey otherActor endpoint : String}
    (isGiven : IdempotencyService.given idemKey = some otherKey)
    (same : Scope.mk otherKey endpoint otherActor = attemptScope key actorId) :
    idemKey = some key ∧ some otherActor = some actorId := by
  cases same
  exact ⟨(Option.filter_eq_some_iff.mp isGiven).1, rfl⟩

/-- Another key or another actor finds, deletes and stores entries of its own. -/
theorem lookup_other (table : Table (IdempotencyRow CreatedRequest)) {idemKey subject : Option String}
    (other : ¬ (idemKey = some key ∧ subject = some actorId))
    (now : Int) (endpoint : String) :
    (IdempotencyService.lookup now idemKey endpoint subject table).2.find? (attemptScope key actorId) =
      table.find? (attemptScope key actorId) := by
  simp only [IdempotencyService.lookup]
  cases isGiven : IdempotencyService.given idemKey with
  | none => rfl
  | some otherKey =>
    cases subject with
    | none => rfl
    | some otherActor =>
      dsimp only
      split
      · rfl
      · split
        · rw [Table.find?_delete, if_neg]
          exact fun same => other (scope_of_given isGiven same)
        · rfl

theorem store_other (table : Table (IdempotencyRow CreatedRequest)) {idemKey subject : Option String}
    (other : ¬ (idemKey = some key ∧ subject = some actorId))
    (now : Int) (endpoint : String) (statusCode : Nat) (response : CreatedRequest) :
    (IdempotencyService.store now idemKey endpoint subject statusCode response table).2.find?
      (attemptScope key actorId) = table.find? (attemptScope key actorId) := by
  simp only [IdempotencyService.store]
  cases isGiven : IdempotencyService.given idemKey with
  | none => rfl
  | some otherKey =>
    cases subject with
    | none => rfl
    | some otherActor =>
      dsimp only
      rw [Table.find?_insertOrReplace, if_neg]
      exact fun same => other (scope_of_given isGiven same)

end Lookup

section Attempt

variable {fault : Option Fault} {clock : CreateClock} {ids : NewIds} {actor : Actor} {input : CreateInput}
  {idemKey : Option String} {key actorId : String} {store : Store}

/-- Does the attempt get as far as `createRequest`, once its lookup has found nothing? -/
def reachesRequest (fault : Option Fault) : Prop := fault ≠ some .diesBeforeRequest

/-- What an attempt does that finds no entry. -/
inductive Missed (fault : Option Fault) (clock : CreateClock) (ids : NewIds) (actor : Actor)
    (input : CreateInput) (scope : Scope) (store : Store) :
    Option (Except Failure CreatedRequest) × Store → Prop
  | idle (reply : Option (Except Failure CreatedRequest)) (unanswered : ∀ body, reply ≠ some (.ok body))
      (stays : reachesRequest fault → ¬ Admissible ids actor input store.db) :
      Missed fault clock ids actor input scope store (reply, store)
  | unrecorded (reply : Option (Except Failure CreatedRequest)) (created : CreatedRequest) (db : Db)
      (unanswered : ∀ body, reply ≠ some (.ok body)) (loses : fault.any Fault.losesResponse = true)
      (reaches : reachesRequest fault) (admissible : Admissible ids actor input store.db)
      (filed : Filed created.row clock.request.now store.db db) :
      Missed fault clock ids actor input scope store (reply, ⟨db, store.idempotencyKeys⟩)
  | recorded (reply : Option (Except Failure CreatedRequest)) (created : CreatedRequest) (db : Db)
      (answered : reply = none ∨ reply = some (.ok created)) (keeps : fault.any Fault.losesResponse = false)
      (reaches : reachesRequest fault) (admissible : Admissible ids actor input store.db)
      (filed : Filed created.row clock.request.now store.db db) :
      Missed fault clock ids actor input scope store (reply, ⟨db, store.idempotencyKeys.insertOrReplace
        ⟨scope, 201, created, clock.store, clock.store + IdempotencyService.ttlMs⟩⟩)

theorem createUnder_missed (nonempty : key ≠ "") (isKey : idemKey = some key)
    (isActor : actor.sub = some actorId)
    (missing : store.idempotencyKeys.find? (attemptScope key actorId) = none) :
    Missed fault clock ids actor input (attemptScope key actorId) store
      (TimeOffController.createUnder fault clock ids actor input idemKey store) := by
  subst isKey
  have looked := lookup_missing nonempty clock.lookup missing
  have stores := fun created : CreatedRequest => show
      IdempotencyService.store clock.store (some key) TimeOffController.createEndpoint (some actorId) 201
        created store.idempotencyKeys = (.ok (), store.idempotencyKeys.insertOrReplace
          ⟨attemptScope key actorId, 201, created, clock.store, clock.store + IdempotencyService.ttlMs⟩) by
    simp only [IdempotencyService.store, given_nonempty nonempty]
    rfl
  have committed := createRequest_commits_iff clock.request ids actor input store.db
  simp only [TimeOffController.createUnder, isActor, looked]
  by_cases reaches : fault = some .diesBeforeRequest
  · rw [if_pos reaches]
    exact .idle none (fun _ => nofun) fun goesOn => absurd reaches goesOn
  · rw [if_neg reaches]
    cases ran : TimeOffService.createRequest clock.request ids actor input store.db with
    | mk outcome db =>
      cases outcome with
      | error failure =>
        obtain rfl := createRequest_error ran
        have refused : ¬ Admissible ids actor input store.db := by
          intro admissible
          obtain ⟨created, after, commits⟩ := committed.mpr admissible
          cases ran.symm.trans commits
        refine .idle _ ?_ fun _ => refused
        intro body
        split
        · exact nofun
        · exact nofun
      | ok created =>
        have admissible : Admissible ids actor input store.db := committed.mp ⟨created, db, ran⟩
        have filed := createRequest_ok ran
        simp only [given_nonempty nonempty]
        split
        · exact .unrecorded none created db (fun _ => nofun) rfl reaches admissible filed
        · exact .unrecorded _ created db (fun _ => nofun) rfl reaches admissible filed
        next fault _ _ dies fails =>
          have keeps : fault.any Fault.losesResponse = false := by
            cases fault with
            | none => rfl
            | some fault =>
              cases fault with
              | diesBeforeStore => exact absurd rfl dies
              | storeFails message => exact absurd rfl (fails message key rfl)
              | diesBeforeRequest => rfl
              | diesBeforeReply => rfl
          simp only [stores created]
          refine .recorded _ created db ?_ keeps reaches admissible filed
          split
          · exact .inl rfl
          · exact .inr rfl

/-- An attempt that finds a live entry replays it. -/
theorem createUnder_live (nonempty : key ≠ "") (isKey : idemKey = some key)
    (isActor : actor.sub = some actorId) {row : IdempotencyRow CreatedRequest}
    (found : store.idempotencyKeys.find? (attemptScope key actorId) = some row)
    (live : clock.lookup ≤ row.expiresAt) :
    TimeOffController.createUnder fault clock ids actor input idemKey store =
      (if fault.any Fault.silences then none else some (.ok row.response), store) := by
  subst isKey
  simp only [TimeOffController.createUnder, isActor, lookup_live nonempty found live]

/-- A POST that is no attempt leaves the entry of the attempts alone. -/
theorem createUnder_other (other : ¬ (idemKey = some key ∧ actor.sub = some actorId)) :
    (TimeOffController.createUnder fault clock ids actor input idemKey store).2.idempotencyKeys.find?
      (attemptScope key actorId) = store.idempotencyKeys.find? (attemptScope key actorId) := by
  have looked := lookup_other store.idempotencyKeys other clock.lookup
    TimeOffController.createEndpoint
  simp only [TimeOffController.createUnder]
  generalize IdempotencyService.lookup clock.lookup idemKey TimeOffController.createEndpoint actor.sub
    store.idempotencyKeys = found at looked ⊢
  obtain ⟨cached, table⟩ := found
  cases cached with
  | some cached => exact looked
  | none =>
    have stored := store_other table other clock.store TimeOffController.createEndpoint 201
    dsimp only
    split
    · exact looked
    · split
      · exact looked
      · split
        · exact looked
        · exact looked
        · split
          next ran =>
            rw [← looked, ← stored, ran]
          next ran =>
            rw [← looked, ← stored, ran]

end Attempt

/-! ## The attempts of a run -/

/-- What is remembered of the attempts: how many rows they have inserted, the bodies of their 201s,
whether one committed a request without its response being stored, and when the first response was. -/
structure Attempts where
  requests : Nat
  reservations : Nat
  bodies : List CreatedRequest
  unrecorded : Bool
  recordedAt : Option Int

/-- No attempt so far. -/
def Attempts.none : Attempts := ⟨0, 0, [], false, Option.none⟩

/-- The body of a 201. -/
def createdBody : Option (Except Failure CreatedRequest) → Option CreatedRequest
  | some (.ok created) => some created
  | _ => none

section Run

variable (key actorId : String)

def recordAttempts (attempts : Attempts) (before : Store) (event : StoreEvent) (after : Store) : Attempts :=
  match event with
  | .post fault clock _ actor _ idemKey =>
    if idemKey = some key ∧ actor.sub = some actorId then
      let filed := after.db.requests.rows.length - before.db.requests.rows.length
      let reserved := after.db.reservations.rows.length - before.db.reservations.rows.length
      let loses := fault.any Fault.losesResponse
      { requests := attempts.requests + filed
        reservations := attempts.reservations + reserved
        bodies := attempts.bodies ++ (createdBody (event.respond before).1).toList
        unrecorded := attempts.unrecorded || (0 < filed && loses)
        recordedAt := attempts.recordedAt.or (if 0 < filed && !loses then some clock.store else none) }
    else attempts
  | .call _ => attempts

/-- At most one request and one reservation, and one and the same body. -/
structure CreatedOnce (attempts : Attempts) : Prop where
  requests : attempts.requests ≤ 1
  reservations : attempts.reservations ≤ 1
  sameBody : ∀ body ∈ attempts.bodies, attempts.bodies.head? = some body

instance (attempts : Attempts) : Decidable (CreatedOnce attempts) :=
  decidable_of_iff (attempts.requests ≤ 1 ∧ attempts.reservations ≤ 1 ∧
      ∀ body ∈ attempts.bodies, attempts.bodies.head? = some body)
    ⟨fun ⟨requests, reservations, sameBody⟩ => ⟨requests, reservations, sameBody⟩,
      fun once => ⟨once.requests, once.reservations, once.sameBody⟩⟩

/-- The attempt is made within 24 hours of the first success. -/
def InWindow (state : Store × Attempts) : StoreEvent → Prop
  | .post _ clock _ actor _ idemKey => idemKey = some key ∧ actor.sub = some actorId →
      ∀ recordedAt ∈ state.2.recordedAt, clock.lookup ≤ recordedAt + IdempotencyService.ttlMs
  | .call _ => True

instance (state : Store × Attempts) : (event : StoreEvent) → Decidable (InWindow key actorId state event)
  | .post .. => inferInstanceAs (Decidable (_ → ∀ recordedAt ∈ state.2.recordedAt, _))
  | .call _ => isTrue trivial

/-- Once an attempt has committed a request whose response was not stored, no attempt that gets as far
as `createRequest` can file. -/
def NotFiledAgain (state : Store × Attempts) : StoreEvent → Prop
  | .post fault _ ids actor input idemKey => idemKey = some key ∧ actor.sub = some actorId →
      state.2.unrecorded = true → reachesRequest fault → ¬ Admissible ids actor input state.1.db
  | .call _ => True

/-- A run of the store, with what is remembered of the attempts. -/
def attemptStep : Store × Attempts → StoreEvent → Option (Store × Attempts) :=
  restrict (withHistory storeStep (recordAttempts key actorId)) (InWindow key actorId)

/-- How the entry stands while at most one request was filed. -/
inductive Standing (store : Store) : Attempts → Prop
  | unused (missing : store.idempotencyKeys.find? (attemptScope key actorId) = none) :
      Standing store ⟨0, 0, [], false, none⟩
  | lost (missing : store.idempotencyKeys.find? (attemptScope key actorId) = none) :
      Standing store ⟨1, 1, [], true, none⟩
  | recorded (row : IdempotencyRow CreatedRequest) (recordedAt : Int) (bodies : List CreatedRequest)
      (found : store.idempotencyKeys.find? (attemptScope key actorId) = some row)
      (expires : row.expiresAt = recordedAt + IdempotencyService.ttlMs)
      (replayed : ∀ body ∈ bodies, body = row.response) :
      Standing store ⟨1, 1, bodies, false, some recordedAt⟩

variable {key actorId}

theorem Standing.createdOnce {store : Store} {attempts : Attempts}
    (standing : Standing key actorId store attempts) : CreatedOnce attempts := by
  cases standing with
  | unused missing => exact ⟨by simp, by simp, by simp⟩
  | lost missing => exact ⟨by simp, by simp, by simp⟩
  | recorded row recordedAt bodies found expires replayed =>
    refine ⟨le_rfl, le_rfl, ?_⟩
    intro body member
    cases bodies with
    | nil => cases member
    | cons first rest =>
      rw [List.head?_cons, replayed first List.mem_cons_self, replayed body member]

/-- The entry alone matters. -/
theorem Standing.congr {store other : Store} {attempts : Attempts}
    (standing : Standing key actorId store attempts)
    (same : other.idempotencyKeys.find? (attemptScope key actorId) =
      store.idempotencyKeys.find? (attemptScope key actorId)) : Standing key actorId other attempts := by
  cases standing with
  | unused missing => exact .unused (same.trans missing)
  | lost missing => exact .lost (same.trans missing)
  | recorded row recordedAt bodies found expires replayed =>
    exact .recorded row recordedAt bodies (same.trans found) expires replayed

section Step

variable {fault : Option Fault} {clock : CreateClock} {ids : NewIds} {actor : Actor} {input : CreateInput}
  {idemKey : Option String} {before after : Store} {attempts : Attempts}

theorem recordAttempts_attempt (isAttempt : idemKey = some key ∧ actor.sub = some actorId)
    {reply : Option (Except Failure CreatedRequest)} (responds :
      TimeOffController.createUnder fault clock ids actor input idemKey before = (reply, after)) :
    recordAttempts key actorId attempts before (.post fault clock ids actor input idemKey) after =
      { requests := attempts.requests + (after.db.requests.rows.length - before.db.requests.rows.length)
        reservations := attempts.reservations +
          (after.db.reservations.rows.length - before.db.reservations.rows.length)
        bodies := attempts.bodies ++ (createdBody reply).toList
        unrecorded := attempts.unrecorded ||
          (0 < after.db.requests.rows.length - before.db.requests.rows.length &&
            fault.any Fault.losesResponse)
        recordedAt := attempts.recordedAt.or
          (if 0 < after.db.requests.rows.length - before.db.requests.rows.length &&
            !fault.any Fault.losesResponse then some clock.store else none) } := by
  simp only [recordAttempts, if_pos isAttempt, StoreEvent.respond, responds]

theorem Filed.adds_one {row : RequestRow} {now : Int} {db after : Db} (filed : Filed row now db after) :
    after.requests.rows.length - db.requests.rows.length = 1 ∧
      after.reservations.rows.length - db.reservations.rows.length = 1 := by
  rw [filed.requests, filed.reservations]
  simp

/-- An attempt that changes nothing and returns no 201 leaves nothing to remember. -/
theorem recordAttempts_idle (isAttempt : idemKey = some key ∧ actor.sub = some actorId)
    {reply : Option (Except Failure CreatedRequest)}
    (responds : TimeOffController.createUnder fault clock ids actor input idemKey before = (reply, before)) :
    recordAttempts key actorId attempts before (.post fault clock ids actor input idemKey) before =
      { attempts with bodies := attempts.bodies ++ (createdBody reply).toList } := by
  rw [recordAttempts_attempt isAttempt responds]
  simp

theorem createdBody_unanswered {reply : Option (Except Failure CreatedRequest)}
    (unanswered : ∀ body, reply ≠ some (.ok body)) : createdBody reply = none := by
  cases reply with
  | none => rfl
  | some outcome =>
    cases outcome with
    | error failure => rfl
    | ok body => exact absurd rfl (unanswered body)

/-- An attempt that files counts one request and one reservation. -/
theorem recordAttempts_filed (isAttempt : idemKey = some key ∧ actor.sub = some actorId)
    {reply : Option (Except Failure CreatedRequest)} {row : RequestRow} {now : Int}
    (responds : TimeOffController.createUnder fault clock ids actor input idemKey before = (reply, after))
    (filed : Filed row now before.db after.db) :
    recordAttempts key actorId attempts before (.post fault clock ids actor input idemKey) after =
      { requests := attempts.requests + 1
        reservations := attempts.reservations + 1
        bodies := attempts.bodies ++ (createdBody reply).toList
        unrecorded := attempts.unrecorded || fault.any Fault.losesResponse
        recordedAt := attempts.recordedAt.or
          (if fault.any Fault.losesResponse then none else some clock.store) } := by
  obtain ⟨requests, reservations⟩ := filed.adds_one
  rw [recordAttempts_attempt isAttempt responds, requests, reservations]
  cases fault.any Fault.losesResponse with
  | true => simp
  | false => simp

theorem attempt_missed (nonempty : key ≠ "") (isAttempt : idemKey = some key ∧ actor.sub = some actorId)
    (missing : before.idempotencyKeys.find? (attemptScope key actorId) = none)
    {reply : Option (Except Failure CreatedRequest)}
    (responds : TimeOffController.createUnder fault clock ids actor input idemKey before = (reply, after)) :
    Missed fault clock ids actor input (attemptScope key actorId) before (reply, after) := by
  rw [← responds]
  exact createUnder_missed nonempty isAttempt.1 isAttempt.2 missing

/-- The response that was just stored is found. -/
theorem found_stored (db : Db) (table : Table (IdempotencyRow CreatedRequest)) (created : CreatedRequest)
    (now expiresAt : Int) : (⟨db, table.insertOrReplace
      ⟨attemptScope key actorId, 201, created, now, expiresAt⟩⟩ : Store).idempotencyKeys.find?
        (attemptScope key actorId) = some ⟨attemptScope key actorId, 201, created, now, expiresAt⟩ := by
  rw [Table.find?_insertOrReplace]
  exact if_pos rfl

/-- The first attempt to file either records its response or loses it. -/
theorem unused_attempt (nonempty : key ≠ "") (isAttempt : idemKey = some key ∧ actor.sub = some actorId)
    (missing : before.idempotencyKeys.find? (attemptScope key actorId) = none)
    {reply : Option (Except Failure CreatedRequest)}
    (responds : TimeOffController.createUnder fault clock ids actor input idemKey before = (reply, after)) :
    Standing key actorId after (recordAttempts key actorId ⟨0, 0, [], false, none⟩ before
      (.post fault clock ids actor input idemKey) after) := by
  have missed := attempt_missed nonempty isAttempt missing responds
  cases missed with
  | idle _ unanswered stays =>
    rw [recordAttempts_idle isAttempt responds, createdBody_unanswered unanswered]
    exact .unused missing
  | unrecorded _ created db unanswered loses reaches admissible filed =>
    rw [recordAttempts_filed isAttempt responds filed, createdBody_unanswered unanswered, loses]
    exact .lost missing
  | recorded _ created db answered keeps reaches admissible filed =>
    rw [recordAttempts_filed isAttempt responds filed, keeps]
    apply Standing.recorded _ clock.store _ (found_stored db before.idempotencyKeys created clock.store _) rfl
    intro body replied
    cases answered with
    | inl silent =>
      subst silent
      cases replied
    | inr answers =>
      subst answers
      exact List.mem_singleton.mp replied

/-- After a lost response the next attempt files again exactly if it can. -/
theorem lost_attempt (nonempty : key ≠ "") (isAttempt : idemKey = some key ∧ actor.sub = some actorId)
    (missing : before.idempotencyKeys.find? (attemptScope key actorId) = none)
    {reply : Option (Except Failure CreatedRequest)}
    (responds : TimeOffController.createUnder fault clock ids actor input idemKey before = (reply, after)) :
    ((reachesRequest fault → ¬ Admissible ids actor input before.db) ∧
      Standing key actorId after (recordAttempts key actorId ⟨1, 1, [], true, none⟩ before
        (.post fault clock ids actor input idemKey) after)) ∨
    ((reachesRequest fault ∧ Admissible ids actor input before.db) ∧
      (recordAttempts key actorId ⟨1, 1, [], true, none⟩ before
        (.post fault clock ids actor input idemKey) after).requests = 2) := by
  have missed := attempt_missed nonempty isAttempt missing responds
  cases missed with
  | idle _ unanswered stays =>
    rw [recordAttempts_idle isAttempt responds, createdBody_unanswered unanswered]
    exact .inl ⟨stays, .lost missing⟩
  | unrecorded _ created db unanswered loses reaches admissible filed =>
    rw [recordAttempts_filed isAttempt responds filed]
    exact .inr ⟨⟨reaches, admissible⟩, rfl⟩
  | recorded _ created db answered keeps reaches admissible filed =>
    rw [recordAttempts_filed isAttempt responds filed]
    exact .inr ⟨⟨reaches, admissible⟩, rfl⟩

/-- A recorded response is replayed, and nothing is filed. -/
theorem recorded_attempt (nonempty : key ≠ "") (isAttempt : idemKey = some key ∧ actor.sub = some actorId)
    {row : IdempotencyRow CreatedRequest} {recordedAt : Int} {bodies : List CreatedRequest}
    (found : before.idempotencyKeys.find? (attemptScope key actorId) = some row)
    (expires : row.expiresAt = recordedAt + IdempotencyService.ttlMs)
    (replayed : ∀ body ∈ bodies, body = row.response)
    (live : clock.lookup ≤ recordedAt + IdempotencyService.ttlMs)
    {reply : Option (Except Failure CreatedRequest)}
    (responds : TimeOffController.createUnder fault clock ids actor input idemKey before = (reply, after)) :
    Standing key actorId after (recordAttempts key actorId ⟨1, 1, bodies, false, some recordedAt⟩ before
      (.post fault clock ids actor input idemKey) after) := by
  have replays := responds
  rw [createUnder_live nonempty isAttempt.1 isAttempt.2 found (expires ▸ live)] at replays
  obtain ⟨replies, rfl⟩ := Prod.mk.inj replays
  rw [recordAttempts_idle isAttempt responds]
  apply Standing.recorded row recordedAt _ found expires
  intro body member
  cases List.mem_append.mp member with
  | inl earlier => exact replayed body earlier
  | inr last =>
    by_cases silent : fault.any Fault.silences
    · rw [if_pos silent] at replies
      subst replies
      cases last
    · rw [if_neg silent] at replies
      subst replies
      exact List.mem_singleton.mp last

/-- A POST that is no attempt is not remembered. -/
theorem Standing.other (standing : Standing key actorId before attempts)
    (other : ¬ (idemKey = some key ∧ actor.sub = some actorId)) :
    Standing key actorId (TimeOffController.createUnder fault clock ids actor input idemKey before).2
      (recordAttempts key actorId attempts before (.post fault clock ids actor input idemKey) after) := by
  simp only [recordAttempts, if_neg other]
  exact standing.congr (createUnder_other other)

end Step

variable {state next : Store × Attempts} {event : StoreEvent}

/-- A step keeps the entry standing exactly if it does not file again. -/
theorem Standing.step (nonempty : key ≠ "") (standing : Standing key actorId state.1 state.2)
    (stepped : attemptStep key actorId state event = some next) :
    (NotFiledAgain key actorId state event ∧ Standing key actorId next.1 next.2) ∨
      (¬ NotFiledAgain key actorId state event ∧ 1 < next.2.requests) := by
  obtain ⟨store, attempts⟩ := state
  obtain ⟨after, later⟩ := next
  obtain ⟨inWindow, moved⟩ := restrict_eq_some.mp stepped
  obtain ⟨responded, recorded⟩ := withHistory_eq_some.mp moved
  cases responded
  dsimp only at standing recorded ⊢
  subst recorded
  cases event with
  | call other => exact .inl ⟨trivial, standing.congr rfl⟩
  | post fault clock ids actor input idemKey =>
    by_cases isAttempt : idemKey = some key ∧ actor.sub = some actorId
    · have responds : TimeOffController.createUnder fault clock ids actor input idemKey store =
        (_, (StoreEvent.respond (.post fault clock ids actor input idemKey) store).2) := rfl
      cases standing with
      | unused missing =>
        exact .inl ⟨fun _ => nofun, unused_attempt nonempty isAttempt missing responds⟩
      | lost missing =>
        cases lost_attempt nonempty isAttempt missing responds with
        | inl keeps => exact .inl ⟨fun _ _ => keeps.1, keeps.2⟩
        | inr files =>
          refine .inr ⟨fun guard => guard isAttempt rfl files.1.1 files.1.2, ?_⟩
          rw [files.2]
          decide
      | recorded row recordedAt bodies found expires replayed =>
        have live := inWindow isAttempt recordedAt rfl
        exact .inl ⟨fun _ => nofun, recorded_attempt nonempty isAttempt found expires replayed live responds⟩
    · exact .inl ⟨fun itIs => absurd itIs isAttempt, standing.other isAttempt⟩

/-- Every event in the window can happen. -/
theorem attempt_steps (inWindow : InWindow key actorId state event) :
    ∃ next, attemptStep key actorId state event = some next := by
  exact ⟨((event.respond state.1).2, recordAttempts key actorId state.2 state.1 event
    (event.respond state.1).2), restrict_eq_some.mpr ⟨inWindow, withHistory_eq_some.mpr ⟨rfl, rfl⟩⟩⟩

/-- The attempts never count fewer requests. -/
theorem attempts_grow (stepped : attemptStep key actorId state event = some next) :
    state.2.requests ≤ next.2.requests := by
  obtain ⟨inWindow, moved⟩ := restrict_eq_some.mp stepped
  obtain ⟨_, recorded⟩ := withHistory_eq_some.mp moved
  rw [recorded]
  cases event with
  | call other => exact le_rfl
  | post fault clock ids actor input idemKey =>
    by_cases isAttempt : idemKey = some key ∧ actor.sub = some actorId
    · simp only [recordAttempts, if_pos isAttempt]
      exact Nat.le_add_right _ _
    · simp only [recordAttempts, if_neg isAttempt]
      exact le_rfl

/-- Outside of the window the response is recorded, and no request was lost. -/
theorem Standing.outside (standing : Standing key actorId state.1 state.2)
    (outside : ¬ InWindow key actorId state event) : NotFiledAgain key actorId state event := by
  obtain ⟨store, attempts⟩ := state
  cases event with
  | call other => trivial
  | post fault clock ids actor input idemKey =>
    cases standing with
    | unused missing => exact fun _ => nofun
    | lost missing => exact absurd (fun _ _ => nofun) outside
    | recorded row recordedAt bodies found expires replayed => exact fun _ => nofun

end Run

/-- At most one request is filed under a key, and one and the same body returned, exactly in the runs
where no attempt files after a response was lost. -/
theorem created_once_iff (key actorId : String) (nonempty : key ≠ "") (events : List StoreEvent) :
    Always (attemptStep key actorId) (fun state => CreatedOnce state.2) (Store.empty, Attempts.none) events ↔
      StepsMeet (attemptStep key actorId) (NotFiledAgain key actorId) (Store.empty, Attempts.none) events := by
  apply always_iff_stepsMeet
    (fun state => state.2.requests ≤ 1 → Standing key actorId state.1 state.2)
  case preserved =>
    intro state event next standing stepped atMostOne
    have before := standing (le_trans (attempts_grow stepped) atMostOne)
    cases before.step nonempty stepped with
    | inl keeps => exact keeps.2
    | inr files => omega
  case exact_step =>
    intro state event standing once
    have before := standing once.requests
    constructor
    · intro keeps
      by_cases inWindow : InWindow key actorId state event
      · obtain ⟨next, stepped⟩ := attempt_steps inWindow
        cases before.step nonempty stepped with
        | inl kept => exact kept.1
        | inr files =>
          have atMostOne := (keeps next stepped).requests
          omega
      · exact before.outside inWindow
    · intro guard next stepped
      cases before.step nonempty stepped with
      | inl kept => exact kept.2.createdOnce
      | inr files => exact absurd guard files.1
  case start => exact fun _ => .unused rfl
  case holds => exact (@Standing.unused key actorId Store.empty rfl).createdOnce

namespace Office

/-- The employee files ten days under the key "k", or tries to. -/
def post (id : String) (fault : Option Fault) : StoreEvent :=
  .post fault ⟨0, clock, 0⟩ ⟨id, "trace"⟩ employee ⟨"HQ", "vacation", "2026-05-01", "2026-05-10", none⟩
    (some "k")

/-- The process dies before the first response is sent, the client retries, and again. -/
def replays : List StoreEvent :=
  [.call (snapshot 20 0), post "r1" (some .diesBeforeReply), post "r2" none, post "r3" none]

/-- The process dies before the first response is stored, and the client retries. -/
def retryAfterCrash : List StoreEvent :=
  [.call (snapshot 20 0), post "r1" (some .diesBeforeStore), post "r2" none]

end Office

theorem created_once_office :
    (run (attemptStep "k" "employee-1") (Store.empty, Attempts.none) Office.replays).map
      (fun state => (state.2.requests, state.2.bodies.length)) = some (1, 2) ∧
    Always (attemptStep "k" "employee-1") (fun state => CreatedOnce state.2)
      (Store.empty, Attempts.none) Office.replays ∧
    StepsMeet (attemptStep "k" "employee-1") (NotFiledAgain "k" "employee-1")
      (Store.empty, Attempts.none) Office.replays := by
  have once : Always (attemptStep "k" "employee-1") (fun state => CreatedOnce state.2)
      (Store.empty, Attempts.none) Office.replays := by decide +kernel
  exact ⟨by decide +kernel, once,
    (created_once_iff "k" "employee-1" (by decide) Office.replays).mp once⟩

/-- The retry files a second request and reserves the days twice. -/
theorem retry_files_twice :
    (run (attemptStep "k" "employee-1") (Store.empty, Attempts.none) Office.retryAfterCrash).map
      (fun state => (state.2.requests, state.2.reservations, state.1.db.requests.rows.length)) =
        some (2, 2, 2) ∧
    ¬ Always (attemptStep "k" "employee-1") (fun state => CreatedOnce state.2)
      (Store.empty, Attempts.none) Office.retryAfterCrash := by
  exact ⟨by decide +kernel, by decide +kernel⟩

end TimeOff
